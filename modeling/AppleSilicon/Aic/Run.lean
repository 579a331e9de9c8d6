import AppleSilicon.Aic.Handler
import AppleSilicon.Lib.LogRun

/-!
# Runs of the interrupt controller and the handler

The hardware keeps the events that were raised in a queue.  A read of the event register takes the
first one and masks its line; it returns zero when there is none.  The handler reads the register
on every exception, before it looks at the kind of the exception.  So a FIQ takes an event, and
does with it nothing that it would not have done without.

* `irq_handled_iff`, `fiq_handled_iff`   when an exception deals with the event it takes;
* `run_handled_iff`                      when a run deals with every event it takes.
-/

namespace AppleSilicon

/-- what the event register returns for an event: a value that is not zero -/
structure AicEvent where
  value : UInt32
  nonzero : value ≠ 0
deriving DecidableEq

/-- the events that wait to be read, and the masks -/
structure AicState where
  queue : List AicEvent
  masks : AicV2.Masks

inductive AicStep where
  | raise (event : AicEvent)
  | irq (regs : FiqRegs)
  | fiq (regs : FiqRegs)

/-- an event that was taken from the queue, the masks after that read, and what the handler did -/
structure Taken (H : Type*) where
  event : AicEvent
  masks : AicV2.Masks
  actions : List (AicAction H)

/-- the read of the event register masks the line of the event -/
def AicEvent.maskLine (event : AicEvent) (m : AicV2.Masks) : AicV2.Masks :=
  setOnes m (eventDie event.value, eventIrq event.value / 32)
    (BitVec.twoPow 32 (eventIrq event.value % 32))

/-- `AppleAicAcknowledgeInterrupt` -/
def appleAicAcknowledgeInterrupt (s : AicState) : UInt32 × AicState :=
  match s.queue with
  | [] => (0, s)
  | e :: rest => (e.value, ⟨rest, e.maskLine s.masks⟩)

section
variable {H : Type*} (aic : AicV2) (dies : ℕ) (table : HandlerTable H aic)

/-- an exception enters the handler -/
def takeException (interruptType : ExceptionType) (regs : FiqRegs) (s : AicState) :
    Option (AicState × List (Taken H)) :=
  let read := appleAicAcknowledgeInterrupt s
  (appleAicV2InterruptHandler aic table interruptType read.1 regs).map fun acts =>
    (⟨read.2.queue, AicAction.masksAfter aic dies acts read.2.masks⟩,
      s.queue.head?.toList.map fun e => ⟨e, read.2.masks, acts⟩)

def aicStep (s : AicState) : AicStep → Option (AicState × List (Taken H))
  | .raise e => some (⟨s.queue ++ [e], s.masks⟩, [])
  | .irq regs => takeException aic dies table .irq regs s
  | .fiq regs => takeException aic dies table .fiq regs s

def aicRun (s : AicState) (steps : List AicStep) : Option (AicState × List (Taken H)) :=
  runLog (aicStep aic dies table) s steps

/-- the event was dealt with: it was passed once to the handler registered for its line, and to no
other, or, when there is none, one write unmasked its line and no other -/
def Handled (t : Taken H) : Prop :=
  match (table.entries[eventSource aic t.event.value]?).join with
  | some h => AicAction.calls t.actions = [(h, UInt64.ofNat (eventSource aic t.event.value))]
  | none => AicAction.calls t.actions = [] ∧ (AicAction.mmioWrites t.actions).length = 1 ∧
      UnmasksAt aic dies t.actions (eventDie t.event.value, eventIrq t.event.value) t.masks

end

/-- the events that a step brings -/
def AicStep.raised : AicStep → List AicEvent
  | .raise e => [e]
  | .irq _ => []
  | .fiq _ => []

/-- the queue after a step -/
def AicStep.queueAfter (queue : List AicEvent) : AicStep → List AicEvent
  | .raise e => queue ++ [e]
  | .irq _ => queue.tail
  | .fiq _ => queue.tail

/-- the timer whose handler a FIQ calls -/
def FiqRegs.timer? (regs : FiqRegs) : Option ℕ :=
  if timerFires regs.cntpCtl then some 17
  else if timerFires regs.cntvCtl then some 18
  else none

section
variable {H : Type*} {aic : AicV2} (table : HandlerTable H aic)

/-- an IRQ finds an event that can be dispatched, or none -/
def IrqOk : List AicEvent → Prop
  | [] => 0 < aic.info.numIrqs.toNat
  | e :: _ => Dispatchable table e.value

/-- a FIQ finds no event, unless it is the one whose number is that of the timer the FIQ is for -/
def FiqOk (regs : FiqRegs) : List AicEvent → Prop
  | [] => 0 < aic.info.numIrqs.toNat ∧ ∀ n ∈ regs.timer?, n < aic.info.numIrqs.toNat
  | e :: _ => regs.timer? = some e.value.toNat ∧ table.registered e.value.toNat

/-- the condition on a step, with the queue before it -/
def StepOk (queue : List AicEvent) : AicStep → Prop
  | .raise _ => True
  | .irq _ => IrqOk table queue
  | .fiq regs => FiqOk table regs queue

end

/-! ## reading the event register -/

theorem lines_maskLine (e : AicEvent) (m : AicV2.Masks) :
    AicV2.lines (e.maskLine m) (eventDie e.value, eventIrq e.value) = true := by
  have hone : IsOne (BitVec.twoPow 32 (eventIrq e.value % 32)) (eventIrq e.value % 32) := by
    intro c hc
    rw [BitVec.getLsbD_twoPow]
    have hlt : eventIrq e.value % 32 < 32 := Nat.mod_lt _ (by norm_num)
    simp [hlt, eq_comm]
  rw [AicV2.lines, AicV2.line, AicEvent.maskLine,
    line_setOnes_one _ _ _ _ _ _ hone (Nat.mod_lt _ (by norm_num)), if_pos ⟨rfl, rfl⟩]

section
variable {H : Type*} (aic : AicV2) (dies : ℕ) (table : HandlerTable H aic)

/-- with no event nothing has to be dealt with, with one it is the first of the queue -/
theorem takeException_handled_iff (interruptType : ExceptionType) (regs : FiqRegs) (s : AicState) :
    (∃ s' log, takeException aic dies table interruptType regs s = some (s', log) ∧
      ∀ t ∈ log, Handled aic dies table t) ↔
    match s.queue with
    | [] => ∃ acts, appleAicV2InterruptHandler aic table interruptType 0 regs = some acts
    | e :: _ => ∃ acts, appleAicV2InterruptHandler aic table interruptType e.value regs
        = some acts ∧ Handled aic dies table ⟨e, e.maskLine s.masks, acts⟩ := by
  rw [takeException, appleAicAcknowledgeInterrupt]
  cases s.queue with
  | nil =>
    cases appleAicV2InterruptHandler aic table interruptType 0 regs with
    | none => simp
    | some acts => simp
  | cons e rest =>
    show (∃ s' log, (appleAicV2InterruptHandler aic table interruptType e.value regs).map _
      = some (s', log) ∧ _) ↔ ∃ acts, appleAicV2InterruptHandler aic table interruptType e.value regs
        = some acts ∧ Handled aic dies table ⟨e, e.maskLine s.masks, acts⟩
    cases appleAicV2InterruptHandler aic table interruptType e.value regs with
    | none => simp
    | some acts => simp

theorem takeException_queue (interruptType : ExceptionType) (regs : FiqRegs) (s s' : AicState)
    (log : List (Taken H)) (h : takeException aic dies table interruptType regs s = some (s', log)) :
    s'.queue = s.queue.tail ∧ log.map Taken.event ++ s'.queue = s.queue := by
  rw [takeException, appleAicAcknowledgeInterrupt] at h
  obtain ⟨acts, _, h⟩ := Option.map_eq_some_iff.mp h
  cases h
  cases hq : s.queue with
  | nil => simp [hq]
  | cons e rest => simp

theorem registered_lt (n : ℕ) (h : table.registered n) : n < aic.info.numIrqs.toNat := by
  obtain ⟨_, h⟩ := h
  rw [← table.length_eq]
  exact (List.getElem?_eq_some_iff.mp h).1

theorem appleAicV2InterruptHandler_fiq (event : UInt32) (regs : FiqRegs)
    (hlt : event.toNat < aic.info.numIrqs.toNat) :
    appleAicV2InterruptHandler aic table .fiq event regs = fiqActions aic table regs := by
  rw [appleAicV2InterruptHandler, List.getElem?_eq_getElem (table.length_eq ▸ hlt)]
  rfl

/-! ## a FIQ -/

/-- the entry of the timer is read inside the table -/
theorem fiqActions_some_iff (regs : FiqRegs) :
    (∃ acts, fiqActions aic table regs = some acts) ↔
      ∀ n ∈ regs.timer?, n < aic.info.numIrqs.toNat := by
  have hhandler : ∀ source : UInt64, (∃ acts, timerHandler aic table source = some acts) ↔
      source.toNat < aic.info.numIrqs.toNat := by
    intro source
    rw [timerHandler, ← table.length_eq]
    simp [List.getElem?_eq_some_iff]
  have hmap : (∃ acts, fiqActions aic table regs = some acts) ↔
      ∃ acts, fiqTimers aic table regs = some acts := by
    rw [fiqActions]
    simp
  rw [hmap, fiqTimers, FiqRegs.timer?]
  by_cases hp : timerFires regs.cntpCtl = true
  · rw [if_pos hp, if_pos hp, hhandler]
    simp
  · rw [if_neg hp, if_neg hp]
    by_cases hv : timerFires regs.cntvCtl = true
    · rw [if_pos hv, if_pos hv, hhandler]
      simp
    · rw [if_neg hv, if_neg hv]
      simp

theorem fiqPmc_silent (regs : FiqRegs) :
    AicAction.calls (fiqPmc H regs) = [] ∧ AicAction.mmioWrites (fiqPmc H regs) = [] := by
  rw [fiqPmc]
  split
  · exact ⟨rfl, rfl⟩
  · split
    · exact ⟨rfl, rfl⟩
    · exact ⟨rfl, rfl⟩

theorem timerHandler_calls (source : UInt64) (acts : List (AicAction H))
    (h : timerHandler aic table source = some acts) :
    AicAction.mmioWrites acts = [] ∧ ∀ x, AicAction.calls acts = [x] ↔
      table.entries[source.toNat]? = some (some x.1) ∧ x.2 = source := by
  obtain ⟨entry, hentry, rfl⟩ := Option.map_eq_some_iff.mp h
  rw [hentry]
  cases entry with
  | none =>
    refine ⟨rfl, ?_⟩
    intro x
    show [] = [x] ↔ _
    simp
  | some f =>
    refine ⟨rfl, ?_⟩
    intro x
    obtain ⟨f', source'⟩ := x
    show [(f, source)] = [(f', source')] ↔ _
    simp [eq_comm]

theorem fiqTimers_calls (regs : FiqRegs) (acts : List (AicAction H))
    (h : fiqTimers aic table regs = some acts) :
    AicAction.mmioWrites acts = [] ∧ ∀ x, AicAction.calls acts = [x] ↔
      ∃ n, regs.timer? = some n ∧ table.entries[n]? = some (some x.1) ∧ x.2 = UInt64.ofNat n := by
  rw [fiqTimers] at h
  rw [FiqRegs.timer?]
  by_cases hp : timerFires regs.cntpCtl = true
  · rw [if_pos hp] at h ⊢
    obtain ⟨h1, h2⟩ := timerHandler_calls aic table 17 acts h
    exact ⟨h1, fun x => by simp [h2 x]⟩
  · rw [if_neg hp] at h ⊢
    by_cases hv : timerFires regs.cntvCtl = true
    · rw [if_pos hv] at h ⊢
      obtain ⟨h1, h2⟩ := timerHandler_calls aic table 18 acts h
      exact ⟨h1, fun x => by simp [h2 x]⟩
    · rw [if_neg hv] at h ⊢
      cases h
      refine ⟨rfl, ?_⟩
      intro x
      show [] = [x] ↔ _
      simp

/-- a FIQ writes no mask, and the only handler it calls is that of the timer -/
theorem fiqActions_calls (regs : FiqRegs) (acts : List (AicAction H))
    (h : fiqActions aic table regs = some acts) :
    AicAction.mmioWrites acts = [] ∧ ∀ x, AicAction.calls acts = [x] ↔
      ∃ n, regs.timer? = some n ∧ table.entries[n]? = some (some x.1) ∧ x.2 = UInt64.ofNat n := by
  obtain ⟨timers, ht, rfl⟩ := Option.map_eq_some_iff.mp h
  obtain ⟨hcalls, hwrites⟩ := fiqPmc_silent (H := H) regs
  rw [calls_append, calls_append, mmioWrites_append, mmioWrites_append, hcalls, hwrites,
    List.append_nil, List.append_nil]
  split
  · exact fiqTimers_calls aic table regs timers ht
  · exact fiqTimers_calls aic table regs timers ht

/-- **a FIQ** deals with the event it takes exactly when the number of the event is that of the
timer the FIQ is for, and there is a handler for it -/
theorem fiq_handled_iff (hnum : aic.info.numIrqs.toNat < 2^16) (regs : FiqRegs) (e : AicEvent)
    (m : AicV2.Masks) :
    (∃ acts, appleAicV2InterruptHandler aic table .fiq e.value regs = some acts ∧
      Handled aic dies table ⟨e, m, acts⟩) ↔
    regs.timer? = some e.value.toNat ∧ table.registered e.value.toNat := by
  constructor
  · intro h'
    obtain ⟨acts, hacts, hhandled⟩ := h'
    have hlt := appleAicV2InterruptHandler_lt aic table regs .fiq e.value acts hacts
    rw [appleAicV2InterruptHandler_fiq aic table e.value regs hlt] at hacts
    obtain ⟨hwrites, hcalls⟩ := fiqActions_calls aic table regs acts hacts
    obtain ⟨_, _, h3⟩ := small_event aic e.value hnum hlt
    rw [Handled, h3] at hhandled
    cases hentry : (table.entries[e.value.toNat]?).join with
    | none =>
      rw [hentry, hwrites] at hhandled
      cases hhandled.2.1
    | some f =>
      rw [hentry] at hhandled
      obtain ⟨n, htimer, hn, he⟩ := (hcalls _).mp hhandled
      have hlt' := registered_lt aic table n ⟨_, hn⟩
      have hne : e.value.toNat = n := by
        have h := congrArg UInt64.toNat he
        rw [UInt64.toNat_ofNat', UInt64.toNat_ofNat', Nat.mod_eq_of_lt (by omega),
          Nat.mod_eq_of_lt (by omega)] at h
        exact h
      rw [hne]
      exact ⟨htimer, _, hn⟩
  · intro h'
    obtain ⟨htimer, hreg⟩ := h'
    have hlt := registered_lt aic table e.value.toNat hreg
    obtain ⟨f, hf⟩ := hreg
    rw [appleAicV2InterruptHandler_fiq aic table e.value regs hlt]
    obtain ⟨acts, hacts⟩ := (fiqActions_some_iff aic table regs).mpr (by
      intro n hn
      rw [Option.mem_def, htimer] at hn
      cases hn
      exact hlt)
    refine ⟨acts, hacts, ?_⟩
    obtain ⟨_, _, h3⟩ := small_event aic e.value hnum hlt
    rw [Handled, h3, hf]
    exact ((fiqActions_calls aic table regs acts hacts).2 _).mpr ⟨_, htimer, hf, rfl⟩

/-! ## an IRQ -/

/-- **an IRQ** deals with the event it takes exactly when it can be dispatched -/
theorem irq_handled_iff (hv : aic.version = .version2) (hlaid : aic.Laid dies) (hdies : 0 < dies)
    (hnum : aic.info.numIrqs.toNat < 2^16) (hle : aic.info.numIrqs.toNat ≤ aic.maxIrqs)
    (regs : FiqRegs) (e : AicEvent) (m : AicV2.Masks) :
    (∃ acts, appleAicV2InterruptHandler aic table .irq e.value regs = some acts ∧
      Handled aic dies table ⟨e, e.maskLine m, acts⟩) ↔ Dispatchable table e.value := by
  have hpos : 0 < e.value.toNat := by
    have hne : e.value.toNat ≠ 0 := fun h => e.nonzero (UInt32.toNat_inj.mp h)
    omega
  by_cases hlt : e.value.toNat < aic.info.numIrqs.toNat
  · obtain ⟨h1, h2, h3⟩ := small_event aic e.value hnum hlt
    have hmasked := lines_maskLine e m
    rw [h1, h2] at hmasked
    simp only [Handled, h1, h2, h3]
    cases table_cases aic table e.value.toNat hlt with
    | inl hreg =>
      have hd : Dispatchable table e.value := ⟨hpos, hlt, .inl hreg⟩
      obtain ⟨f, hentry⟩ := hreg
      rw [hentry]
      exact ⟨fun _ => hd, fun _ => ⟨_, irq_registered aic table regs e.value f hentry, rfl⟩⟩
    | inr hentry =>
      rw [irq_unregistered aic table regs e.value hentry, hentry]
      constructor
      · intro h
        obtain ⟨acts, hacts, _, _, h⟩ := h
        cases hacts
        exact ⟨hpos, hlt, .inr (endOfInterrupt_event_masked aic dies e.value (hlt.trans_le hle) _
          hmasked h)⟩
      · intro h
        obtain ⟨ht, hbit⟩ := h.2.2.resolve_left (not_registered aic table _ hentry)
        refine ⟨_, rfl, endOfInterrupt_calls aic _, ?_, endOfInterrupt_event aic dies hv hlaid
          hdies e.value (hlt.trans_le hle) ht hbit _⟩
        rw [appleAicV2EndOfInterrupt, if_neg (by rw [ht]; decide), appleAicUnmaskInterrupt,
          aicLineWrite, if_neg (by rw [ht]; decide)]
        rfl
  · constructor
    · intro h
      obtain ⟨acts, hacts, _⟩ := h
      exact absurd (appleAicV2InterruptHandler_lt aic table regs .irq e.value acts hacts) hlt
    · intro h
      exact absurd h.2.1 hlt

/-! ## runs -/

theorem aicStep_queue (s s' : AicState) (x : AicStep) (log : List (Taken H))
    (h : aicStep aic dies table s x = some (s', log)) :
    s'.queue = x.queueAfter s.queue ∧ log.map Taken.event ++ s'.queue = s.queue ++ x.raised := by
  cases x with
  | raise e =>
    cases h
    exact ⟨rfl, rfl⟩
  | irq regs =>
    rw [AicStep.raised, List.append_nil]
    exact takeException_queue aic dies table .irq regs s s' log h
  | fiq regs =>
    rw [AicStep.raised, List.append_nil]
    exact takeException_queue aic dies table .fiq regs s s' log h

/-- **one step** deals with the event it takes exactly when the condition holds before it -/
theorem aicStep_handled_iff (hv : aic.version = .version2) (hlaid : aic.Laid dies)
    (hdies : 0 < dies) (hnum : aic.info.numIrqs.toNat < 2^16)
    (hle : aic.info.numIrqs.toNat ≤ aic.maxIrqs) (s : AicState) (x : AicStep) :
    (∃ s' log, aicStep aic dies table s x = some (s', log) ∧
      ∀ t ∈ log, Handled aic dies table t) ↔ StepOk table s.queue x := by
  cases x with
  | raise e => simp [aicStep, StepOk]
  | irq regs =>
    rw [aicStep, takeException_handled_iff, StepOk]
    cases s.queue with
    | nil =>
      rw [appleAicV2InterruptHandler_irq, IrqOk]
      simp [List.getElem?_eq_some_iff, table.length_eq]
    | cons e rest => exact irq_handled_iff aic dies table hv hlaid hdies hnum hle regs e s.masks
  | fiq regs =>
    rw [aicStep, takeException_handled_iff, StepOk]
    cases s.queue with
    | nil =>
      show (∃ acts, appleAicV2InterruptHandler aic table .fiq 0 regs = some acts) ↔ _
      rw [FiqOk, ← fiqActions_some_iff aic table regs]
      constructor
      · intro h'
        obtain ⟨acts, h⟩ := h'
        have hlt := appleAicV2InterruptHandler_lt aic table regs .fiq 0 acts h
        rw [appleAicV2InterruptHandler_fiq aic table 0 regs hlt] at h
        exact ⟨hlt, acts, h⟩
      · intro h'
        obtain ⟨hlt, h⟩ := h'
        rw [appleAicV2InterruptHandler_fiq aic table 0 regs hlt]
        exact h
    | cons e rest => exact fiq_handled_iff aic dies table hnum regs e _

end

/-- **no event is lost**: a run deals with every event it takes exactly when the condition holds
before each step; and in every run the events taken, in their order, and then those in the queue
are those that were in the queue and then those that were raised -/
theorem run_handled_iff {H : Type*} (mmioRead32 : UInt64 → UInt32) (aicV2Base : UInt64)
    (aicIackOffset maxCpuDies numCpuDies : UInt32) (aic : AicV2)
    (haic : aic = calculateRegisterOffsets .version2 mmioRead32 aicV2Base aicIackOffset maxCpuDies
      numCpuDies)
    (dies : ℕ) (hlaid : aic.Laid dies) (hdies : 0 < dies)
    (hle : aic.info.numIrqs ≤ aic.info.maxIrqs) (table : HandlerTable H aic) (s : AicState)
    (steps : List AicStep) :
    ((∃ s' log, aicRun aic dies table s steps = some (s', log) ∧
        ∀ t ∈ log, Handled aic dies table t) ↔
      RunOk AicStep.queueAfter (StepOk table) s.queue steps) ∧
    ∀ s' log, aicRun aic dies table s steps = some (s', log) →
      log.map Taken.event ++ s'.queue = s.queue ++ steps.flatMap AicStep.raised := by
  subst haic
  constructor
  · apply runLog_all_iff (aicStep _ dies table) (Handled _ dies table) AicState.queue
      AicStep.queueAfter (StepOk table)
    · intro s x s' log h
      exact (aicStep_queue _ dies table s s' x log h).1
    · intro s x
      exact aicStep_handled_iff _ dies table rfl hlaid hdies (numAndMaxIrqs_lt _)
        (UInt32.le_iff_toNat_le.mp hle) s x
  · intro s' log h
    exact runLog_conserves (aicStep _ dies table) Taken.event AicState.queue AicStep.raised
      (fun s x s' log h => (aicStep_queue _ dies table s s' x log h).2) s s' steps log h

/-! ## an example -/

/-- the physical timer fires -/
def timerRegs : FiqRegs := { quietRegs with cntpCtl := 5 }

def event100 : AicEvent := ⟨100, by decide⟩
def event3 : AicEvent := ⟨3, by decide⟩

/-- two events, one with a handler and one without, and a FIQ between that finds none -/
theorem exampleTable_run : ∃ s' log,
    aicRun exampleAic 1 exampleTable ⟨[], fun _ => 0⟩
      [.raise event100, .irq quietRegs, .fiq timerRegs, .raise event3, .irq quietRegs]
      = some (s', log) ∧
      ∀ t ∈ log, Handled exampleAic 1 exampleTable t :=
  (run_handled_iff (exampleInfo 0x28e100000) 0x28e100000 0xc000 0 0 exampleAic rfl 1 exampleAic_laid
    (by decide) (by decide +kernel) exampleTable ⟨[], fun _ => 0⟩ _).1.mpr
    ⟨trivial, ⟨by decide, by decide +kernel, .inl ⟨7, by decide +kernel⟩⟩,
      ⟨by decide +kernel, by decide +kernel⟩, trivial,
      ⟨by decide, by decide +kernel, .inr ⟨by decide, by decide⟩⟩, trivial⟩

/-- a fast IPI is pending -/
def ipiRegs : FiqRegs := { quietRegs with ipiStatus := 1 }

/-- the event of line 100, taken by the FIQ of a fast IPI -/
def event100Taken : Taken ℕ :=
  ⟨event100, event100.maskLine fun _ => 0, [.writeIpiStatus appleFastIpiStatusPending]⟩

/-- line 100 raises an event and a fast IPI arrives first: the event leaves the queue, and its
handler is not called -/
theorem fiq_loses_event :
    aicRun exampleAic 1 exampleTable ⟨[], fun _ => 0⟩ [.raise event100, .fiq ipiRegs]
      = some (⟨[], event100.maskLine fun _ => 0⟩, [event100Taken]) ∧
    exampleTable.registered 100 ∧ AicAction.calls event100Taken.actions = [] ∧
    ¬ Handled exampleAic 1 exampleTable event100Taken := by
  have hacts : appleAicV2InterruptHandler exampleAic exampleTable .fiq event100.value ipiRegs
      = some [.writeIpiStatus appleFastIpiStatusPending] := by decide +kernel
  have hentry : (exampleTable.entries[eventSource exampleAic event100.value]?).join = some 7 := by
    decide +kernel
  refine ⟨?_, ⟨7, by decide +kernel⟩, rfl, ?_⟩
  · simp only [aicRun, runLog, aicStep, takeException, appleAicAcknowledgeInterrupt,
      Option.bind_some, List.nil_append, hacts, Option.map_some]
    rfl
  · intro h
    have hcalls : AicAction.calls event100Taken.actions
        = [(7, UInt64.ofNat (eventSource exampleAic event100.value))] := by
      rw [Handled] at h
      have he : event100Taken.event = event100 := rfl
      rw [he, hentry] at h
      exact h
    cases hcalls

end AppleSilicon
