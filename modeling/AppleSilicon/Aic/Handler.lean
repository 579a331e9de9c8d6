import AppleSilicon.Aic.Mask

/-!
# `AppleAicV2InterruptHandler`

The handler reads the event register and takes the whole value for an index into the table of
registered handlers, for the number it passes on and for the line it unmasks.  The value has three
fields: the die in bits 31:24, the type in bits 23:16 and the number of the line in bits 15:0.

`none` is a read outside the table.

* `appleAicV2InterruptHandler_irq`   what the handler does on an IRQ exception;
* `endOfInterrupt_unmasks`           the end of an interrupt unmasks the line of its source, if the
  code can drive it;
* `dispatch_iff`                     which values of the event register it dispatches right.
-/

namespace AppleSilicon

/-- `EFI_EXCEPTION_TYPE` -/
inductive ExceptionType where
  | synchronous
  | irq
  | fiq
  | serror
deriving DecidableEq, Repr

/-- what the handler does, in order -/
inductive AicAction (H : Type*) where
  | call (handler : H) (source : UInt64)
  | mmioWrite (w : MmioWrite)
  | armGenericTimerDisableTimer
  | writeIpiStatus (value : UInt64)
  | writePmcControl (value : UInt64)
  | writeUncorePmcControl (value : UInt64)
  | assertFalse
deriving DecidableEq, Repr

/-- the registers that the FIQ path reads -/
structure FiqRegs where
  ipiStatus : UInt64
  cntpCtl : UInt64
  cntvCtl : UInt64
  pmcControl : UInt64
  uncorePmcControl : UInt64
  uncorePmcStatus : UInt64
deriving DecidableEq, Repr

/-- `AicRegisteredInterruptHandlers`: it is allocated with `NumIrqs` entries -/
structure HandlerTable (H : Type*) (aic : AicV2) where
  entries : List (Option H)
  length_eq : entries.length = aic.info.numIrqs.toNat

def appleFastIpiStatusPending : UInt64 := bit64 0

/-- `ARM_ARCH_TIMER_ENABLE`, `ARM_ARCH_TIMER_IMASK` and `ARM_ARCH_TIMER_ISTATUS` -/
def armArchTimerEnable : UInt64 := 1
def armArchTimerImask : UInt64 := 2
def armArchTimerIstatus : UInt64 := 4

def appleUpmcr0Imode : UInt64 := genmask 18 16
def appleUpmcrOffImode : UInt64 := 0
def appleUpmcrFiqImode : UInt64 := 4
def appleUpmsrIact : UInt64 := bit64 0

/-- the timer is enabled, not masked and asserts its interrupt -/
def timerFires (ctl : UInt64) : Bool :=
  ctl &&& (armArchTimerEnable ||| armArchTimerImask ||| armArchTimerIstatus)
    = armArchTimerEnable ||| armArchTimerIstatus

section
variable {H : Type*} (aic : AicV2) (table : HandlerTable H aic)

/-- `AppleAicV2EndOfInterrupt` -/
def appleAicV2EndOfInterrupt (H : Type*) (aic : AicV2) (source : UInt64) : List (AicAction H) :=
  if isTimerSource source then [.armGenericTimerDisableTimer]
  else (appleAicUnmaskInterrupt aic.version aic.info aic.base source
    aic.offsets.irqMaskClear).map .mmioWrite

/-- the handler of a timer -/
def timerHandler (source : UInt64) : Option (List (AicAction H)) :=
  (table.entries[source.toNat]?).map fun h => match h with
    | some h => [.call h source]
    | none => [.assertFalse]

/-- the timers of the FIQ path -/
def fiqTimers (regs : FiqRegs) : Option (List (AicAction H)) :=
  if timerFires regs.cntpCtl then timerHandler aic table 17
  else if timerFires regs.cntvCtl then timerHandler aic table 18
  else some []

/-- the performance counters of the FIQ path -/
def fiqPmc (H : Type*) (regs : FiqRegs) : List (AicAction H) :=
  if regs.pmcControl &&& bit64 11 ≠ 0 then
    [.writePmcControl (regs.pmcControl &&& ~~~(bit64 18 ||| bit64 17 ||| bit64 16) |||
      (bit64 18 ||| bit64 17 ||| bit64 16 ||| bit64 0))]
  else if fieldGet appleUpmcr0Imode regs.uncorePmcControl = appleUpmcrFiqImode ∧
      regs.uncorePmcStatus &&& appleUpmsrIact ≠ 0 then
    [.writeUncorePmcControl (regs.uncorePmcControl &&& ~~~appleUpmcr0Imode |||
      appleUpmcrOffImode)]
  else []

def fiqActions (regs : FiqRegs) : Option (List (AicAction H)) :=
  (fiqTimers aic table regs).map fun timers =>
    (if regs.ipiStatus &&& appleFastIpiStatusPending ≠ 0 then
      [.writeIpiStatus appleFastIpiStatusPending] else []) ++ timers ++ fiqPmc H regs

/-- `AppleAicV2InterruptHandler`; `aicInterrupt` is what the event register returned -/
def appleAicV2InterruptHandler (interruptType : ExceptionType) (aicInterrupt : UInt32)
    (regs : FiqRegs) : Option (List (AicAction H)) :=
  (table.entries[aicInterrupt.toNat]?).bind fun hwInterruptHandler =>
    match interruptType with
    | .fiq => fiqActions aic table regs
    | .irq => some (match hwInterruptHandler with
      | some handler => [.call handler aicInterrupt.toUInt64]
      | none => appleAicV2EndOfInterrupt H aic aicInterrupt.toUInt64)
    | _ => some []

end

/-! ## events -/

/-- the die of an event -/
def eventDie (event : UInt32) : ℕ := event.toNat / 2^24

/-- the number of the line of an event, on its die -/
def eventIrq (event : UInt32) : ℕ := event.toNat % 2^16

/-- the source number of that line -/
def eventSource (aic : AicV2) (event : UInt32) : ℕ := eventDie event * aic.maxIrqs + eventIrq event

namespace AicAction
variable {H : Type*}

def call? : AicAction H → Option (H × UInt64)
  | .call h s => some (h, s)
  | _ => none

def mmio? : AicAction H → Option MmioWrite
  | .mmioWrite w => some w
  | _ => none

/-- the handlers that were called -/
def calls (acts : List (AicAction H)) : List (H × UInt64) := acts.filterMap call?

def mmioWrites (acts : List (AicAction H)) : List MmioWrite := acts.filterMap mmio?

/-- the hardware masks after the actions -/
def masksAfter (aic : AicV2) (dies : ℕ) (acts : List (AicAction H)) (m : AicV2.Masks) :
    AicV2.Masks :=
  (mmioWrites acts).foldl (aic.write dies) m

end AicAction

theorem calls_append {H : Type*} (as bs : List (AicAction H)) :
    AicAction.calls (as ++ bs) = AicAction.calls as ++ AicAction.calls bs :=
  List.filterMap_append

theorem mmioWrites_append {H : Type*} (as bs : List (AicAction H)) :
    AicAction.mmioWrites (as ++ bs) = AicAction.mmioWrites as ++ AicAction.mmioWrites bs :=
  List.filterMap_append

/-- the actions unmask the line and change no other line, when the masks are `m` -/
def UnmasksAt {H : Type*} (aic : AicV2) (dies : ℕ) (acts : List (AicAction H)) (x : ℕ × ℕ)
    (m : AicV2.Masks) : Prop :=
  ∀ y : ℕ × ℕ, AicV2.lines (AicAction.masksAfter aic dies acts m) y
    = if x = y then false else AicV2.lines m y

/-- the actions unmask the line and change no other line, whatever the masks are -/
def Unmasks {H : Type*} (aic : AicV2) (dies : ℕ) (acts : List (AicAction H)) (x : ℕ × ℕ) : Prop :=
  ∀ m : AicV2.Masks, UnmasksAt aic dies acts x m

/-- the event is dispatched right: the table is read inside, the handler of the line is called
with its source number, a line without a handler is unmasked, and for an event that names no line
of the table no handler is called -/
def DispatchedRight {H : Type*} (aic : AicV2) (dies : ℕ) (table : HandlerTable H aic)
    (event : UInt32) (result : Option (List (AicAction H))) : Prop :=
  ∃ acts, result = some acts ∧
    if event = 0 then AicAction.calls acts = []
    else match table.entries[eventSource aic event]? with
      | none => AicAction.calls acts = []
      | some (some h) => acts = [.call h (UInt64.ofNat (eventSource aic event))]
      | some none => AicAction.calls acts = [] ∧
          Unmasks aic dies acts (eventDie event, eventIrq event)

/-- there is an entry for the line and it has a handler -/
def HandlerTable.registered {H : Type*} {aic : AicV2} (table : HandlerTable H aic) (n : ℕ) : Prop :=
  ∃ h, table.entries[n]? = some (some h)

/-- the value, taken whole, is the source number of a line of the table that the code can handle:
it has a handler, or it is no timer and has a mask bit -/
def Dispatchable {H : Type*} {aic : AicV2} (table : HandlerTable H aic) (event : UInt32) : Prop :=
  0 < event.toNat ∧ event.toNat < aic.info.numIrqs.toNat ∧
    (table.registered event.toNat ∨
      (isTimerSource event.toUInt64 = false ∧ event.toNat % 64 < 5))

theorem lines_allOnes (x : ℕ × ℕ) : AicV2.lines (fun _ => BitVec.allOnes 32) x = true := by
  have hlt : x.2 % 32 < 32 := Nat.mod_lt _ (by norm_num)
  rw [AicV2.lines, AicV2.line, lineAt, BitVec.getLsbD_allOnes, decide_eq_true hlt]

/-! ## the end of an interrupt -/

section
variable {H : Type*} (aic : AicV2) (dies : ℕ)

theorem endOfInterrupt_calls (source : UInt64) :
    AicAction.calls (appleAicV2EndOfInterrupt H aic source) = [] := by
  rw [appleAicV2EndOfInterrupt]
  by_cases h : isTimerSource source = true
  · rw [if_pos h]
    rfl
  · rw [if_neg h, AicAction.calls, List.filterMap_map]
    exact List.filterMap_eq_nil_iff.mpr (fun _ _ => rfl)

/-- the writes at the end of an interrupt are those of a call that unmasks the source -/
theorem endOfInterrupt_writes (source : UInt64) :
    AicAction.mmioWrites (appleAicV2EndOfInterrupt H aic source)
      = (⟨source, false⟩ : AicCall).writes aic := by
  rw [appleAicV2EndOfInterrupt, AicCall.writes]
  simp only [Bool.false_eq_true, if_false]
  by_cases h : isTimerSource source = true
  · rw [if_pos h, appleAicUnmaskInterrupt, aicLineWrite, if_pos h]
    rfl
  · rw [if_neg h, AicAction.mmioWrites, List.filterMap_map]
    exact List.filterMap_some

theorem endOfInterrupt_masks (source : UInt64) (m : AicV2.Masks) :
    AicAction.masksAfter aic dies (appleAicV2EndOfInterrupt H aic source) m
      = aic.call dies m ⟨source, false⟩ := by
  rw [AicAction.masksAfter, endOfInterrupt_writes, AicV2.call]

theorem endOfInterrupt_unmasks (hv : aic.version = .version2) (hmax : 0 < aic.maxIrqs)
    (hlaid : aic.Laid dies) (source : UInt64) (hs : source.toNat < aic.maxIrqs * dies)
    (ht : isTimerSource source = false) (hd : aic.Drives source) :
    Unmasks aic dies (appleAicV2EndOfInterrupt H aic source)
      (aic.die source, aic.irq source) := by
  intro m y
  rw [endOfInterrupt_masks, call_line aic dies hv hmax hlaid m ⟨source, false⟩ hs
    (fun _ => hd) y, AicCall.line?]
  simp only [ht, Bool.false_eq_true, if_false, Option.bind_some]
  by_cases hx : (aic.die source, aic.irq source) = y
  · rw [if_pos hx, if_pos hx]
    rfl
  · rw [if_neg hx, if_neg hx]
    rfl

/-- when the end of an interrupt unmasks a line that was masked, its source is no timer and has a
mask bit -/
theorem endOfInterrupt_unmasked (hmax : 0 < aic.maxIrqs) (source : UInt64) (m : AicV2.Masks)
    (x : ℕ × ℕ) (hm : AicV2.lines m x = true)
    (h : AicV2.lines (AicAction.masksAfter aic dies (appleAicV2EndOfInterrupt H aic source) m) x
      = false) :
    isTimerSource source = false ∧ aic.irq source % 64 < 5 := by
  rw [endOfInterrupt_masks] at h
  have hwrites : aic.call dies m ⟨source, false⟩ ≠ m := by
    intro he
    rw [he, hm] at h
    cases h
  rw [AicV2.call, AicCall.writes] at hwrites
  simp only [Bool.false_eq_true, if_false, appleAicUnmaskInterrupt, aicLineWrite] at hwrites
  cases ht : isTimerSource source with
  | true =>
    rw [ht] at hwrites
    exact (hwrites rfl).elim
  | false =>
    refine ⟨rfl, ?_⟩
    by_contra hbit
    rw [ht] at hwrites
    apply hwrites
    simp only [Bool.false_eq_true, if_false, List.foldl_cons, List.foldl_nil]
    apply aicWrite_zero
    exact maskBit_zero _ (by rw [irqNum_toNat aic source hmax]; exact hbit)

end

/-! ## the IRQ exception -/

section
variable {H : Type*} (aic : AicV2) (dies : ℕ) (table : HandlerTable H aic) (regs : FiqRegs)

theorem toUInt64_eq (event : UInt32) : event.toUInt64 = UInt64.ofNat event.toNat := by
  have hlt := event.toNat_lt
  apply UInt64.toNat_inj.mp
  rw [UInt32.toNat_toUInt64, UInt64.toNat_ofNat', Nat.mod_eq_of_lt (by omega)]

theorem appleAicV2InterruptHandler_irq (event : UInt32) :
    appleAicV2InterruptHandler aic table .irq event regs
      = (table.entries[event.toNat]?).map fun entry => match entry with
        | some h => [.call h event.toUInt64]
        | none => appleAicV2EndOfInterrupt H aic event.toUInt64 := by
  rw [appleAicV2InterruptHandler]
  cases table.entries[event.toNat]? with
  | none => rfl
  | some entry => rfl

theorem appleAicV2InterruptHandler_lt (interruptType : ExceptionType) (event : UInt32)
    (acts : List (AicAction H))
    (h : appleAicV2InterruptHandler aic table interruptType event regs = some acts) :
    event.toNat < aic.info.numIrqs.toNat := by
  obtain ⟨_, h, _⟩ := Option.bind_eq_some_iff.mp h
  rw [← table.length_eq]
  exact (List.getElem?_eq_some_iff.mp h).1

theorem table_cases (n : ℕ) (hlt : n < aic.info.numIrqs.toNat) :
    table.registered n ∨ table.entries[n]? = some none := by
  obtain ⟨entry, hentry⟩ : ∃ entry, table.entries[n]? = some entry :=
    ⟨_, List.getElem?_eq_getElem (table.length_eq ▸ hlt)⟩
  cases entry with
  | some h => exact .inl ⟨h, hentry⟩
  | none => exact .inr hentry

theorem not_registered (n : ℕ) (h : table.entries[n]? = some none) : ¬ table.registered n := by
  intro hreg
  obtain ⟨_, hreg⟩ := hreg
  rw [h] at hreg
  cases hreg

theorem irq_registered (event : UInt32) (h : H)
    (hentry : table.entries[event.toNat]? = some (some h)) :
    appleAicV2InterruptHandler aic table .irq event regs
      = some [.call h (UInt64.ofNat event.toNat)] := by
  rw [appleAicV2InterruptHandler_irq, hentry, ← toUInt64_eq]
  rfl

theorem irq_unregistered (event : UInt32) (hentry : table.entries[event.toNat]? = some none) :
    appleAicV2InterruptHandler aic table .irq event regs
      = some (appleAicV2EndOfInterrupt H aic event.toUInt64) := by
  rw [appleAicV2InterruptHandler_irq, hentry]
  rfl

/-- a value below `NumIrqs` is the number of a line of the first die -/
theorem small_event (event : UInt32) (hnum : aic.info.numIrqs.toNat < 2^16)
    (hlt : event.toNat < aic.info.numIrqs.toNat) :
    eventDie event = 0 ∧ eventIrq event = event.toNat ∧ eventSource aic event = event.toNat := by
  have h1 : eventDie event = 0 := Nat.div_eq_of_lt (by omega)
  have h2 : eventIrq event = event.toNat := Nat.mod_eq_of_lt (by omega)
  refine ⟨h1, h2, ?_⟩
  rw [eventSource, h1, h2, Nat.zero_mul, Nat.zero_add]

theorem small_source (event : UInt32) (hlt : event.toNat < aic.maxIrqs) :
    aic.die event.toUInt64 = 0 ∧ aic.irq event.toUInt64 = event.toNat := by
  rw [AicV2.die, AicV2.irq, UInt32.toNat_toUInt64]
  exact ⟨Nat.div_eq_of_lt hlt, Nat.mod_eq_of_lt hlt⟩

theorem small_source_lt (hdies : 0 < dies) (event : UInt32) (hlt : event.toNat < aic.maxIrqs) :
    event.toUInt64.toNat < aic.maxIrqs * dies := by
  rw [UInt32.toNat_toUInt64]
  exact hlt.trans_le (Nat.le_mul_of_pos_right _ hdies)

/-- the end of the interrupt of a line of the first die unmasks it, if it is none of the timers and
has a mask bit -/
theorem endOfInterrupt_event (hv : aic.version = .version2) (hlaid : aic.Laid dies)
    (hdies : 0 < dies) (event : UInt32) (hlt : event.toNat < aic.maxIrqs)
    (ht : isTimerSource event.toUInt64 = false) (hbit : event.toNat % 64 < 5) :
    Unmasks aic dies (appleAicV2EndOfInterrupt H aic event.toUInt64) (0, event.toNat) := by
  obtain ⟨h1, h2⟩ := small_source aic event hlt
  have hd : aic.Drives event.toUInt64 := by
    rw [AicV2.Drives, h1, h2, Nat.zero_mul]
    exact ⟨hbit, by decide⟩
  have h := endOfInterrupt_unmasks (H := H) aic dies hv (by omega) hlaid event.toUInt64
    (small_source_lt aic dies hdies event hlt) ht hd
  rw [h1, h2] at h
  exact h

/-- and only then, when the line is masked -/
theorem endOfInterrupt_event_masked (event : UInt32) (hlt : event.toNat < aic.maxIrqs)
    (m : AicV2.Masks) (hm : AicV2.lines m (0, event.toNat) = true)
    (h : UnmasksAt aic dies (appleAicV2EndOfInterrupt H aic event.toUInt64) (0, event.toNat) m) :
    isTimerSource event.toUInt64 = false ∧ event.toNat % 64 < 5 := by
  have hx := h (0, event.toNat)
  rw [if_pos rfl] at hx
  have hbit := endOfInterrupt_unmasked (H := H) aic dies (by omega) event.toUInt64 m _ hm hx
  rw [(small_source aic event hlt).2] at hbit
  exact hbit

/-- **one event** is dispatched right exactly when it is zero and line 0 has no handler, or can
be dispatched -/
theorem dispatchedRight_iff (hv : aic.version = .version2) (hlaid : aic.Laid dies)
    (hdies : 0 < dies) (hnum : aic.info.numIrqs.toNat < 2^16)
    (hle : aic.info.numIrqs.toNat ≤ aic.maxIrqs) (event : UInt32) :
    DispatchedRight aic dies table event (appleAicV2InterruptHandler aic table .irq event regs) ↔
      (event = 0 ∧ table.entries[0]? = some none) ∨ Dispatchable table event := by
  by_cases hlt : event.toNat < aic.info.numIrqs.toNat
  · obtain ⟨h1, h2, h3⟩ := small_event aic event hnum hlt
    by_cases h0 : event = 0
    · subst h0
      have hnot : ¬ Dispatchable table 0 := fun h => absurd h.1 (lt_irrefl 0)
      simp only [DispatchedRight, if_true]
      cases table_cases aic table 0 hlt with
      | inl hreg =>
        obtain ⟨h, hentry⟩ := hreg
        rw [irq_registered aic table regs 0 h hentry, hentry]
        simp [AicAction.calls, AicAction.call?, hnot]
      | inr hentry =>
        rw [irq_unregistered aic table regs 0 hentry, hentry]
        simpa using endOfInterrupt_calls aic _
    · have hpos : 0 < event.toNat := by
        have hne : event.toNat ≠ 0 := fun h => h0 (UInt32.toNat_inj.mp h)
        omega
      simp only [DispatchedRight, if_neg h0, h1, h2, h3]
      cases table_cases aic table event.toNat hlt with
      | inl hreg =>
        have hd : Dispatchable table event := ⟨hpos, hlt, .inl hreg⟩
        obtain ⟨h, hentry⟩ := hreg
        rw [irq_registered aic table regs event h hentry, hentry]
        exact ⟨fun _ => .inr hd, fun _ => ⟨_, rfl, rfl⟩⟩
      | inr hentry =>
        rw [irq_unregistered aic table regs event hentry, hentry]
        simp only [Option.some.injEq, exists_eq_left', endOfInterrupt_calls, true_and]
        constructor
        · intro h
          refine .inr ⟨hpos, hlt, .inr ?_⟩
          exact endOfInterrupt_event_masked aic dies event (hlt.trans_le hle) _
            (lines_allOnes _) (h fun _ => BitVec.allOnes 32)
        · intro h
          cases h with
          | inl h => exact absurd h.1 h0
          | inr h =>
            obtain ⟨ht, hbit⟩ := h.2.2.resolve_left (not_registered aic table _ hentry)
            exact endOfInterrupt_event aic dies hv hlaid hdies event (hlt.trans_le hle) ht hbit
  · constructor
    · intro h
      obtain ⟨acts, h, _⟩ := h
      exact absurd (appleAicV2InterruptHandler_lt aic table regs .irq event acts h) hlt
    · intro h
      cases h with
      | inl h =>
        have hlt0 := (List.getElem?_eq_some_iff.mp h.2).1
        rw [table.length_eq] at hlt0
        rw [h.1] at hlt
        exact absurd hlt0 hlt
      | inr h => exact absurd h.2.1 hlt

end

/-- **which events are dispatched right** on an IRQ exception: no event, when line 0 has no
handler; and a value that, taken whole, lies below `NumIrqs` and has a handler, or is none of the
timers and has a mask bit -/
theorem dispatch_iff {H : Type*} (mmioRead32 : UInt64 → UInt32) (aicV2Base : UInt64)
    (aicIackOffset maxCpuDies numCpuDies : UInt32) (aic : AicV2)
    (haic : aic = calculateRegisterOffsets .version2 mmioRead32 aicV2Base aicIackOffset maxCpuDies
      numCpuDies)
    (dies : ℕ) (hlaid : aic.Laid dies) (hdies : 0 < dies)
    (hle : aic.info.numIrqs ≤ aic.info.maxIrqs) (table : HandlerTable H aic) (regs : FiqRegs)
    (event : UInt32) :
    DispatchedRight aic dies table event
        (appleAicV2InterruptHandler aic table .irq event regs) ↔
      (event = 0 ∧ table.entries[0]? = some none) ∨ Dispatchable table event := by
  subst haic
  exact dispatchedRight_iff _ dies table regs rfl hlaid hdies (numAndMaxIrqs_lt _)
    (UInt32.le_iff_toNat_le.mp hle) event

/-- line 100 has a handler -/
def exampleTable : HandlerTable ℕ exampleAic where
  entries := (List.replicate 896 none).set 100 (some 7)
  length_eq := by
    rw [List.length_set, List.length_replicate]
    decide +kernel

def quietRegs : FiqRegs := ⟨0, 0, 0, 0, 0, 0⟩

theorem exampleTable_dispatch :
    DispatchedRight exampleAic 1 exampleTable 100
      (appleAicV2InterruptHandler exampleAic exampleTable .irq 100 quietRegs) :=
  (dispatch_iff (exampleInfo 0x28e100000) 0x28e100000 0xc000 0 0 exampleAic rfl 1 exampleAic_laid
    (by decide) (by decide +kernel) exampleTable quietRegs 100).mpr
    (.inr ⟨by decide, by decide +kernel, .inl ⟨7, by decide +kernel⟩⟩)

/-- the event of a hardware interrupt (type 1) on line 100 is read as an index outside the table -/
theorem hardwareEvent_outside :
    eventDie 0x10064 = 0 ∧ eventIrq 0x10064 = 100 ∧ exampleTable.registered 100 ∧
    appleAicV2InterruptHandler exampleAic exampleTable .irq 0x10064 quietRegs = none ∧
    ¬ DispatchedRight exampleAic 1 exampleTable 0x10064
      (appleAicV2InterruptHandler exampleAic exampleTable .irq 0x10064 quietRegs) := by
  have hnone : appleAicV2InterruptHandler exampleAic exampleTable .irq 0x10064 quietRegs = none := by
    decide +kernel
  refine ⟨by decide, by decide, ⟨7, by decide +kernel⟩, hnone, ?_⟩
  intro ⟨acts, h, _⟩
  rw [hnone] at h
  cases h

end AppleSilicon
