import AppleSilicon.Aic.Quiesce
import AppleSilicon.Aic.Run

/-!
# The interrupt protocol over a run

Drivers register and drop handlers, enable and disable sources and end interrupts, and exceptions
come in between, in any order.  `AppleAicV2DxeInit` masks the lines of the table that the code can
mask, and from then on such a line is unmasked only with a handler, as long as nobody unmasks one
without: `EnableInterruptSource` and `EndOfInterrupt` do not look at the table, and an exception
that finds no event ends the interrupt of source 0.

A step is `none` where the table is left: an event is taken whole for an index.

* `call_line_any`    a call for any source: those with no bit of their own change nothing;
* `dxeInit_owned`    the start;
* `useStep_iff`      one step keeps the table and the masks together exactly when it may;
* `aic_lifecycle`    a whole run.
-/

namespace AppleSilicon

structure AicMachine (H : Type*) (aic : AicV2) where
  table : HandlerTable H aic
  masks : AicV2.Masks

/-- what drivers and the hardware do; the event is what a read of the event register returns -/
inductive AicUse (H : Type*) where
  | register (c : RegisterCall H)
  | enable (source : UInt64)
  | disable (source : UInt64)
  | endOfInterrupt (source : UInt64)
  | irq (event : Option AicEvent) (regs : FiqRegs)
  | fiq (event : Option AicEvent) (regs : FiqRegs)

/-- a step of a run -/
structure Used (H : Type*) (aic : AicV2) where
  use : AicUse H
  before : AicMachine H aic
  after : AicMachine H aic
  actions : List (AicAction H)

/-- the value of the event register -/
def eventValue : Option AicEvent → UInt32
  | none => 0
  | some e => e.value

/-- the masks behind a read of the event register -/
def masksRead (event : Option AicEvent) (m : AicV2.Masks) : AicV2.Masks :=
  match event with
  | none => m
  | some e => e.maskLine m

/-- the code can mask the line of the source and unmask it again -/
def Driven (source : ℕ) : Prop :=
  isTimerSource (UInt64.ofNat source) = false ∧ source % 64 < 5

instance (source : ℕ) : Decidable (Driven source) := inferInstanceAs (Decidable (_ ∧ _))

section
variable {H : Type*} (aic : AicV2) (dies : ℕ)

/-- the new table and what was done to the hardware, with the masks before that -/
def useActions (s : AicMachine H aic) :
    AicUse H → Option (HandlerTable H aic × List (AicAction H) × AicV2.Masks)
  | .register c => (registerInterruptSource s.table c).map fun r => (r.after, r.actions, s.masks)
  | .enable source => some (s.table, (appleAicV2UnmaskInterrupt H aic source).2, s.masks)
  | .disable source => some (s.table, (appleAicV2MaskInterrupt H aic source).2, s.masks)
  | .endOfInterrupt source => some (s.table, appleAicV2EndOfInterrupt H aic source, s.masks)
  | .irq event regs =>
    (appleAicV2InterruptHandler aic s.table .irq (eventValue event) regs).map fun acts =>
      (s.table, acts, masksRead event s.masks)
  | .fiq event regs =>
    (appleAicV2InterruptHandler aic s.table .fiq (eventValue event) regs).map fun acts =>
      (s.table, acts, masksRead event s.masks)

def useStep (s : AicMachine H aic) (use : AicUse H) :
    Option (AicMachine H aic × List (Used H aic)) :=
  (useActions aic s use).map fun r =>
    let after : AicMachine H aic := ⟨r.1, AicAction.masksAfter aic dies r.2.1 r.2.2⟩
    (after, [⟨use, s, after, r.2.1⟩])

/-- of the lines of the table, one that the code can mask and that is not masked has a handler -/
def Owned (s : AicMachine H aic) : Prop :=
  ∀ n < aic.info.numIrqs.toNat, Driven n → AicV2.lines s.masks (0, n) = false →
    s.table.registered n

/-- the source may be unmasked: it has no such line, or it has a handler -/
def MayUnmask (s : AicMachine H aic) (source : UInt64) : Prop :=
  source.toNat < aic.info.numIrqs.toNat → Driven source.toNat → s.table.registered source.toNat

/-- what keeps inside the table and keeps it and the masks together -/
def UseOk (s : AicMachine H aic) : AicUse H → Prop
  | .register c => c.InTable aic
  | .enable source => MayUnmask aic s source
  | .disable _ => True
  | .endOfInterrupt source => MayUnmask aic s source
  | .irq none _ => s.table.registered 0
  | .irq (some e) _ => e.value.toNat < aic.info.numIrqs.toNat
  | .fiq event regs => (eventValue event).toNat < aic.info.numIrqs.toNat ∧
      ∀ n ∈ regs.timer?, n < aic.info.numIrqs.toNat

/-- the hardware shows the event of an unmasked line, and a driver ends the interrupt of a source of
the controller -/
def Promised (s : AicMachine H aic) : AicUse H → Prop
  | .endOfInterrupt source => source.toNat < aic.maxIrqs * dies
  | .irq (some e) _ => AicV2.lines s.masks (eventDie e.value, eventIrq e.value) = false
  | .fiq (some e) _ => AicV2.lines s.masks (eventDie e.value, eventIrq e.value) = false
  | _ => True

/-- an event that an IRQ showed, of a line that the code can mask, went to the handler of that -/
def Used.Dispatched {H : Type*} {aic : AicV2} (t : Used H aic) : Prop :=
  ∀ e regs, t.use = .irq (some e) regs → Driven e.value.toNat → ∃ h,
    t.before.table.entries[e.value.toNat]? = some (some h) ∧
      t.actions = [.call h (UInt64.ofNat e.value.toNat)]

theorem Used.dispatched_other {H : Type*} {aic : AicV2} {t : Used H aic}
    (h : ∀ e regs, t.use ≠ .irq (some e) regs) : t.Dispatched :=
  fun e regs he => absurd he (h e regs)

end

/-! ## the masks -/

theorem maskLine_unmasked (e : AicEvent) (m : AicV2.Masks) (x : ℕ × ℕ)
    (h : AicV2.lines (e.maskLine m) x = false) : AicV2.lines m x = false := by
  rw [AicV2.lines, AicV2.line, AicEvent.maskLine, line_setOnes] at h
  rw [AicV2.lines, AicV2.line]
  by_cases hx : (x.1, x.2 / 32) = (eventDie e.value, eventIrq e.value / 32)
  · rw [if_pos hx] at h
    exact (Bool.or_eq_false_iff.mp h).1
  · rw [if_neg hx] at h
    exact h

/-- a read of the event register masks at most one line more -/
theorem masksRead_unmasked (event : Option AicEvent) (m : AicV2.Masks) (x : ℕ × ℕ)
    (h : AicV2.lines (masksRead event m) x = false) : AicV2.lines m x = false := by
  cases event with
  | none => exact h
  | some e => exact maskLine_unmasked e m x h

section
variable {H : Type*} (aic : AicV2) (dies : ℕ) (hv : aic.version = .version2)
  (hmax : 0 < aic.maxIrqs) (hlaid : aic.Laid dies) (hstride : dies * aic.dieStride < 2^32)
include hv hmax hlaid hstride

/-- **a call for any source** writes its line, and nothing if the source is a timer or has no bit -/
theorem call_line_any (m : AicV2.Masks) (c : AicCall) (hs : c.source.toNat < aic.maxIrqs * dies)
    (x : ℕ × ℕ) :
    AicV2.lines (aic.call dies m c) x
      = if isTimerSource c.source = false ∧ aic.irq c.source % 64 < 5 ∧
          (aic.die c.source, aic.irq c.source) = x then c.masks else AicV2.lines m x := by
  have hdie : aic.die c.source < dies := by
    rw [AicV2.die]
    exact Nat.div_lt_of_lt_mul hs
  have hfit : aic.die c.source * aic.dieStride < 2^32 :=
    (Nat.mul_le_mul_right _ hdie.le).trans_lt hstride
  by_cases hbit : aic.irq c.source % 64 < 5
  · rw [call_line aic dies hv hmax hlaid m c hs (fun _ => ⟨hbit, hfit⟩) x, AicCall.line?]
    cases ht : isTimerSource c.source with
    | true => simp
    | false =>
      by_cases hx : (aic.die c.source, aic.irq c.source) = x
      · simp [hx, hbit]
      · simp [hx]
  · have hsame : aic.call dies m c = m := by
      rw [AicV2.call, AicCall.writes, appleAicMaskInterrupt, appleAicUnmaskInterrupt, aicLineWrite,
        aicLineWrite]
      have hzero := maskBit_zero (irqNum aic.info c.source)
        (by rw [irqNum_toNat aic c.source hmax]; exact hbit)
      cases isTimerSource c.source with
      | true => simp
      | false =>
        cases c.masks with
        | true =>
          simp only [Bool.false_eq_true, if_true, if_false, List.foldl_cons, List.foldl_nil]
          exact aicWrite_zero aic dies m _ hzero
        | false =>
          simp only [Bool.false_eq_true, if_false, List.foldl_cons, List.foldl_nil]
          exact aicWrite_zero aic dies m _ hzero
    rw [hsame, if_neg (fun h => hbit h.2.1)]

/-- for the lines of the first die -/
theorem call_line_first (m : AicV2.Masks) (c : AicCall)
    (hs : c.source.toNat < aic.maxIrqs * dies) (n : ℕ) (hn : n < aic.maxIrqs) :
    AicV2.lines (aic.call dies m c) (0, n)
      = if c.source.toNat = n ∧ Driven n then c.masks else AicV2.lines m (0, n) := by
  rw [call_line_any aic dies hv hmax hlaid hstride m c hs]
  apply if_congr _ rfl rfl
  constructor
  · rintro ⟨ht, hbit, hx⟩
    obtain ⟨hdie, hirq⟩ := Prod.mk.inj hx
    have hsource : c.source.toNat = n := by
      have h := Nat.div_add_mod' c.source.toNat aic.maxIrqs
      rw [show c.source.toNat / aic.maxIrqs = 0 from hdie, Nat.zero_mul, Nat.zero_add] at h
      exact h.symm.trans hirq
    refine ⟨hsource, ?_, hirq ▸ hbit⟩
    rw [← hsource, UInt64.ofNat_toNat]
    exact ht
  · rintro ⟨rfl, ht, hbit⟩
    rw [UInt64.ofNat_toNat] at ht
    have hirq : aic.irq c.source = c.source.toNat := Nat.mod_eq_of_lt hn
    refine ⟨ht, by rw [hirq]; exact hbit, ?_⟩
    rw [hirq, AicV2.die, Nat.div_eq_of_lt hn]

variable (hle : aic.info.numIrqs.toNat ≤ aic.maxIrqs)
include hle

/-- **unmasking** keeps the table and the masks together exactly when the source may be unmasked -/
theorem owned_unmask_iff (s : AicMachine H aic) (howned : Owned aic s) (source : UInt64)
    (hs : source.toNat < aic.maxIrqs * dies) :
    Owned aic ⟨s.table, aic.call dies s.masks ⟨source, false⟩⟩ ↔ MayUnmask aic s source := by
  have hline := call_line_first aic dies hv hmax hlaid hstride s.masks ⟨source, false⟩ hs
  constructor
  · intro h hlt hdriven
    exact h _ hlt hdriven (by rw [hline _ (hlt.trans_le hle), if_pos ⟨rfl, hdriven⟩])
  · intro hmay n hn hdriven hun
    rw [hline n (hn.trans_le hle)] at hun
    by_cases hx : source.toNat = n ∧ Driven n
    · obtain ⟨rfl, _⟩ := hx
      exact hmay hn hdriven
    · rw [if_neg hx] at hun
      exact howned n hn hdriven hun

/-- masking keeps them together -/
theorem owned_mask (s : AicMachine H aic) (howned : Owned aic s) (source : UInt64)
    (hs : source.toNat < aic.maxIrqs * dies) :
    Owned aic ⟨s.table, aic.call dies s.masks ⟨source, true⟩⟩ := by
  intro n hn hdriven hun
  rw [call_line_first aic dies hv hmax hlaid hstride s.masks ⟨source, true⟩ hs n
    (hn.trans_le hle)] at hun
  split at hun
  · cases hun
  · exact howned n hn hdriven hun

/-- storing a handler with the call for it keeps them together -/
theorem owned_register (s : AicMachine H aic) (howned : Owned aic s) (c : RegisterCall H)
    (hs : c.source.toNat < aic.maxIrqs * dies) (entry : Option H)
    (hentry : s.table.entries[c.source.toNat]? = some entry) :
    Owned aic ⟨s.table.set c.source.toNat c.handler,
      aic.call dies s.masks ⟨c.source, c.handler.isNone⟩⟩ := by
  have hset := set_getElem s.table c.source.toNat c.handler entry hentry
  intro n hn hdriven hun
  rw [call_line_first aic dies hv hmax hlaid hstride s.masks ⟨c.source, c.handler.isNone⟩ hs n
    (hn.trans_le hle)] at hun
  by_cases hx : c.source.toNat = n
  · rw [if_pos ⟨hx, hdriven⟩] at hun
    obtain ⟨h, hh⟩ := Option.isSome_iff_exists.mp (Option.isNone_eq_false_iff.mp hun)
    exact ⟨h, by rw [hset, if_pos hx.symm, hh]⟩
  · rw [if_neg (fun h => hx h.1)] at hun
    obtain ⟨h, hreg⟩ := howned n hn hdriven hun
    exact ⟨h, by rw [hset, if_neg (Ne.symm hx), hreg]⟩

omit hv hmax hlaid hstride in
/-- the loop of `AppleAicV2DxeInit` as calls, one for each line of the table -/
theorem maskAll_masks (m : AicV2.Masks) :
    AicAction.masksAfter aic dies (maskAll aic) m
      = (List.range aic.info.numIrqs.toNat).foldl
          (fun m n => aic.call dies m ⟨UInt64.ofNat n, true⟩) m := by
  have hwrites : AicAction.mmioWrites (maskAll aic) = (List.range aic.info.numIrqs.toNat).flatMap
      fun n => (⟨UInt64.ofNat n, true⟩ : AicCall).writes aic := by
    rw [AicAction.mmioWrites, maskAll, List.filterMap_flatMap]
    apply List.flatMap_congr
    intro n hn
    have hlt := (List.mem_range.mp hn).trans_le hle
    have hnot : ¬ UInt64.ofNat n ≥ aic.info.maxIrqs.toUInt64 := by
      rw [ge_maxIrqs_iff, UInt64.toNat_ofNat', not_le]
      exact (Nat.mod_le _ _).trans_lt hlt
    rw [appleAicV2MaskInterrupt, appleAicV2Call, if_neg hnot]
    exact mmioWrites_map _
  rw [AicAction.masksAfter, hwrites, List.foldl_flatMap]
  rfl

omit hle in
/-- a line that is masked, or that one of the calls is for, is masked behind them -/
theorem masked_behind (hdies : 0 < dies) (n : ℕ) (hn : n < aic.maxIrqs) (hdriven : Driven n)
    (ns : List ℕ) (hns : ∀ k ∈ ns, k < aic.maxIrqs) (m : AicV2.Masks)
    (h : n ∈ ns ∨ AicV2.lines m (0, n) = true) :
    AicV2.lines (ns.foldl (fun m k => aic.call dies m ⟨UInt64.ofNat k, true⟩) m) (0, n)
      = true := by
  induction ns generalizing m with
  | nil => exact h.resolve_left List.not_mem_nil
  | cons k ns ih =>
    rw [List.forall_mem_cons] at hns
    apply ih hns.2
    have hk : (UInt64.ofNat k).toNat = k := by
      have hlt := aic.info.maxIrqs.toNat_lt
      have hmaxIrqs : aic.maxIrqs = aic.info.maxIrqs.toNat := rfl
      rw [UInt64.toNat_ofNat', Nat.mod_eq_of_lt (by omega)]
    rw [call_line_first aic dies hv hmax hlaid hstride m ⟨UInt64.ofNat k, true⟩
      (by rw [hk]; exact hns.1.trans_le (Nat.le_mul_of_pos_right _ hdies)) n hn, hk]
    by_cases hkn : k = n
    · rw [if_pos ⟨hkn, hdriven⟩]
      exact Or.inr rfl
    · rw [if_neg (fun h => hkn h.1)]
      exact h.imp_left fun hmem => (List.mem_cons.mp hmem).resolve_left (Ne.symm hkn)

/-- **the start**: behind `AppleAicV2DxeInit` the lines that the code can mask are masked -/
theorem dxeInit_owned (hdies : 0 < dies) (table : HandlerTable H aic) (m : AicV2.Masks)
    (config : UInt32) :
    Owned aic ⟨table, AicAction.masksAfter aic dies (appleAicV2DxeInit aic config) m⟩ := by
  intro n hn hdriven hun
  have hmasked := masked_behind aic dies hv hmax hlaid hstride hdies n (hn.trans_le hle)
    hdriven (List.range aic.info.numIrqs.toNat)
    (fun k hk => (List.mem_range.mp hk).trans_le hle)
    (aic.write dies m ⟨aic.base + aicV2Config, config ||| aicV2CfgEnable⟩)
    (Or.inl (List.mem_range.mpr hn))
  rw [← maskAll_masks aic dies hle] at hmasked
  exact absurd (hmasked.symm.trans hun) (by decide)

omit hv hmax hlaid hstride hle in
/-- with no event left to read, the handler of source 0 is called, or its interrupt is ended -/
theorem irq_zero (s : AicMachine H aic) (regs : FiqRegs) (acts : List (AicAction H))
    (h : appleAicV2InterruptHandler aic s.table .irq 0 regs = some acts) :
    (s.table.registered 0 ∧ AicAction.mmioWrites acts = []) ∨
      (¬ s.table.registered 0 ∧ acts = appleAicV2EndOfInterrupt H aic 0) := by
  have hlt := appleAicV2InterruptHandler_lt aic s.table regs .irq 0 acts h
  rcases table_cases aic s.table (0 : UInt32).toNat hlt with hreg | hentry
  · obtain ⟨f, hf⟩ := hreg
    rw [irq_registered aic s.table regs 0 f hf] at h
    cases h
    exact Or.inl ⟨⟨f, hf⟩, rfl⟩
  · rw [irq_unregistered aic s.table regs 0 hentry] at h
    cases h
    exact Or.inr ⟨not_registered aic s.table 0 hentry, rfl⟩

omit hv hmax hlaid hstride hle in
/-- a FIQ writes no mask -/
theorem fiq_writes (table : HandlerTable H aic) (event : UInt32) (regs : FiqRegs)
    (acts : List (AicAction H))
    (h : appleAicV2InterruptHandler aic table .fiq event regs = some acts) :
    AicAction.mmioWrites acts = [] := by
  have hlt := appleAicV2InterruptHandler_lt aic table regs .fiq event acts h
  rw [appleAicV2InterruptHandler_fiq aic table event regs hlt] at h
  exact (fiqActions_calls aic table regs acts h).1

omit hv hmax hlaid hstride hle in
theorem masksRead_owned (s : AicMachine H aic) (howned : Owned aic s) (event : Option AicEvent) :
    Owned aic ⟨s.table, masksRead event s.masks⟩ :=
  fun n hn hdriven hun => howned n hn hdriven (masksRead_unmasked event s.masks _ hun)

/-- **a registration** unmasks a line only with its handler in the table -/
theorem registerInterruptSource_owned (hdies : 0 < dies) (s : AicMachine H aic)
    (howned : Owned aic s) (c : RegisterCall H) (r : Registered H aic)
    (hr : registerInterruptSource s.table c = some r) :
    Owned aic ⟨r.after, AicAction.masksAfter aic dies r.actions s.masks⟩ := by
  obtain ⟨hc, hb, hcases⟩ := registerInterruptSource_cases s.table c r hr
  rcases hcases with ⟨_, hafter, _, hwrites⟩ | ⟨_, hafter, _, hwrites, entry, hentry, _⟩
  · rw [hafter, AicAction.masksAfter, hwrites]
    exact howned
  · have hlt : c.source.toNat < aic.maxIrqs * dies := by
      have hlen := (List.getElem?_eq_some_iff.mp hentry).1
      rw [s.table.length_eq] at hlen
      exact (hlen.trans_le hle).trans_le (Nat.le_mul_of_pos_right _ hdies)
    rw [hafter, AicAction.masksAfter, hwrites]
    exact owned_register aic dies hv hmax hlaid hstride hle s howned c hlt entry hentry

/-- **an IRQ without an event** ends the interrupt of source 0 if that has no handler -/
theorem irqZero_owned_iff (hdies : 0 < dies) (s : AicMachine H aic) (howned : Owned aic s)
    (regs : FiqRegs) (acts : List (AicAction H))
    (h : appleAicV2InterruptHandler aic s.table .irq 0 regs = some acts) :
    Owned aic ⟨s.table, AicAction.masksAfter aic dies acts s.masks⟩ ↔ s.table.registered 0 := by
  have hlt : 0 < aic.info.numIrqs.toNat :=
    appleAicV2InterruptHandler_lt aic s.table regs .irq 0 acts h
  rcases irq_zero aic s regs acts h with ⟨hreg, hwrites⟩ | ⟨hreg, rfl⟩
  · rw [AicAction.masksAfter, hwrites]
    exact iff_of_true howned hreg
  · rw [endOfInterrupt_masks]
    apply (owned_unmask_iff aic dies hv hmax hlaid hstride hle s howned 0
      (Nat.mul_pos hmax hdies)).trans
    exact ⟨fun hmay => hmay hlt (by decide), fun hreg _ _ => hreg⟩

/-- **an IRQ with an event** whose word is in the table calls the handler, if there is one, and
otherwise ends the interrupt of a line that the code cannot mask -/
theorem irqEvent_dispatched (hnum : aic.info.numIrqs.toNat < 2^16) (hdies : 0 < dies)
    (s : AicMachine H aic) (howned : Owned aic s) (e : AicEvent) (regs : FiqRegs)
    (acts : List (AicAction H))
    (hun : AicV2.lines s.masks (eventDie e.value, eventIrq e.value) = false)
    (h : appleAicV2InterruptHandler aic s.table .irq e.value regs = some acts) :
    Owned aic ⟨s.table, AicAction.masksAfter aic dies acts (e.maskLine s.masks)⟩ ∧
      (Driven e.value.toNat → ∃ f, s.table.entries[e.value.toNat]? = some (some f) ∧
        acts = [.call f (UInt64.ofNat e.value.toNat)]) := by
  have hlt := appleAicV2InterruptHandler_lt aic s.table regs .irq e.value acts h
  obtain ⟨hdie, hirq, _⟩ := small_event aic e.value hnum hlt
  rw [hdie, hirq] at hun
  have hread := masksRead_owned aic s howned (some e)
  rcases table_cases aic s.table e.value.toNat hlt with hreg | hentry
  · obtain ⟨f, hf⟩ := hreg
    rw [irq_registered aic s.table regs e.value f hf] at h
    cases h
    exact ⟨hread, fun _ => ⟨f, hf, rfl⟩⟩
  · have hnot := not_registered aic s.table e.value.toNat hentry
    have hundriven : ¬ Driven e.value.toNat := fun hd => hnot (howned _ hlt hd hun)
    rw [irq_unregistered aic s.table regs e.value hentry] at h
    cases h
    rw [endOfInterrupt_masks]
    refine ⟨(owned_unmask_iff aic dies hv hmax hlaid hstride hle
      ⟨s.table, e.maskLine s.masks⟩ hread e.value.toUInt64
      (small_source_lt aic dies hdies e.value (hlt.trans_le hle))).mpr ?_,
      fun hd => absurd hd hundriven⟩
    intro _ hd
    rw [UInt32.toNat_toUInt64] at hd
    exact absurd hd hundriven

omit hv hmax hlaid hstride hle in
/-- a FIQ stays inside the table exactly when its event and its timer do -/
theorem fiq_inside_iff (table : HandlerTable H aic) (event : UInt32) (regs : FiqRegs) :
    (∃ acts, appleAicV2InterruptHandler aic table .fiq event regs = some acts) ↔
      event.toNat < aic.info.numIrqs.toNat ∧ ∀ n ∈ regs.timer?, n < aic.info.numIrqs.toNat := by
  constructor
  · rintro ⟨acts, h⟩
    have hlt := appleAicV2InterruptHandler_lt aic table regs .fiq event acts h
    rw [appleAicV2InterruptHandler_fiq aic table event regs hlt] at h
    exact ⟨hlt, (fiqActions_some_iff aic table regs).mp ⟨acts, h⟩⟩
  · rintro ⟨hlt, htimer⟩
    rw [appleAicV2InterruptHandler_fiq aic table event regs hlt]
    exact (fiqActions_some_iff aic table regs).mpr htimer

/-- **what one step does**: it keeps the table and the masks together exactly when it may, and an
event that it shows goes to the handler of its line -/
theorem useStep_some (hnum : aic.info.numIrqs.toNat < 2^16) (hdies : 0 < dies)
    (s s' : AicMachine H aic) (use : AicUse H) (log : List (Used H aic)) (howned : Owned aic s)
    (hpromised : Promised aic dies s use) (hstep : useStep aic dies s use = some (s', log)) :
    ∃ t, log = [t] ∧ t.after = s' ∧ t.Dispatched ∧ (Owned aic s' ↔ UseOk aic s use) := by
  obtain ⟨⟨table, acts, masks⟩, hacts, hr⟩ := Option.map_eq_some_iff.mp hstep
  simp only [Prod.mk.injEq] at hr
  obtain ⟨rfl, rfl⟩ := hr
  refine ⟨_, rfl, rfl, ?_⟩
  have hfirst : ∀ source : UInt64, ¬ source ≥ aic.info.maxIrqs.toUInt64 →
      source.toNat < aic.maxIrqs * dies := by
    intro source hs
    rw [ge_maxIrqs_iff] at hs
    exact (not_le.mp hs).trans_le (Nat.le_mul_of_pos_right _ hdies)
  cases use with
  | register c =>
    obtain ⟨r, hr, he⟩ := Option.map_eq_some_iff.mp hacts
    cases he
    exact ⟨Used.dispatched_other (by simp), iff_of_true
      (registerInterruptSource_owned aic dies hv hmax hlaid hstride hle hdies s howned c r hr)
      ((registerInterruptSource_inside s.table c).mp ⟨r, hr⟩)⟩
  | enable source =>
    refine ⟨Used.dispatched_other (by simp), ?_⟩
    cases hacts
    unfold appleAicV2UnmaskInterrupt appleAicV2Call UseOk
    by_cases hs : source ≥ aic.info.maxIrqs.toUInt64
    · rw [if_pos hs]
      refine iff_of_true howned fun hlt => ?_
      have hge := (ge_maxIrqs_iff source).mp hs
      omega
    · rw [if_neg hs, AicAction.masksAfter, mmioWrites_map]
      exact owned_unmask_iff aic dies hv hmax hlaid hstride hle s howned source (hfirst source hs)
  | disable source =>
    refine ⟨Used.dispatched_other (by simp), iff_of_true ?_ trivial⟩
    cases hacts
    unfold appleAicV2MaskInterrupt appleAicV2Call
    by_cases hs : source ≥ aic.info.maxIrqs.toUInt64
    · rw [if_pos hs]
      exact howned
    · rw [if_neg hs, AicAction.masksAfter, mmioWrites_map]
      exact owned_mask aic dies hv hmax hlaid hstride hle s howned source (hfirst source hs)
  | endOfInterrupt source =>
    refine ⟨Used.dispatched_other (by simp), ?_⟩
    cases hacts
    rw [endOfInterrupt_masks]
    exact owned_unmask_iff aic dies hv hmax hlaid hstride hle s howned source hpromised
  | irq event regs =>
    obtain ⟨acts', hhandler, he⟩ := Option.map_eq_some_iff.mp hacts
    cases he
    cases event with
    | none =>
      exact ⟨Used.dispatched_other (by simp),
        irqZero_owned_iff aic dies hv hmax hlaid hstride hle hdies s howned regs acts hhandler⟩
    | some e =>
      obtain ⟨hafter, hdispatched⟩ := irqEvent_dispatched aic dies hv hmax hlaid hstride hle hnum
        hdies s howned e regs acts hpromised hhandler
      refine ⟨?_, iff_of_true hafter
        (appleAicV2InterruptHandler_lt aic s.table regs .irq e.value acts hhandler)⟩
      intro e' regs' he hdriven
      cases he
      exact hdispatched hdriven
  | fiq event regs =>
    obtain ⟨acts', hhandler, he⟩ := Option.map_eq_some_iff.mp hacts
    cases he
    refine ⟨Used.dispatched_other (by simp), iff_of_true ?_
      ((fiq_inside_iff aic s.table _ regs).mp ⟨acts, hhandler⟩)⟩
    rw [AicAction.masksAfter, fiq_writes aic s.table _ regs acts hhandler]
    exact masksRead_owned aic s howned event

omit hv hmax hlaid hstride hle in
/-- a step that may be made stays inside the table -/
theorem useStep_inside (s : AicMachine H aic) (use : AicUse H) (hok : UseOk aic s use) :
    ∃ s' log, useStep aic dies s use = some (s', log) := by
  have hirq : ∀ (event : UInt32) (regs : FiqRegs), event.toNat < aic.info.numIrqs.toNat →
      ∃ acts, appleAicV2InterruptHandler aic s.table .irq event regs = some acts := by
    intro event regs hlt
    rw [appleAicV2InterruptHandler_irq, List.getElem?_eq_getElem (s.table.length_eq ▸ hlt)]
    exact ⟨_, rfl⟩
  suffices h : ∃ r, useActions aic s use = some r by
    obtain ⟨r, hr⟩ := h
    exact ⟨_, _, by rw [useStep, hr]; rfl⟩
  cases use with
  | register c =>
    obtain ⟨r, hr⟩ := (registerInterruptSource_inside s.table c).mpr hok
    exact ⟨_, congrArg (Option.map _) hr⟩
  | enable source => exact ⟨_, rfl⟩
  | disable source => exact ⟨_, rfl⟩
  | endOfInterrupt source => exact ⟨_, rfl⟩
  | irq event regs =>
    have hlt : (eventValue event).toNat < aic.info.numIrqs.toNat := by
      cases event with
      | none => exact registered_lt aic s.table 0 hok
      | some e => exact hok
    obtain ⟨acts, hacts⟩ := hirq _ regs hlt
    exact ⟨_, congrArg (Option.map _) hacts⟩
  | fiq event regs =>
    obtain ⟨acts, hacts⟩ := (fiq_inside_iff aic s.table _ regs).mpr hok
    exact ⟨_, congrArg (Option.map _) hacts⟩

/-- **one step** stays inside the table and keeps it and the masks together exactly when it may -/
theorem useStep_iff (hnum : aic.info.numIrqs.toNat < 2^16) (hdies : 0 < dies)
    (s : AicMachine H aic) (use : AicUse H) (howned : Owned aic s)
    (hpromised : Promised aic dies s use) :
    ((∃ s' log, useStep aic dies s use = some (s', log) ∧ ∀ t ∈ log, Owned aic t.after) ↔
      UseOk aic s use) ∧
    ((∃ s' log, useStep aic dies s use = some (s', log) ∧
      ∀ t ∈ log, Owned aic t.after ∧ t.Dispatched) ↔ UseOk aic s use) := by
  have hsome := fun s' log => useStep_some aic dies hv hmax hlaid hstride hle hnum hdies s s' use
    log howned hpromised
  have hboth : UseOk aic s use → ∃ s' log, useStep aic dies s use = some (s', log) ∧
      ∀ t ∈ log, Owned aic t.after ∧ t.Dispatched := by
    intro hok
    obtain ⟨s', log, hstep⟩ := useStep_inside aic dies s use hok
    obtain ⟨t, rfl, rfl, hdispatched, hiff⟩ := hsome s' log hstep
    exact ⟨t.after, [t], hstep, List.forall_mem_singleton.mpr ⟨hiff.mpr hok, hdispatched⟩⟩
  have hok : (∃ s' log, useStep aic dies s use = some (s', log) ∧ ∀ t ∈ log, Owned aic t.after) →
      UseOk aic s use := by
    rintro ⟨s', log, hstep, hall⟩
    obtain ⟨t, rfl, rfl, _, hiff⟩ := hsome s' log hstep
    exact hiff.mp (hall t List.mem_cons_self)
  have hweaken : (∃ s' log, useStep aic dies s use = some (s', log) ∧
      ∀ t ∈ log, Owned aic t.after ∧ t.Dispatched) →
      ∃ s' log, useStep aic dies s use = some (s', log) ∧ ∀ t ∈ log, Owned aic t.after := by
    rintro ⟨s', log, hstep, hall⟩
    exact ⟨s', log, hstep, fun t ht => (hall t ht).1⟩
  exact ⟨⟨hok, fun h => hweaken (hboth h)⟩, ⟨fun h => hok (hweaken h), hboth⟩⟩

end

/-- **The protocol over a run**, from the state that `AppleAicV2DxeInit` leaves or any other in
which each line of the table that the code can mask is masked or has a handler.  The run stays
inside the table, and this stays so behind every step, exactly when each call of
`RegisterInterruptSource` and each event is for an entry of the table and no step unmasks such a
line without a handler.  Then every event of such a line that an IRQ shows goes to its handler -/
theorem aic_lifecycle {H : Type*} (mmioRead32 : UInt64 → UInt32) (aicV2Base : UInt64)
    (aicIackOffset maxCpuDies numCpuDies : UInt32) (aic : AicV2)
    (haic : aic = calculateRegisterOffsets .version2 mmioRead32 aicV2Base aicIackOffset maxCpuDies
      numCpuDies)
    (dies : ℕ) (hlaid : aic.Laid dies) (hdies : 0 < dies) (hstride : dies * aic.dieStride < 2^32)
    (hmax : 0 < aic.maxIrqs) (hle : aic.info.numIrqs ≤ aic.info.maxIrqs) :
    (∀ (table : HandlerTable H aic) (m : AicV2.Masks) (config : UInt32),
      Owned aic ⟨table, AicAction.masksAfter aic dies (appleAicV2DxeInit aic config) m⟩) ∧
    ∀ (s : AicMachine H aic) (uses : List (AicUse H)), Owned aic s →
      Meets (useStep aic dies) (Promised aic dies) s uses →
      ((∃ s' log, runLog (useStep aic dies) s uses = some (s', log) ∧
        ∀ t ∈ log, Owned aic t.after) ↔ Meets (useStep aic dies) (UseOk aic) s uses) ∧
      (Meets (useStep aic dies) (UseOk aic) s uses →
        ∃ s' log, runLog (useStep aic dies) s uses = some (s', log) ∧
          ∀ t ∈ log, Owned aic t.after ∧ t.Dispatched) := by
  have hnum : aic.info.numIrqs.toNat < 2^16 := by
    rw [haic]
    exact numAndMaxIrqs_lt _
  have hv : aic.version = .version2 := by
    rw [haic]
    rfl
  have hle' := UInt32.le_iff_toNat_le.mp hle
  have hiff := fun s use =>
    useStep_iff (H := H) aic dies hv hmax hlaid hstride hle' hnum hdies s use
  have hkeeps : ∀ (s : AicMachine H aic) use s' log, Owned aic s → Promised aic dies s use →
      UseOk aic s use → useStep aic dies s use = some (s', log) → Owned aic s' := by
    intro s use s' log howned hpromised hok hstep
    obtain ⟨t, _, _, _, hafter⟩ := useStep_some aic dies hv hmax hlaid hstride hle' hnum hdies s s'
      use log howned hpromised hstep
    exact hafter.mpr hok
  refine ⟨fun table m config =>
    dxeInit_owned aic dies hv hmax hlaid hstride hle' hdies table m config, ?_⟩
  intro s uses howned hpromised
  constructor
  · exact runLog_meets_iff (useStep aic dies) (Promised aic dies) (UseOk aic) (Owned aic)
      (fun t => Owned aic t.after) (fun s use ho hp => (hiff s use ho hp).1) hkeeps s uses howned
      hpromised
  · exact (runLog_meets_iff (useStep aic dies) (Promised aic dies) (UseOk aic) (Owned aic)
      (fun t => Owned aic t.after ∧ t.Dispatched) (fun s use ho hp => (hiff s use ho hp).2) hkeeps
      s uses howned hpromised).mpr

/-! ## an example -/

instance {H : Type*} {aic : AicV2} (table : HandlerTable H aic) (n : ℕ) :
    Decidable (table.registered n) :=
  decidable_of_iff ((table.entries[n]?).join.isSome = true) (by
    rw [Option.isSome_iff_exists]
    exact exists_congr fun h => Option.join_eq_some_iff)

instance {H : Type*} (aic : AicV2) (s : AicMachine H aic) : DecidablePred (UseOk aic s)
  | .register _ => inferInstanceAs (Decidable (_ ∨ _))
  | .enable _ => inferInstanceAs (Decidable (_ → _ → _))
  | .disable _ => isTrue trivial
  | .endOfInterrupt _ => inferInstanceAs (Decidable (_ → _ → _))
  | .irq none _ => inferInstanceAs (Decidable (s.table.registered 0))
  | .irq (some _) _ => inferInstanceAs (Decidable (_ < _))
  | .fiq _ _ => inferInstanceAs (Decidable (_ ∧ _))

instance {H : Type*} (aic : AicV2) (dies : ℕ) (s : AicMachine H aic) :
    DecidablePred (Promised aic dies s)
  | .endOfInterrupt _ => inferInstanceAs (Decidable (_ < _))
  | .irq none _ => isTrue trivial
  | .irq (some _) _ => inferInstanceAs (Decidable (_ = false))
  | .fiq none _ => isTrue trivial
  | .fiq (some _) _ => inferInstanceAs (Decidable (_ = false))
  | .register _ => isTrue trivial
  | .enable _ => isTrue trivial
  | .disable _ => isTrue trivial

def event67 : AicEvent := ⟨67, by decide⟩

/-- a handler is registered, its event comes, it ends the interrupt and is dropped -/
def exampleUses : List (AicUse ℕ) :=
  [.register ⟨67, some 7⟩, .irq (some event67) quietRegs, .endOfInterrupt 67, .register ⟨67, none⟩]

/-- no handler is registered, and `AppleAicV2DxeInit` has run -/
def exampleStart : AicMachine ℕ exampleAic :=
  ⟨HandlerTable.zero ℕ exampleAic,
    AicAction.masksAfter exampleAic 1 (appleAicV2DxeInit exampleAic 0) fun _ => 0⟩

theorem exampleUses_owned :
    ∃ s' log, runLog (useStep exampleAic 1) exampleStart exampleUses = some (s', log) ∧
      ∀ t ∈ log, Owned exampleAic t.after ∧ t.Dispatched := by
  obtain ⟨hstart, hrun⟩ := aic_lifecycle (H := ℕ) (exampleInfo 0x28e100000) 0x28e100000 0xc000 0 0
    exampleAic rfl 1 exampleAic_laid (by decide) (by decide +kernel) (by decide +kernel)
    (by decide +kernel)
  have hpromised : Meets (useStep exampleAic 1) (Promised exampleAic 1) exampleStart
      exampleUses := by
    decide +kernel
  have hmeets : Meets (useStep exampleAic 1) (UseOk exampleAic) exampleStart exampleUses := by
    decide +kernel
  exact (hrun exampleStart exampleUses (hstart _ _ _) hpromised).2 hmeets

end AppleSilicon
