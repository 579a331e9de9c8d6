import AppleSilicon.Aic.Lines

/-!
# Masking as a map of lines

A call of `AppleAicMaskInterrupt` or `AppleAicUnmaskInterrupt` should write one line: the hardware
mask of a line is then what the last call for it asked for.  It is for the sources that the code
can drive (`AicV2.Drives`): those with a mask bit, and with a die whose offset fits into 32 bits.
For every other source already the first call fails, and reading its state fails for some content
of `HW_STATE`.

* `call_line`             one call writes one line;
* `call_undriven`         a source that cannot be driven;
* `readState_iff`         reading `HW_STATE`;
* `aicMask_refines_iff`   calls in any order.
-/

namespace AppleSilicon

/-- a call of the library for a source: mask it or unmask it -/
structure AicCall where
  source : UInt64
  masks : Bool
deriving DecidableEq, Repr

/-- what the call writes -/
def AicCall.writes (aic : AicV2) (c : AicCall) : List MmioWrite :=
  if c.masks then
    appleAicMaskInterrupt aic.version aic.info aic.base c.source aic.offsets.irqMaskSet
  else
    appleAicUnmaskInterrupt aic.version aic.info aic.base c.source aic.offsets.irqMaskClear

/-- the line that the call is for and the mask it asks for; the timers have no line -/
def AicCall.line? (aic : AicV2) (c : AicCall) : Option ((ℕ × ℕ) × Bool) :=
  if isTimerSource c.source then none
  else some ((aic.die c.source, aic.irq c.source), c.masks)

namespace AicV2

def call (aic : AicV2) (dies : ℕ) (m : Masks) (c : AicCall) : Masks :=
  (c.writes aic).foldl (aic.write dies) m

def lines (m : Masks) (x : ℕ × ℕ) : Bool := line m x.1 x.2

/-- the code has a bit for the source, and the offset of its die fits into 32 bits -/
def Drives (aic : AicV2) (source : UInt64) : Prop :=
  aic.irq source % 64 < 5 ∧ aic.die source * aic.dieStride < 2^32

instance (aic : AicV2) (source : UInt64) : Decidable (aic.Drives source) :=
  inferInstanceAs (Decidable (_ ∧ _))

end AicV2

/-- a value masked with a single one is not zero exactly when it has that bit -/
theorem and_one_ne_zero (v w : UInt32) (b : ℕ) (hb : b < 32) (hw : IsOne w.toBitVec b) :
    decide (v &&& w ≠ 0) = v.toBitVec.getLsbD b := by
  have hand : ∀ c, c < 32 → (v &&& w).toBitVec.getLsbD c
      = (v.toBitVec.getLsbD c && decide (c = b)) := by
    intro c hc
    rw [UInt32.toBitVec_and, BitVec.getLsbD_and, hw c hc]
  cases hv : v.toBitVec.getLsbD b with
  | true =>
    rw [decide_eq_true_eq]
    intro h0
    have h1 := hand b hb
    rw [h0, hv] at h1
    simp at h1
  | false =>
    rw [decide_eq_false_iff_not, not_not]
    apply UInt32.toBitVec_inj.mp
    apply BitVec.eq_of_getLsbD_eq
    intro c hc
    rw [hand c hc]
    by_cases hcb : c = b
    · subst hcb
      rw [hv]
      simp
    · simp [hcb]

theorem lineAt_word (i : ℕ × ℕ) (die irq : ℕ) :
    (i.1, i.2 / 32) = (die, irq / 32) ∧ i.2 % 32 = irq % 32 ↔ (die, irq) = i := by
  obtain ⟨d, q⟩ := i
  simp only [Prod.mk.injEq]
  omega

/-- what an update of one bit does to the lines -/
theorem lines_update (m m' : AicV2.Masks) (die irq : ℕ) (b : Bool) (x : ℕ × ℕ)
    (h : AicV2.lines m' x = if (x.1, x.2 / 32) = (die, irq / 32) ∧ x.2 % 32 = irq % 32 then b
      else AicV2.lines m x) :
    AicV2.lines m' x = (if (die, irq) = x then some b else none).getD (AicV2.lines m x) := by
  rw [h]
  by_cases hx : (die, irq) = x
  · rw [if_pos ((lineAt_word x _ _).mpr hx), if_pos hx]
    rfl
  · rw [if_neg (fun h => hx ((lineAt_word x _ _).mp h)), if_neg hx]
    rfl

/-- the address that the code computes for a source is the one of its word exactly when the
offset of its die fits into 32 bits -/
theorem aicLineAddr_iff (aic : AicV2) (hv : aic.version = .version2) (hmax : 0 < aic.maxIrqs)
    (source offset : UInt64)
    (h : aic.wordAddr offset (aic.die source) (aic.irq source / 32) < 2^64) :
    (aicLineAddr aic.version aic.info aic.base source offset).toNat
      = aic.wordAddr offset (aic.die source) (aic.irq source / 32) ↔
      aic.die source * aic.dieStride < 2^32 := by
  rw [aicLineAddr_toNat aic source hv hmax offset h, AicV2.wordAddr]
  constructor
  · intro he
    have hlt := Nat.mod_lt (aic.die source * aic.dieStride) (show 0 < 2^32 by decide)
    omega
  · intro hlt
    rw [Nat.mod_eq_of_lt hlt]

section
variable (aic : AicV2) (dies : ℕ) (hv : aic.version = .version2) (hmax : 0 < aic.maxIrqs)
  (hlaid : aic.Laid dies)
include hv hmax hlaid

/-- **one call** writes the line of its source -/
theorem call_line (m : AicV2.Masks) (c : AicCall) (hs : c.source.toNat < aic.maxIrqs * dies)
    (hd : isTimerSource c.source = false → aic.Drives c.source) (x : ℕ × ℕ) :
    AicV2.lines (aic.call dies m c) x
      = ((c.line? aic).bind fun p => if p.1 = x then some p.2 else none).getD
        (AicV2.lines m x) := by
  rw [AicCall.line?, AicV2.call, AicCall.writes, appleAicMaskInterrupt, appleAicUnmaskInterrupt,
    aicLineWrite, aicLineWrite]
  cases ht : isTimerSource c.source with
  | true => simp
  | false =>
    obtain ⟨hbit, hstride⟩ := hd ht
    have hword := hasWord_source aic c.source dies hmax hs
    have hone : IsOne (aicMaskBit (irqNum aic.info c.source)).toUInt32.toBitVec
        (aic.irq c.source % 32) := by
      have h := maskBit_isOne (irqNum aic.info c.source)
        (by rw [irqNum_toNat aic c.source hmax]; exact hbit)
      rw [irqNum_toNat aic c.source hmax] at h
      exact h
    have haddr := fun offset hfit => (aicLineAddr_iff aic hv hmax c.source offset
      hfit).mpr hstride
    have hlt : x.2 % 32 < 32 := Nat.mod_lt _ (by norm_num)
    simp only [Bool.false_eq_true, if_false, Option.bind_some]
    cases hm : c.masks with
    | true =>
      have hset := aicWrite_set aic dies hlaid m ⟨aicLineAddr aic.version aic.info aic.base
        c.source aic.offsets.irqMaskSet, (aicMaskBit (irqNum aic.info c.source)).toUInt32⟩ _ _ hword
        (haddr aic.offsets.irqMaskSet (hlaid.fits (.maskSet _ _) hword))
      simp only [if_true, List.foldl_cons, List.foldl_nil]
      apply lines_update
      rw [hset]
      exact line_setOnes_one m _ _ _ _ _ hone hlt
    | false =>
      have hclear := aicWrite_clear aic dies hlaid m ⟨aicLineAddr aic.version aic.info aic.base
        c.source aic.offsets.irqMaskClear, (aicMaskBit (irqNum aic.info c.source)).toUInt32⟩ _ _
        hword (haddr aic.offsets.irqMaskClear (hlaid.fits (.maskClear _ _) hword))
      simp only [Bool.false_eq_true, if_false, List.foldl_cons, List.foldl_nil]
      apply lines_update
      rw [hclear]
      exact line_clearOnes_one m _ _ _ _ _ hone hlt

/-- masking a source that cannot be driven, with no line masked, does not mask its line -/
theorem call_undriven (source : UInt64) (hs : source.toNat < aic.maxIrqs * dies)
    (ht : isTimerSource source = false) (hd : ¬ aic.Drives source) :
    AicV2.lines (aic.call dies (fun _ => 0) ⟨source, true⟩) (aic.die source, aic.irq source)
      = false := by
  have hword := hasWord_source aic source dies hmax hs
  have hfit := hlaid.fits (.maskSet _ _) hword
  rw [AicV2.call, AicCall.writes]
  simp only [if_true, appleAicMaskInterrupt, aicLineWrite, ht, Bool.false_eq_true, if_false,
    List.foldl_cons, List.foldl_nil, AicV2.lines, AicV2.line]
  rw [AicV2.Drives, not_and_or] at hd
  cases hd with
  | inl hbit =>
    rw [aicWrite_zero]
    · simp [lineAt]
    · exact maskBit_zero _ (by rw [irqNum_toNat aic source hmax]; exact hbit)
  | inr hstride =>
    have hne := fun h => hstride ((aicLineAddr_iff aic hv hmax source
      aic.offsets.irqMaskSet hfit).mp h)
    rw [lineAt, AicV2.write, if_neg (fun h => hne h.2)]
    simp

/-- **reading the state** of a source gives the bit of its line in `HW_STATE` exactly when the
code can drive the source -/
theorem readState_iff (source : UInt64) (hs : source.toNat < aic.maxIrqs * dies) :
    (∀ mmioRead32 : UInt64 → UInt32,
      appleAicReadInterruptState aic.version aic.info aic.base source mmioRead32
          aic.offsets.hwState
        = (mmioRead32 (UInt64.ofNat (aic.regAddr (.hwState (aic.die source)
            (aic.irq source / 32))))).toBitVec.getLsbD (aic.irq source % 32)) ↔
      aic.Drives source := by
  have hword := hasWord_source aic source dies hmax hs
  have hfit := hlaid.fits (.hwState _ _) hword
  have hiff := aicLineAddr_iff aic hv hmax source aic.offsets.hwState hfit
  have hnat : (UInt64.ofNat (aic.regAddr (.hwState (aic.die source) (aic.irq source / 32)))).toNat
      = aic.regAddr (.hwState (aic.die source) (aic.irq source / 32)) := by
    rw [UInt64.toNat_ofNat', Nat.mod_eq_of_lt hfit]
  have hq : aic.irq source % 32 < 32 := Nat.mod_lt _ (by norm_num)
  have hirq := irqNum_toNat aic source hmax
  constructor
  · intro h
    by_contra hd
    rw [AicV2.Drives, not_and_or] at hd
    -- the word of the source reads all ones, every other word reads zero
    have hr := h fun a => if a = UInt64.ofNat (aic.regAddr (.hwState (aic.die source)
      (aic.irq source / 32))) then 0xffffffff else 0
    rw [if_pos rfl] at hr
    have htrue : (0xffffffff : UInt32).toBitVec.getLsbD (aic.irq source % 32) = true := by
      have hall : ∀ b : Fin 32, (0xffffffff : UInt32).toBitVec.getLsbD b = true := by decide
      exact hall ⟨_, hq⟩
    rw [htrue, appleAicReadInterruptState, decide_eq_true_eq] at hr
    apply hr
    cases hd with
    | inl hbit =>
      have hz := maskBit_zero (irqNum aic.info source) (by rw [hirq]; exact hbit)
      have hz' : (aicMaskBit (irqNum aic.info source)).toUInt32 = 0 :=
        UInt32.toBitVec_inj.mp hz
      rw [hz', UInt32.and_zero]
    | inr hstride =>
      have hne : aicLineAddr aic.version aic.info aic.base source aic.offsets.hwState
          ≠ UInt64.ofNat (aic.regAddr (.hwState (aic.die source) (aic.irq source / 32))) := by
        intro he
        apply hstride
        rw [← hiff, he, hnat]
        rfl
      rw [if_neg hne, UInt32.zero_and]
  · intro ⟨hbit, hstride⟩ read
    have haddr : aicLineAddr aic.version aic.info aic.base source aic.offsets.hwState
        = UInt64.ofNat (aic.regAddr (.hwState (aic.die source) (aic.irq source / 32))) := by
      apply UInt64.toNat_inj.mp
      rw [hnat, hiff.mpr hstride]
      rfl
    have hone := maskBit_isOne (irqNum aic.info source) (by rw [hirq]; exact hbit)
    rw [hirq] at hone
    rw [appleAicReadInterruptState, haddr]
    generalize read _ = v
    exact and_one_ne_zero v _ _ hq hone

/-- **masking refines a map of lines**: for calls on any set of sources in any order, the mask of
a line is what the last call for it asked for, and of a line without a call what it was, exactly
when the code can drive all these sources but the timers.  And reading the state of a source is
right for every content of `HW_STATE` exactly when the code can drive it. -/
theorem aicMask_refines_iff (used : UInt64 → Prop)
    (hused : ∀ s, used s → s.toNat < aic.maxIrqs * dies) :
    ((∀ calls : List AicCall, (∀ c ∈ calls, used c.source) → ∀ (m : AicV2.Masks) (x : ℕ × ℕ),
      AicV2.lines (calls.foldl (aic.call dies) m) x
        = (lastWrite (AicCall.line? aic) calls x).getD (AicV2.lines m x)) ↔
      ∀ s, used s → isTimerSource s = false → aic.Drives s) ∧
    ∀ s : UInt64, s.toNat < aic.maxIrqs * dies →
      ((∀ mmioRead32 : UInt64 → UInt32,
        appleAicReadInterruptState aic.version aic.info aic.base s mmioRead32 aic.offsets.hwState
          = (mmioRead32 (UInt64.ofNat (aic.regAddr (.hwState (aic.die s)
              (aic.irq s / 32))))).toBitVec.getLsbD (aic.irq s % 32)) ↔ aic.Drives s) := by
  refine ⟨⟨?_, ?_⟩, fun s hs => readState_iff aic dies hv hmax hlaid s hs⟩
  · intro h s hs ht
    by_contra hd
    have hcall := h [⟨s, true⟩] (by simpa using hs) (fun _ => 0) (aic.die s, aic.irq s)
    have hfalse := call_undriven aic dies hv hmax hlaid s (hused s hs) ht hd
    simp only [List.foldl_cons, List.foldl_nil, hfalse] at hcall
    simp [lastWrite, AicCall.line?, ht] at hcall
  · intro h calls hcalls m x
    apply run_eq_lastWrite (AicCall.line? aic) (aic.call dies) AicV2.lines calls
    intro s c hc y
    exact call_line aic dies hv hmax hlaid s c (hused _ (hcalls c hc))
      (fun ht => h _ (hcalls c hc) ht) y

end

/-! ## an example -/

/-- the information registers of an AIC with 1024 lines, 896 of them in use, on one die -/
def exampleInfo (aicBase : UInt64) (a : UInt64) : UInt32 :=
  if a = aicBase + aicV2InfoReg1 then 0x380
  else if a = aicBase + aicV2InfoReg3 then 0x1000400
  else 0

def exampleAic : AicV2 :=
  calculateRegisterOffsets .version2 (exampleInfo 0x28e100000) 0x28e100000 0xc000 0 0

theorem exampleAic_laid : exampleAic.Laid 1 :=
  calculateRegisterOffsets_laid _ _ _ _ _ 1 (by decide +kernel) (by decide +kernel)

/-- lines 3 and 4 are masked, then line 3 is unmasked -/
theorem exampleAic_refines :
    AicV2.lines ([⟨3, true⟩, ⟨4, true⟩, ⟨3, false⟩].foldl (exampleAic.call 1) fun _ => 0) (0, 3)
      = (lastWrite (AicCall.line? exampleAic) [⟨3, true⟩, ⟨4, true⟩, ⟨3, false⟩] (0, 3)).getD
        (AicV2.lines (fun _ => 0) (0, 3)) := by
  have hmax : exampleAic.maxIrqs = 1024 := by decide +kernel
  refine (aicMask_refines_iff exampleAic 1 rfl (by omega) exampleAic_laid
    (fun s => s.toNat < 5) (by rw [hmax]; omega)).1.mpr ?_ _ (by decide) _ _
  intro s hs _
  have hdie : exampleAic.die s = 0 := by
    rw [AicV2.die, hmax]
    omega
  refine ⟨?_, by rw [hdie]; omega⟩
  rw [AicV2.irq, hmax]
  omega

/-- source 5 stays unmasked -/
theorem source5_not_masked :
    exampleAic.Laid 1 ∧ exampleAic.maxIrqs = 1024 ∧
    lastWrite (AicCall.line? exampleAic) [⟨5, true⟩] (0, 5) = some true ∧
    AicV2.lines ([⟨5, true⟩].foldl (exampleAic.call 1) fun _ => 0) (0, 5) = false :=
  ⟨exampleAic_laid, by decide +kernel, by decide +kernel, by decide +kernel⟩

end AppleSilicon
