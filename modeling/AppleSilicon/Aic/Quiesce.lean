import AppleSilicon.Aic.Blocks
import AppleSilicon.Aic.Register

/-!
# Masking all lines at start and at hand-off

`AppleAicV2DxeInit` and `AppleAicV2ExitBootServicesEvent` mask the sources below `NumIrqs`, one
after the other.  The function they call turns sources from `MaxIrqs` on down, so the loop does not
leave the first die, and there it writes a bit only for a number below 5.

* `mem_maskAll`       the writes of the loop;
* `sets_maskAll`      the lines they mask;
* `quiesces_iff`      for which counts the loop masks every line.
-/

namespace AppleSilicon

def aicV2Config : UInt64 := 0x0014

/-- `AIC_V2_CFG_ENABLE` -/
def aicV2CfgEnable : UInt32 := 1

section
variable (aic : AicV2)

/-- the loop of both functions over the lines -/
def maskAll : List (AicAction Unit) :=
  (List.range aic.info.numIrqs.toNat).flatMap fun interruptIndex =>
    (appleAicV2MaskInterrupt Unit aic (UInt64.ofNat interruptIndex)).2

/-- `AppleAicV2DxeInit`, to the end of its loop; `config` is what it reads from `AIC_V2_CONFIG` -/
def appleAicV2DxeInit (config : UInt32) : List (AicAction Unit) :=
  .mmioWrite ⟨aic.base + aicV2Config, config ||| aicV2CfgEnable⟩ :: maskAll aic

/-- `AppleAicV2ExitBootServicesEvent`, after it has read the event register -/
def appleAicV2ExitBootServicesEvent (config : UInt32) : List (AicAction Unit) :=
  maskAll aic ++ [.mmioWrite ⟨aic.base + aicV2Config, config &&& ~~~aicV2CfgEnable⟩]

variable (die irq : ℕ)

/-- the write reaches `MASK_SET` of the line with the bit of the line -/
def SetsLine (w : MmioWrite) : Prop :=
  w.addr.toNat = aic.regAddr (.maskSet die (irq / 32)) ∧
    w.value.toBitVec.getLsbD (irq % 32) = true

/-- the write reaches `MASK_CLR` of the line with the bit of the line -/
def ClearsLine (w : MmioWrite) : Prop :=
  w.addr.toNat = aic.regAddr (.maskClear die (irq / 32)) ∧
    w.value.toBitVec.getLsbD (irq % 32) = true

/-- the line was masked after the last write that unmasked it -/
def MaskedLast (log : List MmioWrite) : Prop :=
  SetLast (SetsLine aic die irq) (ClearsLine aic die irq) log

end

/-- the source numbers of the timers -/
def TimerLine (source : ℕ) : Prop := source = 17 ∨ source = 18 ∨ source = 19

/-- whatever was written before, every line but those of the timers is masked when the loop of
`AppleAicV2DxeInit` is done, and when `AppleAicV2ExitBootServicesEvent` returns -/
def Quiesces (aic : AicV2) : Prop :=
  ∀ (before : List MmioWrite) (config : UInt32) (die irq : ℕ),
    die < aic.info.numCpuDies.toNat → irq < aic.info.numIrqs.toNat →
    ¬ TimerLine (die * aic.maxIrqs + irq) →
    MaskedLast aic die irq (before ++ AicAction.mmioWrites (appleAicV2DxeInit aic config)) ∧
    MaskedLast aic die irq
      (before ++ AicAction.mmioWrites (appleAicV2ExitBootServicesEvent aic config))

/-! ## the counts -/

theorem calculateRegisterOffsets_maxIrqs_lt (version : AicVersion) (mmioRead32 : UInt64 → UInt32)
    (aicV2Base : UInt64) (aicIackOffset maxCpuDies numCpuDies : UInt32) :
    (calculateRegisterOffsets version mmioRead32 aicV2Base aicIackOffset maxCpuDies
      numCpuDies).maxIrqs < 2^16 := by
  show (appleAicGetMaxInterrupts version mmioRead32 aicV2Base).toNat < 2^16
  cases version with
  | version1 =>
    show aicMaxIrq.toNat < 2^16
    decide
  | version2 => exact numAndMaxIrqs_lt _
  | version3 => exact Nat.two_pow_pos 16
  | unknown => exact Nat.two_pow_pos 16

/-- an AIC with lines has a die -/
theorem calculateRegisterOffsets_numCpuDies_pos (version : AicVersion)
    (mmioRead32 : UInt64 → UInt32) (aicV2Base : UInt64)
    (aicIackOffset maxCpuDies numCpuDies : UInt32) (aic : AicV2)
    (haic : aic = calculateRegisterOffsets version mmioRead32 aicV2Base aicIackOffset maxCpuDies
      numCpuDies)
    (hpos : 0 < aic.info.numIrqs.toNat) : 0 < aic.info.numCpuDies.toNat := by
  subst haic
  cases version with
  | version1 => exact Nat.one_pos
  | version2 =>
    show 0 < (fieldGet aicV2DieBitfield _ + 1).toUInt32.toNat
    generalize (mmioRead32 (aicV2Base + aicV2InfoReg1)).toUInt64 = v
    have hfield : aicV2DieBitfield.toNat = 0xf000000 := by decide
    have hlsb : (fieldLsb aicV2DieBitfield).toNat = 0x1000000 := by decide
    have hle : v.toNat &&& aicV2DieBitfield.toNat ≤ aicV2DieBitfield.toNat := Nat.and_le_right
    rw [UInt64.toNat_toUInt32, UInt64.toNat_add, fieldGet, UInt64.toNat_div, UInt64.toNat_and, hlsb]
    simp only [UInt64.reduceToNat]
    omega
  | version3 => exact absurd hpos (lt_irrefl 0)
  | unknown => exact absurd hpos (lt_irrefl 0)

/-! ## the writes of the loop -/

section
variable (aic : AicV2)

theorem cpuDieNum_first (version : AicVersion) (source : UInt64)
    (hs : source.toNat < aic.maxIrqs) : cpuDieNum version aic.info source = 0 := by
  have hdie : source / aic.info.maxIrqs.toUInt64 = 0 := by
    apply UInt64.toNat_inj.mp
    rw [UInt64.toNat_div, UInt32.toNat_toUInt64]
    exact Nat.div_eq_of_lt hs
  rw [cpuDieNum, hdie, UInt64.zero_mul]
  exact ite_self _

/-- the address of a source of the first die -/
theorem aicLineAddr_first (source offset : UInt64) (hs : source.toNat < aic.maxIrqs)
    (hfit : aic.base.toNat + offset.toNat + 4 * (source.toNat / 32) < 2^64) :
    (aicLineAddr aic.version aic.info aic.base source offset).toNat
      = aic.base.toNat + offset.toNat + 4 * (source.toNat / 32) := by
  have hirq : aic.irq source = source.toNat := Nat.mod_eq_of_lt hs
  rw [aicLineAddr, cpuDieNum_first aic aic.version source hs, UInt64.toNat_add, UInt64.toNat_add,
    UInt64.toNat_add, UInt32.toNat_toUInt64, UInt32.toNat_toUInt64, aicMaskReg_toNat,
    irqNum_toNat aic source (by omega), hirq]
  simp only [UInt32.toNat_zero]
  omega

theorem isTimerSource_ofNat (i : ℕ) (hi : i < 2^64) :
    isTimerSource (UInt64.ofNat i) = true ↔ TimerLine i := by
  have heq : ∀ c : UInt64, UInt64.ofNat i = c ↔ i = c.toNat := by
    intro c
    rw [← UInt64.toNat_inj, UInt64.toNat_ofNat', Nat.mod_eq_of_lt hi]
  rw [isTimerSource, decide_eq_true_eq, TimerLine, heq, heq, heq]
  rfl

/-- the write for a source of the loop -/
def loopWrite (i : ℕ) : MmioWrite :=
  ⟨aicLineAddr aic.version aic.info aic.base (UInt64.ofNat i) aic.offsets.irqMaskSet,
    (aicMaskBit (irqNum aic.info (UInt64.ofNat i))).toUInt32⟩

/-- the writes for the sources of a list -/
def loopWrites (is : List ℕ) : List MmioWrite :=
  is.flatMap fun i => if isTimerSource (UInt64.ofNat i) then [] else [loopWrite aic i]

theorem maskAll_writes (hle : aic.info.numIrqs.toNat ≤ aic.maxIrqs) :
    AicAction.mmioWrites (maskAll aic) = loopWrites aic (List.range aic.info.numIrqs.toNat) := by
  rw [AicAction.mmioWrites, maskAll, List.filterMap_flatMap, loopWrites]
  apply List.flatMap_congr
  intro i hi
  have hlt : i < aic.maxIrqs := (List.mem_range.mp hi).trans_le hle
  have hm := aic.info.maxIrqs.toNat_lt
  have hnot : ¬ UInt64.ofNat i ≥ aic.info.maxIrqs.toUInt64 := by
    rw [ge_maxIrqs_iff, UInt64.toNat_ofNat', not_le]
    exact (Nat.mod_le _ _).trans_lt hlt
  rw [appleAicV2MaskInterrupt, appleAicV2Call, if_neg hnot]
  show AicAction.mmioWrites _ = _
  rw [mmioWrites_map, AicCall.writes, if_pos rfl, appleAicMaskInterrupt, aicLineWrite]
  rfl

theorem mem_loopWrites (is : List ℕ) (his : ∀ i ∈ is, i < 2^64) (w : MmioWrite) :
    w ∈ loopWrites aic is ↔ ∃ i ∈ is, ¬ TimerLine i ∧ w = loopWrite aic i := by
  rw [loopWrites, List.mem_flatMap]
  apply exists_congr
  intro i
  rw [and_congr_right_iff]
  intro hi
  rw [← isTimerSource_ofNat i (his i hi)]
  by_cases ht : isTimerSource (UInt64.ofNat i) = true <;> simp [ht]

end

section
variable (aic : AicV2) (startOffset : UInt64) (h : aic.AtOffsets startOffset)
  (hstart : startOffset = aicTargetCpu ∨ startOffset = aicV2IrqCfgReg)
  (hmax : aic.maxIrqs < 2^16)
  (hspace : aic.base.toNat + aic.offsets.hwState.toNat < 2^64)
include h hstart hmax hspace

/-- the write for the source `i` reaches the word of its line in the first die -/
theorem loopWrite_addr (i : ℕ) (hi : i < aic.maxIrqs) :
    (loopWrite aic i).addr.toNat = aic.regAddr (.maskSet 0 (i / 32)) := by
  have hnat : (UInt64.ofNat i).toNat = i := by
    rw [UInt64.toNat_ofNat', Nat.mod_eq_of_lt (by omega)]
  have hset := blockOffset_toNat aic startOffset h hstart .irqMaskSet
  have hhw := blockOffset_toNat aic startOffset h hstart .hwState
  simp only [AicBlock.offset, AicBlock.place] at hset hhw
  rw [loopWrite, aicLineAddr_first aic (UInt64.ofNat i) aic.offsets.irqMaskSet (by omega) (by omega),
    AicV2.regAddr, AicV2.wordAddr, hnat]
  omega

omit h hstart hspace in
/-- the bits of that write -/
theorem loopWrite_bit (i : ℕ) (hi : i < aic.maxIrqs) (c : ℕ) (hc : c < 32) :
    (loopWrite aic i).value.toBitVec.getLsbD c = decide (i % 64 < 5 ∧ c = i % 64) := by
  have hnat : (UInt64.ofNat i).toNat = i := by
    rw [UInt64.toNat_ofNat', Nat.mod_eq_of_lt (by omega)]
  have hirq : aic.irq (UInt64.ofNat i) = i := by
    rw [AicV2.irq, hnat, Nat.mod_eq_of_lt hi]
  rw [loopWrite, maskBit_getLsbD _ c hc, irqNum_toNat aic _ (by omega), hirq]

/-- a source of the loop masks its own line, and that only on the first die and with a bit -/
theorem loopWrite_sets (i : ℕ) (hi : i < aic.maxIrqs) (die irq : ℕ) (hirq : irq < aic.maxIrqs) :
    SetsLine aic die irq (loopWrite aic i) ↔ die = 0 ∧ i = irq ∧ irq % 64 < 5 := by
  have hstride : aic.dieStride = 4 * aic.maxIrqs + 20 * (aic.maxIrqs / 32) := by
    rw [dieStride_toNat aic startOffset h hstart, Nat.mod_eq_of_lt (by omega)]
  rw [SetsLine, loopWrite_addr aic startOffset h hstart hmax hspace i hi,
    loopWrite_bit aic hmax i hi _ (by omega), decide_eq_true_eq, AicV2.regAddr, AicV2.regAddr,
    AicV2.wordAddr, AicV2.wordAddr]
  cases die with
  | zero => omega
  | succ die =>
    have hsucc : (die + 1) * aic.dieStride = die * aic.dieStride + aic.dieStride := Nat.succ_mul _ _
    omega

/-- the write to `AIC_V2_CONFIG` reaches none of the mask registers -/
theorem configWrite_apart (value : UInt32) (die irq : ℕ) :
    ¬ SetsLine aic die irq ⟨aic.base + aicV2Config, value⟩ ∧
      ¬ ClearsLine aic die irq ⟨aic.base + aicV2Config, value⟩ := by
  have hset := blockOffset_toNat aic startOffset h hstart .irqMaskSet
  have hclear := blockOffset_toNat aic startOffset h hstart .irqMaskClear
  have hhw := blockOffset_toNat aic startOffset h hstart .hwState
  simp only [AicBlock.offset, AicBlock.place] at hset hclear hhw
  have hge : 0x2000 ≤ startOffset.toNat := by
    rcases hstart with rfl | rfl <;> decide
  have hconfig : (aic.base + aicV2Config).toNat = aic.base.toNat + 0x14 := by
    have h14 : aicV2Config.toNat = 0x14 := rfl
    rw [UInt64.toNat_add, h14]
    omega
  unfold SetsLine ClearsLine AicV2.regAddr AicV2.wordAddr
  dsimp only
  rw [hconfig]
  constructor
  · intro hs
    omega
  · intro hs
    omega

/-- with at most five lines the loop masks those of the first die -/
theorem loop_masks (hle : aic.info.numIrqs.toNat ≤ aic.maxIrqs) (hfive : aic.info.numIrqs.toNat ≤ 5)
    (irq : ℕ) (hirq : irq < aic.info.numIrqs.toNat) :
    MaskedLast aic 0 irq (loopWrites aic (List.range aic.info.numIrqs.toNat)) := by
  obtain ⟨s, t, he⟩ := List.append_of_mem (List.mem_range.mpr hirq)
  have hlt : ∀ i ∈ s ++ irq :: t, i < aic.info.numIrqs.toNat :=
    fun i hi => List.mem_range.mp (he ▸ hi)
  have hnot : irq ∉ t := by
    have hnd : (s ++ irq :: t).Nodup := he ▸ List.nodup_range
    exact (List.nodup_cons.mp (List.nodup_append.mp hnd).2.1).1
  have htimer : ¬ TimerLine irq := by
    unfold TimerLine
    omega
  have hsplit : loopWrites aic (irq :: t) = loopWrite aic irq :: loopWrites aic t := by
    have hfalse : ¬ isTimerSource (UInt64.ofNat irq) = true :=
      fun ht => htimer ((isTimerSource_ofNat irq (by omega)).mp ht)
    rw [loopWrites, List.flatMap_cons, if_neg hfalse]
    rfl
  refine ⟨loopWrites aic s, loopWrite aic irq, loopWrites aic t, ?_, ?_, ?_⟩
  · rw [he, loopWrites, List.flatMap_append, ← hsplit]
    rfl
  · rw [loopWrite_sets aic startOffset h hstart hmax hspace irq (by omega) 0 irq (by omega)]
    omega
  · intro w hw
    have ht : ∀ i ∈ t, i < aic.info.numIrqs.toNat := fun i hi => hlt i (by simp [hi])
    obtain ⟨i, hi, _, rfl⟩ := (mem_loopWrites aic t (fun i hi => by have := ht i hi; omega) w).mp hw
    have hi5 := ht i hi
    intro hclear
    have hbit := hclear.2
    rw [loopWrite_bit aic hmax i (by omega) _ (by omega), decide_eq_true_eq] at hbit
    have heq : i = irq := by omega
    exact hnot (heq ▸ hi)

/-- a line that the loop masks lies on the first die and has a bit -/
theorem sets_maskAll (hle : aic.info.numIrqs.toNat ≤ aic.maxIrqs) (config : UInt32) (die irq : ℕ)
    (hirq : irq < aic.info.numIrqs.toNat)
    (hlast : MaskedLast aic die irq (AicAction.mmioWrites (appleAicV2DxeInit aic config))) :
    die = 0 ∧ irq % 64 < 5 := by
  obtain ⟨w, hw, hsets⟩ := SetLast.exists_sets hlast
  have hcons : AicAction.mmioWrites (appleAicV2DxeInit aic config)
      = ⟨aic.base + aicV2Config, config ||| aicV2CfgEnable⟩
        :: loopWrites aic (List.range aic.info.numIrqs.toNat) := by
    rw [← maskAll_writes aic hle]
    rfl
  rw [hcons, List.mem_cons] at hw
  cases hw with
  | inl hw =>
    subst hw
    exact absurd hsets (configWrite_apart aic startOffset h hstart hmax hspace _ die irq).1
  | inr hw =>
    have hlt : ∀ i ∈ List.range aic.info.numIrqs.toNat, i < aic.maxIrqs :=
      fun i hi => (List.mem_range.mp hi).trans_le hle
    obtain ⟨i, hi, _, rfl⟩ := (mem_loopWrites aic _ (fun i hi => by have := hlt i hi; omega) w).mp hw
    obtain ⟨hd, _, hb⟩ := (loopWrite_sets aic startOffset h hstart hmax hspace i (hlt i hi) die irq
      (hirq.trans_le hle)).mp hsets
    exact ⟨hd, hb⟩

theorem quiesces_of_counts (hle : aic.info.numIrqs.toNat ≤ aic.maxIrqs)
    (hfive : aic.info.numIrqs.toNat ≤ 5)
    (hdies : ∀ die irq, 0 < die → die < aic.info.numCpuDies.toNat →
      irq < aic.info.numIrqs.toNat → TimerLine (die * aic.maxIrqs + irq)) : Quiesces aic := by
  intro before config die irq hdie hirq htimer
  have hzero : die = 0 := by
    by_contra hne
    exact htimer (hdies die irq (Nat.pos_of_ne_zero hne) hdie hirq)
  subst hzero
  have hloop := loop_masks aic startOffset h hstart hmax hspace hle hfive irq hirq
  rw [← maskAll_writes aic hle] at hloop
  constructor
  · apply SetLast.behind
    exact SetLast.behind hloop [_]
  · apply SetLast.behind
    rw [appleAicV2ExitBootServicesEvent, mmioWrites_append]
    apply SetLast.append hloop
    intro w hw
    obtain rfl := List.mem_singleton.mp hw
    exact (configWrite_apart aic startOffset h hstart hmax hspace _ 0 irq).2

/-- with more than five lines, or lines on a second die, some line is not masked -/
theorem not_quiesces (hle : aic.info.numIrqs.toNat ≤ aic.maxIrqs) (die irq : ℕ)
    (hdie : die < aic.info.numCpuDies.toNat) (hirq : irq < aic.info.numIrqs.toNat)
    (htimer : ¬ TimerLine (die * aic.maxIrqs + irq)) (hline : 0 < die ∨ 5 ≤ irq % 64) :
    ¬ Quiesces aic := by
  intro hq
  have hlast := (hq [] 0 die irq hdie hirq htimer).1
  rw [List.nil_append] at hlast
  have hset := sets_maskAll aic startOffset h hstart hmax hspace hle 0 die irq hirq hlast
  omega

end

/-- **the lines are masked** at start and at hand-off exactly when there are at most five of them
and no line of a second die has to be masked -/
theorem quiesces_iff (version : AicVersion) (mmioRead32 : UInt64 → UInt32) (aicV2Base : UInt64)
    (aicIackOffset maxCpuDies numCpuDies : UInt32) (aic : AicV2)
    (haic : aic = calculateRegisterOffsets version mmioRead32 aicV2Base aicIackOffset maxCpuDies
      numCpuDies)
    (hle : aic.info.numIrqs ≤ aic.info.maxIrqs)
    (hspace : aic.base.toNat + aic.offsets.hwState.toNat < 2^64) :
    Quiesces aic ↔ aic.info.numIrqs.toNat ≤ 5 ∧
      ∀ die irq, 0 < die → die < aic.info.numCpuDies.toNat → irq < aic.info.numIrqs.toNat →
        TimerLine (die * aic.maxIrqs + irq) := by
  have hat := calculateRegisterOffsets_atOffsets version mmioRead32 aicV2Base aicIackOffset
    maxCpuDies numCpuDies
  have hmax := calculateRegisterOffsets_maxIrqs_lt version mmioRead32 aicV2Base aicIackOffset
    maxCpuDies numCpuDies
  rw [← haic] at hat hmax
  have hstart : ∀ v : AicVersion, (if v = .version1 then aicTargetCpu else aicV2IrqCfgReg)
        = aicTargetCpu ∨
      (if v = .version1 then aicTargetCpu else aicV2IrqCfgReg) = aicV2IrqCfgReg := by
    intro v
    cases v <;> simp
  have hle' : aic.info.numIrqs.toNat ≤ aic.maxIrqs := UInt32.le_iff_toNat_le.mp hle
  constructor
  · intro hq
    constructor
    · by_contra hfive
      have hpos := calculateRegisterOffsets_numCpuDies_pos version mmioRead32 aicV2Base
        aicIackOffset maxCpuDies numCpuDies aic haic (by omega)
      apply not_quiesces aic _ hat (hstart version) hmax hspace hle' 0 5 hpos (by omega) _
        (.inr (by decide)) hq
      unfold TimerLine
      omega
    · intro die irq hpos hdie hirq
      by_contra htimer
      exact not_quiesces aic _ hat (hstart version) hmax hspace hle' die irq hdie hirq htimer
        (.inl hpos) hq
  · intro hcounts
    exact quiesces_of_counts aic _ hat (hstart version) hmax hspace hle' hcounts.1 hcounts.2

/-- an AIC with four lines in use, on one die -/
def fourLines (a : UInt64) : UInt32 :=
  if a = 0x28e100000 + aicV2InfoReg1 then 4
  else if a = 0x28e100000 + aicV2InfoReg3 then 0x1000400
  else 0

theorem fourLines_quiesces :
    Quiesces (calculateRegisterOffsets .version2 fourLines 0x28e100000 0xc000 0 0) := by
  apply (quiesces_iff .version2 fourLines 0x28e100000 0xc000 0 0 _ rfl (by decide +kernel)
    (by decide +kernel)).mpr
  have hdies : (calculateRegisterOffsets .version2 fourLines 0x28e100000 0xc000 0
      0).info.numCpuDies.toNat = 1 := by decide +kernel
  refine ⟨by decide +kernel, ?_⟩
  intro die irq hpos hdie
  omega

/-- of 896 lines on one die, line 5 is not masked -/
theorem exampleAic_not_quiet :
    exampleAic.info.numIrqs = 896 ∧ exampleAic.info.numCpuDies = 1 ∧ ¬ Quiesces exampleAic := by
  have hnum : exampleAic.info.numIrqs.toNat = 896 := by decide +kernel
  have hdies : exampleAic.info.numCpuDies.toNat = 1 := by decide +kernel
  have hmax : exampleAic.maxIrqs = 1024 := by decide +kernel
  refine ⟨by decide +kernel, by decide +kernel, ?_⟩
  apply not_quiesces exampleAic aicV2IrqCfgReg exampleAic_atOffsets (.inr rfl) (by omega)
    (by decide +kernel) (by omega) 0 5 (by omega) (by omega) _ (.inr (by decide))
  unfold TimerLine
  omega

end AppleSilicon
