import AppleSilicon.Aic.Mask
import AppleSilicon.Lib.Pieces

/-!
# The register blocks of a die

Six blocks follow one another from the first offset: `IRQ_CFG` with a word for each line, and
`SW_SET`, `SW_CLR`, `MASK_SET`, `MASK_CLR`, `HW_STATE` with a bit for each line.  One cursor runs
over them, and the stride of a die is where it ends.

The cursor is advanced twice behind `MASK_CLR`.  So `HW_STATE` is not the sixth block of its die: a
block is left empty in its place, and it begins where the stride ends, on top of `IRQ_CFG` of the
next die.

* `blockOffset_toNat`       the offsets, as numbers;
* `blockAddr_eq_iff`        the addresses that two blocks share;
* `aicBlocks_never_tile`    the blocks never fill the stride.
-/

namespace AppleSilicon

/-- the register blocks of a die, in order -/
inductive AicBlock where
  | irqCfg
  | softwareSet
  | softwareClear
  | irqMaskSet
  | irqMaskClear
  | hwState
deriving DecidableEq, Repr

namespace AicBlock

def all : List AicBlock :=
  [irqCfg, softwareSet, softwareClear, irqMaskSet, irqMaskClear, hwState]

/-- the offset that the driver keeps for the block -/
def offset (o : AicOffsets) : AicBlock → UInt64
  | irqCfg => o.irqCfg
  | softwareSet => o.softwareSet
  | softwareClear => o.softwareClear
  | irqMaskSet => o.irqMaskSet
  | irqMaskClear => o.irqMaskClear
  | hwState => o.hwState

/-- the words of the block, for `m` lines -/
def words (m : ℕ) : AicBlock → ℕ
  | irqCfg => m
  | _ => m / 32

/-- where the block begins, from the first offset -/
def place (m : ℕ) : AicBlock → ℕ
  | irqCfg => 0
  | softwareSet => 4 * m
  | softwareClear => 4 * m + 4 * (m / 32)
  | irqMaskSet => 4 * m + 8 * (m / 32)
  | irqMaskClear => 4 * m + 12 * (m / 32)
  | hwState => 4 * m + 20 * (m / 32)

end AicBlock

namespace AicV2

/-- the offsets and the stride are the ones that `AppleAicV2CalculateRegisterOffsets` computes for
`MaxIrqs` and the first offset -/
structure AtOffsets (aic : AicV2) (startOffset : UInt64) : Prop where
  offsets : aic.offsets = aicOffsets aic.info.maxIrqs startOffset
  stride : aic.info.dieStride = (aic.offsets.hwState - startOffset).toUInt32

/-- the bytes of a block of die 0, from the base -/
def blockPiece (aic : AicV2) (b : AicBlock) : Piece ℕ :=
  ⟨(b.offset aic.offsets).toNat, (b.offset aic.offsets).toNat + 4 * b.words aic.maxIrqs⟩

/-- the address of a word of a block of a die -/
def blockAddr (aic : AicV2) (die : ℕ) (b : AicBlock) (word : ℕ) : ℕ :=
  aic.wordAddr (b.offset aic.offsets) die word

/-- the six blocks fill the stride, and no two blocks of the dies share an address -/
structure BlocksTile (aic : AicV2) (startOffset : UInt64) (dies : ℕ) : Prop where
  fill : Partition (AicBlock.all.map aic.blockPiece)
    ⟨startOffset.toNat, startOffset.toNat + aic.dieStride⟩
  apart : ∀ die die' b b' word word', die < dies → die' < dies → word < b.words aic.maxIrqs →
    word' < b'.words aic.maxIrqs → (die, b) ≠ (die', b') →
    aic.blockAddr die b word ≠ aic.blockAddr die' b' word'

end AicV2

theorem calculateRegisterOffsets_atOffsets (version : AicVersion) (mmioRead32 : UInt64 → UInt32)
    (aicV2Base : UInt64) (aicIackOffset maxCpuDies numCpuDies : UInt32) :
    (calculateRegisterOffsets version mmioRead32 aicV2Base aicIackOffset maxCpuDies
      numCpuDies).AtOffsets (if version = .version1 then aicTargetCpu else aicV2IrqCfgReg) :=
  ⟨rfl, rfl⟩

section
variable (aic : AicV2) (startOffset : UInt64) (h : aic.AtOffsets startOffset)
  (hstart : startOffset = aicTargetCpu ∨ startOffset = aicV2IrqCfgReg)
include h hstart

theorem blockOffset_toNat (b : AicBlock) :
    (b.offset aic.offsets).toNat = startOffset.toNat + b.place aic.maxIrqs := by
  have hlt := aic.info.maxIrqs.toNat_lt
  have h5 : (aic.info.maxIrqs >>> 5).toUInt64.toNat = aic.info.maxIrqs.toNat / 32 := by
    rw [UInt32.toNat_toUInt64, UInt32.toNat_shiftRight]
    simp [Nat.shiftRight_eq_div_pow]
  have hle : startOffset.toNat ≤ 0x3000 := by
    rcases hstart with rfl | rfl <;> decide
  rw [h.offsets, AicV2.maxIrqs]
  cases b <;>
    simp only [AicBlock.offset, AicBlock.place, aicOffsets, UInt64.toNat_add, UInt64.toNat_mul,
      UInt32.toNat_toUInt64, h5, UInt64.reduceToNat] <;>
    omega

/-- the stride is cut down to 32 bits -/
theorem dieStride_toNat :
    aic.dieStride = (4 * aic.maxIrqs + 20 * (aic.maxIrqs / 32)) % 2^32 := by
  have hhw := blockOffset_toNat aic startOffset h hstart .hwState
  have hsub : (aic.offsets.hwState - startOffset).toNat
      = 4 * aic.maxIrqs + 20 * (aic.maxIrqs / 32) := by
    rw [AicBlock.offset, AicBlock.place] at hhw
    have hs := startOffset.toNat_lt
    have hm : aic.maxIrqs < 2^32 := aic.info.maxIrqs.toNat_lt
    rw [UInt64.toNat_sub, hhw]
    omega
  rw [AicV2.dieStride, h.stride, UInt64.toNat_toUInt32, hsub]

/-- the blocks of one die stay clear of each other -/
theorem blockPiece_apart (b b' : AicBlock) (hne : b ≠ b') :
    (aic.blockPiece b).Apart (aic.blockPiece b') := by
  unfold AicV2.blockPiece Piece.Apart
  rw [blockOffset_toNat aic startOffset h hstart b, blockOffset_toNat aic startOffset h hstart b']
  cases b <;> cases b' <;> simp only [AicBlock.place, AicBlock.words, ne_eq, not_true_eq_false]
    at hne ⊢ <;> omega

/-- `HW_STATE` begins at the end of the stride or behind it -/
theorem hwState_outside (hpos : 0 < aic.maxIrqs) (hmul : aic.maxIrqs % 32 = 0) :
    ¬ (aic.blockPiece .hwState).Inside
      ⟨startOffset.toNat, startOffset.toNat + aic.dieStride⟩ := by
  intro hin
  have hend := hin.2
  have hle := Nat.mod_le (4 * aic.maxIrqs + 20 * (aic.maxIrqs / 32)) (2^32)
  unfold AicV2.blockPiece at hend
  rw [blockOffset_toNat aic startOffset h hstart .hwState,
    dieStride_toNat aic startOffset h hstart] at hend
  simp only [AicBlock.place, AicBlock.words] at hend
  omega

theorem not_blocksTile (dies : ℕ) (hpos : 0 < aic.maxIrqs) (hmul : aic.maxIrqs % 32 = 0) :
    ¬ aic.BlocksTile startOffset dies := by
  intro htile
  apply hwState_outside aic startOffset h hstart hpos hmul
  exact (htile.fill.inside _ (by simp [AicBlock.all])).2

omit h hstart in
/-- the die whose stride a word lies in, and its place in there -/
theorem stride_place (m d p : ℕ) (b : AicBlock) (word : ℕ) (hw : word < b.words m)
    (hd : d = if b = .hwState then 1 else 0)
    (hp : p = if b = .hwState then 4 * word else b.place m + 4 * word) :
    b.place m + 4 * word = d * (4 * m + 20 * (m / 32)) + p ∧ p < 4 * m + 20 * (m / 32) := by
  subst hd hp
  cases b <;> simp only [AicBlock.place, AicBlock.words, reduceCtorEq, if_false, if_true] at hw ⊢ <;>
    omega

/-- **the shared addresses**: where the stride fits into 32 bits, `HW_STATE` of a die lies on
`IRQ_CFG` of the next one, word by word, and no other two blocks share an address -/
theorem blockAddr_eq_iff (hfit : 4 * aic.maxIrqs + 20 * (aic.maxIrqs / 32) < 2^32)
    (die die' : ℕ) (b b' : AicBlock) (word word' : ℕ) (hw : word < b.words aic.maxIrqs)
    (hw' : word' < b'.words aic.maxIrqs) (hne : (die, b) ≠ (die', b')) :
    aic.blockAddr die b word = aic.blockAddr die' b' word' ↔ word = word' ∧
      ((b = .hwState ∧ b' = .irqCfg ∧ die' = die + 1) ∨
        (b = .irqCfg ∧ b' = .hwState ∧ die = die' + 1)) := by
  have hstride : aic.dieStride = 4 * aic.maxIrqs + 20 * (aic.maxIrqs / 32) := by
    rw [dieStride_toNat aic startOffset h hstart, Nat.mod_eq_of_lt hfit]
  have hplace := stride_place aic.maxIrqs _ _ b word hw rfl rfl
  have hplace' := stride_place aic.maxIrqs _ _ b' word' hw' rfl rfl
  rw [← hstride] at hplace hplace'
  have haddr : ∀ (e : ℕ) (c : AicBlock) (w : ℕ), aic.blockAddr e c w
      = aic.base.toNat + startOffset.toNat + (e * aic.dieStride + (c.place aic.maxIrqs + 4 * w)) := by
    intro e c w
    rw [AicV2.blockAddr, AicV2.wordAddr, blockOffset_toNat aic startOffset h hstart c]
    omega
  rw [haddr die b word, haddr die' b' word', Nat.add_left_cancel_iff, hplace.1, hplace'.1,
    ← Nat.add_assoc, ← Nat.add_assoc, ← Nat.add_mul, ← Nat.add_mul]
  constructor
  · intro he
    obtain ⟨hq, hr⟩ := stride_unique aic.dieStride _ _ _ _ hplace.2 hplace'.2 he
    rw [ne_eq, Prod.mk.injEq] at hne
    cases b <;> cases b' <;>
      simp only [AicBlock.place, AicBlock.words, reduceCtorEq, if_false, if_true, and_true,
        and_false, or_false, false_or, true_and, false_and] at hq hr hw hw' hne ⊢ <;>
      omega
  · intro h
    obtain ⟨hword, hcase⟩ := h
    subst hword
    rcases hcase with ⟨rfl, rfl, rfl⟩ | ⟨rfl, rfl, rfl⟩ <;> simp [AicBlock.place]

/-- **the blocks never fill the stride**: the blocks of one die are apart, but `HW_STATE` lies
outside, on `IRQ_CFG` of the next die -/
theorem aicBlocks_never_tile (dies : ℕ) (hpos : 0 < aic.maxIrqs) (hmul : aic.maxIrqs % 32 = 0) :
    ¬ aic.BlocksTile startOffset dies ∧
    (∀ b b', b ≠ b' → (aic.blockPiece b).Apart (aic.blockPiece b')) ∧
    (4 * aic.maxIrqs + 20 * (aic.maxIrqs / 32) < 2^32 →
      ∀ die die' b b' word word', word < b.words aic.maxIrqs → word' < b'.words aic.maxIrqs →
        (die, b) ≠ (die', b') →
        (aic.blockAddr die b word = aic.blockAddr die' b' word' ↔ word = word' ∧
          ((b = .hwState ∧ b' = .irqCfg ∧ die' = die + 1) ∨
            (b = .irqCfg ∧ b' = .hwState ∧ die = die' + 1)))) :=
  ⟨not_blocksTile aic startOffset h hstart dies hpos hmul,
    blockPiece_apart aic startOffset h hstart,
    fun hfit => blockAddr_eq_iff aic startOffset h hstart hfit⟩

end

/-! ## the example -/

theorem exampleAic_atOffsets : exampleAic.AtOffsets aicV2IrqCfgReg :=
  calculateRegisterOffsets_atOffsets .version2 _ _ _ _ _

theorem exampleAic_never_tiles : ¬ exampleAic.BlocksTile aicV2IrqCfgReg 2 ∧
    (AicBlock.all.map exampleAic.blockPiece).Pairwise Piece.Apart :=
  have hmax : exampleAic.maxIrqs = 1024 := by decide +kernel
  have htile := aicBlocks_never_tile exampleAic aicV2IrqCfgReg exampleAic_atOffsets (.inr rfl) 2
    (by omega) (by omega)
  ⟨htile.1, by
    simp only [AicBlock.all, List.map_cons, List.map_nil, List.pairwise_cons, List.mem_cons,
      List.not_mem_nil, or_false, forall_eq_or_imp, forall_eq]
    simp [htile.2.1]⟩

/-- on an AIC with 1024 lines -/
theorem exampleAic_hwState_outside :
    exampleAic.AtOffsets aicV2IrqCfgReg ∧ exampleAic.maxIrqs = 1024 ∧
    (exampleAic.blockPiece .hwState).lo = aicV2IrqCfgReg.toNat + exampleAic.dieStride ∧
    exampleAic.blockAddr 0 .hwState 0 = exampleAic.blockAddr 1 .irqCfg 0 ∧
    ¬ exampleAic.BlocksTile aicV2IrqCfgReg 1 := by
  have hmax : exampleAic.maxIrqs = 1024 := by decide +kernel
  refine ⟨exampleAic_atOffsets, hmax, by decide +kernel, by decide +kernel, ?_⟩
  exact not_blocksTile exampleAic aicV2IrqCfgReg exampleAic_atOffsets (.inr rfl) 1 (by omega)
    (by omega)

end AppleSilicon
