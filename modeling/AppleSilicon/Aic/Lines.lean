import AppleSilicon.Lib.LineArray

/-!
# AIC: the mask registers and the code that drives them

A `Source` names a line: die `Source / MaxIrqs`, number `Source % MaxIrqs` on that die.  The
library computes the address of the word and the bit in it (`aicLineAddr`, `aicMaskBit`) and writes
`MASK_SET` or `MASK_CLR`, or reads `HW_STATE`.

`AIC_MASK_BIT(num)` is `BIT(num) & GENMASK(4, 0)`: a shift by the whole number, cut down to five
bits, where a shift by the low five bits of the number was meant.  So it has a bit only for
numbers below 5, and for those that are 64 more, since the processor shifts modulo 64
(`maskBit_isOne`, `maskBit_zero`).

* `aicLineAddr_toNat`          the address, with the product cut down to 32 bits;
* `calculateRegisterOffsets_laid`   the offsets the driver computes keep the registers apart;
* `aicWrite_set`, `aicWrite_clear`   what a write does to the hardware mask.
-/

namespace AppleSilicon

/-! ## `ConvenienceMacros.h` -/

/-- `BIT(x)`; the processor shifts modulo 64 -/
def bit64 (x : UInt64) : UInt64 := 1 <<< x

/-- `GENMASK(msb, lsb)` -/
def genmask (msb lsb : UInt64) : UInt64 := (bit64 (msb + 1 - lsb) - 1) <<< lsb

def fieldLsb (field : UInt64) : UInt64 := field &&& ~~~(field - 1)

/-- `FIELD_GET(field, val)` -/
def fieldGet (field val : UInt64) : UInt64 := (val &&& field) / fieldLsb field

/-! ## `AppleAicLib` -/

/-- `APPLE_AIC_VERSION` -/
inductive AicVersion where
  | version1
  | version2
  | version3
  | unknown
deriving DecidableEq, Repr

/-- `AIC_INFO_STRUCT` -/
structure AicInfo where
  numIrqs : UInt32
  numCpuDies : UInt32
  maxIrqs : UInt32
  maxCpuDies : UInt32
  dieStride : UInt32
  regSize : UInt32
deriving DecidableEq, Repr

/-- `AIC_MASK_REG(num)` -/
def aicMaskReg (num : UInt32) : UInt32 := (4 : UInt32) * (num >>> 5)

/-- `AIC_MASK_BIT(num)` -/
def aicMaskBit (num : UInt32) : UInt64 := bit64 num.toUInt64 &&& genmask 4 0

structure MmioWrite where
  addr : UInt64
  value : UInt32
deriving DecidableEq, Repr

/-- the timer sources, which the mask registers do not have -/
def isTimerSource (source : UInt64) : Bool := source = 17 ∨ source = 18 ∨ source = 19

section
variable (version : AicVersion) (info : AicInfo) (aicBase source : UInt64)

/-- `CpuDieNum`: the offset of the die of the source, a `UINT32` -/
def cpuDieNum : UInt32 :=
  if version = .version2 then
    (source / info.maxIrqs.toUInt64 * info.dieStride.toUInt64).toUInt32
  else 0

/-- `IrqNum` -/
def irqNum : UInt32 := (source % info.maxIrqs.toUInt64).toUInt32

/-- the address of the word of a source in the registers at `offset` -/
def aicLineAddr (offset : UInt64) : UInt64 :=
  aicBase + offset + (cpuDieNum version info source).toUInt64 +
    (aicMaskReg (irqNum info source)).toUInt64

/-- the common body of `AppleAicMaskInterrupt` and `AppleAicUnmaskInterrupt` -/
def aicLineWrite (offset : UInt64) : List MmioWrite :=
  if isTimerSource source then []
  else [⟨aicLineAddr version info aicBase source offset,
    (aicMaskBit (irqNum info source)).toUInt32⟩]

def appleAicMaskInterrupt (aicMaskSetRegOffset : UInt64) : List MmioWrite :=
  aicLineWrite version info aicBase source aicMaskSetRegOffset

def appleAicUnmaskInterrupt (aicMaskClearRegOffset : UInt64) : List MmioWrite :=
  aicLineWrite version info aicBase source aicMaskClearRegOffset

/-- `AppleAicReadInterruptState`; it does not leave the timer sources out -/
def appleAicReadInterruptState (mmioRead32 : UInt64 → UInt32) (aicHwStateRegOffset : UInt64) :
    Bool :=
  let hwStateValue := mmioRead32 (aicLineAddr version info aicBase source aicHwStateRegOffset)
  let aicIrqMaskBit := (aicMaskBit (irqNum info source)).toUInt32
  hwStateValue &&& aicIrqMaskBit ≠ 0

end

/-! ## `AppleAicV2CalculateRegisterOffsets` -/

def aicV2InfoReg1 : UInt64 := 0x0004
def aicV2InfoReg3 : UInt64 := 0x000c
def aicV1HwInfo : UInt64 := 0x0004
def aicMaxIrq : UInt32 := 0x400
def aicTargetCpu : UInt64 := 0x3000
def aicV2IrqCfgReg : UInt64 := 0x2000

/-- `AIC_V2_NUM_AND_MAX_IRQS_MASK` -/
def aicV2NumAndMaxIrqsMask : UInt64 := genmask 15 0

/-- `AIC_V2_INFO_REG3_MAX_DIE_COUNT_BITFIELD` and `AIC_V2_INFO_REG1_LAST_CPU_DIE_BITFIELD` -/
def aicV2DieBitfield : UInt64 := genmask 27 24

/-- `AppleAicGetNumInterrupts` -/
def appleAicGetNumInterrupts (version : AicVersion) (mmioRead32 : UInt64 → UInt32)
    (aicBase : UInt64) : UInt32 :=
  match version with
  | .version2 => ((mmioRead32 (aicBase + aicV2InfoReg1)).toUInt64 &&&
      aicV2NumAndMaxIrqsMask).toUInt32
  | .version1 => ((mmioRead32 (aicBase + aicV1HwInfo)).toUInt64 &&& aicV2NumAndMaxIrqsMask).toUInt32
  | _ => 0

/-- `AppleAicGetMaxInterrupts` -/
def appleAicGetMaxInterrupts (version : AicVersion) (mmioRead32 : UInt64 → UInt32)
    (aicBase : UInt64) : UInt32 :=
  match version with
  | .version2 => ((mmioRead32 (aicBase + aicV2InfoReg3)).toUInt64 &&&
      aicV2NumAndMaxIrqsMask).toUInt32
  | .version1 => aicMaxIrq
  | _ => 0

/-- the register offsets of the driver -/
structure AicOffsets where
  irqCfg : UInt64
  softwareSet : UInt64
  softwareClear : UInt64
  irqMaskSet : UInt64
  irqMaskClear : UInt64
  hwState : UInt64
deriving DecidableEq, Repr

/-- the offsets, for `MaxIrqs` and the first one -/
def aicOffsets (maxIrqs : UInt32) (startOffset : UInt64) : AicOffsets :=
  let words := (4 : UInt64) * (maxIrqs >>> 5).toUInt64
  let softwareSet := startOffset + (4 : UInt64) * maxIrqs.toUInt64
  let softwareClear := softwareSet + words
  let irqMaskSet := softwareClear + words
  let irqMaskClear := irqMaskSet + words
  ⟨startOffset, softwareSet, softwareClear, irqMaskSet, irqMaskClear, irqMaskClear + words + words⟩

/-- the state of the driver: `AicV2Base`, `AicInfoStruct`, the offsets and `mAicV2EventReg` -/
structure AicV2 where
  version : AicVersion
  base : UInt64
  info : AicInfo
  offsets : AicOffsets
  eventReg : UInt64
deriving DecidableEq, Repr

/-- `AppleAicV2CalculateRegisterOffsets`, with the base and the event register offset that the
device tree gives -/
def calculateRegisterOffsets (version : AicVersion) (mmioRead32 : UInt64 → UInt32)
    (aicV2Base : UInt64) (aicIackOffset : UInt32) (maxCpuDies numCpuDies : UInt32) : AicV2 :=
  let numIrqs := appleAicGetNumInterrupts version mmioRead32 aicV2Base
  let maxIrqs := appleAicGetMaxInterrupts version mmioRead32 aicV2Base
  -- for the other versions the two fields are left as they are
  let dies : UInt32 × UInt32 := match version with
    | .version1 => (1, 1)
    | .version2 =>
      ((fieldGet aicV2DieBitfield (mmioRead32 (aicV2Base + aicV2InfoReg3)).toUInt64).toUInt32,
       (fieldGet aicV2DieBitfield (mmioRead32 (aicV2Base + aicV2InfoReg1)).toUInt64 + 1).toUInt32)
    | _ => (maxCpuDies, numCpuDies)
  let startOffset := if version = .version1 then aicTargetCpu else aicV2IrqCfgReg
  let eventReg := if version = .version2 then aicV2Base + aicIackOffset.toUInt64 else aicV2Base
  let offsets := aicOffsets maxIrqs startOffset
  { version := version
    base := aicV2Base
    info := { numIrqs := numIrqs
              numCpuDies := dies.2
              maxIrqs := maxIrqs
              maxCpuDies := dies.1
              dieStride := (offsets.hwState - startOffset).toUInt32
              regSize := (eventReg - aicV2Base + 4).toUInt32 }
    offsets := offsets
    eventReg := eventReg }

/-! ## the hardware -/

/-- the word `word` of a die in one of the three banks -/
inductive AicReg where
  | maskSet (die word : ℕ)
  | maskClear (die word : ℕ)
  | hwState (die word : ℕ)
deriving DecidableEq

namespace AicV2

def maxIrqs (aic : AicV2) : ℕ := aic.info.maxIrqs.toNat

def dieStride (aic : AicV2) : ℕ := aic.info.dieStride.toNat

def wordAddr (aic : AicV2) (offset : UInt64) (die word : ℕ) : ℕ :=
  aic.base.toNat + offset.toNat + die * aic.dieStride + 4 * word

def regAddr (aic : AicV2) : AicReg → ℕ
  | .maskSet die word => aic.wordAddr aic.offsets.irqMaskSet die word
  | .maskClear die word => aic.wordAddr aic.offsets.irqMaskClear die word
  | .hwState die word => aic.wordAddr aic.offsets.hwState die word

/-- the register exists on an AIC with `dies` dies -/
def HasWord (aic : AicV2) (dies die word : ℕ) : Prop := die < dies ∧ 32 * word < aic.maxIrqs

instance (aic : AicV2) (dies die word : ℕ) : Decidable (aic.HasWord dies die word) :=
  inferInstanceAs (Decidable (_ ∧ _))

def HasReg (aic : AicV2) (dies : ℕ) : AicReg → Prop
  | .maskSet die word => aic.HasWord dies die word
  | .maskClear die word => aic.HasWord dies die word
  | .hwState die word => aic.HasWord dies die word

/-- the registers are in the address space and different ones have different addresses -/
structure Laid (aic : AicV2) (dies : ℕ) : Prop where
  fits : ∀ r, aic.HasReg dies r → aic.regAddr r < 2^64
  apart : ∀ r s, aic.HasReg dies r → aic.HasReg dies s → aic.regAddr r = aic.regAddr s → r = s

/-- the hardware masks, one word of 32 lines for each die and word number -/
abbrev Masks := ℕ × ℕ → BitVec 32

/-- a write of 32 bits: `MASK_SET` sets the lines whose bit is one, `MASK_CLR` clears them, and
any other register leaves the masks alone -/
def write (aic : AicV2) (dies : ℕ) (m : Masks) (w : MmioWrite) : Masks := fun i =>
  if aic.HasWord dies i.1 i.2 ∧ w.addr.toNat = aic.regAddr (.maskSet i.1 i.2) then
    m i ||| w.value.toBitVec
  else if aic.HasWord dies i.1 i.2 ∧ w.addr.toNat = aic.regAddr (.maskClear i.1 i.2) then
    m i &&& ~~~w.value.toBitVec
  else m i

/-- the mask of the line `irq` of a die -/
def line (m : Masks) (die irq : ℕ) : Bool := lineAt m (die, irq / 32) (irq % 32)

/-- the die and the number on it that a source names -/
def die (aic : AicV2) (source : UInt64) : ℕ := source.toNat / aic.maxIrqs

def irq (aic : AicV2) (source : UInt64) : ℕ := source.toNat % aic.maxIrqs

end AicV2

/-! ## addresses -/

theorem aicMaskReg_toNat (num : UInt32) : (aicMaskReg num).toNat = 4 * (num.toNat / 32) := by
  have h := num.toNat_lt
  rw [aicMaskReg, UInt32.toNat_mul, UInt32.toNat_shiftRight]
  simp only [UInt32.reduceToNat, Nat.reduceMod, Nat.shiftRight_eq_div_pow, Nat.reducePow]
  omega

section
variable (aic : AicV2) (source : UInt64)

theorem irqNum_toNat (hmax : 0 < aic.maxIrqs) :
    (irqNum aic.info source).toNat = aic.irq source := by
  have hm := aic.info.maxIrqs.toNat_lt
  have hlt : source.toNat % aic.info.maxIrqs.toNat < aic.info.maxIrqs.toNat := Nat.mod_lt _ hmax
  rw [irqNum, UInt64.toNat_toUInt32, UInt64.toNat_mod, UInt32.toNat_toUInt64]
  exact Nat.mod_eq_of_lt (by omega)

theorem cpuDieNum_toNat (hv : aic.version = .version2) :
    (cpuDieNum aic.version aic.info source).toNat = aic.die source * aic.dieStride % 2^32 := by
  rw [cpuDieNum, if_pos hv, UInt64.toNat_toUInt32, UInt64.toNat_mul, UInt64.toNat_div,
    UInt32.toNat_toUInt64, UInt32.toNat_toUInt64, Nat.mod_mod_of_dvd _ (by decide)]
  rfl

/-- the address: the offset of the die is cut down to 32 bits -/
theorem aicLineAddr_toNat (hv : aic.version = .version2) (hmax : 0 < aic.maxIrqs)
    (offset : UInt64) (h : aic.wordAddr offset (aic.die source) (aic.irq source / 32) < 2^64) :
    (aicLineAddr aic.version aic.info aic.base source offset).toNat
      = aic.base.toNat + offset.toNat + aic.die source * aic.dieStride % 2^32
        + 4 * (aic.irq source / 32) := by
  have hle := Nat.mod_le (aic.die source * aic.dieStride) (2^32)
  unfold AicV2.wordAddr at h
  rw [aicLineAddr, UInt64.toNat_add, UInt64.toNat_add, UInt64.toNat_add, UInt32.toNat_toUInt64,
    UInt32.toNat_toUInt64, cpuDieNum_toNat aic source hv, aicMaskReg_toNat,
    irqNum_toNat aic source hmax]
  omega

theorem hasWord_source (dies : ℕ) (hmax : 0 < aic.maxIrqs)
    (hs : source.toNat < aic.maxIrqs * dies) :
    aic.HasWord dies (aic.die source) (aic.irq source / 32) := by
  have hlt : aic.irq source < aic.maxIrqs := Nat.mod_lt _ hmax
  exact ⟨Nat.div_lt_of_lt_mul hs, by omega⟩

end

/-! ## the bit -/

theorem bit64_mod (x : UInt64) : bit64 x = bit64 (x % 64) := by
  apply UInt64.toNat_inj.mp
  rw [bit64, bit64, UInt64.toNat_shiftLeft, UInt64.toNat_shiftLeft, UInt64.toNat_mod]
  simp

theorem maskBit_table : ∀ k : Fin 64, ∀ c : Fin 32,
    ((bit64 (UInt64.ofNat k) &&& genmask 4 0).toUInt32.toBitVec).getLsbD c
      = decide (k.val < 5 ∧ c.val = k.val) := by decide +kernel

theorem maskBit_getLsbD (num : UInt32) (c : ℕ) (hc : c < 32) :
    (aicMaskBit num).toUInt32.toBitVec.getLsbD c
      = decide (num.toNat % 64 < 5 ∧ c = num.toNat % 64) := by
  have hk : num.toNat % 64 < 64 := Nat.mod_lt _ (by norm_num)
  have he : num.toUInt64 % 64 = UInt64.ofNat (num.toNat % 64) := by
    apply UInt64.toNat_inj.mp
    rw [UInt64.toNat_mod, UInt32.toNat_toUInt64, UInt64.toNat_ofNat',
      Nat.mod_eq_of_lt (lt_trans hk (by decide))]
    rfl
  rw [aicMaskBit, bit64_mod, he]
  exact maskBit_table ⟨num.toNat % 64, hk⟩ ⟨c, hc⟩

theorem maskBit_isOne (num : UInt32) (h : num.toNat % 64 < 5) :
    IsOne (aicMaskBit num).toUInt32.toBitVec (num.toNat % 32) := by
  intro c hc
  rw [maskBit_getLsbD num c hc]
  have he : num.toNat % 64 = num.toNat % 32 := by omega
  rw [he] at h ⊢
  simp [h]

theorem maskBit_zero (num : UInt32) (h : ¬ num.toNat % 64 < 5) :
    (aicMaskBit num).toUInt32.toBitVec = 0 := by
  apply BitVec.eq_of_getLsbD_eq
  intro c hc
  rw [maskBit_getLsbD num c hc]
  simp [h]

/-! ## writes -/

section
variable (aic : AicV2) (dies : ℕ) (hlaid : aic.Laid dies) (m : AicV2.Masks) (w : MmioWrite)
include hlaid

/-- a write to the address of a register is a write to no other -/
theorem writesReg_iff (r s : AicReg) (hr : aic.HasReg dies r) (hw : w.addr.toNat = aic.regAddr r) :
    aic.HasReg dies s ∧ w.addr.toNat = aic.regAddr s ↔ s = r := by
  constructor
  · intro h
    exact hlaid.apart s r h.1 hr (h.2.symm.trans hw)
  · intro h
    subst h
    exact ⟨hr, hw⟩

theorem aicWrite_set (die word : ℕ) (hreg : aic.HasWord dies die word)
    (hw : w.addr.toNat = aic.regAddr (.maskSet die word)) :
    aic.write dies m w = setOnes m (die, word) w.value.toBitVec := by
  funext i
  have hset : aic.HasWord dies i.1 i.2 ∧ w.addr.toNat = aic.regAddr (.maskSet i.1 i.2) ↔
      AicReg.maskSet i.1 i.2 = .maskSet die word :=
    writesReg_iff aic dies hlaid w (.maskSet die word) (.maskSet i.1 i.2) hreg hw
  have hclear : aic.HasWord dies i.1 i.2 ∧ w.addr.toNat = aic.regAddr (.maskClear i.1 i.2) ↔
      AicReg.maskClear i.1 i.2 = .maskSet die word :=
    writesReg_iff aic dies hlaid w (.maskSet die word) (.maskClear i.1 i.2) hreg hw
  rw [AicV2.write, setOnes]
  by_cases hi : i = (die, word)
  · subst hi
    rw [if_pos (hset.mpr rfl), Function.update_self]
  · have hne : AicReg.maskSet i.1 i.2 ≠ .maskSet die word := by
      intro h
      obtain ⟨h1, h2⟩ := AicReg.maskSet.inj h
      exact hi (Prod.ext h1 h2)
    rw [if_neg (fun h => hne (hset.mp h)), if_neg (fun h => nomatch hclear.mp h),
      Function.update_of_ne hi]

theorem aicWrite_clear (die word : ℕ) (hreg : aic.HasWord dies die word)
    (hw : w.addr.toNat = aic.regAddr (.maskClear die word)) :
    aic.write dies m w = clearOnes m (die, word) w.value.toBitVec := by
  funext i
  have hset : aic.HasWord dies i.1 i.2 ∧ w.addr.toNat = aic.regAddr (.maskSet i.1 i.2) ↔
      AicReg.maskSet i.1 i.2 = .maskClear die word :=
    writesReg_iff aic dies hlaid w (.maskClear die word) (.maskSet i.1 i.2) hreg hw
  have hclear : aic.HasWord dies i.1 i.2 ∧ w.addr.toNat = aic.regAddr (.maskClear i.1 i.2) ↔
      AicReg.maskClear i.1 i.2 = .maskClear die word :=
    writesReg_iff aic dies hlaid w (.maskClear die word) (.maskClear i.1 i.2) hreg hw
  rw [AicV2.write, clearOnes, if_neg (fun h => nomatch hset.mp h)]
  by_cases hi : i = (die, word)
  · subst hi
    rw [if_pos (hclear.mpr rfl), Function.update_self]
  · have hne : AicReg.maskClear i.1 i.2 ≠ .maskClear die word := by
      intro h
      obtain ⟨h1, h2⟩ := AicReg.maskClear.inj h
      exact hi (Prod.ext h1 h2)
    rw [if_neg (fun h => hne (hclear.mp h)), Function.update_of_ne hi]

end

/-- a write of zero changes nothing -/
theorem aicWrite_zero (aic : AicV2) (dies : ℕ) (m : AicV2.Masks) (w : MmioWrite)
    (h : w.value.toBitVec = 0) : aic.write dies m w = m := by
  funext i
  have h1 : m i ||| 0 = m i := BitVec.or_zero
  have h2 : m i &&& ~~~(0 : BitVec 32) = m i := by
    rw [BitVec.ofNat_eq_ofNat, BitVec.not_zero, BitVec.and_allOnes]
  rw [AicV2.write, h, h1, h2, ite_self, ite_self]

/-! ## the offsets of the driver -/

theorem stride_unique (stride q q' r r' : ℕ) (hr : r < stride) (hr' : r' < stride)
    (h : q * stride + r = q' * stride + r') : q = q' ∧ r = r' := by
  have hq : q = q' := by
    have h1 : (q * stride + r) / stride = q := by
      rw [Nat.mul_comm, Nat.mul_add_div (by omega), Nat.div_eq_of_lt hr, Nat.add_zero]
    have h2 : (q' * stride + r') / stride = q' := by
      rw [Nat.mul_comm, Nat.mul_add_div (by omega), Nat.div_eq_of_lt hr', Nat.add_zero]
    rw [← h1, h, h2]
  subst hq
  exact ⟨rfl, Nat.add_left_cancel h⟩

theorem aicOffsets_toNat (maxIrqs : UInt32) (h : maxIrqs.toNat < 2^16) :
    let o := aicOffsets maxIrqs aicV2IrqCfgReg
    let m := maxIrqs.toNat
    o.irqMaskSet.toNat = 0x2000 + 4 * m + 8 * (m / 32) ∧
      o.irqMaskClear.toNat = 0x2000 + 4 * m + 12 * (m / 32) ∧
      o.hwState.toNat = 0x2000 + 4 * m + 20 * (m / 32) ∧
      (o.hwState - aicV2IrqCfgReg).toUInt32.toNat = 4 * m + 20 * (m / 32) := by
  have h5 : (maxIrqs >>> 5).toUInt64.toNat = maxIrqs.toNat / 32 := by
    rw [UInt32.toNat_toUInt64, UInt32.toNat_shiftRight]
    simp [Nat.shiftRight_eq_div_pow]
  have hstart : aicV2IrqCfgReg.toNat = 0x2000 := rfl
  simp only [aicOffsets, UInt64.toNat_toUInt32, UInt64.toNat_sub, UInt64.toNat_add,
    UInt64.toNat_mul, UInt32.toNat_toUInt64, h5, hstart, UInt64.reduceToNat]
  omega

theorem numAndMaxIrqs_lt (v : UInt32) :
    (v.toUInt64 &&& aicV2NumAndMaxIrqsMask).toUInt32.toNat < 2^16 := by
  have hm : aicV2NumAndMaxIrqsMask.toNat = 2^16 - 1 := by decide
  rw [UInt64.toNat_toUInt32, UInt64.toNat_and, hm, Nat.and_two_pow_sub_one_eq_mod]
  omega

/-- the offsets and the stride that the driver computes, as numbers -/
structure AicV2.Computed (aic : AicV2) : Prop where
  maskSet : aic.offsets.irqMaskSet.toNat = 0x2000 + 4 * aic.maxIrqs + 8 * (aic.maxIrqs / 32)
  maskClear : aic.offsets.irqMaskClear.toNat = 0x2000 + 4 * aic.maxIrqs + 12 * (aic.maxIrqs / 32)
  hwState : aic.offsets.hwState.toNat = 0x2000 + 4 * aic.maxIrqs + 20 * (aic.maxIrqs / 32)
  stride : aic.dieStride = 4 * aic.maxIrqs + 20 * (aic.maxIrqs / 32)

theorem calculateRegisterOffsets_computed (mmioRead32 : UInt64 → UInt32) (aicV2Base : UInt64)
    (aicIackOffset maxCpuDies numCpuDies : UInt32) :
    (calculateRegisterOffsets .version2 mmioRead32 aicV2Base aicIackOffset maxCpuDies
      numCpuDies).Computed := by
  obtain ⟨h1, h2, h3, h4⟩ := aicOffsets_toNat _
    (numAndMaxIrqs_lt (mmioRead32 (aicV2Base + aicV2InfoReg3)))
  exact ⟨h1, h2, h3, h4⟩

/-- the die whose stride a register lies in, and its place in there; `HW_STATE` begins where the
stride of the next die does -/
def AicV2.place (aic : AicV2) : AicReg → ℕ × ℕ
  | .maskSet die word => (die, 4 * aic.maxIrqs + 8 * (aic.maxIrqs / 32) + 4 * word)
  | .maskClear die word => (die, 4 * aic.maxIrqs + 12 * (aic.maxIrqs / 32) + 4 * word)
  | .hwState die word => (die + 1, 4 * word)

section
variable (aic : AicV2) (dies : ℕ) (hc : aic.Computed)
include hc

theorem regAddr_place (r : AicReg) :
    aic.regAddr r
      = aic.base.toNat + 0x2000 + ((aic.place r).1 * aic.dieStride + (aic.place r).2) := by
  cases r with
  | maskSet die word =>
    rw [AicV2.regAddr, AicV2.wordAddr, hc.maskSet, AicV2.place]
    dsimp only
    omega
  | maskClear die word =>
    rw [AicV2.regAddr, AicV2.wordAddr, hc.maskClear, AicV2.place]
    dsimp only
    omega
  | hwState die word =>
    have hsucc : (die + 1) * aic.dieStride = die * aic.dieStride + aic.dieStride := Nat.succ_mul _ _
    rw [AicV2.regAddr, AicV2.wordAddr, hc.hwState, AicV2.place, hsucc, hc.stride]
    omega

theorem place_lt (hmul : aic.maxIrqs % 32 = 0) (r : AicReg) (hr : aic.HasReg dies r) :
    (aic.place r).1 ≤ dies ∧ (aic.place r).2 < aic.dieStride := by
  rw [hc.stride]
  cases r with
  | maskSet die word =>
    obtain ⟨hd, hw⟩ := hr
    simp only [AicV2.place]
    omega
  | maskClear die word =>
    obtain ⟨hd, hw⟩ := hr
    simp only [AicV2.place]
    omega
  | hwState die word =>
    obtain ⟨hd, hw⟩ := hr
    simp only [AicV2.place]
    omega

omit hc in
theorem place_inj (hmul : aic.maxIrqs % 32 = 0) (r s : AicReg) (hr : aic.HasReg dies r)
    (hs : aic.HasReg dies s) (h : aic.place r = aic.place s) : r = s := by
  -- the banks follow one another, and within a bank the words do
  cases r <;> cases s <;>
    simp only [AicV2.HasReg, AicV2.HasWord, AicV2.place, Prod.mk.injEq, AicReg.maskSet.injEq,
      AicReg.maskClear.injEq, AicReg.hwState.injEq, reduceCtorEq] at hr hs h ⊢ <;>
    omega

theorem computed_laid (hmul : aic.maxIrqs % 32 = 0)
    (hspace : aic.base.toNat + 0x2000 + (dies + 1) * aic.dieStride ≤ 2^64) : aic.Laid dies := by
  constructor
  · intro r hr
    obtain ⟨hdie, hlt⟩ := place_lt aic dies hc hmul r hr
    have hle : (aic.place r).1 * aic.dieStride ≤ dies * aic.dieStride :=
      Nat.mul_le_mul_right _ hdie
    have hsucc : (dies + 1) * aic.dieStride = dies * aic.dieStride + aic.dieStride :=
      Nat.succ_mul _ _
    rw [regAddr_place aic hc r]
    omega
  · intro r s hr hs he
    rw [regAddr_place aic hc r, regAddr_place aic hc s] at he
    obtain ⟨h1, h2⟩ := stride_unique aic.dieStride _ _ _ _ (place_lt aic dies hc hmul r hr).2
      (place_lt aic dies hc hmul s hs).2 (Nat.add_left_cancel he)
    exact place_inj aic dies hmul r s hr hs (Prod.ext h1 h2)

end

/-- **the registers are apart** at the offsets of the driver, for a number of lines that is a
multiple of 32 and as many dies as fit into the address space -/
theorem calculateRegisterOffsets_laid (mmioRead32 : UInt64 → UInt32) (aicV2Base : UInt64)
    (aicIackOffset maxCpuDies numCpuDies : UInt32) (dies : ℕ) :
    let aic := calculateRegisterOffsets .version2 mmioRead32 aicV2Base aicIackOffset maxCpuDies
      numCpuDies
    aic.maxIrqs % 32 = 0 → aic.base.toNat + 0x2000 + (dies + 1) * aic.dieStride ≤ 2^64 →
    aic.Laid dies := by
  intro aic hmul hspace
  apply computed_laid aic dies _ hmul hspace
  exact calculateRegisterOffsets_computed mmioRead32 aicV2Base aicIackOffset maxCpuDies numCpuDies

end AppleSilicon
