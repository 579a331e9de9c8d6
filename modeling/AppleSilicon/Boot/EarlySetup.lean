import AppleSilicon.Dt.Check
import AppleSilicon.Dt.Reg
import AppleSilicon.Hob.MemoryPeim

/-!
# `EarlySetup`

The first C code of the firmware copies `boot_args` and the tree to fixed places, checks the copy
of the tree, and publishes the memory range and the framebuffer as PCDs.  The size of the framebuffer
is rounded up to 16 KiB.

* `earlySetup_published`   what is published, and that the tree was checked;
* `alignUp_toNat`          rounding up to 16 KiB, where the sum fits into 64 bits.
-/

namespace AppleSilicon

/-- `struct boot_video` -/
structure BootVideo where
  base : UInt64
  display : UInt64
  stride : UInt64
  width : UInt64
  height : UInt64
  depth : UInt64
deriving DecidableEq, Repr

/-- the fields of `struct boot_args` that the firmware reads -/
structure BootArgs where
  virtBase : UInt64
  physBase : UInt64
  memSize : UInt64
  video : BootVideo
  devtree : UInt64
  devtreeSize : UInt32
deriving DecidableEq, Repr

/-- `sizeof (struct boot_args)` -/
def bootArgsSize : ℕ := 1152

namespace Mem

/-- `*(uint64_t *)a` -/
def le64 (mem : Mem) (a : ℕ) : Option UInt64 :=
  (mem.le32 a).bind fun lo => (mem.le32 (a + 4)).map fun hi => UInt64.ofNat (lo + 2^32 * hi)

/-- `*(struct boot_video *)a` -/
def bootVideo (mem : Mem) (a : ℕ) : Option BootVideo := do
  let base ← mem.le64 a
  let display ← mem.le64 (a + 8)
  let stride ← mem.le64 (a + 16)
  let width ← mem.le64 (a + 24)
  let height ← mem.le64 (a + 32)
  let depth ← mem.le64 (a + 40)
  pure ⟨base, display, stride, width, height, depth⟩

/-- `*(struct boot_args *)a` -/
def bootArgs (mem : Mem) (a : ℕ) : Option BootArgs := do
  let virtBase ← mem.le64 (a + 8)
  let physBase ← mem.le64 (a + 16)
  let memSize ← mem.le64 (a + 24)
  let video ← mem.bootVideo (a + 40)
  let devtree ← mem.le64 (a + 96)
  let devtreeSize ← mem.le32 (a + 104)
  pure ⟨virtBase, physBase, memSize, video, devtree, UInt32.ofNat devtreeSize⟩

/-- `CopyMem` -/
def copy (mem : Mem) (destination source length : ℕ) : Mem := fun x =>
  if destination ≤ x ∧ x < destination + length then mem (source + (x - destination)) else mem x

end Mem

/-- `ALIGN_UP(x, a)` -/
def alignUp (x a : UInt64) : UInt64 := (x + (a - 1)) &&& ~~~(a - 1)

/-- the PCDs that `EarlySetup` patches, and the two that it is given pointers to -/
structure Published where
  systemMemoryBase : UInt64
  systemMemorySize : UInt64
  frameBufferAddress : UInt64
  frameBufferSize : UInt64
deriving DecidableEq, Repr

def publish (bootArgs : BootArgs) : Published where
  systemMemoryBase := bootArgs.physBase
  systemMemorySize := bootArgs.physBase + bootArgs.memSize - bootArgs.physBase
  frameBufferAddress := bootArgs.video.base
  frameBufferSize := alignUp (bootArgs.video.stride * bootArgs.video.height) 0x4000

/-- `EarlySetup`: the memory after the two copies, and what is published if `dt_check` accepts the
copy of the tree; `boot_args` is read again after each copy -/
def earlySetup (mem : Mem) (bootArgsAddr : ℕ) (pcdBootArgsDest pcdAdtDest : UInt64) :
    Option (Mem × Option Published) :=
  let mem1 := mem.copy pcdBootArgsDest.toNat bootArgsAddr bootArgsSize
  (mem1.bootArgs bootArgsAddr).bind fun a1 =>
    let devtree := a1.devtree - a1.virtBase + a1.physBase
    let mem2 := mem1.copy pcdAdtDest.toNat devtree.toNat a1.devtreeSize.toNat
    (mem2.bootArgs bootArgsAddr).bind fun a2 =>
      (dtCheck mem2 pcdAdtDest.toNat a2.devtreeSize.toNat).map fun out =>
        (mem2, if out.ret ≠ 0 then none else some (publish a2))

/-- the PCDs once they are published -/
def Pcds.publish (pcd : Pcds) (p : Published) : Pcds :=
  { pcd with
    systemMemoryBase := p.systemMemoryBase
    systemMemorySize := p.systemMemorySize
    frameBufferAddress := p.frameBufferAddress
    frameBufferSize := p.frameBufferSize }

/-- what is published are fields of the `boot_args` that `EarlySetup` leaves in memory -/
theorem earlySetup_published (mem mem' : Mem) (bootArgsAddr : ℕ)
    (pcdBootArgsDest pcdAdtDest : UInt64) (p : Published)
    (h : earlySetup mem bootArgsAddr pcdBootArgsDest pcdAdtDest = some (mem', some p)) :
    ∃ bootArgs, mem'.bootArgs bootArgsAddr = some bootArgs ∧ p = publish bootArgs ∧
      ∃ out, dtCheck mem' pcdAdtDest.toNat bootArgs.devtreeSize.toNat = some out ∧ out.ret = 0 := by
  obtain ⟨a1, _, h⟩ := Option.bind_eq_some_iff.mp h
  obtain ⟨a2, ha2, h⟩ := Option.bind_eq_some_iff.mp h
  obtain ⟨out, hout, he⟩ := Option.map_eq_some_iff.mp h
  obtain ⟨rfl, hp⟩ := Prod.mk.inj he
  by_cases hret : out.ret ≠ 0
  · rw [if_pos hret] at hp
    cases hp
  · rw [if_neg hret] at hp
    exact ⟨a2, ha2, (Option.some.inj hp).symm, out, hout, not_not.mp hret⟩

/-! ## reading `boot_args` -/

theorem le64_congr (mem mem' : Mem) (a : ℕ) (h : ∀ i, i < 8 → mem' (a + i) = mem (a + i)) :
    mem'.le64 a = mem.le64 a := by
  have h1 := Mem.le32_congr mem mem' a (fun i hi => h i (by omega))
  have h2 := Mem.le32_congr mem mem' (a + 4) (fun i hi => by rw [Nat.add_assoc]; exact h _ (by omega))
  rw [Mem.le64, Mem.le64, h1, h2]

/-- two memories that agree on the structure hold the same `boot_args` -/
theorem bootArgs_congr (mem mem' : Mem) (a : ℕ)
    (h : ∀ i, i < bootArgsSize → mem' (a + i) = mem (a + i)) :
    mem'.bootArgs a = mem.bootArgs a := by
  have hword : ∀ k, k + 8 ≤ bootArgsSize → mem'.le64 (a + k) = mem.le64 (a + k) := by
    intro k hk
    apply le64_congr
    intro i hi
    rw [Nat.add_assoc]
    exact h _ (by omega)
  have hsize : mem'.le32 (a + 104) = mem.le32 (a + 104) := by
    apply Mem.le32_congr
    intro i hi
    rw [Nat.add_assoc]
    exact h _ (by rw [bootArgsSize]; omega)
  unfold Mem.bootArgs Mem.bootVideo
  simp only [Nat.add_assoc, Nat.reduceAdd]
  rw [hword 8 (by decide), hword 16 (by decide), hword 24 (by decide), hword 40 (by decide),
    hword 48 (by decide), hword 56 (by decide), hword 64 (by decide), hword 72 (by decide),
    hword 80 (by decide), hword 96 (by decide), hsize]

/-- a value of 64 bits, least significant byte first -/
def longBytes (v : ℕ) : List UInt8 := wordBytes (v % 2^32) ++ wordBytes (v / 2^32)

/-! ## rounding up -/

/-- clearing the low bits is rounding down -/
theorem and_not_low (k v : ℕ) (hv : v < 2^64) (hk : k ≤ 64) :
    v &&& (2^64 - 2^k) = v / 2^k * 2^k := by
  have hsub : 2^64 - 2^k = 2^64 - ((2^k - 1) + 1) := by
    have hpos := Nat.two_pow_pos k
    omega
  have hlt : 2^k - 1 < 2^64 := by
    have hle := Nat.pow_le_pow_right (show 0 < 2 by norm_num) hk
    have hpos := Nat.two_pow_pos k
    omega
  apply Nat.eq_of_testBit_eq
  intro i
  rw [Nat.testBit_and, hsub, Nat.testBit_two_pow_sub_succ hlt, Nat.testBit_two_pow_sub_one,
    Nat.testBit_mul_two_pow, Nat.testBit_div_two_pow]
  by_cases hi : k ≤ i
  · rw [Nat.sub_add_cancel hi]
    by_cases hi64 : i < 64
    · simp [hi, hi64, not_lt.mpr hi]
    · have hz : v.testBit i = false :=
        Nat.testBit_lt_two_pow (hv.trans_le (Nat.pow_le_pow_right (by norm_num) (not_lt.mp hi64)))
      simp [hz]
  · simp [hi, not_le.mp hi]

/-- **rounding up to 16 KiB** is exact when the sum fits into 64 bits -/
theorem alignUp_toNat (x : UInt64) (h : x.toNat + 0x3fff < 2^64) :
    (alignUp x 0x4000).toNat = (x.toNat + 0x3fff) / 0x4000 * 0x4000 := by
  have hmask : (~~~((0x4000 : UInt64) - 1)).toNat = 2^64 - 2^14 := by decide
  have hsum : (x + ((0x4000 : UInt64) - 1)).toNat = x.toNat + 0x3fff := toNat_add_of_lt x _ h
  rw [alignUp, UInt64.toNat_and, hmask, hsum, and_not_low 14 _ h (by norm_num)]
  norm_num

end AppleSilicon
