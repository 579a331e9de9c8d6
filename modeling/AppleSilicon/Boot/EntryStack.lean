import AppleSilicon.Hob.Partition
import AppleSilicon.Lib.Flags
import AppleSilicon.Lib.Loop

/-!
# `ModuleEntryPoint.S`: the UEFI region and the stack

The entry code puts the UEFI region, with the stack on its top, behind the firmware device or, where
there is no room, in front of it.  The top it starts from is inclusive behind the firmware device
and exclusive in front of it, and 1 is added to both.

* `moduleEntryStack_regs`      the registers at `_ClearStack`;
* `clearStack_leaves`          the loop ends, and where;
* `stack_placed_iff`           the region is placed right exactly when it fits behind the firmware
  device;
* `stack_never_handed_over`    the base that the C code is given is not that of the stack.
-/

namespace AppleSilicon

/-- the registers that the entry code uses -/
structure EntryRegs where
  x0 : BitVec 64
  x1 : BitVec 64
  x2 : BitVec 64
  x3 : BitVec 64
  x4 : BitVec 64
  x11 : BitVec 64
  x12 : BitVec 64
  x22 : BitVec 64
  x26 : BitVec 64
  sp : BitVec 64
deriving DecidableEq, Repr

def pcdSystemMemoryUefiRegionSize : BitVec 32 := 0x8000000

def efiPageMask : BitVec 64 := 0xfff

/-! ## the code -/

/-- `_ModuleEntrySetupStack`, up to `_SetupStack` -/
def moduleEntrySetupStack (pcd : Pcds) (r : EntryRegs) : EntryRegs :=
  -- SystemMemoryTop, inclusive
  let x1 := pcd.systemMemoryBase.toBitVec
  let x2 := pcd.systemMemorySize.toBitVec - 1
  let x1 := x1 + x2
  -- FdTop, inclusive
  let x2 := pcd.fdBaseAddress.toBitVec
  let x3 := pcd.fdSize.toBitVec.setWidth 64 - 1
  let x3 := x3 + x2
  let x4 := pcdSystemMemoryUefiRegionSize.setWidth 64
  let x0 := x1 - x3
  let x1 :=
    if (subFlags x1 x3).mi then x1
    else if (subFlags x0 x4).ge then x1
    else x2
  { r with x0 := x0, x1 := x1, x2 := x2, x3 := x3, x4 := x4 }

/-- `_SetupStack`, with `_SetupAlignedStack` and `_SetupOverflowStack` -/
def setupStack (r : EntryRegs) : EntryRegs :=
  let x11 := r.x1 + 1
  if (addFlags r.x1 1).cs then { r with x11 := x11, x1 := r.x1 &&& ~~~efiPageMask }
  else { r with x11 := x11, x1 := x11 }

/-- `_GetBaseUefiMemory` -/
def getBaseUefiMemory (r : EntryRegs) : EntryRegs :=
  { r with x11 := r.x1 - r.x4, x22 := r.x1 - r.x4 }

/-- `_GetStackBase` -/
def getStackBase (r : EntryRegs) : EntryRegs :=
  { r with x2 := 0x20000, x12 := r.x1 - 0x20000 - 0x40, x1 := r.x1 - 0x40 }

/-- the code from `_ModuleEntrySetupStack` to `_ClearStack` -/
def moduleEntryStack (pcd : Pcds) (r : EntryRegs) : EntryRegs :=
  getStackBase (getBaseUefiMemory (setupStack (moduleEntrySetupStack pcd r)))

/-- the registers, and the bytes written -/
structure ClearStack where
  regs : EntryRegs
  written : List (BitVec 64 × UInt8)

/-- `st4` of four registers that are zero -/
def st4Zero (a : BitVec 64) : List (BitVec 64 × UInt8) :=
  (List.range 64).map fun j => (a + BitVec.ofNat 64 j, 0)

/-- a turn of `_ClearStack`: the address is moved on behind what is written, and compared with the
size -/
def clearStackTurn (s : ClearStack) : Option (Turn ClearStack ClearStack) :=
  let written := s.written ++ st4Zero s.regs.x12
  let x12 := s.regs.x12 + 64
  if (subFlags x12 s.regs.x2).lt then some (.again ⟨{ s.regs with x12 := x12 }, written⟩)
  else some (.leave ⟨{ s.regs with x12 := x12 }, written⟩)

/-- `_ClearStack`, with `n` turns -/
def clearStack (n : ℕ) (r : EntryRegs) : Option ClearStack := runLoop clearStackTurn n ⟨r, []⟩

def setStackPointer (r : EntryRegs) : EntryRegs := { r with sp := r.x1 }

/-- `_PrepareArgumentsAndJump`: what `CEntryPoint` gets -/
def prepareArgumentsAndJump (r : EntryRegs) : EntryRegs :=
  { r with x0 := r.x12, x1 := r.x2, x2 := r.x26, x3 := r.x22 }

/-! ## the loop -/

theorem size_toInt : (0x20000 : BitVec 64).toInt = 0x20000 := by decide

/-- a turn that starts below the size: it leaves just behind it, or goes on 64 bytes further -/
theorem clearStackTurn_below (s : ClearStack) (h2 : s.regs.x2 = 0x20000)
    (h : s.regs.x12.toInt < 0x20000) :
    (∃ s', clearStackTurn s = some (.again s') ∧ s'.regs = { s.regs with x12 := s.regs.x12 + 64 } ∧
      s'.regs.x12.toInt = s.regs.x12.toInt + 64 ∧ s'.regs.x12.toInt < 0x20000) ∨
    ∃ out, clearStackTurn s = some (.leave out) ∧
      out.regs = { s.regs with x12 := s.regs.x12 + 64 } ∧ 0x20000 ≤ out.regs.x12.toNat ∧
      out.regs.x12.toNat < 0x20040 := by
  have hlow := BitVec.le_two_mul_toInt (x := s.regs.x12)
  have hadd : (s.regs.x12 + 64).toInt = s.regs.x12.toInt + 64 := by
    rw [BitVec.toInt_add, show (64 : BitVec 64).toInt = 64 by decide]
    exact Int.bmod_eq_of_le (by omega) (by omega)
  have hcond : (subFlags (s.regs.x12 + 64) s.regs.x2).lt
      = decide (s.regs.x12.toInt + 64 < 0x20000) := by
    rw [subFlags_lt (w := 63), hadd, h2, size_toInt]
  rw [clearStackTurn]
  by_cases hlt : s.regs.x12.toInt + 64 < 0x20000
  · rw [decide_eq_true hlt] at hcond
    rw [if_pos hcond]
    exact .inl ⟨_, rfl, rfl, hadd, by rw [hadd]; exact hlt⟩
  · rw [decide_eq_false hlt] at hcond
    rw [if_neg (by rw [hcond]; decide)]
    have hnat : ((s.regs.x12 + 64).toNat : Int) = s.regs.x12.toInt + 64 := by
      rw [← hadd, BitVec.toInt_eq_toNat_of_msb]
      rw [BitVec.msb_eq_toInt, hadd]
      exact decide_eq_false (by omega)
    exact .inr ⟨_, rfl, rfl, by show 0x20000 ≤ (s.regs.x12 + 64).toNat; omega,
      by show (s.regs.x12 + 64).toNat < 0x20040; omega⟩

/-- from below the size the loop ends just behind it -/
theorem clearStack_below (s : ClearStack) (h2 : s.regs.x2 = 0x20000)
    (h : s.regs.x12.toInt < 0x20000) :
    ∃ n out, runLoop clearStackTurn n s = some out ∧
      out.regs = { s.regs with x12 := out.regs.x12 } ∧ 0x20000 ≤ out.regs.x12.toNat ∧
      out.regs.x12.toNat < 0x20040 := by
  refine ⟨_, runLoop_total clearStackTurn
    (fun s' => s'.regs = { s.regs with x12 := s'.regs.x12 } ∧ s'.regs.x12.toInt < 0x20000)
    (fun s' => (0x20000 - s'.regs.x12.toInt).toNat) _ ?_ _ s ⟨rfl, h⟩ (Nat.lt_succ_self _)⟩
  intro s' hinv
  obtain ⟨hregs, hlt⟩ := hinv
  have h2' : s'.regs.x2 = 0x20000 := by
    rw [hregs]
    exact h2
  rcases clearStackTurn_below s' h2' hlt with
    ⟨s₁, hturn, hregs₁, hint, hlt₁⟩ | ⟨out, hturn, hregs₁, hend⟩
  · refine .inl ⟨s₁, hturn, ⟨?_, hlt₁⟩, by omega⟩
    rw [hregs₁, hregs]
  · refine .inr ⟨out, hturn, ?_, hend⟩
    rw [hregs₁, hregs]

/-- where the first comparison fails the loop clears 64 bytes -/
theorem clearStack_once (r : EntryRegs) (h : (subFlags (r.x12 + 64) r.x2).lt = false) :
    clearStack 1 r = some ⟨{ r with x12 := r.x12 + 64 }, st4Zero r.x12⟩ := by
  rw [clearStack, runLoop, clearStackTurn, if_neg (by rw [h]; decide)]
  rfl

/-- **the loop ends**, has moved only its address, and never back to where it started -/
theorem clearStack_leaves (r : EntryRegs) (h2 : r.x2 = 0x20000) :
    ∃ n out, clearStack n r = some out ∧ out.regs = { r with x12 := out.regs.x12 } ∧
      out.regs.x12 ≠ r.x12 := by
  cases hlt : (subFlags (r.x12 + 64) r.x2).lt with
  | true =>
    have hint : (r.x12 + 64).toInt < 0x20000 := by
      rw [subFlags_lt (w := 63), h2, size_toInt] at hlt
      exact of_decide_eq_true hlt
    obtain ⟨n, out, hrun, hregs, hlo, hhi⟩ :=
      clearStack_below ⟨{ r with x12 := r.x12 + 64 }, [] ++ st4Zero r.x12⟩ h2 hint
    refine ⟨n + 1, out, ?_, hregs, ?_⟩
    · rw [clearStack, runLoop, clearStackTurn, if_pos hlt]
      exact hrun
    · intro he
      rw [he] at hlo hhi
      have hnat : (r.x12 + 64).toInt = (r.x12 + 64).toNat := by
        refine BitVec.toInt_eq_toNat_of_msb ?_
        rw [BitVec.msb_eq_decide]
        exact decide_eq_false (by bv_omega)
      bv_omega
  | false =>
    refine ⟨1, _, clearStack_once r hlt, rfl, ?_⟩
    show r.x12 + 64 ≠ r.x12
    bv_omega

/-! ## what `CEntryPoint` gets -/

/-- what the calls that enable the caches are taken to preserve -/
def PreservesEntry (call : EntryRegs → EntryRegs) : Prop :=
  ∀ r, (call r).x2 = r.x2 ∧ (call r).x12 = r.x12 ∧ (call r).x22 = r.x22 ∧ (call r).x26 = r.x26

/-- the stack below `top` is cleared, and nothing else is; and `CEntryPoint` gets its base and its
size -/
structure StackHandedOver (top : BitVec 64) (out : ClearStack) (r : EntryRegs) : Prop where
  cleared : ∀ a : BitVec 64, (∃ w ∈ out.written, w.1 = a) ↔
    top.toNat - 0x20000 ≤ a.toNat ∧ a.toNat < top.toNat
  zero : ∀ w ∈ out.written, w.2 = 0
  base : r.x0 = top - 0x20000
  size : r.x1 = 0x20000

/-- what `CEntryPoint` gets as the base is where the loop stopped -/
theorem handed_x0 (icache dcache : EntryRegs → EntryRegs) (hi : PreservesEntry icache)
    (hd : PreservesEntry dcache) (r : EntryRegs) :
    (prepareArgumentsAndJump (dcache (icache (setStackPointer r)))).x0 = r.x12 := by
  show (dcache (icache (setStackPointer r))).x12 = r.x12
  rw [(hd _).2.1, (hi _).2.1]
  rfl

/-- **the loop ends, and what it hands over is never the stack**; a stack in DRAM, with its base
neither near 0 nor in the upper half of the address space, has its first 64 bytes cleared -/
theorem stack_never_handed_over (icache dcache : EntryRegs → EntryRegs)
    (hi : PreservesEntry icache) (hd : PreservesEntry dcache) (r : EntryRegs)
    (h2 : r.x2 = 0x20000) (h12 : r.x12 = r.x1 - 0x20000) (htop : 0x20000 ≤ r.x1.toNat) :
    (∃ n out, clearStack n r = some out) ∧
    (∀ n out, clearStack n r = some out → ¬ StackHandedOver r.x1 out
      (prepareArgumentsAndJump (dcache (icache (setStackPointer out.regs))))) ∧
    (0x40000 ≤ r.x1.toNat → r.x1.toNat < 2^63 →
      clearStack 1 r = some ⟨{ r with x12 := r.x12 + 64 }, st4Zero r.x12⟩) := by
  obtain ⟨n, out, hrun, hregs, hne⟩ := clearStack_leaves r h2
  refine ⟨⟨n, out, hrun⟩, ?_, ?_⟩
  · intro m out' hrun' hover
    obtain rfl := runLoop_unique clearStackTurn m n _ _ _ hrun' hrun
    have hbase := hover.base
    rw [handed_x0 icache dcache hi hd, ← h12] at hbase
    exact hne hbase
  · intro hlo hhi
    have hsub : r.x12.toNat = r.x1.toNat - 0x20000 := by
      rw [h12]
      bv_omega
    have hint : (r.x12 + 64).toInt = (r.x12 + 64).toNat := by
      refine BitVec.toInt_eq_toNat_of_msb ?_
      rw [BitVec.msb_eq_decide]
      exact decide_eq_false (by bv_omega)
    refine clearStack_once r ?_
    rw [subFlags_lt (w := 63), h2, size_toInt, hint]
    exact decide_eq_false (by bv_omega)

def exampleEntryRegs : EntryRegs :=
  ⟨0, 0x9dfffffc0, 0x20000, 0, 0, 0, 0x9dffdffc0, 0x9d8000000, 0x800000000, 0⟩

theorem exampleEntryRegs_not_handed_over :
    ¬ StackHandedOver exampleEntryRegs.x1
      ⟨{ exampleEntryRegs with x12 := exampleEntryRegs.x12 + 64 }, st4Zero exampleEntryRegs.x12⟩
      (prepareArgumentsAndJump (setStackPointer
        { exampleEntryRegs with x12 := exampleEntryRegs.x12 + 64 })) :=
  have hnever := stack_never_handed_over id id (fun _ => ⟨rfl, rfl, rfl, rfl⟩)
    (fun _ => ⟨rfl, rfl, rfl, rfl⟩) exampleEntryRegs rfl (by decide) (by decide)
  hnever.2.1 1 _ (hnever.2.2 (by decide) (by decide))

/-- one turn clears 64 bytes of it, and the base that is handed over is 64 bytes above its own -/
theorem exampleEntryRegs_cleared :
    clearStack 1 exampleEntryRegs = some ⟨{ exampleEntryRegs with x12 := 0x9dffe0000 },
      st4Zero 0x9dffdffc0⟩ ∧
    (prepareArgumentsAndJump (setStackPointer
      { exampleEntryRegs with x12 := 0x9dffe0000 })).x0 = exampleEntryRegs.x1 - 0x20000 + 0x40 ∧
    (¬ ∃ w ∈ st4Zero 0x9dffdffc0, w.1 = 0x9dffe0000) ∧
    ¬ StackHandedOver exampleEntryRegs.x1
      ⟨{ exampleEntryRegs with x12 := 0x9dffe0000 }, st4Zero 0x9dffdffc0⟩
      (prepareArgumentsAndJump (setStackPointer { exampleEntryRegs with x12 := 0x9dffe0000 })) := by
  have hbyte : ¬ ∃ w ∈ st4Zero 0x9dffdffc0, w.1 = 0x9dffe0000 := by
    intro h
    obtain ⟨w, hw, he⟩ := h
    obtain ⟨j, hj, rfl⟩ := List.mem_map.mp hw
    rw [List.mem_range] at hj
    have he : (0x9dffdffc0 : BitVec 64) + BitVec.ofNat 64 j = 0x9dffe0000 := he
    bv_omega
  refine ⟨clearStack_once exampleEntryRegs (by decide), by decide, hbyte, ?_⟩
  intro h
  exact hbyte ((h.cleared 0x9dffe0000).mpr (by decide))

/-! ## where the region and the stack are -/

/-- memory and firmware device as the entry code finds them: memory in pages below the top of the
address space, the firmware device inside it, and room for the UEFI region on one of its sides -/
structure EntryLayout (pcd : Pcds) : Prop where
  base : pcd.systemMemoryBase.toNat % 4096 = 0
  size : pcd.systemMemorySize.toNat % 4096 = 0
  top : pcd.systemMemoryBase.toNat + pcd.systemMemorySize.toNat < 2^64
  fd : pcd.systemMemoryBase.toNat ≤ pcd.fdBaseAddress.toNat ∧
    pcd.fdBaseAddress.toNat + pcd.fdSize.toNat
      ≤ pcd.systemMemoryBase.toNat + pcd.systemMemorySize.toNat
  room : pcd.fdBaseAddress.toNat + pcd.fdSize.toNat + pcdSystemMemoryUefiRegionSize.toNat
      ≤ pcd.systemMemoryBase.toNat + pcd.systemMemorySize.toNat ∨
    pcd.systemMemoryBase.toNat + pcdSystemMemoryUefiRegionSize.toNat ≤ pcd.fdBaseAddress.toNat

/-- the UEFI region lies in memory and clear of the firmware device, and the stack in it, below a
stack pointer that is aligned -/
structure StackPlaced (pcd : Pcds) (r : EntryRegs) : Prop where
  inMemory : pcd.systemMemoryBase.toNat ≤ r.x22.toNat ∧
    r.x22.toNat + pcdSystemMemoryUefiRegionSize.toNat
      ≤ pcd.systemMemoryBase.toNat + pcd.systemMemorySize.toNat
  clearOfFd : ∀ a, r.x22.toNat ≤ a → a < r.x22.toNat + pcdSystemMemoryUefiRegionSize.toNat →
    ¬ (pcd.fdBaseAddress.toNat ≤ a ∧ a < pcd.fdBaseAddress.toNat + pcd.fdSize.toNat)
  aligned : r.sp.toNat % 16 = 0
  stack : r.x22.toNat + 0x20000 ≤ r.sp.toNat ∧
    r.sp.toNat ≤ r.x22.toNat + pcdSystemMemoryUefiRegionSize.toNat

/-- the top of the region: that of memory, or one above the base of the firmware device -/
def regionTop (pcd : Pcds) : ℕ :=
  if pcd.fdBaseAddress.toNat + pcd.fdSize.toNat + pcdSystemMemoryUefiRegionSize.toNat
      ≤ pcd.systemMemoryBase.toNat + pcd.systemMemorySize.toNat then
    pcd.systemMemoryBase.toNat + pcd.systemMemorySize.toNat
  else pcd.fdBaseAddress.toNat + 1

/-- the two inclusive tops and the room between them -/
theorem inclusive_tops (base size fd fdSize : BitVec 64) (hs : 0 < size.toNat)
    (ht : base.toNat + size.toNat < 2^64)
    (hin : fd.toNat + fdSize.toNat ≤ base.toNat + size.toNat) :
    (base + (size - 1)).toNat + 1 = base.toNat + size.toNat ∧
    (base + (size - 1) - (fdSize - 1 + fd)).toNat
      = base.toNat + size.toNat - (fd.toNat + fdSize.toNat) := by
  constructor
  · bv_omega
  · bv_omega

/-- the branches: the top of memory is kept exactly where the region fits behind the firmware
device -/
theorem keeps_top (top fdTop region fd : BitVec 64) (hregion : region.toNat < 2^63) :
    (if (subFlags top fdTop).mi then top
      else if (subFlags (top - fdTop) region).ge then top else fd)
      = if region.toNat ≤ (top - fdTop).toNat then top else fd := by
  rw [subFlags_mi, subFlags_ge (w := 63), BitVec.toInt_eq_toNat_cond (x := top - fdTop),
    BitVec.toInt_eq_toNat_cond (x := region)]
  simp only [decide_eq_true_eq]
  split_ifs <;> first | rfl | omega

theorem moduleEntrySetupStack_x1 (pcd : Pcds) (h : EntryLayout pcd) (r : EntryRegs) :
    (moduleEntrySetupStack pcd r).x1.toNat + 1 = regionTop pcd := by
  have hfdSize : (pcd.fdSize.toBitVec.setWidth 64).toNat = pcd.fdSize.toNat :=
    BitVec.toNat_setWidth_of_le (by omega)
  have hs : 0 < pcd.systemMemorySize.toNat := by
    have hroom := h.room
    have hfd := h.fd
    have hu : pcdSystemMemoryUefiRegionSize.toNat = 0x8000000 := rfl
    omega
  have hfd2 : pcd.fdBaseAddress.toBitVec.toNat + (pcd.fdSize.toBitVec.setWidth 64).toNat
      ≤ pcd.systemMemoryBase.toBitVec.toNat + pcd.systemMemorySize.toBitVec.toNat := by
    rw [hfdSize]
    exact h.fd.2
  obtain ⟨htop, hroom⟩ := inclusive_tops pcd.systemMemoryBase.toBitVec
    pcd.systemMemorySize.toBitVec pcd.fdBaseAddress.toBitVec (pcd.fdSize.toBitVec.setWidth 64) hs
    h.top hfd2
  have hroom' : (pcd.systemMemoryBase.toBitVec + (pcd.systemMemorySize.toBitVec - 1) -
      (pcd.fdSize.toBitVec.setWidth 64 - 1 + pcd.fdBaseAddress.toBitVec)).toNat
        = pcd.systemMemoryBase.toNat + pcd.systemMemorySize.toNat -
          (pcd.fdBaseAddress.toNat + pcd.fdSize.toNat) := by
    rw [hroom, hfdSize]
    rfl
  have hu : (pcdSystemMemoryUefiRegionSize.setWidth 64).toNat
      = pcdSystemMemoryUefiRegionSize.toNat := by decide
  have hx1 : (moduleEntrySetupStack pcd r).x1 = _ :=
    keeps_top (pcd.systemMemoryBase.toBitVec + (pcd.systemMemorySize.toBitVec - 1))
      (pcd.fdSize.toBitVec.setWidth 64 - 1 + pcd.fdBaseAddress.toBitVec)
      (pcdSystemMemoryUefiRegionSize.setWidth 64) pcd.fdBaseAddress.toBitVec (by decide)
  have hfd := h.fd.2
  rw [hx1, hroom', hu, regionTop]
  by_cases hfits : pcd.fdBaseAddress.toNat + pcd.fdSize.toNat + pcdSystemMemoryUefiRegionSize.toNat
      ≤ pcd.systemMemoryBase.toNat + pcd.systemMemorySize.toNat
  · rw [if_pos hfits, if_pos (by omega)]
    exact htop
  · rw [if_neg hfits, if_neg (by omega)]
    rfl

/-- **the registers at `_ClearStack`** -/
theorem moduleEntryStack_regs (pcd : Pcds) (h : EntryLayout pcd) (r : EntryRegs) :
    (moduleEntryStack pcd r).x1.toNat + 0x40 = regionTop pcd ∧
    (moduleEntryStack pcd r).x22.toNat + pcdSystemMemoryUefiRegionSize.toNat = regionTop pcd ∧
    (moduleEntryStack pcd r).x2 = 0x20000 ∧
    (moduleEntryStack pcd r).x12 = (moduleEntryStack pcd r).x1 - 0x20000 := by
  have hx1 := moduleEntrySetupStack_x1 pcd h r
  have htop := h.top
  have hfd := h.fd
  have hroom := h.room
  have hs := h.size
  have hb := h.base
  have hu : pcdSystemMemoryUefiRegionSize.toNat = 0x8000000 := rfl
  rw [hu] at hroom ⊢
  -- the region fits below its top, and the top below the end of the address space
  have hrange : 0x8000000 ≤ regionTop pcd ∧ regionTop pcd < 2^64 := by
    rw [regionTop, hu]
    split_ifs <;> omega
  have hx4 : (moduleEntrySetupStack pcd r).x4 = 0x8000000 := rfl
  have hcarry : (addFlags (moduleEntrySetupStack pcd r).x1 1).cs = false := by
    rw [addFlags_cs]
    exact decide_eq_false (by bv_omega)
  have hsetup : setupStack (moduleEntrySetupStack pcd r) =
      { moduleEntrySetupStack pcd r with
        x11 := (moduleEntrySetupStack pcd r).x1 + 1,
        x1 := (moduleEntrySetupStack pcd r).x1 + 1 } := by
    rw [setupStack, if_neg (by rw [hcarry]; decide)]
  rw [moduleEntryStack, hsetup]
  refine ⟨?_, ?_, rfl, ?_⟩
  · show ((moduleEntrySetupStack pcd r).x1 + 1 - 0x40).toNat + 0x40 = regionTop pcd
    bv_omega
  · show ((moduleEntrySetupStack pcd r).x1 + 1 - (moduleEntrySetupStack pcd r).x4).toNat + 0x8000000
      = regionTop pcd
    rw [hx4]
    bv_omega
  · show (moduleEntrySetupStack pcd r).x1 + 1 - 0x20000 - 0x40
      = (moduleEntrySetupStack pcd r).x1 + 1 - 0x40 - 0x20000
    bv_omega

/-- **the region and the stack are placed right exactly when the region fits behind the firmware
device**; or the firmware device is empty, and its base just below a multiple of 16 -/
theorem stack_placed_iff (pcd : Pcds) (h : EntryLayout pcd) (r : EntryRegs) :
    (∃ n out, clearStack n (moduleEntryStack pcd r) = some out) ∧
    ∀ n out, clearStack n (moduleEntryStack pcd r) = some out →
      (StackPlaced pcd (setStackPointer out.regs) ↔
        pcd.fdBaseAddress.toNat + pcd.fdSize.toNat + pcdSystemMemoryUefiRegionSize.toNat
          ≤ pcd.systemMemoryBase.toNat + pcd.systemMemorySize.toNat ∨
        pcd.fdSize = 0 ∧ pcd.fdBaseAddress.toNat % 16 = 15) := by
  obtain ⟨hsp, hx22, hx2, _⟩ := moduleEntryStack_regs pcd h r
  obtain ⟨n₀, out₀, hrun₀, hregs₀, _⟩ := clearStack_leaves (moduleEntryStack pcd r) hx2
  refine ⟨⟨n₀, out₀, hrun₀⟩, ?_⟩
  intro n out hrun
  obtain rfl := runLoop_unique clearStackTurn n n₀ _ _ _ hrun hrun₀
  have hsp' : (setStackPointer out.regs).sp.toNat + 0x40 = regionTop pcd := by
    rw [hregs₀]
    exact hsp
  have hx22' : (setStackPointer out.regs).x22.toNat + pcdSystemMemoryUefiRegionSize.toNat
      = regionTop pcd := by
    rw [hregs₀]
    exact hx22
  have hfdSize : pcd.fdSize = 0 ↔ pcd.fdSize.toNat = 0 := UInt32.toNat_inj.symm
  have htop := h.top
  have hfd := h.fd
  have hroom := h.room
  have hs := h.size
  have hb := h.base
  have hu : pcdSystemMemoryUefiRegionSize.toNat = 0x8000000 := rfl
  rw [hfdSize]
  rw [regionTop] at hsp' hx22'
  rw [hu] at hroom hsp' hx22' ⊢
  by_cases hfits : pcd.fdBaseAddress.toNat + pcd.fdSize.toNat + 0x8000000
      ≤ pcd.systemMemoryBase.toNat + pcd.systemMemorySize.toNat
  · rw [if_pos hfits] at hsp' hx22'
    refine ⟨fun _ => .inl hfits, fun _ => ⟨?_, ?_, by omega, ?_⟩⟩
    · rw [hu]
      omega
    · intro a h1 h2 hin
      rw [hu] at h2
      omega
    · rw [hu]
      omega
  · rw [if_neg hfits] at hsp' hx22'
    constructor
    · intro hplaced
      -- the first byte of the firmware device is the last one of the region
      have hclear := hplaced.clearOfFd pcd.fdBaseAddress.toNat (by omega) (by rw [hu]; omega)
      have haligned := hplaced.aligned
      exact .inr ⟨by omega, by omega⟩
    · intro hright
      obtain ⟨hempty, hodd⟩ := hright.resolve_left hfits
      refine ⟨?_, ?_, by omega, ?_⟩
      · rw [hu]
        omega
      · intro a h1 h2 hin
        omega
      · rw [hu]
        omega

/-- the region behind a firmware device in the middle of memory -/
theorem examplePcds_placed : ∃ n out,
    clearStack n (moduleEntryStack examplePcds exampleEntryRegs) = some out ∧
    StackPlaced examplePcds (setStackPointer out.regs) := by
  have hlayout : EntryLayout examplePcds :=
    ⟨by decide, by decide, by decide, by decide, by decide⟩
  obtain ⟨⟨n, out, hrun⟩, hplaced⟩ := stack_placed_iff examplePcds hlayout exampleEntryRegs
  exact ⟨n, out, hrun, (hplaced n out hrun).mpr (.inl (by decide))⟩

/-- 256 MB of memory with the firmware device in the middle, and too little room behind it -/
def smallMemoryPcds : Pcds :=
  { examplePcds with
    systemMemorySize := 0x10000000, fdBaseAddress := 0x809000000, fdSize := 0x1e00000 }

/-- the region takes in the first byte of the firmware device, and the stack pointer is odd -/
theorem smallMemoryPcds_not_placed :
    EntryLayout smallMemoryPcds ∧
    (moduleEntryStack smallMemoryPcds exampleEntryRegs).x22 = 0x801000001 ∧
    (moduleEntryStack smallMemoryPcds exampleEntryRegs).x1 = 0x808ffffc1 ∧
    ∃ out, clearStack 1 (moduleEntryStack smallMemoryPcds exampleEntryRegs) = some out ∧
      ¬ StackPlaced smallMemoryPcds (setStackPointer out.regs) := by
  refine ⟨⟨by decide, by decide, by decide, by decide, by decide⟩, by decide, by decide, _,
    clearStack_once _ (by decide), ?_⟩
  intro h
  exact absurd h.aligned (by decide)

end AppleSilicon
