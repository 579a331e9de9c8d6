import AppleSilicon.Boot.Framebuffer
import AppleSilicon.Hob.Allocated

/-!
# The boot data

DXE goes on reading the copies of the tree and of `boot_args` that `EarlySetup` makes, through two
fixed pointers.  `MemoryPeim` does not reserve them: they stay where they are only as far as a
request or a memory-allocation HOB made for something else lies over them.

* `kept_not_mayAllocate`  a byte that is kept by something else;
* `bootData_kept_iff`     when DXE may allocate no byte of the copies;
* `bootData_unchanged`    what then stays as it was.
-/

namespace AppleSilicon

/-- the copy of the tree and the copy of `boot_args` -/
def Pcds.bootData (pcd : Pcds) (pcdBootArgsPointer : UInt64) (bootArgs : BootArgs) :
    List (Piece ℕ) :=
  [⟨pcd.adtPointer.toNat, pcd.adtPointer.toNat + bootArgs.devtreeSize.toNat⟩,
    ⟨pcdBootArgsPointer.toNat, pcdBootArgsPointer.toNat + bootArgsSize⟩]

/-- the byte is under a memory-allocation HOB; or it is outside the low-memory window and taken by a
request, in a run whose requests are served in turn -/
def Pcds.Kept (bump : Handoff → Hob → Handoff) (pcd : Pcds) (hl : HobList)
    (cs : List (UInt64 × UInt64)) (x : ℕ) : Prop :=
  (∃ p ∈ hl.allocations ++ pcd.allocated, p.Has x) ∨
    (pcd.Orderly bump hl cs ∧ ¬ pcd.lowWindow.Has x ∧ ∃ g ∈ pcd.taken cs, g.Has x)

section
variable (bump : Handoff → Hob → Handoff) (lib : AsciiLib) (mem : Mem) (fuel : ℕ) (pcd : Pcds)
  (hl hl' : HobList) (cs : List (UInt64 × UInt64)) (hnone : hl.resources = [])
  (hcs : Family.t810x.carveouts lib mem fuel pcd = some cs)
  (hrun : T810x.memoryPeim bump lib mem fuel pcd hl = some (.success, hl'))
include hnone hcs hrun

theorem kept_not_mayAllocate (x : ℕ) (h : pcd.Kept bump hl cs x) : ¬ hl'.MayAllocate x := by
  intro hmay
  cases h with
  | inl hall =>
    rw [← memoryPeim_allocations bump lib mem fuel pcd hl hl' hnone hrun] at hall
    exact hmay.2 hall
  | inr hg =>
    obtain ⟨hor, hw, g, hg, hgx⟩ := hg
    rw [memoryPeim_mayAllocate bump lib mem fuel pcd hl hl' cs hnone hrun hor hcs x] at hmay
    cases hmay.1 with
    | inl hs => exact hs.2 g hg hgx
    | inr hs => exact hw hs

theorem not_mayAllocate_kept (hor : pcd.Orderly bump hl cs) (x : ℕ) (hx : pcd.systemMemory.Has x)
    (h : ¬ hl'.MayAllocate x) : pcd.Kept bump hl cs x := by
  rw [memoryPeim_mayAllocate bump lib mem fuel pcd hl hl' cs hnone hrun hor hcs x] at h
  by_cases hall : ∃ p ∈ hl.allocations ++ pcd.allocated, p.Has x
  · exact .inl hall
  · right
    by_cases hw : pcd.lowWindow.Has x
    · exact absurd ⟨.inr hw, hall⟩ h
    · refine ⟨hor, hw, ?_⟩
      by_contra hfree
      push Not at hfree
      exact h ⟨.inl ⟨hx, hfree⟩, hall⟩

/-- **the boot data stays out of the allocator** after the T810X `MemoryPeim` returned `EFI_SUCCESS`
when every byte of it is kept by something else; and only then, in a run whose requests are served
in turn -/
theorem bootData_kept_iff (pcdBootArgsPointer : UInt64) (bootArgs : BootArgs)
    (hin : ∀ p ∈ pcd.bootData pcdBootArgsPointer bootArgs, p.Inside pcd.systemMemory) :
    ((∀ p ∈ pcd.bootData pcdBootArgsPointer bootArgs, ∀ x, p.Has x → pcd.Kept bump hl cs x) →
      ∀ p ∈ pcd.bootData pcdBootArgsPointer bootArgs, ∀ x, p.Has x → ¬ hl'.MayAllocate x) ∧
    (pcd.Orderly bump hl cs →
      ((∀ p ∈ pcd.bootData pcdBootArgsPointer bootArgs, ∀ x, p.Has x → ¬ hl'.MayAllocate x) ↔
        ∀ p ∈ pcd.bootData pcdBootArgsPointer bootArgs, ∀ x, p.Has x →
          pcd.Kept bump hl cs x)) := by
  have henough : ∀ x, pcd.Kept bump hl cs x → ¬ hl'.MayAllocate x :=
    kept_not_mayAllocate bump lib mem fuel pcd hl hl' cs hnone hcs hrun
  refine ⟨fun h p hp x hx => henough x (h p hp x hx), ?_⟩
  intro hor
  constructor
  · intro h p hp x hx
    exact not_mayAllocate_kept bump lib mem fuel pcd hl hl' cs hnone hcs hrun hor x
      (hx.inside (hin p hp)) (h p hp x hx)
  · intro h p hp x hx
    exact henough x (h p hp x hx)

end

/-- **what was validated is what is read later**: DXE, which writes to memory it may allocate, leaves
boot data that is out of the allocator as it was -/
theorem bootData_unchanged (pcd : Pcds) (pcdBootArgsPointer : UInt64) (bootArgs : BootArgs)
    (hl' : HobList) (mem mem' : Mem) (hwrites : ∀ x, ¬ hl'.MayAllocate x → mem' x = mem x)
    (hkept : ∀ p ∈ pcd.bootData pcdBootArgsPointer bootArgs, ∀ x, p.Has x →
      ¬ hl'.MayAllocate x) :
    (∀ i, i < bootArgs.devtreeSize.toNat →
      mem' (pcd.adtPointer.toNat + i) = mem (pcd.adtPointer.toNat + i)) ∧
    mem'.bootArgs pcdBootArgsPointer.toNat = mem.bootArgs pcdBootArgsPointer.toNat := by
  refine ⟨?_, ?_⟩
  · intro i hi
    apply hwrites
    exact hkept _ (List.mem_cons_self ..) _ ⟨Nat.le_add_right _ _, Nat.add_lt_add_left hi _⟩
  · apply bootArgs_congr
    intro i hi
    apply hwrites
    exact hkept _ (List.mem_cons_of_mem _ (List.mem_cons_self ..)) _
      ⟨Nat.le_add_right _ _, Nat.add_lt_add_left hi _⟩

/-! ## the guest layout of J313 -/

/-- the fixed addresses of the guest layout -/
def guestPcds : Pcds where
  systemMemoryBase := 0x800000000
  systemMemorySize := 0x200000000
  fdBaseAddress := 0x8510b4000
  fdSize := 0x1e00000
  frameBufferAddress := 0x9e0000000
  frameBufferSize := 0xf3c000
  coreCount := 8
  preloadedRamdiskBase := 0x860000000
  preloadedRamdiskMaxSize := 0x40000000
  lowMemoryWindowBase := 0x100000
  lowMemoryWindowSize := 0x3ff00000
  lowMemoryWindowBackingBase := 0x8a0100000
  adtPointer := 0x851000000
  debugAssertEnabled := true

/-- neither copy lies in the firmware device or in a region that is reserved: DXE may allocate
both -/
theorem guestPcds_bootData_allocatable :
    uefiRegion.resources = [] ∧ ¬ guestPcds.fdWraps ∧
    (∀ p ∈ guestPcds.bootData 0x8533e8000 exampleBootArgs, p.Inside guestPcds.systemMemory) ∧
    (earlySetup loaderMem 0x820000000 0x8533e8000 0x851000000).bind (fun early =>
      early.2.bind fun p =>
        (T810x.memoryPeim createHob asciiLib early.1 4 (guestPcds.publish p) uefiRegion).map
          fun out => (out.1, decide (out.2.MayAllocate 0x851000000),
            decide (out.2.MayAllocate 0x8533e8000)))
      = some (.success, true, true) := by
  refine ⟨rfl, ?_, ?_, ?_⟩
  · exact fun h => absurd h.1 (by decide)
  · decide +kernel
  · decide +kernel

/-- a firmware device that covers both copies -/
def coveringPcds : Pcds := { guestPcds with fdBaseAddress := 0x851000000, fdSize := 0x3000000 }

/-- the tree where `EarlySetup` puts it -/
def guestMem : Mem := fun x => if 0x851000000 ≤ x then cpuBytes[x - 0x851000000]? else none

theorem coveringPcds_carveouts :
    Family.t810x.carveouts asciiLib guestMem 4 coveringPcds = some [(0x900000000, 0x4000)] := by
  decide +kernel

theorem coveringPcds_bootData_kept : ∃ hl',
    T810x.memoryPeim createHob asciiLib guestMem 4 coveringPcds uefiRegion
      = some (.success, hl') ∧
    ∀ p ∈ coveringPcds.bootData 0x8533e8000 exampleBootArgs, ∀ x, p.Has x →
      ¬ hl'.MayAllocate x := by
  have hok : (T810x.memoryPeim createHob asciiLib guestMem 4 coveringPcds uefiRegion).map
      Prod.fst = some .success := by decide +kernel
  obtain ⟨⟨_, hl'⟩, hrun, rfl⟩ := Option.map_eq_some_iff.mp hok
  refine ⟨hl', hrun, ?_⟩
  have hiff := bootData_kept_iff createHob asciiLib guestMem 4 coveringPcds uefiRegion hl'
    [(0x900000000, 0x4000)] rfl coveringPcds_carveouts hrun 0x8533e8000 exampleBootArgs
    (by decide +kernel)
  apply hiff.1
  intro p hp x hx
  left
  have hcovered : ∀ p ∈ coveringPcds.bootData 0x8533e8000 exampleBootArgs,
      p.Inside coveringPcds.fd := by decide +kernel
  exact ⟨coveringPcds.fd, by decide, hx.inside (hcovered p hp)⟩

end AppleSilicon
