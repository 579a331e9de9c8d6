import AppleSilicon.Boot.EarlySetup
import AppleSilicon.Hob.Protected
import AppleSilicon.Lib.Status

/-!
# The preloaded RAMDisk

`MemoryPeim` reserves the window that the loader puts a RAMDisk into, and `BootRamdiskHelperDxe`
registers the disk it finds there, one page into the window.  The driver compares the size of the
disk with the `UINT32` difference of the window and that page.

* `preloaded_passed`                 what a registered disk of the window passed;
* `registered_inside_iff`            when it lies in the window;
* `windowReserved_iff`               when the whole window is reserved;
* `preloadedRamdisk_contained_iff`   both.
-/

namespace AppleSilicon

/-- `PRELOADED_RAMDISK_PAYLOAD_OFFSET` -/
def preloadedRamdiskPayloadOffset : UInt32 := 0x1000

/-- `PRELOADED_RAMDISK_MAGIC` -/
def preloadedRamdiskMagic : List UInt8 := ascii ['A', 'S', 'I', 'R', 'A', 'M', 'D', 'K']

/-- `PRELOADED_RAMDISK_HEADER` -/
structure PreloadedRamdiskHeader where
  magic : List UInt8
  size : UInt64
deriving DecidableEq, Repr

/-- `*(PRELOADED_RAMDISK_HEADER *)a` -/
def Mem.preloadedRamdiskHeader (mem : Mem) (a : ℕ) : Option PreloadedRamdiskHeader := do
  let magic ← (List.range 8).mapM fun i => mem (a + i)
  let size ← mem.le64 (a + 8)
  pure ⟨magic, size⟩

/-- what the driver is answered by the services it calls -/
structure RamdiskServices where
  locateProtocol : StatusCode
  register : UInt64 → UInt64 → StatusCode
  /-- the status, the section and its size -/
  getSectionFromAnyFv : StatusCode × UInt64 × UInt64
  allocateCopyPool : UInt64 → UInt64 → UInt64

/-- a disk that was handed to `Register` -/
structure RamDisk where
  preloaded : Bool
  base : UInt64
  size : UInt64
deriving DecidableEq, Repr

def RamDisk.piece (disk : RamDisk) : Piece ℕ :=
  ⟨disk.base.toNat, disk.base.toNat + disk.size.toNat⟩

section
variable (services : RamdiskServices)

/-- the disk at the payload, in place -/
def registerPreloaded (pcd : Pcds) (header : PreloadedRamdiskHeader) :
    StatusCode × Option RamDisk :=
  let payloadBase := pcd.preloadedRamdiskBase + preloadedRamdiskPayloadOffset.toUInt64
  if header.size = 0 ∨
      header.size > (pcd.preloadedRamdiskMaxSize - preloadedRamdiskPayloadOffset).toUInt64 then
    (.volumeCorrupted, none)
  else if services.locateProtocol.isError then (services.locateProtocol, none)
  else (services.register payloadBase header.size, some ⟨true, payloadBase, header.size⟩)

/-- a copy of the disk in the firmware volume -/
def registerEmbedded (pcd : Pcds) : Option (StatusCode × Option RamDisk) :=
  let (status, originalRamDiskPtr, ramDiskSize) := services.getSectionFromAnyFv
  if status.isError then some (.notFound, none)
  else
    (debugAssert pcd (originalRamDiskPtr ≠ 0)).bind fun _ =>
    (debugAssert pcd (ramDiskSize ≠ 0)).bind fun _ =>
      let destinationRamdiskPtr := services.allocateCopyPool ramDiskSize originalRamDiskPtr
      (debugAssert pcd (destinationRamdiskPtr ≠ 0)).map fun _ =>
        if services.locateProtocol.isError then (services.locateProtocol, none)
        else (services.register destinationRamdiskPtr ramDiskSize,
          some ⟨false, destinationRamdiskPtr, ramDiskSize⟩)

/-- `BootRamdiskHelperDxeInitialize`: its status, and the disk it hands to `Register` -/
def bootRamdiskHelperDxeInitialize (pcdInitializeRamdisk : Bool) (mem : Mem) (pcd : Pcds) :
    Option (StatusCode × Option RamDisk) :=
  if pcdInitializeRamdisk = false then some (.unsupported, none)
  else if pcd.preloadedRamdiskBase ≠ 0 then
    (mem.preloadedRamdiskHeader pcd.preloadedRamdiskBase.toNat).bind fun header =>
      if header.magic = preloadedRamdiskMagic then some (registerPreloaded services pcd header)
      else registerEmbedded services pcd
  else registerEmbedded services pcd

end

/-- `PcdPreloadedRamdiskBase` and `PcdPreloadedRamdiskMaxSize` -/
def Pcds.ramdiskWindow (pcd : Pcds) : Piece ℕ :=
  ⟨pcd.preloadedRamdiskBase.toNat,
    pcd.preloadedRamdiskBase.toNat + pcd.preloadedRamdiskMaxSize.toNat⟩

/-! ## what is registered -/

theorem registerEmbedded_not_preloaded (services : RamdiskServices) (pcd : Pcds)
    (status : StatusCode) (disk : RamDisk)
    (h : registerEmbedded services pcd = some (status, some disk)) : disk.preloaded = false := by
  simp only [registerEmbedded] at h
  by_cases hs : services.getSectionFromAnyFv.1.isError = true
  · rw [if_pos hs] at h
    cases (Prod.mk.inj (Option.some.inj h)).2
  · rw [if_neg hs] at h
    obtain ⟨_, _, h⟩ := Option.bind_eq_some_iff.mp h
    obtain ⟨_, _, h⟩ := Option.bind_eq_some_iff.mp h
    obtain ⟨_, _, h⟩ := Option.map_eq_some_iff.mp h
    by_cases hl : services.locateProtocol.isError = true
    · rw [if_pos hl] at h
      cases (Prod.mk.inj h).2
    · rw [if_neg hl] at h
      rw [← Option.some.inj (Prod.mk.inj h).2]

/-- a disk of the window passed the comparison with the `UINT32` difference -/
theorem preloaded_passed (services : RamdiskServices) (pcdInitializeRamdisk : Bool) (mem : Mem)
    (pcd : Pcds) (status : StatusCode) (disk : RamDisk)
    (h : bootRamdiskHelperDxeInitialize services pcdInitializeRamdisk mem pcd
      = some (status, some disk)) (hpre : disk.preloaded = true) :
    disk.base = pcd.preloadedRamdiskBase + preloadedRamdiskPayloadOffset.toUInt64 ∧
    disk.size ≠ 0 ∧
    disk.size ≤ (pcd.preloadedRamdiskMaxSize - preloadedRamdiskPayloadOffset).toUInt64 := by
  have hembedded : registerEmbedded services pcd ≠ some (status, some disk) := by
    intro he
    rw [registerEmbedded_not_preloaded services pcd status disk he] at hpre
    cases hpre
  unfold bootRamdiskHelperDxeInitialize at h
  by_cases h1 : pcdInitializeRamdisk = false
  · rw [if_pos h1] at h
    cases (Prod.mk.inj (Option.some.inj h)).2
  · rw [if_neg h1] at h
    by_cases h2 : pcd.preloadedRamdiskBase ≠ 0
    · rw [if_pos h2] at h
      obtain ⟨header, _, h⟩ := Option.bind_eq_some_iff.mp h
      by_cases h3 : header.magic = preloadedRamdiskMagic
      · rw [if_pos h3] at h
        have h := Option.some.inj h
        simp only [registerPreloaded] at h
        by_cases h4 : header.size = 0 ∨
            header.size > (pcd.preloadedRamdiskMaxSize - preloadedRamdiskPayloadOffset).toUInt64
        · rw [if_pos h4] at h
          cases (Prod.mk.inj h).2
        · rw [if_neg h4] at h
          by_cases h5 : services.locateProtocol.isError = true
          · rw [if_pos h5] at h
            cases (Prod.mk.inj h).2
          · rw [if_neg h5] at h
            rw [not_or] at h4
            rw [← Option.some.inj (Prod.mk.inj h).2]
            exact ⟨rfl, h4.1, UInt64.not_lt.mp h4.2⟩
      · rw [if_neg h3] at h
        exact absurd h hembedded
    · rw [if_neg h2] at h
      exact absurd h hembedded

/-- a registered disk lies in the window exactly when the window holds the page in front of it: a
smaller window makes the difference wrap around -/
theorem registered_inside_iff (pcd : Pcds) (disk : RamDisk) (hin : pcd.ramdiskWindow.hi < 2^64)
    (hbase : disk.base = pcd.preloadedRamdiskBase + preloadedRamdiskPayloadOffset.toUInt64)
    (hsize : disk.size ≠ 0)
    (hle : disk.size ≤ (pcd.preloadedRamdiskMaxSize - preloadedRamdiskPayloadOffset).toUInt64) :
    disk.piece.Inside pcd.ramdiskWindow ↔ 0x1000 ≤ pcd.preloadedRamdiskMaxSize.toNat := by
  have hpos : disk.size.toNat ≠ 0 := fun h0 => hsize (UInt64.toNat_inj.mp h0)
  have hb : disk.base.toNat = (pcd.preloadedRamdiskBase.toNat + 0x1000) % 2^64 := by
    rw [hbase, UInt64.toNat_add]
    rfl
  have hr := pcd.preloadedRamdiskBase.toNat_lt
  have hm := pcd.preloadedRamdiskMaxSize.toNat_lt
  have hhi : pcd.preloadedRamdiskBase.toNat + pcd.preloadedRamdiskMaxSize.toNat < 2^64 := hin
  constructor
  · intro h
    have h1 : pcd.preloadedRamdiskBase.toNat ≤ disk.base.toNat := h.1
    have h2 : disk.base.toNat + disk.size.toNat
        ≤ pcd.preloadedRamdiskBase.toNat + pcd.preloadedRamdiskMaxSize.toNat := h.2
    omega
  · intro h
    have hoff : preloadedRamdiskPayloadOffset ≤ pcd.preloadedRamdiskMaxSize :=
      UInt32.le_iff_toNat_le.mpr h
    rw [UInt64.le_iff_toNat_le, UInt32.toNat_toUInt64, UInt32.toNat_sub_of_le _ _ hoff] at hle
    have hs : disk.size.toNat ≤ pcd.preloadedRamdiskMaxSize.toNat - 0x1000 := hle
    refine ⟨?_, ?_⟩
    · show pcd.preloadedRamdiskBase.toNat ≤ disk.base.toNat
      omega
    · show disk.base.toNat + disk.size.toNat
        ≤ pcd.preloadedRamdiskBase.toNat + pcd.preloadedRamdiskMaxSize.toNat
      omega

/-! ## the window -/

/-- every byte of the window lies outside the low-memory window and was taken by a request, in a run
whose requests are served in turn -/
def Pcds.WindowTaken (bump : Handoff → Hob → Handoff) (pcd : Pcds) (hl : HobList)
    (cs : List (UInt64 × UInt64)) : Prop :=
  pcd.Orderly bump hl cs ∧ ∀ x, pcd.ramdiskWindow.Has x →
    ¬ pcd.lowWindow.Has x ∧ ∃ g ∈ pcd.taken cs, g.Has x

/-- every byte of the window is reserved, and nowhere system memory -/
def Pcds.WindowReserved (pcd : Pcds) (hl' : HobList) : Prop :=
  ∀ x, pcd.ramdiskWindow.Has x →
    IsOf resourceMemoryReserved hl'.resources x ∧ ¬ IsOf resourceSystemMemory hl'.resources x

section
variable (bump : Handoff → Hob → Handoff) (lib : AsciiLib) (mem mem' : Mem) (fuel : ℕ) (pcd : Pcds)
  (hl hl' : HobList) (cs : List (UInt64 × UInt64)) (hnone : hl.resources = [])
  (hcs : Family.t810x.carveouts lib mem fuel pcd = some cs)
  (hin : pcd.ramdiskWindow.Inside pcd.systemMemory)
  (hrun : T810x.memoryPeim bump lib mem fuel pcd hl = some (.success, hl'))
include hnone hcs hin hrun

theorem windowReserved_iff (hor : pcd.Orderly bump hl cs) :
    pcd.WindowReserved hl' ↔ pcd.WindowTaken bump hl cs := by
  have hbyte : ∀ x, pcd.ramdiskWindow.Has x →
      ((IsOf resourceMemoryReserved hl'.resources x ∧
        ¬ IsOf resourceSystemMemory hl'.resources x) ↔
      (¬ pcd.lowWindow.Has x ∧ ∃ g ∈ pcd.taken cs, g.Has x)) := by
    intro x hx
    have hmem : pcd.systemMemory.Has x := hx.inside hin
    obtain ⟨hsys, hres⟩ := memoryPeim_bytes bump lib mem fuel pcd hl hl' cs hnone hor hcs hrun x
    rw [hsys, hres]
    constructor
    · intro h
      exact ⟨fun hw => h.2 (.inr hw), h.1.2⟩
    · intro h
      obtain ⟨hw, g, hg, hgx⟩ := h
      refine ⟨⟨hmem, g, hg, hgx⟩, ?_⟩
      intro hs
      cases hs with
      | inl hs => exact hs.2 g hg hgx
      | inr hs => exact hw hs
  rw [Pcds.WindowTaken, and_iff_right hor]
  exact forall₂_congr hbyte

/-- **the preloaded disk is contained**: it lies in its window, and the whole window is reserved and
nowhere system memory, when the window holds the page in front of the disk and was taken by the
requests of an orderly run; only in such a window can the disk lie, and in an orderly run the
condition is exact -/
theorem preloadedRamdisk_contained_iff (services : RamdiskServices) (pcdInitializeRamdisk : Bool)
    (status : StatusCode) (disk : RamDisk)
    (hreg : bootRamdiskHelperDxeInitialize services pcdInitializeRamdisk mem' pcd
      = some (status, some disk)) (hpre : disk.preloaded = true) :
    (0x1000 ≤ pcd.preloadedRamdiskMaxSize.toNat ∧ pcd.WindowTaken bump hl cs →
      disk.piece.Inside pcd.ramdiskWindow ∧ pcd.WindowReserved hl') ∧
    (disk.piece.Inside pcd.ramdiskWindow → 0x1000 ≤ pcd.preloadedRamdiskMaxSize.toNat) ∧
    (pcd.Orderly bump hl cs →
      (disk.piece.Inside pcd.ramdiskWindow ∧ pcd.WindowReserved hl' ↔
        0x1000 ≤ pcd.preloadedRamdiskMaxSize.toNat ∧ pcd.WindowTaken bump hl cs)) := by
  obtain ⟨_, _, _, _, _, hfb, _⟩ := memoryPeim_success .t810x bump lib mem fuel pcd hl hl' hrun
  obtain ⟨_, hsum, _⟩ := validFramebuffer_inside pcd (hfb rfl)
  obtain ⟨hbase, hsize, hle⟩ := preloaded_passed services _ mem' pcd status disk hreg hpre
  have hinside := registered_inside_iff pcd disk (hin.2.trans_lt hsum) hbase hsize hle
  have hwindow := windowReserved_iff bump lib mem fuel pcd hl hl' cs hnone hcs hin hrun
  refine ⟨?_, hinside.mp, ?_⟩
  · intro h
    exact ⟨hinside.mpr h.1, (hwindow h.2.1).mpr h.2⟩
  · intro hor
    rw [hinside, hwindow hor]

end

/-- a disk of 64 KiB in front of whose payload the loader put its header -/
def ramdiskMem : Mem := fun x =>
  if 0x880000000 ≤ x then (preloadedRamdiskMagic ++ longBytes 0x10000)[x - 0x880000000]?
  else none

/-- the RAMDisk protocol is there and takes the disk; the firmware volume holds none -/
def ramdiskServices : RamdiskServices where
  locateProtocol := .success
  register := fun _ _ => .success
  getSectionFromAnyFv := (.notFound, 0, 0)
  allocateCopyPool := fun _ _ => 0

theorem examplePcds_ramdisk_contained : ∃ hl' disk,
    T810x.memoryPeim createHob asciiLib cpuMem 4 examplePcds uefiRegion = some (.success, hl') ∧
    bootRamdiskHelperDxeInitialize ramdiskServices true ramdiskMem examplePcds
      = some (.success, some disk) ∧
    disk.piece.Inside examplePcds.ramdiskWindow ∧ examplePcds.WindowReserved hl' := by
  have hok : (T810x.memoryPeim createHob asciiLib cpuMem 4 examplePcds uefiRegion).map
      Prod.fst = some .success := by decide +kernel
  obtain ⟨⟨_, hl'⟩, hrun, rfl⟩ := Option.map_eq_some_iff.mp hok
  have hreg : bootRamdiskHelperDxeInitialize ramdiskServices true ramdiskMem examplePcds
      = some (.success, some ⟨true, 0x880001000, 0x10000⟩) := by decide +kernel
  refine ⟨hl', _, hrun, hreg, ?_⟩
  have hiff := preloadedRamdisk_contained_iff createHob asciiLib cpuMem ramdiskMem 4 examplePcds
    uefiRegion hl' [(0x900000000, 0x4000)] rfl examplePcds_carveouts (by decide) hrun
    ramdiskServices true .success _ hreg rfl
  have hgranted : examplePcds.ramdiskWindow ∈ examplePcds.taken [(0x900000000, 0x4000)] ∧
      examplePcds.ramdiskWindow.Apart examplePcds.lowWindow := by decide +kernel
  apply hiff.1
  refine ⟨by decide, ⟨fun attributes start h => ?_, by decide, fun h => absurd h.1 (by decide)⟩, ?_⟩
  · exact examplePcds_unmatched .t810x examplePcds attributes start _ h
  · intro x hx
    exact ⟨hgranted.2.not_has hx, _, hgranted.1, hx⟩

/-- a window of 2 KiB, smaller than the page in front of the disk -/
def smallWindowPcds : Pcds := { examplePcds with preloadedRamdiskMaxSize := 0x800 }

/-- the disk is registered although it lies behind the window, in memory DXE may allocate -/
theorem smallWindow_registered_outside :
    uefiRegion.resources = [] ∧ smallWindowPcds.ramdiskWindow.Inside smallWindowPcds.systemMemory ∧
    bootRamdiskHelperDxeInitialize ramdiskServices true ramdiskMem smallWindowPcds
      = some (.success, some ⟨true, 0x880001000, 0x10000⟩) ∧
    ¬ (RamDisk.piece ⟨true, 0x880001000, 0x10000⟩).Inside smallWindowPcds.ramdiskWindow ∧
    (T810x.memoryPeim createHob asciiLib cpuMem 4 smallWindowPcds uefiRegion).map
      (fun out => (out.1, decide (IsOf resourceSystemMemory out.2.resources 0x880001000)))
      = some (.success, true) := by
  refine ⟨rfl, ?_, ?_, ?_, ?_⟩ <;> decide +kernel

end AppleSilicon
