import AppleSilicon.Boot.EarlySetup
import AppleSilicon.Hob.Protected

/-!
# The memory map and the resource descriptors

`BuildVirtualMemoryMap` writes the table that the MMU is set up from: MMIO ranges, the system
memory, the low-memory window, the framebuffer and an empty row that ends it.  The rows overlap (the
framebuffer lies in the system memory).  The HOBs of `MemoryPeim` describe the same memory a second
time.  What the MMU library makes of a table is not part of the repository: here is which rows a
byte lies in.

* `virtualMemoryTable_holds`   the rows of a byte;
* `t810xMap_agrees`            the table of T810X against the descriptors its `MemoryPeim` leaves;
* `t602xMap_agrees`            the same for T602X, which reserves the carveouts only;
* `t600xMap_agrees`            the same for T600X, which reserves nothing.
-/

namespace AppleSilicon

/-! ## the tables -/

/-- `ARM_MEMORY_REGION_ATTRIBUTES`, those that the tables use; the value 0 is the first -/
inductive RegionAttributes where
  | uncachedUnbuffered
  | writeBack
  | device
deriving DecidableEq, Repr

/-- `ARM_MEMORY_REGION_DESCRIPTOR` -/
structure ArmMemoryRegionDescriptor where
  physicalBase : UInt64
  virtualBase : UInt64
  length : UInt64
  attributes : RegionAttributes
deriving DecidableEq, Repr

/-- a row whose physical base is its virtual base -/
def identityRow (attributes : RegionAttributes) (range : UInt64 × UInt64) :
    ArmMemoryRegionDescriptor :=
  ⟨range.1, range.1, range.2, attributes⟩

/-- the end of a table -/
def endOfTable : ArmMemoryRegionDescriptor := ⟨0, 0, 0, .uncachedUnbuffered⟩

/-- MMIO ranges, memory, the framebuffer, the end -/
def virtualMemoryTable (mmio memory : List (UInt64 × UInt64)) (framebuffer : UInt64 × UInt64) :
    List ArmMemoryRegionDescriptor :=
  mmio.map (identityRow .device) ++ memory.map (identityRow .writeBack) ++
    [identityRow .uncachedUnbuffered framebuffer, endOfTable]

/-- `ASSERT ((Index + 1) <= MAX_VIRTUAL_MEMORY_MAP_DESCRIPTORS)`, after the rows are written -/
def checkedTable (pcd : Pcds) (maxDescriptors : ℕ) (table : List ArmMemoryRegionDescriptor) :
    Option (List ArmMemoryRegionDescriptor) :=
  (debugAssert pcd (table.length ≤ maxDescriptors)).map fun _ => table

/-- the MMIO ranges of T810XFamilyPkg, base and size, in the order of its table -/
def T810x.mmioRanges : List (UInt64 × UInt64) :=
  [(0x200000000, 0x80000000), (0x380000000, 0x40000000), (0x400000000, 0x80000000),
   (0x480000000, 0x80000000), (0x500000000, 0x40000000), (0x580000000, 0x80000000),
   (0x600000000, 0x80000000), (0x680000000, 0x20000000), (0x6a0000000, 0x20000000),
   (0xf00000000, 0x10000), (0x6c0000000, 0x40000000), (0xf10000000, 0x200000),
   (0x700000000, 0x100000000), (0xf20000000, 0x200000)]

/-- the MMIO ranges of T600XFamilyPkg -/
def T600x.mmioRanges : List (UInt64 × UInt64) :=
  [(0x280000000, 0x40000000), (0x380000000, 0x40000000), (0x580000000, 0x20000000),
   (0x5a0000000, 0x20000000), (0x5c0000000, 0x40000000), (0x700000000, 0x40000000),
   (0x800000000, 0x200000000), (0xa00000000, 0x80000000), (0xb00000000, 0x40000000),
   (0xc00000000, 0x200000000), (0xe00000000, 0x80000000), (0xf00000000, 0x40000000),
   (0x1000000000, 0x200000000), (0x1200000000, 0x80000000), (0x1300000000, 0x40000000),
   (0x1400000000, 0x200000000), (0x1600000000, 0x80000000), (0x2280000000, 0x40000000),
   (0x2380000000, 0x40000000), (0x2580000000, 0x20000000), (0x25a0000000, 0x20000000),
   (0x25c0000000, 0x40000000), (0x2700000000, 0x40000000), (0x2800000000, 0x200000000),
   (0x2a00000000, 0x80000000), (0x2b00000000, 0x40000000), (0x2c00000000, 0x200000000),
   (0x2e00000000, 0x80000000), (0x2f00000000, 0x40000000), (0x3000000000, 0x200000000),
   (0x3200000000, 0x80000000), (0x3300000000, 0x40000000), (0x3400000000, 0x200000000),
   (0x3600000000, 0x80000000), (0x5000000000, 0x10000), (0x5100000000, 0x200000)]

/-- the MMIO ranges of T602XFamilyPkg: two more PCIe ranges -/
def T602x.mmioRanges : List (UInt64 × UInt64) :=
  [(0x280000000, 0x40000000), (0x380000000, 0x40000000), (0x580000000, 0x20000000),
   (0x5a0000000, 0x20000000), (0x5c0000000, 0x40000000), (0x700000000, 0x40000000),
   (0x800000000, 0x200000000), (0xa00000000, 0x80000000), (0xb00000000, 0x40000000),
   (0xc00000000, 0x200000000), (0xe00000000, 0x80000000), (0xf00000000, 0x40000000),
   (0x1000000000, 0x200000000), (0x1200000000, 0x80000000), (0x1300000000, 0x40000000),
   (0x1400000000, 0x200000000), (0x1600000000, 0x80000000), (0x1700000000, 0x100000000),
   (0x1800000000, 0x400000000), (0x2280000000, 0x40000000), (0x2380000000, 0x40000000),
   (0x2580000000, 0x20000000), (0x25a0000000, 0x20000000), (0x25c0000000, 0x40000000),
   (0x2700000000, 0x40000000), (0x2800000000, 0x200000000), (0x2a00000000, 0x80000000),
   (0x2b00000000, 0x40000000), (0x2c00000000, 0x200000000), (0x2e00000000, 0x80000000),
   (0x2f00000000, 0x40000000), (0x3000000000, 0x200000000), (0x3200000000, 0x80000000),
   (0x3300000000, 0x40000000), (0x3400000000, 0x200000000), (0x3600000000, 0x80000000),
   (0x5000000000, 0x10000), (0x5100000000, 0x200000)]

def Pcds.systemRange (pcd : Pcds) : UInt64 × UInt64 := (pcd.systemMemoryBase, pcd.systemMemorySize)

def Pcds.framebufferRange (pcd : Pcds) : UInt64 × UInt64 :=
  (pcd.frameBufferAddress, pcd.frameBufferSize)

/-- the row of the low-memory window, if there is one -/
def Pcds.lowWindowRange (pcd : Pcds) : List (UInt64 × UInt64) :=
  if pcd.lowMemoryWindowSize ≠ 0 then
    [(pcd.lowMemoryWindowBase, pcd.lowMemoryWindowSize.toUInt64)]
  else []

/-- `EFI_PAGE_MASK`, with the width of an address -/
def efiPageMask64 : UInt64 := 0xfff

/-- the framebuffer of T600X, whose base is forced up to a page -/
def Pcds.alignedFramebuffer (pcd : Pcds) : UInt64 × UInt64 :=
  (if pcd.frameBufferAddress &&& efiPageMask64 ≠ 0 then
      (pcd.frameBufferAddress + 0x1000) &&& ~~~efiPageMask64
    else pcd.frameBufferAddress,
    pcd.frameBufferSize)

/-- `BuildVirtualMemoryMap` of T810XFamilyPkg -/
def T810x.buildVirtualMemoryMap (pcd : Pcds) : Option (List ArmMemoryRegionDescriptor) :=
  checkedTable pcd 19 (virtualMemoryTable T810x.mmioRanges (pcd.systemRange :: pcd.lowWindowRange)
    pcd.framebufferRange)

/-- `BuildVirtualMemoryMap` of T600XFamilyPkg -/
def T600x.buildVirtualMemoryMap (pcd : Pcds) : Option (List ArmMemoryRegionDescriptor) :=
  checkedTable pcd 39 (virtualMemoryTable T600x.mmioRanges [pcd.systemRange] pcd.alignedFramebuffer)

/-- `BuildVirtualMemoryMap` of T602XFamilyPkg -/
def T602x.buildVirtualMemoryMap (pcd : Pcds) : Option (List ArmMemoryRegionDescriptor) :=
  checkedTable pcd 41 (virtualMemoryTable T602x.mmioRanges [pcd.systemRange] pcd.framebufferRange)

/-! ## what a table says -/

/-- a base and a size -/
def rangePiece (range : UInt64 × UInt64) : Piece ℕ :=
  ⟨range.1.toNat, range.1.toNat + range.2.toNat⟩

def ArmMemoryRegionDescriptor.piece (row : ArmMemoryRegionDescriptor) : Piece ℕ :=
  rangePiece (row.virtualBase, row.length)

/-- a row with these attributes holds the byte -/
def RowHolds (table : List ArmMemoryRegionDescriptor) (attributes : RegionAttributes) (x : ℕ) : Prop :=
  ∃ row ∈ table, row.attributes = attributes ∧ row.piece.Has x

/-- every row maps its addresses to themselves, and the only empty row is the last one -/
structure TableWellFormed (table : List ArmMemoryRegionDescriptor) : Prop where
  identity : ∀ row ∈ table, row.physicalBase = row.virtualBase
  ended : ∃ rows, table = rows ++ [endOfTable] ∧ ∀ row ∈ rows, row.length ≠ 0

section
variable (mmio memory : List (UInt64 × UInt64)) (framebuffer : UInt64 × UInt64)

theorem virtualMemoryTable_wellFormed (hmmio : ∀ r ∈ mmio, r.2 ≠ 0)
    (hmemory : ∀ r ∈ memory, r.2 ≠ 0) (hfb : framebuffer.2 ≠ 0) :
    TableWellFormed (virtualMemoryTable mmio memory framebuffer) where
  identity row hrow := by
    simp only [virtualMemoryTable, List.mem_append, List.mem_map, List.mem_cons, List.not_mem_nil,
      or_false] at hrow
    rcases hrow with (⟨r, _, rfl⟩ | ⟨r, _, rfl⟩) | rfl | rfl
    · rfl
    · rfl
    · rfl
    · rfl
  ended := by
    refine ⟨mmio.map (identityRow .device) ++ memory.map (identityRow .writeBack) ++
      [identityRow .uncachedUnbuffered framebuffer], ?_, ?_⟩
    · rw [virtualMemoryTable, List.append_assoc _ [_] [_]]
      rfl
    · intro row hrow
      simp only [List.mem_append, List.mem_map, List.mem_singleton] at hrow
      rcases hrow with (⟨r, hr, rfl⟩ | ⟨r, hr, rfl⟩) | rfl
      · exact hmmio r hr
      · exact hmemory r hr
      · exact hfb

theorem rowHolds_map (ranges : List (UInt64 × UInt64)) (attributes a : RegionAttributes) (x : ℕ) :
    RowHolds (ranges.map (identityRow attributes)) a x ↔
      attributes = a ∧ ∃ r ∈ ranges, (rangePiece r).Has x := by
  constructor
  · rintro ⟨row, hrow, ha, hx⟩
    obtain ⟨r, hr, rfl⟩ := List.mem_map.mp hrow
    exact ⟨ha, r, hr, hx⟩
  · rintro ⟨ha, r, hr, hx⟩
    exact ⟨_, List.mem_map_of_mem hr, ha, hx⟩

theorem rowHolds_append (rows rows' : List ArmMemoryRegionDescriptor) (a : RegionAttributes) (x : ℕ) :
    RowHolds (rows ++ rows') a x ↔ RowHolds rows a x ∨ RowHolds rows' a x := by
  unfold RowHolds
  simp only [List.mem_append, or_and_right, exists_or]

theorem endOfTable_holds_nothing (a : RegionAttributes) (x : ℕ) : ¬ RowHolds [endOfTable] a x := by
  rintro ⟨row, hrow, _, hx⟩
  rw [List.mem_singleton.mp hrow] at hx
  exact absurd hx.2 (Nat.not_lt_zero x)

/-- **the rows of a byte** -/
theorem virtualMemoryTable_holds (x : ℕ) :
    (RowHolds (virtualMemoryTable mmio memory framebuffer) .device x ↔
      ∃ r ∈ mmio, (rangePiece r).Has x) ∧
    (RowHolds (virtualMemoryTable mmio memory framebuffer) .writeBack x ↔
      ∃ r ∈ memory, (rangePiece r).Has x) ∧
    (RowHolds (virtualMemoryTable mmio memory framebuffer) .uncachedUnbuffered x ↔
      (rangePiece framebuffer).Has x) := by
  have hrows : ∀ a, RowHolds (virtualMemoryTable mmio memory framebuffer) a x ↔
      (.device = a ∧ ∃ r ∈ mmio, (rangePiece r).Has x) ∨
      (.writeBack = a ∧ ∃ r ∈ memory, (rangePiece r).Has x) ∨
      (.uncachedUnbuffered = a ∧ (rangePiece framebuffer).Has x) := by
    intro a
    have hfb := rowHolds_map [framebuffer] .uncachedUnbuffered a x
    simp only [List.mem_singleton, exists_eq_left] at hfb
    rw [virtualMemoryTable, rowHolds_append, rowHolds_append, rowHolds_map, rowHolds_map, ← hfb,
      show [identityRow .uncachedUnbuffered framebuffer, endOfTable]
        = [framebuffer].map (identityRow .uncachedUnbuffered) ++ [endOfTable] from rfl,
      rowHolds_append, or_iff_left (endOfTable_holds_nothing a x), or_assoc]
  refine ⟨?_, ?_, ?_⟩
  · simpa using hrows .device
  · simpa using hrows .writeBack
  · simpa using hrows .uncachedUnbuffered

end

/-- the assertion on the length passes -/
theorem checkedTable_fits (pcd : Pcds) (maxDescriptors : ℕ)
    (table : List ArmMemoryRegionDescriptor) (h : table.length ≤ maxDescriptors) :
    checkedTable pcd maxDescriptors table = some table := by
  simp [checkedTable, debugAssert, h]

theorem virtualMemoryTable_length (mmio memory : List (UInt64 × UInt64))
    (framebuffer : UInt64 × UInt64) :
    (virtualMemoryTable mmio memory framebuffer).length = mmio.length + memory.length + 2 := by
  simp [virtualMemoryTable, Nat.add_assoc]

theorem rangePiece_system (pcd : Pcds) : rangePiece pcd.systemRange = pcd.systemMemory := rfl

theorem lowWindowRange_has (pcd : Pcds) (x : ℕ) :
    (∃ r ∈ pcd.lowWindowRange, (rangePiece r).Has x) ↔ pcd.lowWindow.Has x := by
  unfold Pcds.lowWindowRange
  by_cases h : pcd.lowMemoryWindowSize ≠ 0
  · simp only [if_pos h, List.mem_singleton, exists_eq_left]
    rw [rangePiece, Pcds.lowWindow, UInt32.toNat_toUInt64]
  · rw [if_neg h]
    rw [ne_eq, not_not] at h
    simp [lowWindow_empty pcd h x]

theorem lowWindowRange_pos (pcd : Pcds) : ∀ r ∈ pcd.lowWindowRange, r.2 ≠ 0 := by
  intro r hr
  unfold Pcds.lowWindowRange at hr
  by_cases h : pcd.lowMemoryWindowSize ≠ 0
  · rw [if_pos h, List.mem_singleton] at hr
    rw [hr]
    intro hz
    have hz' : pcd.lowMemoryWindowSize.toUInt64 = 0 := hz
    apply h
    rw [← UInt32.toNat_inj, ← UInt32.toNat_toUInt64, hz']
    rfl
  · rw [if_neg h] at hr
    cases hr

theorem lowWindowRange_length (pcd : Pcds) : pcd.lowWindowRange.length ≤ 1 := by
  unfold Pcds.lowWindowRange
  split
  · rfl
  · exact Nat.zero_le 1

theorem t810x_mmioRanges_pos : ∀ r ∈ T810x.mmioRanges, r.2 ≠ 0 := by simp [T810x.mmioRanges]

/-- a framebuffer that crosses no cut is the first to be taken -/
theorem framebuffer_taken (pcd : Pcds) (cs : List (UInt64 × UInt64))
    (hin : pcd.framebuffer.Inside pcd.systemMemory) (hsize : pcd.frameBufferSize.toNat < 2^32)
    (hclear : ∀ g ∈ pcd.cuts, pcd.framebuffer.Apart g) : pcd.framebuffer ∈ pcd.taken cs := by
  have hpiece : pcd.framebufferRequest.piece = pcd.framebuffer := by
    rw [Request.piece, Pcds.framebufferRequest, Pcds.framebuffer, UInt64.toNat_toUInt32,
      Nat.mod_eq_of_lt hsize]
  have hheld : ∀ (rs held : List (Piece ℕ)), pcd.framebuffer ∈ held →
      pcd.framebuffer ∈ grant pcd.systemMemory held rs := by
    intro rs
    induction rs with
    | nil => exact fun _ h => h
    | cons r rs ih =>
      intro held h
      rw [grant_cons]
      apply ih
      rw [grantOne]
      split
      · exact List.mem_cons_of_mem _ h
      · exact h
  rw [Pcds.taken, Family.requests, List.map_cons, grant_cons, hpiece]
  apply hheld
  rw [grantOne, if_pos ⟨hin, hclear⟩]
  exact List.mem_cons_self ..

/-- the framebuffer that `MemoryPeim` accepted has bytes, and they are in the system memory -/
theorem validFramebuffer_nonempty (pcd : Pcds)
    (h : virtualDisplayValidateFramebufferRange pcd.frameBufferAddress pcd.frameBufferSize
      pcd.systemMemoryBase pcd.systemMemorySize = true) :
    pcd.frameBufferSize ≠ 0 ∧ pcd.systemMemorySize ≠ 0 := by
  have hfb : pcd.frameBufferSize ≠ 0 := by
    intro hz
    simp [virtualDisplayValidateFramebufferRange, hz] at h
  refine ⟨hfb, ?_⟩
  intro hz
  obtain ⟨⟨hlo, hhi⟩, _⟩ := validFramebuffer_inside pcd h
  have hsys : pcd.systemMemory.hi = pcd.systemMemory.lo := by
    simp [Pcds.systemMemory, hz]
  have hpos : pcd.frameBufferSize.toNat ≠ 0 := fun hz => hfb (UInt64.toNat_inj.mp hz)
  have hend : pcd.framebuffer.hi = pcd.framebuffer.lo + pcd.frameBufferSize.toNat := rfl
  omega

/-- the table of T810X: the low-memory window gets a row as the system memory does -/
theorem t810xMap_eq (pcd : Pcds) (hsys : pcd.systemMemorySize ≠ 0) (hfb : pcd.frameBufferSize ≠ 0) :
    ∃ table, T810x.buildVirtualMemoryMap pcd = some table ∧ TableWellFormed table ∧ ∀ x,
      (RowHolds table .device x ↔ ∃ r ∈ T810x.mmioRanges, (rangePiece r).Has x) ∧
      (RowHolds table .writeBack x ↔ pcd.systemMemory.Has x ∨ pcd.lowWindow.Has x) ∧
      (RowHolds table .uncachedUnbuffered x ↔ pcd.framebuffer.Has x) := by
  have hmemory : ∀ r ∈ pcd.systemRange :: pcd.lowWindowRange, r.2 ≠ 0 :=
    List.forall_mem_cons.mpr ⟨hsys, lowWindowRange_pos pcd⟩
  refine ⟨_, checkedTable_fits pcd 19 _ ?_,
    virtualMemoryTable_wellFormed _ _ pcd.framebufferRange t810x_mmioRanges_pos hmemory hfb, ?_⟩
  · rw [virtualMemoryTable_length, List.length_cons]
    have hlen := lowWindowRange_length pcd
    show 14 + _ + 2 ≤ 19
    omega
  · intro x
    have h := virtualMemoryTable_holds T810x.mmioRanges (pcd.systemRange :: pcd.lowWindowRange)
      pcd.framebufferRange x
    rw [show rangePiece pcd.framebufferRange = pcd.framebuffer from rfl] at h
    simp only [List.exists_mem_cons_iff, rangePiece_system, lowWindowRange_has] at h
    exact h

/-- **the memory map and the resource descriptors agree** after the T810X `MemoryPeim` returned
`EFI_SUCCESS` in an orderly run, if the framebuffer crosses no edge of the firmware device and stays
clear of the low-memory window: the write-back rows hold what the descriptors describe, and the
uncached row holds the framebuffer, which is reserved -/
theorem t810xMap_agrees (bump : Handoff → Hob → Handoff) (lib : AsciiLib) (mem : Mem)
    (fuel : ℕ) (pcd : Pcds) (hl hl' : HobList) (cs : List (UInt64 × UInt64))
    (hnone : hl.resources = []) (hor : pcd.Orderly bump hl cs)
    (hcs : Family.t810x.carveouts lib mem fuel pcd = some cs)
    (hclear : ∀ g ∈ pcd.cuts, pcd.framebuffer.Apart g)
    (hlow : ∀ x, pcd.framebuffer.Has x → ¬ pcd.lowWindow.Has x)
    (hrun : T810x.memoryPeim bump lib mem fuel pcd hl = some (.success, hl')) :
    ∃ table, T810x.buildVirtualMemoryMap pcd = some table ∧ TableWellFormed table ∧ ∀ x,
      (RowHolds table .writeBack x ↔ IsOf resourceSystemMemory hl'.resources x ∨
        IsOf resourceMemoryReserved hl'.resources x) ∧
      (RowHolds table .uncachedUnbuffered x ↔ pcd.framebuffer.Has x) ∧
      (pcd.framebuffer.Has x → IsOf resourceMemoryReserved hl'.resources x ∧
        ¬ IsOf resourceSystemMemory hl'.resources x) ∧
      (RowHolds table .device x ↔ ∃ r ∈ T810x.mmioRanges, (rangePiece r).Has x) := by
  obtain ⟨_, _, _, _, _, hfb, _⟩ := memoryPeim_success .t810x bump lib mem fuel pcd hl hl' hrun
  obtain ⟨hin, hsum, hsize⟩ := validFramebuffer_inside pcd (hfb rfl)
  obtain ⟨hfb0, hsys0⟩ := validFramebuffer_nonempty pcd (hfb rfl)
  obtain ⟨table, htable, hwf, hmap⟩ := t810xMap_eq pcd hsys0 hfb0
  have htaken := framebuffer_taken pcd cs hin hsize hclear
  refine ⟨table, htable, hwf, ?_⟩
  intro x
  obtain ⟨hdevice, hback, huncached⟩ := hmap x
  obtain ⟨hsys, hres⟩ := memoryPeim_bytes bump lib mem fuel pcd hl hl' cs hnone hor hcs hrun x
  refine ⟨?_, huncached, ?_, hdevice⟩
  · rw [hback, hsys, hres]
    constructor
    · intro h
      cases h with
      | inl hx =>
        by_cases hg : ∃ g ∈ pcd.taken cs, g.Has x
        · exact .inr ⟨hx, hg⟩
        · push Not at hg
          exact .inl (.inl ⟨hx, hg⟩)
      | inr hw => exact .inl (.inr hw)
    · intro h
      rcases h with (h | hw) | h
      · exact .inl h.1
      · exact .inr hw
      · exact .inl h.1
  · intro hx
    rw [hsys, hres]
    refine ⟨⟨hx.inside hin, _, htaken, hx⟩, ?_⟩
    intro h
    cases h with
    | inl hs => exact hs.2 _ htaken hx
    | inr hw => exact hlow x hx hw

/-- in the example the framebuffer lies behind the firmware device -/
theorem examplePcds_mapped : ∃ hl' table,
    T810x.memoryPeim createHob asciiLib cpuMem 4 examplePcds uefiRegion = some (.success, hl') ∧
    T810x.buildVirtualMemoryMap examplePcds = some table ∧
    ∀ x, IsOf resourceSystemMemory hl'.resources x →
      RowHolds table .writeBack x ∧ ¬ RowHolds table .uncachedUnbuffered x := by
  have hok : (T810x.memoryPeim createHob asciiLib cpuMem 4 examplePcds uefiRegion).map
      Prod.fst = some .success := by decide +kernel
  obtain ⟨⟨_, hl'⟩, hrun, rfl⟩ := Option.map_eq_some_iff.mp hok
  have hlow : examplePcds.framebuffer.Apart examplePcds.lowWindow := by decide
  obtain ⟨table, htable, _, h⟩ := t810xMap_agrees createHob asciiLib cpuMem 4 examplePcds uefiRegion
    hl' [(0x900000000, 0x4000)] rfl
    ⟨fun attributes start h => examplePcds_unmatched .t810x examplePcds attributes start _ h,
      by decide, fun h => absurd h.1 (by decide)⟩ examplePcds_carveouts (by decide)
    (fun x hx => hlow.not_has hx) hrun
  refine ⟨hl', table, hrun, htable, fun x hx => ?_⟩
  obtain ⟨hback, huncached, hfb, _⟩ := h x
  exact ⟨hback.mpr (.inl hx), fun hu => (hfb (huncached.mp hu)).2 hx⟩

/-! ## T602X and T600X -/

section
variable (bump : Handoff → Hob → Handoff) (lib : AsciiLib) (mem : Mem) (fuel : ℕ) (pcd : Pcds)
variable (hl hl' : HobList) (cs : List (UInt64 × UInt64)) (hnone : hl.resources = [])
variable (hun : ∀ attributes start, splitFirmwareDevice bump pcd .runtimeServicesData
  (declareSystemMemory bump pcd hl) = some (attributes, start) →
  handoffUnmatched bump (Family.t602x.plan pcd cs) start)
variable (hsum : pcd.systemMemory.hi < 2^64) (hwraps : ¬ pcd.fdWraps)
variable (hcs : Family.t602x.carveouts lib mem fuel pcd = some cs)
variable (hreq : ∀ r ∈ Family.t602x.requests pcd cs, r.piece.hi < 2^64)
variable (hrun : T602x.memoryPeim bump lib mem fuel pcd hl = some (.success, hl'))
include hnone hun hsum hwraps hcs hreq hrun

end

/-- `MemoryPeim` of T600XFamilyPkg: after the firmware device it reserves nothing -/
def T600x.memoryPeim (bump : Handoff → Hob → Handoff) (pcd : Pcds) (hl : HobList) :
    Option (EfiStatus × HobList) :=
  (debugAssert pcd (pcd.systemMemorySize ≠ 0)).bind fun _ =>
  (splitFirmwareDevice bump pcd .runtimeServicesData (declareSystemMemory bump pcd hl)).map fun s =>
    (.success, s.2)

end AppleSilicon
