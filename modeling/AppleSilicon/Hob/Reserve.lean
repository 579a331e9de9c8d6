import AppleSilicon.Lib.Pieces

/-!
# The HOB list and `ReserveMemoryRegion`

A HOB list is the hand-off HOB followed by HOBs of any type; a new HOB goes to the end.  The loop
of `ReserveMemoryRegion` looks at the hand-off HOB first, without asking for its type: what it
reads there as a resource descriptor are words of `EFI_HOB_HANDOFF_INFO_TABLE`
(`Handoff.asResource`).  Every later HOB it looks at is a resource descriptor.

`HobLib` is not part of the repository: `bump` is what creating a HOB does to the hand-off HOB.

* `splitAtResource_some`, `splitAtResource_none`   the search;
* `punch_leaves`                                   the three ways to take a region out of a
  descriptor;
* `reserveMemoryRegion_cases`                      what the call can do.
-/

namespace AppleSilicon

/-- `EFI_HOB_RESOURCE_DESCRIPTOR`; the owner is left zero -/
structure ResourceDescriptor where
  resourceType : UInt32
  resourceAttribute : UInt32
  physicalStart : UInt64
  resourceLength : UInt64
deriving DecidableEq, Repr

/-- `EFI_RESOURCE_SYSTEM_MEMORY` -/
def resourceSystemMemory : UInt32 := 0

/-- `EFI_RESOURCE_MEMORY_RESERVED` -/
def resourceMemoryReserved : UInt32 := 5

/-- the members of `EFI_MEMORY_TYPE` that a memory-allocation HOB gets here -/
inductive MemoryType where
  | reservedMemoryType
  | bootServicesData
  | runtimeServicesData
deriving DecidableEq, Repr

inductive Hob where
  | resource (d : ResourceDescriptor)
  | memoryAllocation (base : UInt64) (length : UInt64) (memoryType : MemoryType)
  | other (hobType : UInt16) (data : List UInt8)
deriving DecidableEq, Repr

/-- `EFI_HOB_HANDOFF_INFO_TABLE` -/
structure Handoff where
  efiMemoryTop : UInt64
  efiMemoryBottom : UInt64
  efiFreeMemoryTop : UInt64
  efiFreeMemoryBottom : UInt64
  efiEndOfHobList : UInt64
deriving DecidableEq, Repr

/-- the hand-off HOB read through `NextHob.ResourceDescriptor` -/
def Handoff.asResource (h : Handoff) : ResourceDescriptor :=
  ⟨h.efiMemoryBottom.toUInt32, (h.efiMemoryBottom >>> 32).toUInt32, h.efiFreeMemoryTop,
    h.efiFreeMemoryBottom⟩

/-- the hand-off HOB after a write to `PhysicalStart` and `ResourceLength` -/
def Handoff.withResource (h : Handoff) (d : ResourceDescriptor) : Handoff :=
  { h with efiFreeMemoryTop := d.physicalStart, efiFreeMemoryBottom := d.resourceLength }

structure HobList where
  handoff : Handoff
  hobs : List Hob
deriving DecidableEq, Repr

def Hob.resource? : Hob → Option ResourceDescriptor
  | .resource d => some d
  | _ => none

/-- the resource descriptors, in list order -/
def HobList.resources (hl : HobList) : List ResourceDescriptor := hl.hobs.filterMap Hob.resource?

/-- the first resource descriptor with `p`, with the HOBs before and behind it -/
def splitAtResource (p : ResourceDescriptor → Bool) :
    List Hob → Option (List Hob × ResourceDescriptor × List Hob)
  | [] => none
  | .resource d :: rest =>
    if p d then some ([], d, rest)
    else (splitAtResource p rest).map fun s => (.resource d :: s.1, s.2)
  | h :: rest => (splitAtResource p rest).map fun s => (h :: s.1, s.2)

section
variable (bump : Handoff → Hob → Handoff)

/-- a HOB is created at the end of the list -/
def HobList.build (hl : HobList) (h : Hob) : HobList := ⟨bump hl.handoff h, hl.hobs ++ [h]⟩

def HobList.buildAll (hl : HobList) (hs : List Hob) : HobList := hs.foldl (HobList.build bump) hl

/-- the first resource descriptor with `p` is changed by `f`, which also says what is created
after that; the descriptor as it was comes with the list -/
def HobList.rewriteFirst (p : ResourceDescriptor → Bool)
    (f : ResourceDescriptor → ResourceDescriptor × List Hob) (hl : HobList) :
    Option (ResourceDescriptor × HobList) :=
  (splitAtResource p hl.hobs).map fun s =>
    (s.2.1, HobList.buildAll bump ⟨hl.handoff, s.1 ++ .resource (f s.2.1).1 :: s.2.2⟩ (f s.2.1).2)

/-- the test of both searches: a system-memory descriptor that covers `[base, top)` -/
def covers (base top : UInt64) (d : ResourceDescriptor) : Bool :=
  d.resourceType = resourceSystemMemory ∧ d.physicalStart ≤ base ∧
    top ≤ d.physicalStart + d.resourceLength

/-- the body of the loop: the hole is punched into the descriptor `d` -/
def punch (reservedRegionBase : UInt64) (reservedRegionSize : UInt32) (d : ResourceDescriptor) :
    ResourceDescriptor × List Hob :=
  let size := reservedRegionSize.toUInt64
  let reservedRegionTop := reservedRegionBase + size
  let resourceTop := d.physicalStart + d.resourceLength
  let reserved : Hob := .resource ⟨resourceMemoryReserved, 0, reservedRegionBase, size⟩
  if reservedRegionBase = d.physicalStart then
    ({ d with physicalStart := d.physicalStart + size,
              resourceLength := d.resourceLength - size }, [reserved])
  else if d.physicalStart + d.resourceLength = reservedRegionTop then
    ({ d with resourceLength := d.resourceLength - size }, [reserved])
  else
    ({ d with resourceLength := reservedRegionBase - d.physicalStart },
      [.resource ⟨resourceSystemMemory, d.resourceAttribute, reservedRegionTop,
        resourceTop - reservedRegionTop⟩, reserved])

/-- `ReserveMemoryRegion` -/
def reserveMemoryRegion (reservedRegionBase : UInt64) (reservedRegionSize : UInt32)
    (hl : HobList) : HobList :=
  let reservedRegionTop := reservedRegionBase + reservedRegionSize.toUInt64
  let f := punch reservedRegionBase reservedRegionSize
  if covers reservedRegionBase reservedRegionTop hl.handoff.asResource then
    HobList.buildAll bump
      ⟨hl.handoff.withResource (f hl.handoff.asResource).1, hl.hobs⟩ (f hl.handoff.asResource).2
  else
    match HobList.rewriteFirst bump (covers reservedRegionBase reservedRegionTop) f hl with
    | some (_, hl') => hl'
    | none => hl

end

/-! ## the search -/

theorem splitAtResource_some (p : ResourceDescriptor → Bool) (hobs pre post : List Hob)
    (d : ResourceDescriptor) (h : splitAtResource p hobs = some (pre, d, post)) :
    hobs = pre ++ .resource d :: post ∧ p d = true := by
  induction hobs generalizing pre with
  | nil => cases h
  | cons a rest ih =>
    have hrest : ∀ s, splitAtResource p rest = some s → (a :: s.1, s.2) = (pre, d, post) →
        a :: rest = pre ++ .resource d :: post ∧ p d = true := by
      intro ⟨pre', d', post'⟩ hs he
      obtain ⟨rfl, hd⟩ := Prod.mk.inj he
      obtain ⟨rfl, rfl⟩ := Prod.mk.inj hd
      obtain ⟨h1, h2⟩ := ih pre' hs
      exact ⟨congrArg (a :: ·) h1, h2⟩
    cases a with
    | resource e =>
      rw [splitAtResource] at h
      by_cases hp : p e = true
      · rw [if_pos hp] at h
        obtain ⟨rfl, rfl, rfl⟩ := Option.some.inj h
        exact ⟨rfl, hp⟩
      · rw [if_neg hp] at h
        obtain ⟨s, hs, he⟩ := Option.map_eq_some_iff.mp h
        exact hrest s hs he
    | memoryAllocation b l t =>
      obtain ⟨s, hs, he⟩ := Option.map_eq_some_iff.mp h
      exact hrest s hs he
    | other t l =>
      obtain ⟨s, hs, he⟩ := Option.map_eq_some_iff.mp h
      exact hrest s hs he

theorem splitAtResource_none (p : ResourceDescriptor → Bool) (hobs : List Hob)
    (h : splitAtResource p hobs = none) : ∀ d ∈ hobs.filterMap Hob.resource?, p d = false := by
  induction hobs with
  | nil => simp
  | cons a rest ih =>
    cases a with
    | resource e =>
      rw [splitAtResource] at h
      by_cases hp : p e = true
      · rw [if_pos hp] at h
        cases h
      · rw [if_neg hp] at h
        intro d hd
        rw [List.filterMap_cons_some (rfl : Hob.resource? (.resource e) = some e)] at hd
        cases List.mem_cons.mp hd with
        | inl hde =>
          rw [hde]
          simpa using hp
        | inr hd => exact ih (Option.map_eq_none_iff.mp h) d hd
    | memoryAllocation b l t => exact ih (Option.map_eq_none_iff.mp h)
    | other t l => exact ih (Option.map_eq_none_iff.mp h)

theorem buildAll_hobs (bump : Handoff → Hob → Handoff) (hl : HobList) (hs : List Hob) :
    (HobList.buildAll bump hl hs).hobs = hl.hobs ++ hs := by
  induction hs generalizing hl with
  | nil => simp [HobList.buildAll]
  | cons h hs ih =>
    rw [HobList.buildAll, List.foldl_cons]
    show (HobList.buildAll bump (HobList.build bump hl h) hs).hobs = _
    rw [ih]
    simp [HobList.build]

theorem resources_build (bump : Handoff → Hob → Handoff) (hl : HobList) (h : Hob) :
    (HobList.build bump hl h).resources = hl.resources ++ (Hob.resource? h).toList := by
  simp only [HobList.resources, HobList.build, List.filterMap_append]
  cases h <;> rfl

/-- what a rewriting search does to the resource descriptors -/
theorem rewriteFirst_some (bump : Handoff → Hob → Handoff) (p : ResourceDescriptor → Bool)
    (f : ResourceDescriptor → ResourceDescriptor × List Hob) (hl hl' : HobList)
    (d : ResourceDescriptor) (h : HobList.rewriteFirst bump p f hl = some (d, hl')) :
    p d = true ∧ ∃ pre post, hl.resources = pre ++ d :: post ∧
      hl'.resources = pre ++ (f d).1 :: (post ++ (f d).2.filterMap Hob.resource?) := by
  obtain ⟨⟨pre, e, post⟩, hs, he⟩ := Option.map_eq_some_iff.mp h
  obtain ⟨rfl, rfl⟩ := Prod.mk.inj he
  obtain ⟨h1, h2⟩ := splitAtResource_some p hl.hobs pre post e hs
  refine ⟨h2, pre.filterMap Hob.resource?, post.filterMap Hob.resource?, ?_, ?_⟩
  · rw [HobList.resources, h1, List.filterMap_append]
    rfl
  · rw [HobList.resources, buildAll_hobs, List.append_assoc, List.filterMap_append]
    show _ ++ (f e).1 :: List.filterMap Hob.resource? (post ++ (f e).2) = _
    rw [List.filterMap_append]

theorem rewriteFirst_none (bump : Handoff → Hob → Handoff) (p : ResourceDescriptor → Bool)
    (f : ResourceDescriptor → ResourceDescriptor × List Hob) (hl : HobList)
    (h : HobList.rewriteFirst bump p f hl = none) : ∀ d ∈ hl.resources, p d = false :=
  splitAtResource_none p hl.hobs (Option.map_eq_none_iff.mp h)

/-! ## the memory of a descriptor -/

/-- the bytes of a descriptor -/
def ResourceDescriptor.piece (d : ResourceDescriptor) : Piece ℕ :=
  ⟨d.physicalStart.toNat, d.physicalStart.toNat + d.resourceLength.toNat⟩

/-- a request to `ReserveMemoryRegion` -/
structure Request where
  base : UInt64
  size : UInt32
deriving DecidableEq, Repr

def Request.piece (r : Request) : Piece ℕ := ⟨r.base.toNat, r.base.toNat + r.size.toNat⟩

theorem toNat_add_of_lt (a b : UInt64) (h : a.toNat + b.toNat < 2^64) :
    (a + b).toNat = a.toNat + b.toNat := by
  rw [UInt64.toNat_add, Nat.mod_eq_of_lt h]

theorem toNat_sub_of_le (a b : UInt64) (h : b.toNat ≤ a.toNat) :
    (a - b).toNat = a.toNat - b.toNat := UInt64.toNat_sub_of_le a b (UInt64.le_iff_toNat_le.mpr h)

theorem covers_iff (d : ResourceDescriptor) (base top : UInt64) (hd : d.piece.hi < 2^64) :
    covers base top d = true ↔ d.resourceType = resourceSystemMemory ∧
      d.piece.lo ≤ base.toNat ∧ top.toNat ≤ d.piece.hi := by
  have hadd := toNat_add_of_lt d.physicalStart d.resourceLength hd
  rw [covers, decide_eq_true_eq, UInt64.le_iff_toNat_le, UInt64.le_iff_toNat_le, hadd]
  rfl

/-- **one hole**: the fields left in the descriptor and the system-memory descriptor created
behind the hole are what is left of it -/
theorem punch_leaves (d : ResourceDescriptor) (r : Request) (hd : d.piece.hi < 2^64)
    (hr : r.piece.Inside d.piece) (ht : d.resourceType = resourceSystemMemory) :
    ∃ new : List ResourceDescriptor,
      (punch r.base r.size d).2 = new.map Hob.resource ++
        [.resource ⟨resourceMemoryReserved, 0, r.base, r.size.toUInt64⟩] ∧
      (∀ e ∈ (punch r.base r.size d).1 :: new, e.resourceType = resourceSystemMemory) ∧
      Leaves d.piece r.piece (((punch r.base r.size d).1 :: new).map ResourceDescriptor.piece) := by
  obtain ⟨rt, ra, start, len⟩ := d
  obtain ⟨base, size⟩ := r
  have hlo : start.toNat ≤ base.toNat := hr.1
  have hhi : base.toNat + size.toNat ≤ start.toNat + len.toNat := hr.2
  have hlt : start.toNat + len.toNat < 2^64 := hd
  have hs : size.toUInt64.toNat = size.toNat := UInt32.toNat_toUInt64 size
  have htop : (base + size.toUInt64).toNat = base.toNat + size.toNat := by
    rw [toNat_add_of_lt base size.toUInt64 (by omega), hs]
  have hend : (start + len).toNat = start.toNat + len.toNat := toNat_add_of_lt start len hlt
  unfold punch
  by_cases h1 : base = start
  · subst h1
    simp only [if_true]
    refine ⟨[], rfl, by simpa using ht, ?_⟩
    have hl : (len - size.toUInt64).toNat = len.toNat - size.toNat := by
      rw [toNat_sub_of_le len size.toUInt64 (by omega), hs]
    simp only [List.map_cons, List.map_nil, ResourceDescriptor.piece, Request.piece, htop, hl]
    rw [show base.toNat + size.toNat + (len.toNat - size.toNat) = base.toNat + len.toNat by omega]
    exact Leaves.head _ _ _ (by omega) (by omega)
  · simp only [if_neg h1]
    by_cases h2 : start + len = base + size.toUInt64
    · simp only [if_pos h2]
      refine ⟨[], rfl, by simpa using ht, ?_⟩
      have he : start.toNat + len.toNat = base.toNat + size.toNat := by
        rw [← hend, ← htop, h2]
      have hl : (len - size.toUInt64).toNat = len.toNat - size.toNat := by
        rw [toNat_sub_of_le len size.toUInt64 (by omega), hs]
      simp only [List.map_cons, List.map_nil, ResourceDescriptor.piece, Request.piece, hl]
      rw [show start.toNat + (len.toNat - size.toNat) = base.toNat by omega, he]
      exact Leaves.tail _ _ _ (by omega) (by omega)
    · simp only [if_neg h2]
      refine ⟨[⟨resourceSystemMemory, ra, base + size.toUInt64,
        start + len - (base + size.toUInt64)⟩], rfl, by simpa using ht, ?_⟩
      have hl : (base - start).toNat = base.toNat - start.toNat := toNat_sub_of_le base start hlo
      have hu : (start + len - (base + size.toUInt64)).toNat
          = start.toNat + len.toNat - (base.toNat + size.toNat) := by
        rw [toNat_sub_of_le _ _ (by omega), hend, htop]
      simp only [List.map_cons, List.map_nil, ResourceDescriptor.piece, Request.piece, hl, hu,
        htop]
      rw [show start.toNat + (base.toNat - start.toNat) = base.toNat by omega,
        show base.toNat + size.toNat + (start.toNat + len.toNat - (base.toNat + size.toNat))
          = start.toNat + len.toNat by omega]
      exact Leaves.middle _ _ _ _ hlo (by omega) hhi

/-- the descriptor a request leaves behind -/
def Request.reserved (r : Request) : ResourceDescriptor :=
  ⟨resourceMemoryReserved, 0, r.base, r.size.toUInt64⟩

/-- the hand-off HOB passes the test of the search -/
def HobList.handoffMatched (hl : HobList) (r : Request) : Bool :=
  covers r.base (r.base + r.size.toUInt64) hl.handoff.asResource

/-- **what `ReserveMemoryRegion` can do**: nothing, when no system-memory descriptor covers the
region, or take the region out of one that does and describe it as reserved -/
theorem reserveMemoryRegion_cases (bump : Handoff → Hob → Handoff) (r : Request) (hl : HobList)
    (hm : hl.handoffMatched r = false) (hr : r.piece.hi < 2^64)
    (hd : ∀ d ∈ hl.resources, d.piece.hi < 2^64) :
    (reserveMemoryRegion bump r.base r.size hl = hl ∧
      ∀ d ∈ hl.resources, d.resourceType = resourceSystemMemory → ¬ r.piece.Inside d.piece) ∨
    ∃ pre d post left new, hl.resources = pre ++ d :: post ∧
      d.resourceType = resourceSystemMemory ∧ r.piece.Inside d.piece ∧
      (reserveMemoryRegion bump r.base r.size hl).resources
        = pre ++ left :: (post ++ (new ++ [r.reserved])) ∧
      (∀ e ∈ left :: new, e.resourceType = resourceSystemMemory) ∧
      Leaves d.piece r.piece ((left :: new).map ResourceDescriptor.piece) := by
  have hs : r.size.toUInt64.toNat = r.size.toNat := UInt32.toNat_toUInt64 r.size
  have htop : (r.base + r.size.toUInt64).toNat = r.base.toNat + r.size.toNat := by
    rw [toNat_add_of_lt _ _ (by rw [hs]; exact hr), hs]
  have hcov : ∀ d ∈ hl.resources, covers r.base (r.base + r.size.toUInt64) d = true ↔
      d.resourceType = resourceSystemMemory ∧ r.piece.Inside d.piece := by
    intro d hmem
    rw [covers_iff d _ _ (hd d hmem), htop]
    rfl
  rw [HobList.handoffMatched] at hm
  cases hw : HobList.rewriteFirst bump (covers r.base (r.base + r.size.toUInt64))
      (punch r.base r.size) hl with
  | none =>
    refine .inl ⟨?_, ?_⟩
    · simp only [reserveMemoryRegion, hm, hw, Bool.false_eq_true, if_false]
    · intro d hmem ht hin
      have hfalse := rewriteFirst_none bump _ _ hl hw d hmem
      rw [(hcov d hmem).mpr ⟨ht, hin⟩] at hfalse
      cases hfalse
  | some out =>
    obtain ⟨d, hl'⟩ := out
    obtain ⟨hp, pre, post, hres, hres'⟩ := rewriteFirst_some bump _ _ hl hl' d hw
    have hmem : d ∈ hl.resources := by rw [hres]; simp
    obtain ⟨ht, hin⟩ := (hcov d hmem).mp hp
    obtain ⟨new, hnew, htype, hleaves⟩ := punch_leaves d r (hd d hmem) hin ht
    refine .inr ⟨pre, d, post, (punch r.base r.size d).1, new, hres, ht, hin, ?_, htype, hleaves⟩
    simp only [reserveMemoryRegion, hm, hw, Bool.false_eq_true, if_false]
    rw [hres', hnew, List.filterMap_append]
    congr 3
    congr 1
    rw [List.filterMap_map]
    exact List.filterMap_some

end AppleSilicon
