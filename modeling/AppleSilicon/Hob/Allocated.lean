import AppleSilicon.Hob.Protected

/-!
# What DXE may allocate

DXE allocates from the system memory that no memory-allocation HOB covers
(`HobList.MayAllocate`).  `ReserveMemoryRegion` creates no such HOB; `MemoryPeim` creates one for the
firmware device, if it takes that for system memory, and one for the framebuffer.

* `memoryPeim_allocations`   the memory-allocation HOBs at the end of a run;
* `memoryPeim_mayAllocate`   what DXE may allocate after it, byte by byte.
-/

namespace AppleSilicon

/-- the bytes of a memory-allocation HOB -/
def Hob.allocation? : Hob → Option (Piece ℕ)
  | .memoryAllocation base length _ => some ⟨base.toNat, base.toNat + length.toNat⟩
  | _ => none

def HobList.allocations (hl : HobList) : List (Piece ℕ) := hl.hobs.filterMap Hob.allocation?

/-- the byte is system memory and under no memory-allocation HOB -/
def HobList.MayAllocate (hl : HobList) (x : ℕ) : Prop :=
  IsOf resourceSystemMemory hl.resources x ∧ ¬ ∃ p ∈ hl.allocations, p.Has x

instance (hl : HobList) (x : ℕ) : Decidable (hl.MayAllocate x) :=
  inferInstanceAs (Decidable (_ ∧ ¬ ∃ p ∈ hl.allocations, p.Has x))

/-- what `MemoryPeim` allocates by itself -/
def Pcds.allocated (pcd : Pcds) : List (Piece ℕ) :=
  (if pcd.fdBaseAddress ≥ pcd.systemMemoryBase ∧ pcd.fdTop ≤ pcd.systemMemoryTop then [pcd.fd]
    else []) ++ [pcd.framebuffer]

section
variable (bump : Handoff → Hob → Handoff)

theorem allocations_build (hl : HobList) (h : Hob) :
    (HobList.build bump hl h).allocations = hl.allocations ++ (Hob.allocation? h).toList := by
  simp only [HobList.allocations, HobList.build, List.filterMap_append]
  cases h <;> rfl

theorem allocations_buildAll (hl : HobList) (hs : List Hob) :
    (HobList.buildAll bump hl hs).allocations
      = hl.allocations ++ hs.filterMap Hob.allocation? := by
  rw [HobList.allocations, buildAll_hobs, List.filterMap_append]
  rfl

/-- a rewriting search creates the allocations of its body and touches no other -/
theorem rewriteFirst_allocations (p : ResourceDescriptor → Bool)
    (f : ResourceDescriptor → ResourceDescriptor × List Hob) (hl hl' : HobList)
    (d : ResourceDescriptor) (h : HobList.rewriteFirst bump p f hl = some (d, hl')) :
    hl'.allocations = hl.allocations ++ (f d).2.filterMap Hob.allocation? := by
  obtain ⟨⟨pre, e, post⟩, hs, he⟩ := Option.map_eq_some_iff.mp h
  obtain ⟨rfl, rfl⟩ := Prod.mk.inj he
  obtain ⟨h1, _⟩ := splitAtResource_some p hl.hobs pre post e hs
  rw [allocations_buildAll, HobList.allocations, HobList.allocations, h1, List.filterMap_append,
    List.filterMap_append]
  rfl

theorem punch_allocations (base : UInt64) (size : UInt32) (d : ResourceDescriptor) :
    (punch base size d).2.filterMap Hob.allocation? = [] := by
  unfold punch
  dsimp only
  split_ifs <;> rfl

theorem reserveMemoryRegion_allocations (base : UInt64) (size : UInt32) (hl : HobList) :
    (reserveMemoryRegion bump base size hl).allocations = hl.allocations := by
  unfold reserveMemoryRegion
  dsimp only
  by_cases hc : covers base (base + size.toUInt64) hl.handoff.asResource = true
  · rw [if_pos hc, allocations_buildAll, punch_allocations, List.append_nil]
    rfl
  · rw [if_neg hc]
    cases hw : HobList.rewriteFirst bump (covers base (base + size.toUInt64)) (punch base size)
        hl with
    | none => rfl
    | some out =>
      show out.2.allocations = hl.allocations
      rw [rewriteFirst_allocations bump _ _ hl out.2 out.1 hw, punch_allocations, List.append_nil]

/-- the allocation that a step creates -/
def Op.allocation? : Op → Option (Piece ℕ)
  | .reserve _ => none
  | .build h => h.allocation?

theorem runOps_allocations (ops : List Op) (hl : HobList) :
    (runOps bump ops hl).allocations = hl.allocations ++ ops.filterMap Op.allocation? := by
  induction ops generalizing hl with
  | nil => simp [runOps]
  | cons op ops ih =>
    rw [runOps_cons, ih]
    cases op with
    | reserve r =>
      show (reserveMemoryRegion bump r.base r.size hl).allocations ++ _ = _
      rw [reserveMemoryRegion_allocations]
      rfl
    | build h =>
      show (HobList.build bump hl h).allocations ++ _ = _
      rw [allocations_build, List.append_assoc, List.filterMap_cons]
      cases hh : h.allocation? <;> simp [Op.allocation?, hh]

theorem plan_allocations (pcd : Pcds) (cs : List (UInt64 × UInt64)) :
    (Family.t810x.plan pcd cs).filterMap Op.allocation? = [pcd.framebuffer] := by
  have hmap : ∀ rs : List Request, (rs.map Op.reserve).filterMap Op.allocation? = [] := by
    intro rs
    rw [List.filterMap_map]
    exact List.filterMap_eq_nil_iff.mpr (fun _ _ => rfl)
  show pcd.framebuffer :: List.filterMap Op.allocation? (List.map Op.reserve _) = _
  rw [hmap]

theorem declareSystemMemory_allocations (pcd : Pcds) (hl : HobList) :
    (declareSystemMemory bump pcd hl).allocations = hl.allocations := by
  unfold declareSystemMemory
  dsimp only
  split_ifs
  · rfl
  · rw [allocations_build]
    exact List.append_nil _

theorem splitFd_allocations (pcd : Pcds) (memoryType : MemoryType) (d : ResourceDescriptor) :
    (splitFd pcd memoryType d).2.filterMap Hob.allocation? = [pcd.fd] := by
  have hfd : pcd.fd = ⟨pcd.fdBaseAddress.toNat,
      pcd.fdBaseAddress.toNat + pcd.fdSize.toUInt64.toNat⟩ := by
    rw [UInt32.toNat_toUInt64]
    rfl
  rw [hfd]
  unfold splitFd
  dsimp only
  split_ifs <;> rfl

theorem splitFirmwareDevice_allocations (pcd : Pcds) (memoryType : MemoryType) (hl start : HobList)
    (attributes : UInt32) (hnone : hl.resources = [])
    (hstart : splitFirmwareDevice bump pcd memoryType (declareSystemMemory bump pcd hl)
      = some (attributes, start)) :
    start.allocations = hl.allocations ++
      if pcd.fdBaseAddress ≥ pcd.systemMemoryBase ∧ pcd.fdTop ≤ pcd.systemMemoryTop then [pcd.fd]
      else [] := by
  by_cases hcond : pcd.fdBaseAddress ≥ pcd.systemMemoryBase ∧ pcd.fdTop ≤ pcd.systemMemoryTop
  · obtain ⟨start', hw, hs, _⟩ := splitFirmwareDevice_found bump pcd memoryType _
      (declareSystemMemory_resources bump pcd hl hnone) hcond
    obtain rfl := (Prod.mk.inj (Option.some.inj (hs.symm.trans hstart))).2
    rw [rewriteFirst_allocations bump _ _ _ _ _ hw, declareSystemMemory_allocations,
      splitFd_allocations, if_pos hcond]
  · rw [splitFirmwareDevice, if_neg hcond] at hstart
    obtain rfl := (Prod.mk.inj (Option.some.inj hstart)).2
    rw [declareSystemMemory_allocations, if_neg hcond, List.append_nil]

theorem lowMemoryWindow_allocations (pcd : Pcds) (attributes : UInt32) :
    ((Family.t810x.lowMemoryWindow pcd attributes).map Hob.resource).filterMap Hob.allocation?
      = [] := by
  rw [List.filterMap_map]
  exact List.filterMap_eq_nil_iff.mpr (fun _ _ => rfl)

end

section
variable (bump : Handoff → Hob → Handoff) (lib : AsciiLib) (mem : Mem) (fuel : ℕ) (pcd : Pcds)
  (hl hl' : HobList) (cs : List (UInt64 × UInt64)) (hnone : hl.resources = [])
  (hrun : T810x.memoryPeim bump lib mem fuel pcd hl = some (.success, hl'))
include hnone hrun

/-- **the memory-allocation HOBs at the end** -/
theorem memoryPeim_allocations : hl'.allocations = hl.allocations ++ pcd.allocated := by
  obtain ⟨attributes, start, cs, hstart, _, _, rfl⟩ :=
    memoryPeim_success .t810x bump lib mem fuel pcd hl hl' hrun
  rw [allocations_buildAll, lowMemoryWindow_allocations, List.append_nil, runOps_allocations,
    plan_allocations, splitFirmwareDevice_allocations bump pcd _ hl start attributes hnone hstart,
    Pcds.allocated, List.append_assoc]

/-- **what DXE may allocate**: system memory that was not taken, and the low-memory window, but for
what a memory-allocation HOB covers -/
theorem memoryPeim_mayAllocate (hor : pcd.Orderly bump hl cs)
    (hcs : Family.t810x.carveouts lib mem fuel pcd = some cs) (x : ℕ) :
    hl'.MayAllocate x ↔
      ((pcd.systemMemory.Has x ∧ ∀ g ∈ pcd.taken cs, ¬ g.Has x) ∨ pcd.lowWindow.Has x) ∧
        ¬ ∃ p ∈ hl.allocations ++ pcd.allocated, p.Has x := by
  rw [HobList.MayAllocate, memoryPeim_allocations bump lib mem fuel pcd hl hl' hnone hrun,
    (memoryPeim_bytes bump lib mem fuel pcd hl hl' cs hnone hor hcs hrun x).1]

end

end AppleSilicon
