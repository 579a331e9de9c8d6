import AppleSilicon.Dt.Reg
import AppleSilicon.Hob.MemoryPeim

/-!
# The resource descriptors partition the system memory

`Describes ds whole`: the descriptors `ds` are system memory or reserved and partition `whole`.
Splitting off the firmware device establishes it, every request keeps it, and a request either
reserves its whole region or changes nothing (`Serves`).

The firmware device is the one range whose end the code does not check: with a base and a size
that pass 2^64 (`Pcds.fdWraps`) the sum is small enough for the test to succeed, and the search
splits system memory at places that are not in it.

* `splitFd_partition`          the ways to split the firmware device off;
* `reserveMemoryRegion_keeps`  one request;
* `runOps_keeps`               the requests of a run;
* `memoryPeim_partition`       both families.
-/

namespace AppleSilicon

/-- `x` lies in a descriptor of the type `t` -/
def IsOf (t : UInt32) (ds : List ResourceDescriptor) (x : ℕ) : Prop :=
  ∃ d ∈ ds, d.resourceType = t ∧ d.piece.Has x

instance (t : UInt32) (ds : List ResourceDescriptor) (x : ℕ) : Decidable (IsOf t ds x) :=
  inferInstanceAs (Decidable (∃ d ∈ ds, _))

/-- the descriptors are system memory or reserved, and partition `whole` -/
structure Describes (ds : List ResourceDescriptor) (whole : Piece ℕ) : Prop where
  types : ∀ d ∈ ds, d.resourceType = resourceSystemMemory ∨ d.resourceType = resourceMemoryReserved
  partition : Partition (ds.map ResourceDescriptor.piece) whole

/-- the whole region, which was system memory, is reserved; nothing else changes -/
structure ReservesWhole (r : Request) (ds ds' : List ResourceDescriptor) : Prop where
  before : ∀ x, r.piece.Has x → IsOf resourceSystemMemory ds x
  reserved : ∀ x, IsOf resourceMemoryReserved ds' x ↔
    IsOf resourceMemoryReserved ds x ∨ r.piece.Has x
  system : ∀ x, IsOf resourceSystemMemory ds' x ↔ IsOf resourceSystemMemory ds x ∧ ¬ r.piece.Has x

def Serves (r : Request) (ds ds' : List ResourceDescriptor) : Prop :=
  ds' = ds ∨ ReservesWhole r ds ds'

/-- the requests are served in turn -/
def ServesAll : List Request → List ResourceDescriptor → List ResourceDescriptor → Prop
  | [], ds, ds' => ds' = ds
  | r :: rs, ds, ds' => ∃ mid, Serves r ds mid ∧ ServesAll rs mid ds'

theorem Describes.hi_le {ds : List ResourceDescriptor} {whole : Piece ℕ} (h : Describes ds whole)
    (d : ResourceDescriptor) (hd : d ∈ ds) : d.piece.hi ≤ whole.hi :=
  (h.partition.inside d.piece (List.mem_map_of_mem hd)).2.2

theorem reserved_piece (r : Request) : r.reserved.piece = r.piece := by
  simp [Request.reserved, ResourceDescriptor.piece, Request.piece]

theorem systemMemory_ne_reserved : resourceSystemMemory ≠ resourceMemoryReserved := by decide

/-! ## one request -/

section
variable (pre post new : List ResourceDescriptor) (d left : ResourceDescriptor) (r : Request)

/-- the list after a hole was punched, with what is left of the descriptor in front -/
theorem punched_perm :
    ((left :: new).map ResourceDescriptor.piece ++ [r.piece] ++
      (pre ++ post).map ResourceDescriptor.piece).Perm
      ((pre ++ left :: (post ++ (new ++ [r.reserved]))).map ResourceDescriptor.piece) := by
  rw [List.perm_iff_count]
  intro p
  simp only [List.map_append, List.map_cons, List.map_nil, List.count_append, List.count_cons,
    List.count_nil, List.cons_append, reserved_piece]
  omega

theorem split_perm :
    ((pre ++ d :: post).map ResourceDescriptor.piece).Perm
      (d.piece :: (pre ++ post).map ResourceDescriptor.piece) := by
  simp only [List.map_append, List.map_cons]
  exact List.perm_middle

/-- a hole keeps the partition -/
theorem punched_describes (whole : Piece ℕ) (h : Describes (pre ++ d :: post) whole)
    (hnew : ∀ e ∈ left :: new, e.resourceType = resourceSystemMemory)
    (hl : Leaves d.piece r.piece ((left :: new).map ResourceDescriptor.piece)) :
    Describes (pre ++ left :: (post ++ (new ++ [r.reserved]))) whole where
  types e he := by
    simp only [List.mem_append, List.mem_cons, List.not_mem_nil, or_false] at he
    rcases he with he | rfl | he | he | rfl
    · exact h.types e (List.mem_append_left _ he)
    · exact .inl (hnew e (List.mem_cons_self ..))
    · exact h.types e (List.mem_append_right _ (List.mem_cons_of_mem _ he))
    · exact .inl (hnew e (List.mem_cons_of_mem _ he))
    · exact .inr rfl
  partition := ((h.partition.perm (split_perm pre post d)).refine hl.partition).perm
    (punched_perm pre post new left r)

/-- a hole reserves the whole region -/
theorem punched_reserves (whole : Piece ℕ) (h : Describes (pre ++ d :: post) whole)
    (ht : d.resourceType = resourceSystemMemory) (hin : r.piece.Inside d.piece)
    (hnew : ∀ e ∈ left :: new, e.resourceType = resourceSystemMemory)
    (hl : Leaves d.piece r.piece ((left :: new).map ResourceDescriptor.piece)) :
    ReservesWhole r (pre ++ d :: post) (pre ++ left :: (post ++ (new ++ [r.reserved]))) where
  before x hx := ⟨d, by simp, ht, hx.inside hin⟩
  reserved x := by
    constructor
    · intro ⟨e, he, het, hex⟩
      simp only [List.mem_append, List.mem_cons, List.not_mem_nil, or_false] at he
      rcases he with he | rfl | he | he | rfl
      · exact .inl ⟨e, by simp [he], het, hex⟩
      · exact absurd ((hnew e (by simp)).symm.trans het) systemMemory_ne_reserved
      · exact .inl ⟨e, by simp [he], het, hex⟩
      · exact absurd ((hnew e (by simp [he])).symm.trans het) systemMemory_ne_reserved
      · rw [reserved_piece] at hex
        exact .inr hex
    · intro hx
      cases hx with
      | inl hx =>
        obtain ⟨e, he, het, hex⟩ := hx
        simp only [List.mem_append, List.mem_cons] at he
        rcases he with he | rfl | he
        · exact ⟨e, by simp [he], het, hex⟩
        · exact absurd (ht.symm.trans het) systemMemory_ne_reserved
        · exact ⟨e, by simp [he], het, hex⟩
      | inr hx =>
        rw [← reserved_piece] at hx
        exact ⟨r.reserved, by simp, rfl, hx⟩
  system x := by
    have hap := (List.pairwise_cons.mp (h.partition.perm (split_perm pre post d)).apart).1
    -- the other descriptors stay clear of this one, and so of the region
    have hclear : ∀ e ∈ pre ++ post, e.piece.Has x → ¬ r.piece.Has x := by
      intro e he hex hrx
      exact (hap e.piece (List.mem_map_of_mem he)).not_has (hrx.inside hin) hex
    have hbyte := hl.byte x
    constructor
    · intro ⟨e, he, het, hex⟩
      simp only [List.mem_append, List.mem_cons, List.not_mem_nil, or_false] at he
      have hkept : e ∈ left :: new → IsOf resourceSystemMemory (pre ++ d :: post) x ∧
          ¬ r.piece.Has x := by
        intro hm
        obtain ⟨hdx, hrx⟩ := hbyte.mp ⟨e.piece, List.mem_map_of_mem hm, hex⟩
        exact ⟨⟨d, by simp, ht, hdx⟩, hrx⟩
      rcases he with he | rfl | he | he | rfl
      · exact ⟨⟨e, by simp [he], het, hex⟩, hclear e (by simp [he]) hex⟩
      · exact hkept (by simp)
      · exact ⟨⟨e, by simp [he], het, hex⟩, hclear e (by simp [he]) hex⟩
      · exact hkept (by simp [he])
      · exact absurd het.symm systemMemory_ne_reserved
    · intro ⟨⟨e, he, het, hex⟩, hrx⟩
      simp only [List.mem_append, List.mem_cons] at he
      rcases he with he | rfl | he
      · exact ⟨e, by simp [he], het, hex⟩
      · obtain ⟨q, hq, hqx⟩ := hbyte.mpr ⟨hex, hrx⟩
        obtain ⟨e', he', rfl⟩ := List.mem_map.mp hq
        refine ⟨e', ?_, hnew e' he', hqx⟩
        cases List.mem_cons.mp he' with
        | inl h1 => simp [h1]
        | inr h1 => simp [h1]
      · exact ⟨e, by simp [he], het, hex⟩

end

/-- **one request** keeps the partition, and reserves its whole region or changes nothing -/
theorem reserveMemoryRegion_keeps (bump : Handoff → Hob → Handoff) (r : Request) (hl : HobList)
    (whole : Piece ℕ) (hm : hl.handoffMatched r = false) (hr : r.piece.hi < 2^64)
    (hw : whole.hi < 2^64) (h : Describes hl.resources whole) :
    Describes (reserveMemoryRegion bump r.base r.size hl).resources whole ∧
      Serves r hl.resources (reserveMemoryRegion bump r.base r.size hl).resources := by
  have hd : ∀ d ∈ hl.resources, d.piece.hi < 2^64 := fun d hd => (h.hi_le d hd).trans_lt hw
  cases reserveMemoryRegion_cases bump r hl hm hr hd with
  | inl hsame =>
    rw [hsame.1]
    exact ⟨h, .inl rfl⟩
  | inr hpunch =>
    obtain ⟨pre, d, post, left, new, hres, ht, hin, hres', hnew, hl⟩ := hpunch
    rw [hres] at h ⊢
    rw [hres']
    exact ⟨punched_describes pre post new d left r whole h hnew hl,
      .inr (punched_reserves pre post new d left r whole h ht hin hnew hl)⟩

/-! ## the requests of a run -/

/-- the requests among the steps -/
def Op.request? : Op → Option Request
  | .reserve r => some r
  | .build _ => none

/-- the step creates no resource descriptor -/
def Op.keepsResources : Op → Prop
  | .reserve _ => True
  | .build h => Hob.resource? h = none

theorem plan_requests (family : Family) (pcd : Pcds) (cs : List (UInt64 × UInt64)) :
    (family.plan pcd cs).filterMap Op.request? = family.requests pcd cs := by
  have hmap : ∀ rs : List Request, (rs.map Op.reserve).filterMap Op.request? = rs := by
    intro rs
    rw [List.filterMap_map]
    exact List.filterMap_some
  cases family with
  | t810x =>
    show pcd.framebufferRequest :: List.filterMap Op.request? (List.map Op.reserve _) = _
    rw [hmap]
    rfl
  | t602x => exact hmap _

theorem plan_keepsResources (family : Family) (pcd : Pcds) (cs : List (UInt64 × UInt64)) :
    ∀ op ∈ family.plan pcd cs, op.keepsResources := by
  have hmap : ∀ rs : List Request, ∀ op ∈ rs.map Op.reserve, op.keepsResources := by
    intro rs op hop
    obtain ⟨r, _, rfl⟩ := List.mem_map.mp hop
    trivial
  cases family with
  | t810x =>
    intro op hop
    rcases List.mem_cons.mp hop with rfl | hop
    · trivial
    · rcases List.mem_cons.mp hop with rfl | hop
      · rfl
      · exact hmap _ op hop
  | t602x => exact hmap _

theorem build_resources (bump : Handoff → Hob → Handoff) (b : Hob) (hl : HobList)
    (hk : (Op.build b).keepsResources) :
    ((Op.build b).run bump hl).resources = hl.resources := by
  show (HobList.build bump hl b).resources = _
  rw [resources_build, show Hob.resource? b = none from hk]
  simp

theorem buildAll_resources (bump : Handoff → Hob → Handoff) (hl : HobList)
    (ds : List ResourceDescriptor) :
    (HobList.buildAll bump hl (ds.map Hob.resource)).resources = hl.resources ++ ds := by
  rw [HobList.resources, buildAll_hobs, List.filterMap_append, List.filterMap_map]
  exact congrArg (_ ++ ·) List.filterMap_some

/-- **a run** keeps the partition, and every request is served in its turn -/
theorem runOps_keeps (bump : Handoff → Hob → Handoff) (ops : List Op) (hl : HobList)
    (whole : Piece ℕ) (hw : whole.hi < 2^64) (hun : handoffUnmatched bump ops hl)
    (hk : ∀ op ∈ ops, op.keepsResources)
    (hr : ∀ r ∈ ops.filterMap Op.request?, r.piece.hi < 2^64) (h : Describes hl.resources whole) :
    Describes (runOps bump ops hl).resources whole ∧
      ServesAll (ops.filterMap Op.request?) hl.resources (runOps bump ops hl).resources := by
  induction ops generalizing hl with
  | nil => exact ⟨h, rfl⟩
  | cons op ops ih =>
    rw [List.forall_mem_cons] at hk
    rw [runOps_cons]
    cases op with
    | reserve r =>
      rw [List.filterMap_cons_some (rfl : Op.request? (.reserve r) = some r),
        List.forall_mem_cons] at hr
      obtain ⟨h1, h2⟩ := reserveMemoryRegion_keeps bump r hl whole hun.1 hr.1 hw h
      obtain ⟨h3, h4⟩ := ih _ hun.2 hk.2 hr.2 h1
      exact ⟨h3, _, h2, h4⟩
    | build b =>
      have hsame := build_resources bump b hl hk.1
      have hih := ih ((Op.build b).run bump hl) hun hk.2 hr (hsame ▸ h)
      rw [hsame] at hih
      exact hih

/-! ## the firmware device -/

/-- the system memory -/
def Pcds.systemMemory (pcd : Pcds) : Piece ℕ :=
  ⟨pcd.systemMemoryBase.toNat, pcd.systemMemoryBase.toNat + pcd.systemMemorySize.toNat⟩

/-- the descriptor that `MemoryPeim` declares for it -/
def Pcds.systemDescriptor (pcd : Pcds) : ResourceDescriptor :=
  ⟨resourceSystemMemory, resourceAttributes, pcd.systemMemoryBase, pcd.systemMemorySize⟩

/-- the firmware device -/
def Pcds.fd (pcd : Pcds) : Piece ℕ :=
  ⟨pcd.fdBaseAddress.toNat, pcd.fdBaseAddress.toNat + pcd.fdSize.toNat⟩

/-- the firmware device passes the end of the address space, and the code takes it for a part of
the system memory -/
def Pcds.fdWraps (pcd : Pcds) : Prop :=
  2^64 ≤ pcd.fd.hi ∧ pcd.systemMemoryBase ≤ pcd.fdBaseAddress ∧ pcd.fdTop ≤ pcd.systemMemoryTop

/-- the edges of the firmware device, where its descriptor is cut off -/
def Pcds.fdEdges (pcd : Pcds) : List (Piece ℕ) :=
  [⟨pcd.fd.hi, pcd.fd.hi⟩, ⟨pcd.fd.lo, pcd.fd.lo⟩]

/-- where the descriptor of the system memory is cut: at the edges of the firmware device, if that
lies in it -/
def Pcds.cuts (pcd : Pcds) : List (Piece ℕ) :=
  if pcd.fd.Inside pcd.systemMemory then pcd.fdEdges else []

theorem declareSystemMemory_resources (bump : Handoff → Hob → Handoff) (pcd : Pcds) (hl : HobList)
    (hnone : hl.resources = []) :
    (declareSystemMemory bump pcd hl).resources = [pcd.systemDescriptor] := by
  unfold declareSystemMemory
  rw [hnone]
  simp only [List.any_nil, Bool.false_eq_true, if_false]
  rw [resources_build, hnone]
  rfl

/-- the descriptors that the split leaves are the memory in front of the firmware device, the
firmware device and the memory behind it, but for empty ones that are not there -/
theorem splitFd_pieces (pcd : Pcds) (memoryType : MemoryType)
    (hsum : pcd.systemMemory.hi < 2^64) (hin : pcd.fd.Inside pcd.systemMemory) :
    let ds := (splitFd pcd memoryType pcd.systemDescriptor).1 ::
      (splitFd pcd memoryType pcd.systemDescriptor).2.filterMap Hob.resource?
    (∀ d ∈ ds, d.resourceType = resourceSystemMemory) ∧
      ∃ es : List (Piece ℕ), (∀ e ∈ es, e.hi ≤ e.lo) ∧
        [⟨pcd.systemMemory.lo, pcd.fd.lo⟩, pcd.fd, ⟨pcd.fd.hi, pcd.systemMemory.hi⟩].Perm
          (es ++ ds.map ResourceDescriptor.piece) := by
  obtain ⟨base, size, fdBase, fdSize, _, _, _, _, _, _, _, _, _, _⟩ := pcd
  have hlo : base.toNat ≤ fdBase.toNat := hin.1
  have hhi : fdBase.toNat + fdSize.toNat ≤ base.toNat + size.toNat := hin.2
  have hlt : base.toNat + size.toNat < 2^64 := hsum
  have hs : fdSize.toUInt64.toNat = fdSize.toNat := UInt32.toNat_toUInt64 fdSize
  have htop : (fdBase + fdSize.toUInt64).toNat = fdBase.toNat + fdSize.toNat := by
    rw [toNat_add_of_lt fdBase fdSize.toUInt64 (by omega), hs]
  have hend : (base + size).toNat = base.toNat + size.toNat := toNat_add_of_lt base size hlt
  intro ds
  show (∀ d ∈ ds, d.resourceType = resourceSystemMemory) ∧
    ∃ es : List (Piece ℕ), (∀ e ∈ es, e.hi ≤ e.lo) ∧
      [(⟨base.toNat, fdBase.toNat⟩ : Piece ℕ), ⟨fdBase.toNat, fdBase.toNat + fdSize.toNat⟩,
        ⟨fdBase.toNat + fdSize.toNat, base.toNat + size.toNat⟩].Perm
        (es ++ ds.map ResourceDescriptor.piece)
  by_cases h1 : fdBase = base
  · subst h1
    by_cases h2 : fdBase + size = fdBase + fdSize.toUInt64
    · -- the firmware device is the whole memory
      have hds : ds = [⟨resourceSystemMemory, resourceAttributes, fdBase, size⟩] := by
        simp [ds, splitFd, Pcds.systemDescriptor, Pcds.systemMemoryTop, Pcds.fdTop, h2,
          Hob.resource?]
      have he : fdBase.toNat + size.toNat = fdBase.toNat + fdSize.toNat := by
        rw [← hend, ← htop, h2]
      rw [hds]
      refine ⟨by simp, [⟨fdBase.toNat, fdBase.toNat⟩,
        ⟨fdBase.toNat + size.toNat, fdBase.toNat + size.toNat⟩], by simp, ?_⟩
      rw [← he]
      exact (List.Perm.swap _ _ _).cons _
    · -- it starts the memory
      have hl : (size - fdSize.toUInt64).toNat = size.toNat - fdSize.toNat := by
        rw [toNat_sub_of_le size fdSize.toUInt64 (by omega), hs]
      have hds : ds = [⟨resourceSystemMemory, resourceAttributes, fdBase + fdSize.toUInt64,
          size - fdSize.toUInt64⟩,
          ⟨resourceSystemMemory, resourceAttributes, fdBase, fdSize.toUInt64⟩] := by
        simp [ds, splitFd, Pcds.systemDescriptor, Pcds.systemMemoryTop, Pcds.fdTop, h2,
          Hob.resource?]
      rw [hds]
      refine ⟨by simp, [⟨fdBase.toNat, fdBase.toNat⟩], by simp, ?_⟩
      simp only [List.map_cons, List.map_nil, ResourceDescriptor.piece, htop, hl, hs]
      rw [show fdBase.toNat + fdSize.toNat + (size.toNat - fdSize.toNat)
        = fdBase.toNat + size.toNat by omega]
      exact (List.Perm.swap _ _ _).cons _
  · have hl : (fdBase - base).toNat = fdBase.toNat - base.toNat := toNat_sub_of_le fdBase base hlo
    have hback : base.toNat + (fdBase.toNat - base.toNat) = fdBase.toNat := by omega
    by_cases h2 : fdBase + fdSize.toUInt64 < base + size
    · -- it lies in the middle
      have hu : (base + size - (fdBase + fdSize.toUInt64)).toNat
          = base.toNat + size.toNat - (fdBase.toNat + fdSize.toNat) := by
        rw [toNat_sub_of_le _ _ (by omega), hend, htop]
      have hds : ds = [⟨resourceSystemMemory, resourceAttributes, base, fdBase - base⟩,
          ⟨resourceSystemMemory, resourceAttributes, fdBase, fdSize.toUInt64⟩,
          ⟨resourceSystemMemory, resourceAttributes, fdBase + fdSize.toUInt64,
            base + size - (fdBase + fdSize.toUInt64)⟩] := by
        simp [ds, splitFd, Pcds.systemDescriptor, Pcds.fdTop, h1, h2, Hob.resource?]
      rw [hds]
      refine ⟨by simp, [], by simp, ?_⟩
      simp only [List.map_cons, List.map_nil, ResourceDescriptor.piece, htop, hl, hs, hu, hback]
      rw [show fdBase.toNat + fdSize.toNat + (base.toNat + size.toNat
        - (fdBase.toNat + fdSize.toNat)) = base.toNat + size.toNat by omega]
      exact List.Perm.refl _
    · -- it ends the memory
      have he : fdBase.toNat + fdSize.toNat = base.toNat + size.toNat := by
        have hge := UInt64.lt_iff_toNat_lt.not.mp h2
        rw [htop, hend] at hge
        omega
      have hds : ds = [⟨resourceSystemMemory, resourceAttributes, base, fdBase - base⟩,
          ⟨resourceSystemMemory, resourceAttributes, fdBase, fdSize.toUInt64⟩] := by
        simp [ds, splitFd, Pcds.systemDescriptor, Pcds.fdTop, h1, h2, Hob.resource?]
      rw [hds]
      refine ⟨by simp, [⟨base.toNat + size.toNat, base.toNat + size.toNat⟩], by simp, ?_⟩
      simp only [List.map_cons, List.map_nil, ResourceDescriptor.piece, hl, hs, he, hback]
      exact @List.perm_append_comm _ [_, _] [_]

/-- **the firmware device** is split off the descriptor of the system memory: the descriptors
partition it, and what fits into one of them does not cross an edge -/
theorem splitFd_partition (pcd : Pcds) (memoryType : MemoryType)
    (hsum : pcd.systemMemory.hi < 2^64) (hin : pcd.fd.Inside pcd.systemMemory) :
    let ds := (splitFd pcd memoryType pcd.systemDescriptor).1 ::
      (splitFd pcd memoryType pcd.systemDescriptor).2.filterMap Hob.resource?
    (∀ d ∈ ds, d.resourceType = resourceSystemMemory) ∧
      Partition (ds.map ResourceDescriptor.piece) pcd.systemMemory ∧
      Fits (ds.map ResourceDescriptor.piece) pcd.systemMemory pcd.fdEdges := by
  obtain ⟨htype, es, hes, hperm⟩ := splitFd_pieces pcd memoryType hsum hin
  have hfd : pcd.fd.lo ≤ pcd.fd.hi := Nat.le_add_right _ _
  exact ⟨htype, ((Partition.three _ _ _ _ hin.1 hfd hin.2).perm hperm).drop_empty hes,
    ((Fits.three _ _ _ _ hin.1 hfd hin.2).perm hperm).drop_empty hes⟩

theorem fdTop_le (pcd : Pcds) (hsum : pcd.systemMemory.hi < 2^64) (hfd : pcd.fd.hi < 2^64) :
    pcd.fdTop ≤ pcd.systemMemoryTop ↔ pcd.fd.hi ≤ pcd.systemMemory.hi := by
  have hs : pcd.fdSize.toUInt64.toNat = pcd.fdSize.toNat := UInt32.toNat_toUInt64 _
  have htop : pcd.fdTop.toNat = pcd.fd.hi := by
    rw [Pcds.fdTop, toNat_add_of_lt _ _ (by rw [hs]; exact hfd), hs]
    rfl
  have hend : pcd.systemMemoryTop.toNat = pcd.systemMemory.hi := toNat_add_of_lt _ _ hsum
  rw [UInt64.le_iff_toNat_le, htop, hend]

/-- the search for a firmware device that is taken for system memory finds the descriptor of the
system memory -/
theorem splitFirmwareDevice_found (bump : Handoff → Hob → Handoff) (pcd : Pcds)
    (memoryType : MemoryType) (hl : HobList) (hres : hl.resources = [pcd.systemDescriptor])
    (hcond : pcd.fdBaseAddress ≥ pcd.systemMemoryBase ∧ pcd.fdTop ≤ pcd.systemMemoryTop) :
    ∃ start, HobList.rewriteFirst bump (covers pcd.fdBaseAddress pcd.fdTop) (splitFd pcd memoryType)
        hl = some (pcd.systemDescriptor, start) ∧
      splitFirmwareDevice bump pcd memoryType hl = some (resourceAttributes, start) ∧
      start.resources = (splitFd pcd memoryType pcd.systemDescriptor).1 ::
        (splitFd pcd memoryType pcd.systemDescriptor).2.filterMap Hob.resource? := by
  have hcov : covers pcd.fdBaseAddress pcd.fdTop pcd.systemDescriptor = true := by
    rw [covers, decide_eq_true_eq]
    exact ⟨rfl, hcond.1, hcond.2⟩
  rw [splitFirmwareDevice, if_pos hcond]
  cases hw : HobList.rewriteFirst bump (covers pcd.fdBaseAddress pcd.fdTop)
      (splitFd pcd memoryType) hl with
  | none =>
    have hfalse := rewriteFirst_none bump _ _ hl hw pcd.systemDescriptor (by simp [hres])
    rw [hcov] at hfalse
    cases hfalse
  | some out =>
    obtain ⟨_, pre, post, h1, h2⟩ := rewriteFirst_some bump _ _ hl out.2 out.1 hw
    rw [hres] at h1
    cases pre with
    | nil =>
      obtain ⟨hd, rfl⟩ := List.cons.inj h1
      rw [← hd] at h2
      refine ⟨out.2, by rw [hd], ?_, h2⟩
      show some (out.1.resourceAttribute, out.2) = _
      rw [← hd]
      rfl
    | cons e pre =>
      have hlen := congrArg List.length h1
      simp at hlen

theorem splitFirmwareDevice_inside (bump : Handoff → Hob → Handoff) (pcd : Pcds)
    (memoryType : MemoryType) (hl : HobList) (hres : hl.resources = [pcd.systemDescriptor])
    (hsum : pcd.systemMemory.hi < 2^64) (hin : pcd.fd.Inside pcd.systemMemory) :
    ∃ start, splitFirmwareDevice bump pcd memoryType hl = some (resourceAttributes, start) ∧
      start.resources = (splitFd pcd memoryType pcd.systemDescriptor).1 ::
        (splitFd pcd memoryType pcd.systemDescriptor).2.filterMap Hob.resource? := by
  have htop := (fdTop_le pcd hsum (hin.2.trans_lt hsum)).mpr hin.2
  obtain ⟨start, _, h⟩ := splitFirmwareDevice_found bump pcd memoryType hl hres
    ⟨UInt64.le_iff_toNat_le.mpr hin.1, htop⟩
  exact ⟨start, h⟩

/-- a firmware device outside the system memory is left alone -/
theorem splitFirmwareDevice_outside (bump : Handoff → Hob → Handoff) (pcd : Pcds)
    (memoryType : MemoryType) (hl : HobList) (hsum : pcd.systemMemory.hi < 2^64)
    (hfd : ¬ pcd.fdWraps) (hin : ¬ pcd.fd.Inside pcd.systemMemory) :
    splitFirmwareDevice bump pcd memoryType hl = some (resourceAttributes, hl) := by
  have hcond : ¬ (pcd.fdBaseAddress ≥ pcd.systemMemoryBase ∧
      pcd.fdTop ≤ pcd.systemMemoryTop) := by
    intro ⟨h1, h2⟩
    by_cases hlt : pcd.fd.hi < 2^64
    · exact hin ⟨UInt64.le_iff_toNat_le.mp h1, (fdTop_le pcd hsum hlt).mp h2⟩
    · exact hfd ⟨not_lt.mp hlt, h1, h2⟩
  rw [splitFirmwareDevice, if_neg hcond]

/-- **the list the requests start from** partitions the system memory, all of it system memory, and
what fits into a descriptor crosses none of the cuts -/
theorem start_spec (bump : Handoff → Hob → Handoff) (pcd : Pcds) (memoryType : MemoryType)
    (hl start : HobList) (attributes : UInt32) (hnone : hl.resources = [])
    (hsum : pcd.systemMemory.hi < 2^64) (hfd : ¬ pcd.fdWraps)
    (hstart : splitFirmwareDevice bump pcd memoryType (declareSystemMemory bump pcd hl)
      = some (attributes, start)) :
    (∀ d ∈ start.resources, d.resourceType = resourceSystemMemory) ∧
      Partition (start.resources.map ResourceDescriptor.piece) pcd.systemMemory ∧
      Fits (start.resources.map ResourceDescriptor.piece) pcd.systemMemory pcd.cuts := by
  have hres := declareSystemMemory_resources bump pcd hl hnone
  by_cases hin : pcd.fd.Inside pcd.systemMemory
  · obtain ⟨start', hs, hr⟩ := splitFirmwareDevice_inside bump pcd memoryType _ hres hsum hin
    obtain rfl := (Prod.mk.inj (Option.some.inj (hs.symm.trans hstart))).2
    obtain ⟨h1, h2, h3⟩ := splitFd_partition pcd memoryType hsum hin
    rw [hr, Pcds.cuts, if_pos hin]
    exact ⟨h1, h2, h3⟩
  · rw [splitFirmwareDevice_outside bump pcd memoryType _ hsum hfd hin] at hstart
    obtain rfl := (Prod.mk.inj (Option.some.inj hstart)).2
    rw [hres, Pcds.cuts, if_neg hin]
    exact ⟨by simp [Pcds.systemDescriptor], Partition.one _ _ (Nat.le_add_right _ _), Fits.one _⟩

/-! ## the hand-off HOB -/

section
variable (bump : Handoff → Hob → Handoff)
  (hbump : ∀ h b, (bump h b).efiMemoryBottom = h.efiMemoryBottom)
include hbump

theorem buildAll_bottom (hs : List Hob) (hl : HobList) :
    (HobList.buildAll bump hl hs).handoff.efiMemoryBottom = hl.handoff.efiMemoryBottom := by
  induction hs generalizing hl with
  | nil => rfl
  | cons b hs ih => exact (ih (HobList.build bump hl b)).trans (hbump hl.handoff b)

theorem rewriteFirst_bottom (p : ResourceDescriptor → Bool)
    (f : ResourceDescriptor → ResourceDescriptor × List Hob) (hl : HobList)
    (out : ResourceDescriptor × HobList) (h : HobList.rewriteFirst bump p f hl = some out) :
    out.2.handoff.efiMemoryBottom = hl.handoff.efiMemoryBottom := by
  obtain ⟨s, _, rfl⟩ := Option.map_eq_some_iff.mp h
  exact buildAll_bottom bump hbump _ _

theorem reserveMemoryRegion_bottom (r : Request) (hl : HobList) :
    (reserveMemoryRegion bump r.base r.size hl).handoff.efiMemoryBottom
      = hl.handoff.efiMemoryBottom := by
  simp only [reserveMemoryRegion]
  split
  · exact buildAll_bottom bump hbump _ _
  · cases hw : HobList.rewriteFirst bump (covers r.base (r.base + r.size.toUInt64))
        (punch r.base r.size) hl with
    | none => rfl
    | some out => exact rewriteFirst_bottom bump hbump _ _ hl out hw

/-- a memory bottom whose low half is not `EFI_RESOURCE_SYSTEM_MEMORY` is never taken for a
descriptor of system memory -/
theorem handoffUnmatched_of_bottom (ops : List Op) (hl : HobList)
    (hb : hl.handoff.efiMemoryBottom.toUInt32 ≠ resourceSystemMemory) :
    handoffUnmatched bump ops hl := by
  induction ops generalizing hl with
  | nil => trivial
  | cons op ops ih =>
    cases op with
    | build b =>
      apply ih (HobList.build bump hl b)
      rw [show (HobList.build bump hl b).handoff = bump hl.handoff b from rfl, hbump]
      exact hb
    | reserve r =>
      refine ⟨?_, ih _ ?_⟩
      · rw [HobList.handoffMatched, covers, decide_eq_false_iff_not]
        exact fun hc => hb hc.1
      · show (reserveMemoryRegion bump r.base r.size hl).handoff.efiMemoryBottom.toUInt32 ≠ _
        rw [reserveMemoryRegion_bottom bump hbump]
        exact hb

theorem splitFirmwareDevice_bottom (pcd : Pcds) (memoryType : MemoryType) (hl start : HobList)
    (attributes : UInt32)
    (h : splitFirmwareDevice bump pcd memoryType (declareSystemMemory bump pcd hl)
      = some (attributes, start)) :
    start.handoff.efiMemoryBottom = hl.handoff.efiMemoryBottom := by
  have hdecl : (declareSystemMemory bump pcd hl).handoff.efiMemoryBottom
      = hl.handoff.efiMemoryBottom := by
    simp only [declareSystemMemory]
    split
    · rfl
    · exact hbump _ _
  rw [← hdecl]
  rw [splitFirmwareDevice] at h
  split at h
  · split at h
    next d hl' hw =>
      obtain rfl := (Prod.mk.inj (Option.some.inj h)).2
      exact rewriteFirst_bottom bump hbump _ _ _ _ hw
    next =>
      obtain ⟨_, _, he⟩ := Option.map_eq_some_iff.mp h
      rw [← (Prod.mk.inj he).2]
  · rw [← (Prod.mk.inj (Option.some.inj h)).2]

end

/-! ## `MemoryPeim` -/

/-- **the resource descriptors partition the system memory** after `MemoryPeim` of either family
returned `EFI_SUCCESS`: every byte lies in exactly one descriptor, which is system memory or
reserved; only the low-memory window reaches outside; and the requests were served in turn, from
a list that holds the whole memory as system memory -/
theorem memoryPeim_partition (family : Family) (bump : Handoff → Hob → Handoff) (lib : AsciiLib)
    (mem : Mem) (fuel : ℕ) (pcd : Pcds) (hl hl' : HobList) (hnone : hl.resources = [])
    (hsum : pcd.systemMemory.hi < 2^64) (hfd : ¬ pcd.fdWraps)
    (hun : ∀ attributes start cs, splitFirmwareDevice bump pcd family.fdMemoryType
      (declareSystemMemory bump pcd hl) = some (attributes, start) →
      family.carveouts lib mem fuel pcd = some cs →
      handoffUnmatched bump (family.plan pcd cs) start)
    (hreq : ∀ cs, family.carveouts lib mem fuel pcd = some cs →
      ∀ r ∈ family.requests pcd cs, r.piece.hi < 2^64)
    (hwin : ∀ attributes, ∀ w ∈ family.lowMemoryWindow pcd attributes,
      ∀ x, w.piece.Has x → ¬ pcd.systemMemory.Has x)
    (hrun : family.memoryPeim bump lib mem fuel pcd hl = some (.success, hl')) :
    ∃ attributes cs start ds, family.carveouts lib mem fuel pcd = some cs ∧
      hl'.resources = ds ++ family.lowMemoryWindow pcd attributes ∧
      (∀ x, pcd.systemMemory.Has x →
        hl'.resources.countP (fun d => decide (d.piece.Has x)) = 1) ∧
      (∀ d ∈ hl'.resources,
        d.resourceType = resourceSystemMemory ∨ d.resourceType = resourceMemoryReserved) ∧
      (∀ d ∈ ds, d.piece.Inside pcd.systemMemory) ∧
      (∀ x, IsOf resourceSystemMemory start x ↔ pcd.systemMemory.Has x) ∧
      ServesAll (family.requests pcd cs) start ds := by
  obtain ⟨attributes, start, cs, hstart, hcs, _, rfl⟩ :=
    memoryPeim_success family bump lib mem fuel pcd hl hl' hrun
  obtain ⟨htype, hpart, _⟩ := start_spec bump pcd _ hl start attributes hnone hsum hfd hstart
  have hdesc : Describes start.resources pcd.systemMemory :=
    ⟨fun d hd => .inl (htype d hd), hpart⟩
  have hreq' := hreq cs hcs
  rw [← plan_requests] at hreq'
  obtain ⟨hend, hserve⟩ := runOps_keeps bump (family.plan pcd cs) start pcd.systemMemory hsum
    (hun attributes start cs hstart hcs) (plan_keepsResources family pcd cs) hreq' hdesc
  rw [plan_requests] at hserve
  have hres := buildAll_resources bump (runOps bump (family.plan pcd cs) start)
    (family.lowMemoryWindow pcd attributes)
  have hwtype : ∀ w ∈ family.lowMemoryWindow pcd attributes,
      w.resourceType = resourceSystemMemory := by
    intro w hw
    cases family with
    | t810x =>
      rw [Family.lowMemoryWindow] at hw
      split at hw
      · rw [List.mem_singleton.mp hw]
      · cases hw
    | t602x => cases hw
  refine ⟨attributes, cs, start.resources, _, hcs, hres, ?_, ?_, ?_, ?_, hserve⟩
  · intro x hx
    have hcount := hend.partition.count x hx
    rw [List.countP_map] at hcount
    have hzero : (family.lowMemoryWindow pcd attributes).countP
        (fun d => decide (d.piece.Has x)) = 0 := by
      rw [List.countP_eq_zero]
      intro w hw
      have hn : ¬ w.piece.Has x := fun hwx => hwin attributes w hw x hwx hx
      simpa using hn
    rw [hres, List.countP_append, hzero]
    exact hcount
  · intro d hd
    rw [hres, List.mem_append] at hd
    cases hd with
    | inl hd => exact hend.types d hd
    | inr hd => exact .inl (hwtype d hd)
  · intro d hd
    exact (hend.partition.inside d.piece (List.mem_map_of_mem hd)).2
  · intro x
    constructor
    · intro h'
      obtain ⟨d, hd, _, hdx⟩ := h'
      exact hdx.inside (hpart.inside d.piece (List.mem_map_of_mem hd)).2
    · intro hx
      obtain ⟨p, hp, hpx⟩ := hpart.covers x hx
      obtain ⟨d, hd, rfl⟩ := List.mem_map.mp hp
      exact ⟨d, hd, htype d hd, hpx⟩

/-! ## an example -/

def namePropBytes (name : List Char) : List UInt8 :=
  let value := ascii name ++ [0]
  nameKey ++ List.replicate (dtKeyLen - nameKey.length) 0 ++ wordBytes value.length ++ value ++
    List.replicate ((4 - value.length % 4) % 4) 0

/-- a tree with one CPU, whose carveout is the `0x4000` bytes at `0x900000000` -/
def cpuBytes : List UInt8 :=
  wordBytes 1 ++ wordBytes 1 ++ namePropBytes ['d', 't'] ++
  wordBytes 1 ++ wordBytes 1 ++ namePropBytes ['c', 'p', 'u', 's'] ++
  wordBytes 2 ++ wordBytes 0 ++ namePropBytes ['c', 'p', 'u', '0'] ++
    propBytes cpmImplReg [0x0, 0x9, 0x4000, 0x0]

def cpuMem : Mem := fun x => if 0x800000000 ≤ x then cpuBytes[x - 0x800000000]? else none

def hobLength : Hob → UInt64
  | .resource _ => 48
  | .memoryAllocation _ _ _ => 48
  | .other _ data => 8 + UInt64.ofNat data.length

/-- a HOB is taken from the bottom of the free memory -/
def createHob (h : Handoff) (b : Hob) : Handoff :=
  { h with efiFreeMemoryBottom := h.efiFreeMemoryBottom + hobLength b
           efiEndOfHobList := h.efiEndOfHobList + hobLength b }

/-- the UEFI region behind the firmware device -/
def uefiRegion : HobList :=
  ⟨⟨0x839e00000, 0x831e00000, 0x839de0000, 0x831e00038, 0x831e00038⟩, []⟩

/-- 8 GiB of system memory, the framebuffer near its end, a RAMDisk window of 1 GiB and a low
window of 256 MiB backed by the memory behind that -/
def examplePcds : Pcds where
  systemMemoryBase := 0x800000000
  systemMemorySize := 0x200000000
  fdBaseAddress := 0x830000000
  fdSize := 0x1e00000
  frameBufferAddress := 0x9e0000000
  frameBufferSize := 0x7e8000
  coreCount := 2
  preloadedRamdiskBase := 0x880000000
  preloadedRamdiskMaxSize := 0x40000000
  lowMemoryWindowBase := 0x0
  lowMemoryWindowSize := 0x10000000
  lowMemoryWindowBackingBase := 0x8c0000000
  adtPointer := 0x800000000
  debugAssertEnabled := true

theorem examplePcds_carveouts :
    Family.t810x.carveouts asciiLib cpuMem 4 examplePcds = some [(0x900000000, 0x4000)] := by
  decide +kernel

theorem examplePcds_unmatched (family : Family) (pcd : Pcds) (attributes : UInt32)
    (start : HobList) (cs : List (UInt64 × UInt64))
    (h : splitFirmwareDevice createHob pcd family.fdMemoryType
      (declareSystemMemory createHob pcd uefiRegion) = some (attributes, start)) :
    handoffUnmatched createHob (family.plan pcd cs) start := by
  apply handoffUnmatched_of_bottom createHob (fun _ _ => rfl)
  rw [splitFirmwareDevice_bottom createHob (fun _ _ => rfl) pcd _ uefiRegion start attributes h]
  decide

/-- one CPU is missing from the tree, and the rest is partitioned -/
theorem examplePcds_partition : ∃ hl',
    Family.t810x.memoryPeim createHob asciiLib cpuMem 4 examplePcds uefiRegion
      = some (.success, hl') ∧
    ∀ x, examplePcds.systemMemory.Has x →
      hl'.resources.countP (fun d => decide (d.piece.Has x)) = 1 := by
  have hok : (Family.t810x.memoryPeim createHob asciiLib cpuMem 4 examplePcds uefiRegion).map
      Prod.fst = some .success := by decide +kernel
  obtain ⟨⟨_, hl'⟩, hrun, rfl⟩ := Option.map_eq_some_iff.mp hok
  refine ⟨hl', hrun, ?_⟩
  obtain ⟨_, _, _, _, _, _, h, _⟩ := memoryPeim_partition .t810x createHob asciiLib cpuMem 4
    examplePcds uefiRegion hl' rfl (by decide) (fun h => absurd h.1 (by decide))
    (fun attributes start cs h _ => examplePcds_unmatched .t810x examplePcds attributes start cs h)
    (fun cs hcs => by
      obtain rfl := Option.some.inj (examplePcds_carveouts.symm.trans hcs)
      decide)
    (fun attributes w hw x hx hs => by
      obtain rfl := List.mem_singleton.mp hw
      have h1 : examplePcds.lowMemoryWindowBase.toNat
          + examplePcds.lowMemoryWindowSize.toUInt64.toNat = 0x10000000 := by decide
      have h2 : examplePcds.systemMemoryBase.toNat = 0x800000000 := by decide
      have h3 := hx.2.trans_eq h1
      have h4 := h2.symm.trans_le hs.1
      omega)
    hrun
  exact h

/-- a firmware device of `0x2000` bytes that starts `0x1000` bytes below the end of the address
space -/
def wrappedFdPcds : Pcds :=
  { examplePcds with
    fdBaseAddress := 0xfffffffffffff000
    fdSize := 0x2000
    coreCount := 0
    preloadedRamdiskBase := 0
    lowMemoryWindowSize := 0 }

/-- with a firmware device that passes the end of the address space, two descriptors cover the
same byte of the system memory -/
theorem wrappedFd_overlap :
    uefiRegion.resources = [] ∧ wrappedFdPcds.systemMemory.hi < 2^64 ∧
    Family.t810x.carveouts asciiLib cpuMem 4 wrappedFdPcds = some [] ∧
    (∀ r ∈ Family.t810x.requests wrappedFdPcds [], r.piece.hi < 2^64) ∧
    (∀ attributes, Family.t810x.lowMemoryWindow wrappedFdPcds attributes = []) ∧
    (∀ attributes start, splitFirmwareDevice createHob wrappedFdPcds .bootServicesData
      (declareSystemMemory createHob wrappedFdPcds uefiRegion) = some (attributes, start) →
      handoffUnmatched createHob (Family.t810x.plan wrappedFdPcds []) start) ∧
    wrappedFdPcds.systemMemory.Has 0x800001000 ∧
    (Family.t810x.memoryPeim createHob asciiLib cpuMem 4 wrappedFdPcds uefiRegion).map
      (fun out => (out.1, out.2.resources.countP fun d => decide (d.piece.Has 0x800001000)))
      = some (.success, 2) := by
  refine ⟨rfl, by decide, by decide +kernel, by decide +kernel, fun _ => rfl, ?_, by decide,
    by decide +kernel⟩
  intro attributes start h
  exact examplePcds_unmatched .t810x wrappedFdPcds attributes start [] h

end AppleSilicon
