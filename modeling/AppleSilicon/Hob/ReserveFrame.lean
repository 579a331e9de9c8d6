import AppleSilicon.Hob.Partition

/-!
# What `ReserveMemoryRegion` leaves alone

The call changes HOBs itself and has `HobLib` append others, which keeps its own books in the
hand-off HOB.  `reserveEdit` is the call without the second part.  It changes at most one HOB behind
the hand-off HOB, and that is a resource descriptor; but the search starts at the hand-off HOB and
does not ask for its type, so a hand-off HOB that reads like a descriptor of the region is changed.

* `reserveMemoryRegion_edit`   the call is its edit, and then the creation of HOBs;
* `reserveEdit_hobs`           what happens behind the hand-off HOB;
* `reserve_edits_iff`          when nothing but a resource descriptor is changed.
-/

namespace AppleSilicon

/-- the HOBs as `ReserveMemoryRegion` itself leaves them, and those that it creates after that -/
def reserveEdit (r : Request) (hl : HobList) : HobList × List Hob :=
  let f := punch r.base r.size
  if hl.handoffMatched r then
    (⟨hl.handoff.withResource (f hl.handoff.asResource).1, hl.hobs⟩, (f hl.handoff.asResource).2)
  else
    match splitAtResource (covers r.base (r.base + r.size.toUInt64)) hl.hobs with
    | some (pre, d, post) => (⟨hl.handoff, pre ++ .resource (f d).1 :: post⟩, (f d).2)
    | none => (hl, [])

theorem reserveMemoryRegion_edit (bump : Handoff → Hob → Handoff) (r : Request) (hl : HobList) :
    reserveMemoryRegion bump r.base r.size hl
      = HobList.buildAll bump (reserveEdit r hl).1 (reserveEdit r hl).2 := by
  rw [reserveEdit, HobList.handoffMatched]
  simp only [reserveMemoryRegion, HobList.rewriteFirst]
  by_cases hm : covers r.base (r.base + r.size.toUInt64) hl.handoff.asResource = true
  · simp only [if_pos hm]
  · simp only [if_neg hm]
    cases splitAtResource (covers r.base (r.base + r.size.toUInt64)) hl.hobs with
    | none => rfl
    | some s => rfl

/-- at most one resource descriptor is replaced by another one, in its place -/
def OneDescriptorModified (hobs hobs' : List Hob) : Prop :=
  hobs' = hobs ∨ ∃ pre d d' post, hobs = pre ++ .resource d :: post ∧
    hobs' = pre ++ .resource d' :: post

/-- **nothing but a resource descriptor is changed**: not the hand-off HOB, at most one descriptor
behind it, no HOB of another type; and at most two HOBs are created -/
structure EditsOnlyResources (hl : HobList) (edit : HobList × List Hob) : Prop where
  handoff : edit.1.handoff = hl.handoff
  hobs : OneDescriptorModified hl.hobs edit.1.hobs
  created : edit.2.length ≤ 2

theorem punch_created (base : UInt64) (size : UInt32) (d : ResourceDescriptor) :
    (punch base size d).2.length ≤ 2 := by
  unfold punch
  dsimp only
  split_ifs
  · exact Nat.le_succ 1
  · exact Nat.le_succ 1
  · exact Nat.le_refl 2

/-- behind the hand-off HOB the call changes a resource descriptor at most, whatever it finds -/
theorem reserveEdit_hobs (r : Request) (hl : HobList) :
    OneDescriptorModified hl.hobs (reserveEdit r hl).1.hobs ∧ (reserveEdit r hl).2.length ≤ 2 := by
  rw [reserveEdit]
  by_cases hm : hl.handoffMatched r = true
  · simp only [if_pos hm]
    exact ⟨.inl rfl, punch_created ..⟩
  · simp only [if_neg hm]
    cases hs : splitAtResource (covers r.base (r.base + r.size.toUInt64)) hl.hobs with
    | none => exact ⟨.inl rfl, Nat.zero_le 2⟩
    | some s =>
      obtain ⟨pre, d, post⟩ := s
      exact ⟨.inr ⟨pre, d, _, post, (splitAtResource_some _ _ _ _ _ hs).1, rfl⟩, punch_created ..⟩

theorem toUInt64_eq_zero (size : UInt32) : size.toUInt64 = 0 ↔ size = 0 := by
  rw [← UInt64.toNat_inj, ← UInt32.toNat_inj, UInt32.toNat_toUInt64]
  rfl

/-- a hole changes neither start nor length of a descriptor where it is empty at the start, or
starts at the end -/
theorem punch_same_iff (r : Request) (d : ResourceDescriptor) :
    (punch r.base r.size d).1.physicalStart = d.physicalStart ∧
        (punch r.base r.size d).1.resourceLength = d.resourceLength ↔
      r.base = d.physicalStart ∧ r.size = 0 ∨
      r.base ≠ d.physicalStart ∧ r.base = d.physicalStart + d.resourceLength := by
  have hadd : ∀ a b : UInt64, a + b = a ↔ b = 0 := fun a b => UInt64.add_eq_left
  have hsub : ∀ a b : UInt64, a - b = a ↔ b = 0 := by
    intro a b
    rw [UInt64.sub_eq_iff_eq_add, eq_comm, hadd]
  unfold punch
  dsimp only
  by_cases h1 : r.base = d.physicalStart
  · rw [if_pos h1]
    simp only [hadd, hsub, toUInt64_eq_zero, and_self, h1, true_and, ne_eq, not_true, false_and,
      or_false]
  · rw [if_neg h1]
    by_cases h2 : d.physicalStart + d.resourceLength = r.base + r.size.toUInt64
    · have hzero : r.base = d.physicalStart + d.resourceLength ↔ r.size = 0 := by
        rw [h2, eq_comm, hadd, toUInt64_eq_zero]
      rw [if_pos h2, hzero]
      simp only [hsub, toUInt64_eq_zero, true_and, h1, false_and, false_or, ne_eq,
        not_false_eq_true]
    · rw [if_neg h2]
      simp only [true_and, h1, false_and, false_or, ne_eq, not_false_eq_true,
        UInt64.sub_eq_iff_eq_add, UInt64.add_comm d.resourceLength]

theorem withResource_same_iff (h : Handoff) (d : ResourceDescriptor) :
    h.withResource d = h ↔ d.physicalStart = h.efiFreeMemoryTop ∧
      d.resourceLength = h.efiFreeMemoryBottom := by
  rw [Handoff.withResource, Handoff.mk.injEq]
  constructor
  · intro he
    exact ⟨he.2.2.1, he.2.2.2.1⟩
  · intro he
    exact ⟨rfl, rfl, he.1, he.2, rfl⟩

/-- **nothing but a resource descriptor is changed exactly when** the hand-off HOB does not read
like a descriptor of the region, or reads like one that the hole changes neither start nor length
of -/
theorem reserve_edits_iff (r : Request) (hl : HobList) :
    (∀ bump, reserveMemoryRegion bump r.base r.size hl
      = HobList.buildAll bump (reserveEdit r hl).1 (reserveEdit r hl).2) ∧
    (EditsOnlyResources hl (reserveEdit r hl) ↔
      hl.handoffMatched r = false ∨
      r.base = hl.handoff.efiFreeMemoryTop ∧ r.size = 0 ∨
      r.base ≠ hl.handoff.efiFreeMemoryTop ∧
        r.base = hl.handoff.efiFreeMemoryTop + hl.handoff.efiFreeMemoryBottom) := by
  refine ⟨fun bump => reserveMemoryRegion_edit bump r hl, ?_⟩
  obtain ⟨hhobs, hcreated⟩ := reserveEdit_hobs r hl
  have hiff : EditsOnlyResources hl (reserveEdit r hl) ↔
      (reserveEdit r hl).1.handoff = hl.handoff :=
    ⟨fun h => h.handoff, fun h => ⟨h, hhobs, hcreated⟩⟩
  rw [hiff, reserveEdit]
  cases hm : hl.handoffMatched r with
  | false =>
    refine ⟨fun _ => .inl rfl, fun _ => ?_⟩
    rw [if_neg Bool.false_ne_true]
    cases splitAtResource (covers r.base (r.base + r.size.toUInt64)) hl.hobs with
    | none => rfl
    | some s => rfl
  | true =>
    rw [if_pos rfl]
    have hsame := (withResource_same_iff hl.handoff
      (punch r.base r.size hl.handoff.asResource).1).trans (punch_same_iff r hl.handoff.asResource)
    refine hsame.trans ⟨.inr, ?_⟩
    intro h
    exact h.resolve_left Bool.true_eq_false.mp

/-- a UEFI region whose base is a multiple of 4 GiB, and the descriptor of the system memory; the
low half of `EfiMemoryBottom`, read as a type, says system memory -/
def alignedUefiRegion : HobList :=
  ⟨⟨0x908000000, 0x900000000, 0x907fe0000, 0x900000070, 0x900000068⟩,
    [.resource ⟨resourceSystemMemory, resourceAttributes, 0x800000000, 0x200000000⟩]⟩

/-- the same descriptor behind the hand-off HOB of a UEFI region that is not so aligned -/
theorem uefiRegion_edits :
    EditsOnlyResources ⟨uefiRegion.handoff, alignedUefiRegion.hobs⟩
      (reserveEdit ⟨0x9e0000000, 0x7e8000⟩ ⟨uefiRegion.handoff, alignedUefiRegion.hobs⟩) :=
  (reserve_edits_iff ⟨0x9e0000000, 0x7e8000⟩ ⟨uefiRegion.handoff, alignedUefiRegion.hobs⟩).2.mpr
    (.inl (by decide))

/-- the framebuffer is punched into the hand-off HOB: the bottom of the free memory is lost, and
the descriptor of the system memory stays whole -/
theorem alignedUefiRegion_handoff_changed :
    reserveEdit ⟨0x9e0000000, 0x7e8000⟩ alignedUefiRegion =
      (⟨{ alignedUefiRegion.handoff with efiFreeMemoryBottom := 0xd8020000 },
        alignedUefiRegion.hobs⟩,
       [.resource ⟨resourceSystemMemory, 0x9, 0x9e07e8000, 0x8277f8070⟩,
        .resource ⟨resourceMemoryReserved, 0, 0x9e0000000, 0x7e8000⟩]) ∧
    (reserveMemoryRegion createHob 0x9e0000000 0x7e8000
      alignedUefiRegion).handoff.efiFreeMemoryBottom = 0xd8020000 + 2 * 48 ∧
    ¬ EditsOnlyResources alignedUefiRegion
      (reserveEdit ⟨0x9e0000000, 0x7e8000⟩ alignedUefiRegion) := by
  refine ⟨by decide, by decide, fun h => ?_⟩
  exact absurd h.handoff (by decide)

end AppleSilicon
