import AppleSilicon.Hob.Partition

/-!
# What no request takes

A byte of system memory leaves the allocator only through a request for it that a descriptor of the
list serves.  Where the search takes the hand-off HOB for a descriptor it looks no further: the list
keeps every descriptor it has, and the region is not reserved.

* `reserveMemoryRegion_matched`   a request that the hand-off HOB is taken for;
* `reserveMemoryRegion_free`      a byte that one request does not take;
* `runOps_free`                   a byte that no request of a run asks for;
* `runOps_matched_free`           a byte that only a request asks for that the hand-off HOB is taken
  for.
-/

namespace AppleSilicon

section
variable (bump : Handoff → Hob → Handoff)

theorem reserveMemoryRegion_matched (r : Request) (hl : HobList)
    (hm : hl.handoffMatched r = true) :
    (reserveMemoryRegion bump r.base r.size hl).resources = hl.resources ++
      (punch r.base r.size hl.handoff.asResource).2.filterMap Hob.resource? := by
  rw [HobList.handoffMatched] at hm
  simp only [reserveMemoryRegion, if_pos hm]
  rw [HobList.resources, buildAll_hobs, List.filterMap_append]
  rfl

/-- what the hole creates does not pass the end of the address space -/
theorem punch_created_bounded (r : Request) (d : ResourceDescriptor) (hr : r.piece.hi < 2^64)
    (hc : covers r.base (r.base + r.size.toUInt64) d = true) :
    ∀ e ∈ (punch r.base r.size d).2.filterMap Hob.resource?, e.piece.hi < 2^64 := by
  have hres : r.reserved.piece.hi < 2^64 := by
    rw [reserved_piece]
    exact hr
  -- the memory behind the hole ends where the descriptor ends, modulo `2^64`
  have hbehind : ∀ t a, ResourceDescriptor.piece ⟨t, a, r.base + r.size.toUInt64,
      d.physicalStart + d.resourceLength - (r.base + r.size.toUInt64)⟩ =
      ⟨(r.base + r.size.toUInt64).toNat, (d.physicalStart + d.resourceLength).toNat⟩ := by
    intro t a
    rw [covers, decide_eq_true_eq] at hc
    have hle := UInt64.le_iff_toNat_le.mp hc.2.2
    rw [ResourceDescriptor.piece, toNat_sub_of_le _ _ hle, Nat.add_sub_cancel' hle]
  intro e he
  unfold punch at he
  dsimp only at he
  by_cases h1 : r.base = d.physicalStart
  · rw [if_pos h1] at he
    obtain rfl := List.mem_singleton.mp he
    exact hres
  · rw [if_neg h1] at he
    by_cases h2 : d.physicalStart + d.resourceLength = r.base + r.size.toUInt64
    · rw [if_pos h2] at he
      obtain rfl := List.mem_singleton.mp he
      exact hres
    · rw [if_neg h2] at he
      rcases List.mem_cons.mp he with rfl | he
      · rw [hbehind]
        exact UInt64.toNat_lt _
      · obtain rfl := List.mem_singleton.mp he
        exact hres

/-- no request makes a descriptor that passes the end of the address space -/
theorem reserveMemoryRegion_bounded (r : Request) (hl : HobList) (hr : r.piece.hi < 2^64)
    (hd : ∀ d ∈ hl.resources, d.piece.hi < 2^64) :
    ∀ d ∈ (reserveMemoryRegion bump r.base r.size hl).resources, d.piece.hi < 2^64 := by
  intro e he
  by_cases hm : hl.handoffMatched r = true
  · rw [reserveMemoryRegion_matched bump r hl hm, List.mem_append] at he
    cases he with
    | inl he => exact hd e he
    | inr he => exact punch_created_bounded r _ hr hm e he
  · rw [Bool.not_eq_true] at hm
    cases reserveMemoryRegion_cases bump r hl hm hr hd with
    | inl hsame =>
      rw [hsame.1] at he
      exact hd e he
    | inr hpunch =>
      obtain ⟨pre, d, post, left, new, hres, _, _, hres', _, hleaves⟩ := hpunch
      rw [hres] at hd
      rw [hres'] at he
      have hold : ∀ e ∈ left :: new, e.piece.hi < 2^64 := by
        intro e hmem
        have hin := hleaves.partition.inside e.piece
          (List.mem_append_left _ (List.mem_map_of_mem hmem))
        exact hin.2.2.trans_lt (hd d (by simp))
      simp only [List.mem_append, List.mem_cons, List.not_mem_nil, or_false] at he
      rcases he with he | rfl | he | he | rfl
      · exact hd e (by simp [he])
      · exact hold e (by simp)
      · exact hd e (by simp [he])
      · exact hold e (by simp [he])
      · rw [reserved_piece]
        exact hr

/-- **one request** takes only what it asks for, and nothing where the hand-off HOB is taken for a
descriptor -/
theorem reserveMemoryRegion_free (r : Request) (hl : HobList) (x : ℕ) (hr : r.piece.hi < 2^64)
    (hd : ∀ d ∈ hl.resources, d.piece.hi < 2^64)
    (hx : IsOf resourceSystemMemory hl.resources x)
    (hout : hl.handoffMatched r = true ∨ ¬ r.piece.Has x) :
    IsOf resourceSystemMemory (reserveMemoryRegion bump r.base r.size hl).resources x := by
  obtain ⟨e, he, ht, hex⟩ := hx
  by_cases hm : hl.handoffMatched r = true
  · rw [reserveMemoryRegion_matched bump r hl hm]
    exact ⟨e, List.mem_append_left _ he, ht, hex⟩
  · have hrx := hout.resolve_left hm
    rw [Bool.not_eq_true] at hm
    cases reserveMemoryRegion_cases bump r hl hm hr hd with
    | inl hsame =>
      rw [hsame.1]
      exact ⟨e, he, ht, hex⟩
    | inr hpunch =>
      obtain ⟨pre, d, post, left, new, hres, _, _, hres', hnew, hleaves⟩ := hpunch
      rw [hres] at he
      rw [hres']
      simp only [List.mem_append, List.mem_cons] at he
      rcases he with he | rfl | he
      · exact ⟨e, by simp [he], ht, hex⟩
      · obtain ⟨q, hq, hqx⟩ := (hleaves.byte x).mpr ⟨hex, hrx⟩
        obtain ⟨e', he', rfl⟩ := List.mem_map.mp hq
        refine ⟨e', ?_, hnew e' he', hqx⟩
        cases List.mem_cons.mp he' with
        | inl h1 => simp [h1]
        | inr h1 => simp [h1]
      · exact ⟨e, by simp [he], ht, hex⟩

/-- **a run** takes only what its requests ask for -/
theorem runOps_free (ops : List Op) (hl : HobList) (hk : ∀ op ∈ ops, op.keepsResources)
    (hr : ∀ r ∈ ops.filterMap Op.request?, r.piece.hi < 2^64)
    (hd : ∀ d ∈ hl.resources, d.piece.hi < 2^64) :
    (∀ d ∈ (runOps bump ops hl).resources, d.piece.hi < 2^64) ∧
    ∀ x, IsOf resourceSystemMemory hl.resources x →
      (∀ r ∈ ops.filterMap Op.request?, ¬ r.piece.Has x) →
      IsOf resourceSystemMemory (runOps bump ops hl).resources x := by
  induction ops generalizing hl with
  | nil => exact ⟨hd, fun x hx _ => hx⟩
  | cons op ops ih =>
    rw [List.forall_mem_cons] at hk
    rw [runOps_cons]
    cases op with
    | reserve r =>
      rw [List.filterMap_cons_some (rfl : Op.request? (.reserve r) = some r)] at hr ⊢
      rw [List.forall_mem_cons] at hr
      obtain ⟨h1, h2⟩ := ih (reserveMemoryRegion bump r.base r.size hl) hk.2 hr.2
        (reserveMemoryRegion_bounded bump r hl hr.1 hd)
      refine ⟨h1, ?_⟩
      intro x hx hout
      rw [List.forall_mem_cons] at hout
      exact h2 x (reserveMemoryRegion_free bump r hl x hr.1 hd hx (.inr hout.1)) hout.2
    | build b =>
      have hsame := build_resources bump b hl hk.1
      have hih := ih ((Op.build b).run bump hl) hk.2 hr (hsame ▸ hd)
      rw [hsame] at hih
      exact hih

/-- a run whose searches do not all leave the hand-off HOB alone has a request that the hand-off
HOB is taken for -/
theorem matched_of_not_unmatched (ops : List Op) (hl : HobList)
    (h : ¬ handoffUnmatched bump ops hl) :
    ∃ pre r post, ops = pre ++ .reserve r :: post ∧
      (runOps bump pre hl).handoffMatched r = true := by
  induction ops generalizing hl with
  | nil => exact absurd trivial h
  | cons op ops ih =>
    have hlater : ¬ handoffUnmatched bump ops (op.run bump hl) →
        ∃ pre r post, op :: ops = pre ++ .reserve r :: post ∧
          (runOps bump pre hl).handoffMatched r = true := by
      intro hn
      obtain ⟨pre, r, post, rfl, hm⟩ := ih (op.run bump hl) hn
      exact ⟨op :: pre, r, post, rfl, hm⟩
    cases op with
    | build b => exact hlater h
    | reserve r =>
      by_cases hm : hl.handoffMatched r = true
      · exact ⟨[], r, ops, rfl, hm⟩
      · apply hlater
        intro hn
        exact h ⟨(Bool.not_eq_true _).mp hm, hn⟩

/-- a byte that only the request asks for that the hand-off HOB is taken for stays system memory -/
theorem runOps_matched_free (pre post : List Op) (r : Request) (hl : HobList) (x : ℕ)
    (hk : ∀ op ∈ pre ++ .reserve r :: post, op.keepsResources)
    (hr : ∀ r' ∈ (pre ++ .reserve r :: post).filterMap Op.request?, r'.piece.hi < 2^64)
    (hd : ∀ d ∈ hl.resources, d.piece.hi < 2^64)
    (hm : (runOps bump pre hl).handoffMatched r = true)
    (hx : IsOf resourceSystemMemory hl.resources x)
    (hout : ∀ r' ∈ (pre ++ post).filterMap Op.request?, ¬ r'.piece.Has x) :
    IsOf resourceSystemMemory (runOps bump (pre ++ .reserve r :: post) hl).resources x := by
  rw [List.forall_mem_append, List.forall_mem_cons] at hk
  rw [List.filterMap_append, List.filterMap_cons_some (rfl : Op.request? (.reserve r) = some r),
    List.forall_mem_append, List.forall_mem_cons] at hr
  rw [List.filterMap_append, List.forall_mem_append] at hout
  obtain ⟨hd1, hfree1⟩ := runOps_free bump pre hl hk.1 hr.1 hd
  have hx2 := reserveMemoryRegion_free bump r (runOps bump pre hl) x hr.2.1 hd1
    (hfree1 x hx hout.1) (.inl hm)
  have hd2 := reserveMemoryRegion_bounded bump r (runOps bump pre hl) hr.2.1 hd1
  rw [runOps_append, runOps_cons]
  exact (runOps_free bump post _ hk.2.2 hr.2.2 hd2).2 x hx2 hout.2

end

end AppleSilicon
