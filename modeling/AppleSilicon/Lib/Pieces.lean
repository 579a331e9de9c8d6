import Mathlib

/-!
# Intervals: partitions of a whole, and first come, first served

A piece is a half-open interval `[lo, hi)` of a linear order; it may be empty, and an empty piece
is still a place to cut at.

* `Partition.count`    a point of a partitioned whole lies in exactly one piece;
* `Partition.refine`   one piece is replaced by a partition of it;
* `Fits.take`          taking a piece out of what is free: what fits afterwards is what fitted
  before and stays clear of it;
* `Fits.byte`          what is free, point by point;
* `grant`              the requests that first come, first served grants.
-/

namespace AppleSilicon

/-- the half-open interval `[lo, hi)` -/
@[ext]
structure Piece (α : Type*) where
  lo : α
  hi : α
deriving DecidableEq

section
variable {α : Type*} [LinearOrder α]

namespace Piece

def Has (p : Piece α) (x : α) : Prop := p.lo ≤ x ∧ x < p.hi

def Inside (p q : Piece α) : Prop := q.lo ≤ p.lo ∧ p.hi ≤ q.hi

def Apart (p q : Piece α) : Prop := p.hi ≤ q.lo ∨ q.hi ≤ p.lo

instance (p : Piece α) (x : α) : Decidable (p.Has x) := inferInstanceAs (Decidable (_ ∧ _))

instance (p q : Piece α) : Decidable (p.Inside q) := inferInstanceAs (Decidable (_ ∧ _))

instance (p q : Piece α) : Decidable (p.Apart q) := inferInstanceAs (Decidable (_ ∨ _))

theorem Apart.symm {p q : Piece α} (h : p.Apart q) : q.Apart p := Or.symm h

theorem Inside.trans {p q r : Piece α} (h : p.Inside q) (k : q.Inside r) : p.Inside r :=
  ⟨k.1.trans h.1, h.2.trans k.2⟩

theorem Has.inside {p q : Piece α} {x : α} (h : p.Has x) (k : p.Inside q) : q.Has x :=
  ⟨k.1.trans h.1, h.2.trans_le k.2⟩

theorem Apart.mono {p q s t : Piece α} (h : p.Apart q) (hs : s.Inside p) (ht : t.Inside q) :
    s.Apart t := by
  cases h with
  | inl h => exact .inl ((hs.2.trans h).trans ht.1)
  | inr h => exact .inr ((ht.2.trans h).trans hs.1)

theorem Apart.not_has {p q : Piece α} {x : α} (h : p.Apart q) (hx : p.Has x) : ¬ q.Has x := by
  intro hq
  cases h with
  | inl h => exact absurd (hx.2.trans_le h) (not_lt_of_ge hq.1)
  | inr h => exact absurd (hq.2.trans_le h) (not_lt_of_ge hx.1)

end Piece

/-! ## partitions -/

/-- the pieces lie inside the whole, stay clear of each other and leave nothing out -/
structure Partition (ps : List (Piece α)) (whole : Piece α) : Prop where
  inside : ∀ p ∈ ps, p.lo ≤ p.hi ∧ p.Inside whole
  apart : ps.Pairwise Piece.Apart
  covers : ∀ x, whole.Has x → ∃ p ∈ ps, p.Has x

theorem Partition.perm {ps qs : List (Piece α)} {whole : Piece α} (h : Partition ps whole)
    (hp : ps.Perm qs) : Partition qs whole where
  inside p hq := h.inside p (hp.mem_iff.mpr hq)
  apart := (hp.pairwise_iff fun hab => Piece.Apart.symm hab).mp h.apart
  covers x hx := by
    obtain ⟨p, hm, hp'⟩ := h.covers x hx
    exact ⟨p, hp.mem_iff.mp hm, hp'⟩

theorem countP_apart (ps : List (Piece α)) (x : α) (h : ps.Pairwise Piece.Apart) :
    ps.countP (fun p => decide (p.Has x)) ≤ 1 := by
  induction ps with
  | nil => simp
  | cons p ps ih =>
    rw [List.pairwise_cons] at h
    by_cases hp : p.Has x
    · have h0 : ps.countP (fun p => decide (p.Has x)) = 0 := by
        rw [List.countP_eq_zero]
        intro q hq
        simpa using (h.1 q hq).not_has hp
      rw [List.countP_cons_of_pos (by simpa using hp), h0]
    · rw [List.countP_cons_of_neg (by simpa using hp)]
      exact ih h.2

/-- a point of the whole lies in exactly one piece -/
theorem Partition.count {ps : List (Piece α)} {whole : Piece α} (h : Partition ps whole) (x : α)
    (hx : whole.Has x) : ps.countP (fun p => decide (p.Has x)) = 1 := by
  have hle := countP_apart ps x h.apart
  have hpos : 0 < ps.countP (fun p => decide (p.Has x)) := by
    rw [List.countP_pos_iff]
    obtain ⟨p, hm, hp⟩ := h.covers x hx
    exact ⟨p, hm, by simpa using hp⟩
  omega

theorem Partition.one (lo hi : α) (h : lo ≤ hi) : Partition [⟨lo, hi⟩] ⟨lo, hi⟩ where
  inside p hp := by
    obtain rfl := List.mem_singleton.mp hp
    exact ⟨h, le_refl _, le_refl _⟩
  apart := List.pairwise_singleton _ _
  covers x hx := ⟨_, List.mem_singleton.mpr rfl, hx⟩

theorem Partition.two (lo c hi : α) (h1 : lo ≤ c) (h2 : c ≤ hi) :
    Partition [⟨lo, c⟩, ⟨c, hi⟩] ⟨lo, hi⟩ where
  inside p hp := by
    simp only [List.mem_cons, List.not_mem_nil, or_false] at hp
    obtain rfl | rfl := hp
    · exact ⟨h1, le_refl _, h2⟩
    · exact ⟨h2, h1, le_refl _⟩
  apart := by
    rw [List.pairwise_pair]
    exact .inl (le_refl _)
  covers x hx := by
    by_cases hc : x < c
    · exact ⟨⟨lo, c⟩, by simp, hx.1, hc⟩
    · exact ⟨⟨c, hi⟩, by simp, not_lt.mp hc, hx.2⟩

/-- a piece of a partition is replaced by a partition of it -/
theorem Partition.refine {p whole : Piece α} {ps qs : List (Piece α)}
    (h : Partition (p :: ps) whole) (hq : Partition qs p) : Partition (qs ++ ps) whole where
  inside r hr := by
    rw [List.mem_append] at hr
    cases hr with
    | inl hr =>
      obtain ⟨h1, h2⟩ := hq.inside r hr
      exact ⟨h1, h2.trans (h.inside p (List.mem_cons_self ..)).2⟩
    | inr hr => exact h.inside r (List.mem_cons_of_mem _ hr)
  apart := by
    have hp := List.pairwise_cons.mp h.apart
    refine List.pairwise_append.mpr ⟨hq.apart, hp.2, ?_⟩
    intro a ha b hb
    exact (hp.1 b hb).mono (hq.inside a ha).2 ⟨le_refl _, le_refl _⟩
  covers x hx := by
    obtain ⟨r, hr, hrx⟩ := h.covers x hx
    cases List.mem_cons.mp hr with
    | inl hrp =>
      obtain ⟨q, hqm, hqx⟩ := hq.covers x (hrp ▸ hrx)
      exact ⟨q, List.mem_append_left _ hqm, hqx⟩
    | inr hr => exact ⟨r, List.mem_append_right _ hr, hrx⟩

theorem Partition.three (lo c d hi : α) (h1 : lo ≤ c) (h2 : c ≤ d) (h3 : d ≤ hi) :
    Partition [⟨lo, c⟩, ⟨c, d⟩, ⟨d, hi⟩] ⟨lo, hi⟩ := by
  have h := Partition.two lo d hi (h1.trans h2) h3
  exact h.refine (Partition.two lo c d h1 h2)

/-- empty pieces can be left out -/
theorem Partition.drop_empty {es ps : List (Piece α)} {whole : Piece α}
    (h : Partition (es ++ ps) whole) (he : ∀ e ∈ es, e.hi ≤ e.lo) : Partition ps whole where
  inside p hp := h.inside p (List.mem_append_right _ hp)
  apart := (List.pairwise_append.mp h.apart).2.1
  covers x hx := by
    obtain ⟨p, hp, hpx⟩ := h.covers x hx
    cases List.mem_append.mp hp with
    | inl hp => exact absurd (hpx.2.trans_le (he p hp)) (not_lt_of_ge hpx.1)
    | inr hp => exact ⟨p, hp, hpx⟩

/-! ## what is left of a piece -/

/-- `qs` is what is left of the piece `p` when `r` is taken out of it -/
structure Leaves (p r : Piece α) (qs : List (Piece α)) : Prop where
  partition : Partition (qs ++ [r]) p
  fits : ∀ s : Piece α, s.lo < s.hi → ((∃ q ∈ qs, s.Inside q) ↔ s.Inside p ∧ s.Apart r)

theorem Leaves.head (lo c hi : α) (h1 : lo ≤ c) (h2 : c ≤ hi) :
    Leaves ⟨lo, hi⟩ ⟨lo, c⟩ [⟨c, hi⟩] where
  partition := (Partition.two lo c hi h1 h2).perm (List.Perm.swap _ _ _)
  fits s hs := by
    constructor
    · intro ⟨q, hq, hsq⟩
      obtain rfl := List.mem_singleton.mp hq
      exact ⟨⟨h1.trans hsq.1, hsq.2⟩, .inr hsq.1⟩
    · intro ⟨hi, ha⟩
      cases ha with
      | inl ha => exact absurd (hs.trans_le (le_trans ha hi.1)) (lt_irrefl _)
      | inr ha => exact ⟨_, List.mem_singleton.mpr rfl, ha, hi.2⟩

theorem Leaves.tail (lo c hi : α) (h1 : lo ≤ c) (h2 : c ≤ hi) :
    Leaves ⟨lo, hi⟩ ⟨c, hi⟩ [⟨lo, c⟩] where
  partition := Partition.two lo c hi h1 h2
  fits s hs := by
    constructor
    · intro ⟨q, hq, hsq⟩
      obtain rfl := List.mem_singleton.mp hq
      exact ⟨⟨hsq.1, hsq.2.trans h2⟩, .inl hsq.2⟩
    · intro ⟨hi, ha⟩
      cases ha with
      | inl ha => exact ⟨_, List.mem_singleton.mpr rfl, hi.1, ha⟩
      | inr ha => exact absurd (hs.trans_le (le_trans hi.2 ha)) (lt_irrefl _)

theorem Leaves.middle (lo c d hi : α) (h1 : lo ≤ c) (h2 : c ≤ d) (h3 : d ≤ hi) :
    Leaves ⟨lo, hi⟩ ⟨c, d⟩ [⟨lo, c⟩, ⟨d, hi⟩] where
  partition := (Partition.three lo c d hi h1 h2 h3).perm ((List.Perm.swap _ _ _).cons _)
  fits s hs := by
    constructor
    · intro ⟨q, hq, hsq⟩
      simp only [List.mem_cons, List.not_mem_nil, or_false] at hq
      obtain rfl | rfl := hq
      · exact ⟨⟨hsq.1, hsq.2.trans (h2.trans h3)⟩, .inl hsq.2⟩
      · exact ⟨⟨(h1.trans h2).trans hsq.1, hsq.2⟩, .inr hsq.1⟩
    · intro ⟨hi, ha⟩
      cases ha with
      | inl ha => exact ⟨_, List.mem_cons_self .., hi.1, ha⟩
      | inr ha => exact ⟨_, List.mem_cons_of_mem _ (List.mem_singleton.mpr rfl), ha, hi.2⟩

/-- the points that are left -/
theorem Leaves.byte {p r : Piece α} {qs : List (Piece α)} (h : Leaves p r qs) (x : α) :
    (∃ q ∈ qs, q.Has x) ↔ p.Has x ∧ ¬ r.Has x := by
  have hap := List.pairwise_append.mp h.partition.apart
  constructor
  · intro ⟨q, hq, hx⟩
    refine ⟨hx.inside (h.partition.inside q (List.mem_append_left _ hq)).2, ?_⟩
    exact (hap.2.2 q hq r (List.mem_singleton.mpr rfl)).not_has hx
  · intro ⟨hp, hr⟩
    obtain ⟨q, hq, hx⟩ := h.partition.covers x hp
    cases List.mem_append.mp hq with
    | inl hq => exact ⟨q, hq, hx⟩
    | inr hq =>
      rw [List.mem_singleton.mp hq] at hx
      exact absurd hx hr

/-! ## first come, first served -/

/-- `free` is what is left of the whole next to what is held: a nonempty piece fits into one of
the free ones when it stays clear of everything held -/
def Fits (free : List (Piece α)) (whole : Piece α) (held : List (Piece α)) : Prop :=
  ∀ s : Piece α, s.lo < s.hi →
    ((∃ p ∈ free, s.Inside p) ↔ s.Inside whole ∧ ∀ g ∈ held, s.Apart g)

theorem Fits.perm {free free' held : List (Piece α)} {whole : Piece α} (h : Fits free whole held)
    (hp : free.Perm free') : Fits free' whole held := by
  intro s hs
  rw [← h s hs]
  exact exists_congr fun p => and_congr_left fun _ => hp.mem_iff.symm

/-- what fits after `r` was taken out of the free piece `p` is what fitted before and stays clear
of `r` -/
theorem Fits.take {p r whole : Piece α} {free held qs : List (Piece α)}
    (h : Fits (p :: free) whole held) (ha : ∀ q ∈ free, Piece.Apart p q) (hr : r.Inside p)
    (hl : Leaves p r qs) : Fits (qs ++ free) whole (r :: held) := by
  intro s hs
  have hf := h s hs
  have hq := hl.fits s hs
  constructor
  · intro ⟨q, hm, hsq⟩
    cases List.mem_append.mp hm with
    | inl hm =>
      obtain ⟨hsp, hsr⟩ := hq.mp ⟨q, hm, hsq⟩
      obtain ⟨hw, hg⟩ := hf.mp ⟨p, List.mem_cons_self .., hsp⟩
      exact ⟨hw, List.forall_mem_cons.mpr ⟨hsr, hg⟩⟩
    | inr hm =>
      obtain ⟨hw, hg⟩ := hf.mp ⟨q, List.mem_cons_of_mem _ hm, hsq⟩
      exact ⟨hw, List.forall_mem_cons.mpr ⟨((ha q hm).mono hr hsq).symm, hg⟩⟩
  · intro ⟨hw, hg⟩
    rw [List.forall_mem_cons] at hg
    obtain ⟨q, hm, hsq⟩ := hf.mpr ⟨hw, hg.2⟩
    cases List.mem_cons.mp hm with
    | inl hqp =>
      obtain ⟨q', hm', hsq'⟩ := hq.mpr ⟨hqp ▸ hsq, hg.1⟩
      exact ⟨q', List.mem_append_left _ hm', hsq'⟩
    | inr hm => exact ⟨q, List.mem_append_right _ hm, hsq⟩

theorem Fits.one (whole : Piece α) : Fits [whole] whole [] := by
  intro s _
  simp

/-- a piece cut at two places -/
theorem Fits.three (lo c d hi : α) (h1 : lo ≤ c) (h2 : c ≤ d) (h3 : d ≤ hi) :
    Fits [⟨lo, c⟩, ⟨c, d⟩, ⟨d, hi⟩] ⟨lo, hi⟩ [⟨d, d⟩, ⟨c, c⟩] := by
  have hc := (Fits.one ⟨lo, hi⟩).take (r := ⟨c, c⟩) (by simp) ⟨h1, h2.trans h3⟩
    (Leaves.middle lo c c hi h1 (le_refl _) (h2.trans h3))
  have hd := (hc.perm (List.Perm.swap _ _ _)).take (r := ⟨d, d⟩) (by simp [Piece.Apart])
    ⟨h2, h3⟩ (Leaves.middle c d d hi h2 (le_refl _) h3)
  exact hd.perm (@List.perm_append_comm _ [_, _] [_])

/-- empty pieces can be left out -/
theorem Fits.drop_empty {es free held : List (Piece α)} {whole : Piece α}
    (h : Fits (es ++ free) whole held) (he : ∀ e ∈ es, e.hi ≤ e.lo) : Fits free whole held := by
  intro s hs
  rw [← h s hs]
  constructor
  · intro ⟨p, hp, hsp⟩
    exact ⟨p, List.mem_append_right _ hp, hsp⟩
  · intro ⟨p, hp, hsp⟩
    cases List.mem_append.mp hp with
    | inl hp =>
      have hle := (hsp.2.trans (he p hp)).trans hsp.1
      exact absurd hs (not_lt_of_ge hle)
    | inr hp => exact ⟨p, hp, hsp⟩

/-- an empty piece that lies in no free one can be held as well -/
theorem Fits.hold_empty {r whole : Piece α} {free held : List (Piece α)}
    (h : Fits free whole held) (he : r.lo = r.hi) (hn : ∀ p ∈ free, ¬ r.Inside p) :
    Fits free whole (r :: held) := by
  intro s hs
  have hf := h s hs
  constructor
  · intro ⟨p, hm, hsp⟩
    obtain ⟨hw, hg⟩ := hf.mp ⟨p, hm, hsp⟩
    refine ⟨hw, List.forall_mem_cons.mpr ⟨?_, hg⟩⟩
    by_contra hap
    rw [Piece.Apart, not_or, not_le, not_le] at hap
    exact hn p hm ⟨(hsp.1.trans hap.2.le).trans he.ge, (he.ge.trans hap.1.le).trans hsp.2⟩
  · intro ⟨hw, hg⟩
    exact hf.mpr ⟨hw, (List.forall_mem_cons.mp hg).2⟩

/-- an empty piece strictly inside one that is held can be forgotten -/
theorem Fits.forget {r g whole : Piece α} {free held : List (Piece α)}
    (h : Fits free whole (r :: held)) (he : r.lo = r.hi) (hg : g ∈ held) (hrg : ¬ r.Apart g) :
    Fits free whole held := by
  intro s hs
  rw [h s hs, List.forall_mem_cons]
  rw [Piece.Apart, not_or, not_le, not_le] at hrg
  constructor
  · intro ⟨hw, _, hall⟩
    exact ⟨hw, hall⟩
  · intro ⟨hw, hall⟩
    refine ⟨hw, ?_, hall⟩
    cases hall g hg with
    | inl hsg => exact .inl ((hsg.trans hrg.1.le).trans he.ge)
    | inr hgs => exact .inr ((he.ge.trans hrg.2.le).trans hgs)

/-- what is free, point by point -/
theorem Fits.byte [SuccOrder α] [NoMaxOrder α] {free held : List (Piece α)} {whole : Piece α}
    (h : Fits free whole held) (x : α) :
    (∃ p ∈ free, p.Has x) ↔ whole.Has x ∧ ∀ g ∈ held, ¬ g.Has x := by
  have hin : ∀ p : Piece α, (⟨x, Order.succ x⟩ : Piece α).Inside p ↔ p.Has x := by
    intro p
    rw [Piece.Inside, Piece.Has, Order.succ_le_iff]
  have hap : ∀ g : Piece α, (⟨x, Order.succ x⟩ : Piece α).Apart g ↔ ¬ g.Has x := by
    intro g
    rw [Piece.Apart, Piece.Has, Order.succ_le_iff, not_and_or, not_le, not_lt]
  have hs := h ⟨x, Order.succ x⟩ (Order.lt_succ x)
  simpa only [hin, hap] using hs

/-- the request lies in the whole and stays clear of everything held -/
def Grantable (whole : Piece α) (held : List (Piece α)) (r : Piece α) : Prop :=
  r.Inside whole ∧ ∀ g ∈ held, r.Apart g

instance (whole : Piece α) (held : List (Piece α)) (r : Piece α) :
    Decidable (Grantable whole held r) :=
  inferInstanceAs (Decidable (_ ∧ ∀ g ∈ held, _))

/-- first come, first served: what is held after the requests -/
def grant (whole : Piece α) : List (Piece α) → List (Piece α) → List (Piece α)
  | held, [] => held
  | held, r :: rs =>
    if Grantable whole held r then grant whole (r :: held) rs else grant whole held rs

/-- what is held after one request -/
def grantOne (whole : Piece α) (held : List (Piece α)) (r : Piece α) : List (Piece α) :=
  if Grantable whole held r then r :: held else held

theorem grant_cons (whole : Piece α) (held rs : List (Piece α)) (r : Piece α) :
    grant whole held (r :: rs) = grant whole (grantOne whole held r) rs := by
  rw [grant, grantOne]
  by_cases h : Grantable whole held r
  · rw [if_pos h, if_pos h]
  · rw [if_neg h, if_neg h]

/-- a request that a free piece covers: it is taken out of that piece -/
theorem Fits.served {p r whole : Piece α} {free held qs : List (Piece α)}
    (h : Fits (p :: free) whole held) (ha : ∀ q ∈ free, Piece.Apart p q) (hr : r.Inside p)
    (hle : r.lo ≤ r.hi) (hp : p.Inside whole) (hl : Leaves p r qs) :
    Fits (qs ++ free) whole (grantOne whole held r) := by
  have ht := h.take ha hr hl
  rw [grantOne]
  by_cases hg : Grantable whole held r
  · rw [if_pos hg]
    exact ht
  · rw [if_neg hg]
    rw [Grantable, not_and] at hg
    have hnot := hg (hr.trans hp)
    push Not at hnot
    obtain ⟨g, hgm, hng⟩ := hnot
    cases hle.lt_or_eq with
    | inl hlt =>
      have hfit := (h r hlt).mp ⟨p, List.mem_cons_self .., hr⟩
      exact absurd (hfit.2 g hgm) hng
    | inr heq => exact ht.forget heq hgm hng

/-- a request that no free piece covers: nothing changes -/
theorem Fits.refused {r whole : Piece α} {free held : List (Piece α)}
    (h : Fits free whole held) (hle : r.lo ≤ r.hi) (hn : ∀ p ∈ free, ¬ r.Inside p) :
    Fits free whole (grantOne whole held r) := by
  rw [grantOne]
  by_cases hg : Grantable whole held r
  · rw [if_pos hg]
    cases hle.lt_or_eq with
    | inl hlt =>
      obtain ⟨p, hp, hrp⟩ := (h r hlt).mpr hg
      exact absurd hrp (hn p hp)
    | inr heq => exact h.hold_empty heq hn
  · rw [if_neg hg]
    exact h

end

end AppleSilicon
