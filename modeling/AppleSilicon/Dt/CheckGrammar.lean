import AppleSilicon.Dt.Check
import AppleSilicon.Dt.Deep

/-!
# `dt_check` accepts exactly the grammar

`dtCheck_total` and `dtCheck_complete` say what is accepted.  Here it is shown what the result
depends on: the header of every node walked and the low three bytes of the length word of every
property walked (`dtCheckFuel_sameHeads`).  The steps of a walk occupy disjoint ranges
(`dtCheckFuel_walk`), so the top byte of a length word is in no other step, and the bytes behind an
accepted node are in none.

`dtCheck_accepts_grammar` puts the parts together.
-/

namespace AppleSilicon

namespace Step

def start : Step → ℕ
  | node a => a
  | prop a => a

/-- the end of the fixed part of the step's header -/
def stop : Step → ℕ
  | node a => a + sizeofNode
  | prop a => a + sizeofProp

end Step

/-- the two memories agree on what `dt_check` uses of the step: the whole header of a node, the
low three bytes of the length word of a property (its top byte is only readable) -/
def SameHead (mem mem' : Mem) : Step → Prop
  | .node a => ∀ i, i < sizeofNode → mem' (a + i) = mem (a + i)
  | .prop a => (∀ i, i < 3 → mem' (a + dtKeyLen + i) = mem (a + dtKeyLen + i)) ∧
      ∃ b, mem' (a + dtKeyLen + 3) = some b

/-! ## what one iteration can do -/

theorem dtCheckProps_cases (mem : Mem) (base size n off : ℕ) (c : CheckCur)
    (h : dtCheckProps mem base size (n + 1) off = some c) :
    (size < off + sizeofProp ∧ c = ⟨-1, off, []⟩) ∨
    (¬ size < off + sizeofProp ∧ ∃ w, mem.le32 (base + off + dtKeyLen) = some w ∧
      ((size < off + (sizeofProp + padded (w % 2^24)) ∧
          c = ⟨-1, off + (sizeofProp + padded (w % 2^24)), [.prop (base + off)]⟩) ∨
       (¬ size < off + (sizeofProp + padded (w % 2^24)) ∧
          ∃ c', dtCheckProps mem base size n (off + (sizeofProp + padded (w % 2^24))) = some c' ∧
            c = c'.after [.prop (base + off)]))) := by
  by_cases hs : size < off + sizeofProp
  · rw [dtCheckProps_short mem base size n off hs] at h
    exact Or.inl ⟨hs, (Option.some.inj h).symm⟩
  · refine Or.inr ⟨hs, ?_⟩
    cases hw : mem.le32 (base + off + dtKeyLen) with
    | none =>
      rw [dtCheckProps, if_neg hs, hw] at h
      cases h
    | some w =>
      refine ⟨w, rfl, ?_⟩
      by_cases hl : size < off + (sizeofProp + padded (w % 2^24))
      · rw [dtCheckProps_long mem base size n off w hs hw hl] at h
        exact Or.inl ⟨hl, (Option.some.inj h).symm⟩
      · rw [dtCheckProps_step mem base size n off w hw hl] at h
        obtain ⟨c', hc', e⟩ := Option.map_eq_some_iff.mp h
        exact Or.inr ⟨hl, c', hc', e.symm⟩

theorem dtCheckChildren_cases (check : ℕ → ℕ → Option CheckOut) (base size n off : ℕ) (c : CheckCur)
    (h : dtCheckChildren check base size (n + 1) off = some c) :
    ∃ o, check (base + off) (size - off) = some o ∧
      ((o.ret ≠ 0 ∧ c = ⟨o.ret, off, o.walked⟩) ∨
       (o.ret = 0 ∧ ∃ c', dtCheckChildren check base size n (off + o.offp.getD 0) = some c' ∧
          c = c'.after o.walked)) := by
  cases ho : check (base + off) (size - off) with
  | none =>
    rw [dtCheckChildren, ho] at h
    cases h
  | some o =>
    refine ⟨o, rfl, ?_⟩
    by_cases h0 : o.ret = 0
    · rw [dtCheckChildren_step check base size n off o ho h0] at h
      obtain ⟨c', hc', e⟩ := Option.map_eq_some_iff.mp h
      exact Or.inr ⟨h0, c', hc', e.symm⟩
    · rw [dtCheckChildren_fail check base size n off o ho h0] at h
      exact Or.inl ⟨h0, (Option.some.inj h).symm⟩

theorem dtCheckFuel_cases (mem : Mem) (fuel base size : ℕ) (o : CheckOut)
    (h : dtCheckFuel mem (fuel + 1) base size = some o) :
    (size < sizeofNode ∧ o = ⟨-1, none, []⟩) ∨
    (¬ size < sizeofNode ∧ ∃ nprop p, mem.le32 base = some nprop ∧
      dtCheckProps mem base size nprop sizeofNode = some p ∧
      ((p.ret ≠ 0 ∧ o = ⟨p.ret, none, .node base :: p.walked⟩) ∨
       (p.ret = 0 ∧ ∃ nchld c, mem.le32 (base + 4) = some nchld ∧
          dtCheckChildren (dtCheckFuel mem fuel) base size nchld p.off = some c ∧
          o = ⟨c.ret, if c.ret = 0 then some c.off else none,
            .node base :: (p.walked ++ c.walked)⟩))) := by
  rw [dtCheckFuel] at h
  by_cases hs : size < sizeofNode
  · rw [if_pos hs] at h
    exact Or.inl ⟨hs, (Option.some.inj h).symm⟩
  · rw [if_neg hs] at h
    obtain ⟨nprop, h1, h⟩ := Option.bind_eq_some_iff.mp h
    obtain ⟨p, hp, h⟩ := Option.bind_eq_some_iff.mp h
    refine Or.inr ⟨hs, nprop, p, h1, hp, ?_⟩
    by_cases hp0 : p.ret = 0
    · rw [if_neg (fun e => e hp0)] at h
      obtain ⟨nchld, h2, h⟩ := Option.bind_eq_some_iff.mp h
      obtain ⟨c, hc, h⟩ := Option.bind_eq_some_iff.mp h
      refine Or.inr ⟨hp0, nchld, c, h2, hc, ?_⟩
      by_cases hc0 : c.ret = 0
      · rw [if_neg (fun e => e hc0)] at h
        rw [if_pos hc0, hc0]
        exact (Option.some.inj h).symm
      · rw [if_pos hc0] at h
        rw [if_neg hc0]
        exact (Option.some.inj h).symm
    · rw [if_pos hp0] at h
      exact Or.inl ⟨hp0, (Option.some.inj h).symm⟩

/-! ## the result depends on the headers walked and on nothing else -/

theorem dtCheckProps_sameHeads (mem mem' : Mem) (base size n off : ℕ) (c : CheckCur)
    (h : dtCheckProps mem base size n off = some c)
    (hs : ∀ s ∈ c.walked, SameHead mem mem' s) :
    dtCheckProps mem' base size n off = some c := by
  induction n generalizing off c with
  | zero => exact h
  | succ n ih =>
    rcases dtCheckProps_cases mem base size n off c h with ⟨h1, rfl⟩ | ⟨h1, w, hw, h2⟩
    · exact dtCheckProps_short mem' base size n off h1
    · have hmem : Step.prop (base + off) ∈ c.walked := by
        rcases h2 with ⟨_, rfl⟩ | ⟨_, c', _, rfl⟩
        · exact List.mem_cons_self ..
        · exact List.mem_cons_self ..
      obtain ⟨hlow, htop⟩ := hs _ hmem
      obtain ⟨w', hw', e⟩ := Mem.le32_congr_low24 mem mem' _ w hlow htop hw
      rcases h2 with ⟨h3, rfl⟩ | ⟨h3, c', hc', rfl⟩
      · rw [dtCheckProps_long mem' base size n off w' h1 hw' (by rw [e]; exact h3), e]
      · rw [dtCheckProps_step mem' base size n off w' hw' (by rw [e]; exact h3), e,
          ih _ c' hc' (fun s hm => hs s (List.mem_append_right _ hm))]
        rfl

theorem dtCheckChildren_sameHeads (mem mem' : Mem) (check check' : ℕ → ℕ → Option CheckOut)
    (base size n off : ℕ) (c : CheckCur)
    (hck : ∀ a s o, check a s = some o → (∀ t ∈ o.walked, SameHead mem mem' t) →
      check' a s = some o)
    (h : dtCheckChildren check base size n off = some c)
    (hs : ∀ s ∈ c.walked, SameHead mem mem' s) :
    dtCheckChildren check' base size n off = some c := by
  induction n generalizing off c with
  | zero => exact h
  | succ n ih =>
    obtain ⟨o, ho, ⟨h0, rfl⟩ | ⟨h0, c', hc', rfl⟩⟩ :=
      dtCheckChildren_cases check base size n off c h
    · exact dtCheckChildren_fail check' base size n off o (hck _ _ o ho hs) h0
    · have ho' := hck _ _ o ho (fun t ht => hs t (List.mem_append_left _ ht))
      rw [dtCheckChildren_step check' base size n off o ho' h0,
        ih _ c' hc' (fun s hm => hs s (List.mem_append_right _ hm))]
      rfl

theorem dtCheckFuel_sameHeads (mem mem' : Mem) (fuel base size : ℕ) (o : CheckOut)
    (h : dtCheckFuel mem fuel base size = some o)
    (hs : ∀ s ∈ o.walked, SameHead mem mem' s) :
    dtCheckFuel mem' fuel base size = some o := by
  induction fuel generalizing base size o with
  | zero => cases h
  | succ fuel ih =>
    rcases dtCheckFuel_cases mem fuel base size o h with
      ⟨h1, rfl⟩ | ⟨h1, nprop, p, hn, hp, h2⟩
    · rw [dtCheckFuel, if_pos h1]
    · have hroot : SameHead mem mem' (.node base) := by
        apply hs
        rcases h2 with ⟨_, rfl⟩ | ⟨_, nchld, c, _, _, rfl⟩
        · exact List.mem_cons_self ..
        · exact List.mem_cons_self ..
      have hsz : sizeofNode = 8 := rfl
      have hn' : mem'.le32 base = some nprop := by
        rw [Mem.le32_congr mem mem' base (fun i hi => hroot i (by omega)), hn]
      have hp' : dtCheckProps mem' base size nprop sizeofNode = some p := by
        refine dtCheckProps_sameHeads mem mem' base size nprop sizeofNode p hp
          (fun s hm => hs s ?_)
        rcases h2 with ⟨_, rfl⟩ | ⟨_, nchld, c, _, _, rfl⟩
        · exact List.mem_cons_of_mem _ hm
        · exact List.mem_cons_of_mem _ (List.mem_append_left _ hm)
      rcases h2 with ⟨hp0, rfl⟩ | ⟨hp0, nchld, c, hc1, hc, rfl⟩
      · rw [dtCheckFuel, if_neg h1, hn', Option.bind_some, hp', Option.bind_some, if_pos hp0]
      · have hc1' : mem'.le32 (base + 4) = some nchld := by
          rw [Mem.le32_congr mem mem' (base + 4) (fun i hi => by
            rw [Nat.add_assoc]; exact hroot (4 + i) (by omega)), hc1]
        have hc' := dtCheckChildren_sameHeads mem mem' _ (dtCheckFuel mem' fuel) base size nchld
          p.off c (fun a s o' => ih a s o') hc
          (fun s hm => hs s (List.mem_cons_of_mem _ (List.mem_append_right _ hm)))
        rw [dtCheckFuel, if_neg h1, hn', Option.bind_some, hp', Option.bind_some,
          if_neg (fun e => e hp0), hc1', Option.bind_some, hc', Option.bind_some]
        by_cases hc0 : c.ret = 0
        · rw [if_neg (fun e => e hc0), if_pos hc0, hc0]
        · rw [if_pos hc0, if_neg hc0]

/-! ## the steps of a walk occupy disjoint ranges -/

/-- the steps lie at or after `lo`, one after the other -/
def WalkFrom (lo : ℕ) (w : List Step) : Prop :=
  (∀ s ∈ w, lo ≤ s.start) ∧ w.Pairwise (fun s t => s.stop ≤ t.start)

/-- ... and end at or before `hi` -/
def WalkIn (lo hi : ℕ) (w : List Step) : Prop := WalkFrom lo w ∧ ∀ s ∈ w, s.stop ≤ hi

theorem walkFrom_cons (lo : ℕ) (s : Step) (w : List Step) (h1 : lo ≤ s.start)
    (hs : s.start ≤ s.stop) (h : WalkFrom s.stop w) : WalkFrom lo (s :: w) := by
  refine ⟨fun t ht => ?_, List.pairwise_cons.mpr ⟨h.1, h.2⟩⟩
  rcases List.mem_cons.mp ht with rfl | ht
  · exact h1
  · exact h1.trans (hs.trans (h.1 t ht))

theorem walkFrom_mono (lo lo' : ℕ) (w : List Step) (h : WalkFrom lo w) (hl : lo' ≤ lo) :
    WalkFrom lo' w :=
  ⟨fun s hs => hl.trans (h.1 s hs), h.2⟩

theorem walkFrom_append (lo mid : ℕ) (v w : List Step) (hv : WalkIn lo mid v) (hm : lo ≤ mid)
    (hw : WalkFrom mid w) : WalkFrom lo (v ++ w) := by
  refine ⟨fun s hs => ?_, List.pairwise_append.mpr ⟨hv.1.2, hw.2,
    fun s hs t ht => (hv.2 s hs).trans (hw.1 t ht)⟩⟩
  rcases List.mem_append.mp hs with h | h
  · exact hv.1.1 s h
  · exact hm.trans (hw.1 s h)

theorem walkIn_nil (lo hi : ℕ) : WalkIn lo hi [] :=
  ⟨⟨fun s hs => (by cases hs), List.Pairwise.nil⟩, fun s hs => (by cases hs)⟩

theorem walkIn_cons (lo hi : ℕ) (s : Step) (w : List Step) (h1 : lo ≤ s.start)
    (hs : s.start ≤ s.stop) (hh : s.stop ≤ hi) (h : WalkIn s.stop hi w) : WalkIn lo hi (s :: w) := by
  refine ⟨walkFrom_cons lo s w h1 hs h.1, ?_⟩
  intro t ht
  rcases List.mem_cons.mp ht with rfl | ht
  · exact hh
  · exact h.2 t ht

theorem walkIn_append (lo mid hi : ℕ) (v w : List Step) (hv : WalkIn lo mid v) (hm : lo ≤ mid)
    (hh : mid ≤ hi) (hw : WalkIn mid hi w) : WalkIn lo hi (v ++ w) := by
  refine ⟨walkFrom_append lo mid v w hv hm hw.1, ?_⟩
  intro s hs
  rcases List.mem_append.mp hs with h | h
  · exact (hv.2 s h).trans hh
  · exact hw.2 s h

theorem walkIn_mono (lo lo' hi hi' : ℕ) (w : List Step) (h : WalkIn lo hi w) (hl : lo' ≤ lo)
    (hh : hi ≤ hi') : WalkIn lo' hi' w :=
  ⟨walkFrom_mono lo lo' w h.1 hl, fun s hs => (h.2 s hs).trans hh⟩

/-- a loop's walk lies between its first offset and `size`; if the loop runs to its end, between
its first and its last offset -/
def CurWalk (base size off : ℕ) (c : CheckCur) : Prop :=
  WalkIn (base + off) (base + size) c.walked ∧
    (c.ret = 0 → off ≤ c.off ∧ c.off ≤ size ∧ WalkIn (base + off) (base + c.off) c.walked)

theorem dtCheckProps_walk (mem : Mem) (base size n off : ℕ) (c : CheckCur) (ho : off ≤ size)
    (h : dtCheckProps mem base size n off = some c) : CurWalk base size off c := by
  induction n generalizing off c with
  | zero =>
    obtain rfl := Option.some.inj h
    exact ⟨walkIn_nil _ _, fun _ => ⟨le_refl off, ho, walkIn_nil _ _⟩⟩
  | succ n ih =>
    have hst : (Step.prop (base + off)).stop = base + off + sizeofProp := rfl
    have hss : (Step.prop (base + off)).start ≤ (Step.prop (base + off)).stop :=
      Nat.le_add_right _ _
    rcases dtCheckProps_cases mem base size n off c h with
      ⟨_, rfl⟩ | ⟨hs, w, _, ⟨_, rfl⟩ | ⟨hl, c', hc', rfl⟩⟩
    · exact ⟨walkIn_nil _ _, fun h0 => absurd h0 failed_ne⟩
    · exact ⟨walkIn_cons _ _ _ _ (le_refl _) hss (by omega) (walkIn_nil _ _),
        fun h0 => absurd h0 failed_ne⟩
    · obtain ⟨hw, hok⟩ := ih _ c' (by omega) hc'
      refine ⟨walkIn_cons _ _ _ _ (le_refl _) hss (by omega)
        (walkIn_mono _ _ _ _ _ hw (by omega) (le_refl _)), fun h0 => ?_⟩
      obtain ⟨h1, h2, h3⟩ := hok h0
      have e : (c'.after [.prop (base + off)]).off = c'.off := rfl
      exact ⟨by omega, h2, walkIn_cons _ _ _ _ (le_refl _) hss (by omega)
        (walkIn_mono _ _ _ _ _ h3 (by omega) (by omega))⟩

/-- the walk of a call lies in its bytes; if it accepts, in the bytes it accepts -/
def OutWalk (a size : ℕ) (o : CheckOut) : Prop :=
  WalkIn a (a + size) o.walked ∧ (o.ret ≠ 0 → o.offp = none) ∧
    (o.ret = 0 → ∃ l, o.offp = some l ∧ l ≤ size ∧ WalkIn a (a + l) o.walked)

theorem dtCheckChildren_walk (check : ℕ → ℕ → Option CheckOut) (base size n off : ℕ) (c : CheckCur)
    (hck : ∀ a s o, check a s = some o → OutWalk a s o) (ho : off ≤ size)
    (h : dtCheckChildren check base size n off = some c) : CurWalk base size off c := by
  induction n generalizing off c with
  | zero =>
    obtain rfl := Option.some.inj h
    exact ⟨walkIn_nil _ _, fun _ => ⟨le_refl off, ho, walkIn_nil _ _⟩⟩
  | succ n ih =>
    obtain ⟨o, hco, ⟨h0, rfl⟩ | ⟨h0, c', hc', rfl⟩⟩ :=
      dtCheckChildren_cases check base size n off c h
    · exact ⟨walkIn_mono _ _ _ _ _ (hck _ _ o hco).1 (le_refl _) (by omega),
        fun h1 => absurd h1 h0⟩
    · obtain ⟨_, _, hl⟩ := hck _ _ o hco
      obtain ⟨l, hl, hls, hw⟩ := hl h0
      rw [hl, Option.getD_some] at hc'
      obtain ⟨hw', hok⟩ := ih _ c' (by omega) hc'
      rw [← Nat.add_assoc] at hw' hok
      refine ⟨walkIn_append _ _ _ _ _ hw (Nat.le_add_right _ _) (by omega) hw', ?_⟩
      intro h1
      obtain ⟨h2, h3, h4⟩ := hok h1
      have e : (c'.after o.walked).off = c'.off := rfl
      exact ⟨by omega, h3, walkIn_append _ _ _ _ _ hw (Nat.le_add_right _ _) (by omega) h4⟩

theorem dtCheckFuel_walk (mem : Mem) (fuel base size : ℕ) (o : CheckOut)
    (h : dtCheckFuel mem fuel base size = some o) : OutWalk base size o := by
  induction fuel generalizing base size o with
  | zero => cases h
  | succ fuel ih =>
    have hst : (Step.node base).stop = base + sizeofNode := rfl
    have hss : (Step.node base).start ≤ (Step.node base).stop := Nat.le_add_right _ _
    rcases dtCheckFuel_cases mem fuel base size o h with
      ⟨_, rfl⟩ | ⟨hs, nprop, p, _, hp, ⟨hp0, rfl⟩ | ⟨hp0, nchld, c, _, hc, rfl⟩⟩
    · exact ⟨walkIn_nil _ _, fun _ => rfl, fun h0 => absurd h0 failed_ne⟩
    · have hpw := dtCheckProps_walk mem base size nprop sizeofNode p (by omega) hp
      exact ⟨walkIn_cons _ _ _ _ (le_refl _) hss (by omega) hpw.1, fun _ => rfl,
        fun h0 => absurd h0 hp0⟩
    · obtain ⟨_, hpok⟩ := dtCheckProps_walk mem base size nprop sizeofNode p (by omega) hp
      obtain ⟨hpo, hpz, hps⟩ := hpok hp0
      obtain ⟨hcw, hcok⟩ := dtCheckChildren_walk _ base size nchld p.off c
        (fun a s o' => ih a s o') hpz hc
      refine ⟨walkIn_cons _ _ _ _ (le_refl _) hss (by omega)
        (walkIn_append _ _ _ _ _ hps (by omega) (by omega) hcw), fun h0 => if_neg h0, fun h0 => ?_⟩
      have h0' : c.ret = 0 := h0
      obtain ⟨hco, hcz, hcs⟩ := hcok h0'
      exact ⟨c.off, if_pos h0', hcz, walkIn_cons _ _ _ _ (le_refl _) hss (by omega)
        (walkIn_append _ _ _ _ _ hps (by omega) (by omega) hcs)⟩

/-- two steps of a walk are the same or lie apart -/
theorem walk_apart (w : List Step) (hp : w.Pairwise (fun s t => s.stop ≤ t.start)) (s t : Step)
    (hs : s ∈ w) (ht : t ∈ w) : s = t ∨ s.stop ≤ t.start ∨ t.stop ≤ s.start := by
  induction w with
  | nil => cases hs
  | cons x w ih =>
    obtain ⟨hx, hw⟩ := List.pairwise_cons.mp hp
    rcases List.mem_cons.mp hs with e | hs
    · rcases List.mem_cons.mp ht with e' | ht
      · exact Or.inl (e.trans e'.symm)
      · rw [e]
        exact Or.inr (Or.inl (hx t ht))
    · rcases List.mem_cons.mp ht with e' | ht
      · rw [e']
        exact Or.inr (Or.inr (hx s hs))
      · exact ih hw hs ht

/-- a memory that differs only in top bytes of length words walked, or outside the bytes of the
call, or behind an accepted node, agrees on every step -/
theorem sameHeads_of_diff (mem mem' : Mem) (fuel base size : ℕ) (o : CheckOut)
    (h : dtCheckFuel mem fuel base size = some o) (hr : mem'.Readable base size)
    (hd : ∀ x, mem' x ≠ mem x → x < base ∨ base + size ≤ x ∨
      (∃ l, o.offp = some l ∧ base + l ≤ x) ∨
      ∃ a, Step.prop a ∈ o.walked ∧ x = a + dtKeyLen + 3) :
    ∀ s ∈ o.walked, SameHead mem mem' s := by
  obtain ⟨hw, hnone, hok⟩ := dtCheckFuel_walk mem fuel base size o h
  have hkl : dtKeyLen = 32 := rfl
  -- a byte of a step's header is not one of the bytes that may differ
  have key : ∀ s ∈ o.walked, ∀ x, s.start ≤ x → x < s.stop →
      (∀ a, s = .prop a → x ≠ a + dtKeyLen + 3) → mem' x = mem x := by
    intro s hs x h1 h2 h3
    by_contra hne
    have hlo := hw.1.1 s hs
    have hhi := hw.2 s hs
    rcases hd x hne with h4 | h4 | ⟨l, hl, h4⟩ | ⟨a, ha, h4⟩
    · omega
    · omega
    · by_cases hr : o.ret = 0
      · obtain ⟨l', hl', _, hs'⟩ := hok hr
        rw [hl] at hl'
        obtain rfl := Option.some.inj hl'
        have := hs'.2 s hs
        omega
      · rw [hnone hr] at hl
        cases hl
    · have hsa : (Step.prop a).start = a := rfl
      have hst : (Step.prop a).stop = a + 36 := rfl
      rcases walk_apart o.walked hw.1.2 s (.prop a) hs ha with e | e | e
      · exact h3 a e h4
      · omega
      · omega
  intro s hs
  have hlo := hw.1.1 s hs
  have hhi := hw.2 s hs
  cases s with
  | node a =>
    intro i hi
    exact key _ hs (a + i) (Nat.le_add_right a i) (Nat.add_lt_add_left hi a)
      (fun a' e => by cases e)
  | prop a =>
    have hsa : (Step.prop a).start = a := rfl
    have hst : (Step.prop a).stop = a + 36 := rfl
    refine ⟨fun i hi => key _ hs (a + dtKeyLen + i) (by omega) (by omega) ?_, ?_⟩
    · intro a' e
      cases e
      omega
    · obtain ⟨b, hb⟩ := hr (a + dtKeyLen + 3 - base) (by omega)
      rw [show base + (a + dtKeyLen + 3 - base) = a + dtKeyLen + 3 by omega] at hb
      exact ⟨b, hb⟩

/-- **`dt_check` accepts exactly the grammar.**  On any `size` readable bytes (nothing is assumed
of the bytes around them: the run on the memory cut down to `[base, base + size)` is the same):

* the run ends, and leaves `*offp` alone when it returns non-zero;
* it returns 0 iff some prefix is a well-formed node; that prefix is unique and `*offp` is its
  length;
* the outcome is the same on every memory that differs, within the `size` bytes, only behind the
  accepted prefix or in the top bytes of length words. -/
theorem dtCheck_accepts_grammar (mem : Mem) (base size : ℕ) (hr : mem.Readable base size) :
    ∃ out, dtCheck mem base size = some out ∧
      dtCheck (mem.window base (base + size)) base size = some out ∧
      (out.ret ≠ 0 → out.offp = none) ∧
      (out.ret = 0 ↔ ∃ n cs b, mem.IsNode n cs base b ∧ b ≤ base + size) ∧
      (∀ n cs b, mem.IsNode n cs base b → b ≤ base + size → out.offp = some (b - base)) ∧
      (∀ n cs b n' cs' b', mem.IsNode n cs base b → mem.IsNode n' cs' base b' →
        n = n' ∧ cs = cs' ∧ b = b') ∧
      (∀ mem' : Mem, mem'.Readable base size →
        (∀ x, base ≤ x → x < base + size → mem' x ≠ mem x →
          (∃ l, out.offp = some l ∧ base + l ≤ x) ∨
          ∃ a, Step.prop a ∈ out.walked ∧ x = a + dtKeyLen + 3) →
        dtCheck mem' base size = some out) := by
  obtain ⟨out, ho, hnone, hok⟩ := dtCheck_total mem base size hr
  have hdep : ∀ mem' : Mem, mem'.Readable base size →
      (∀ x, base ≤ x → x < base + size → mem' x ≠ mem x →
        (∃ l, out.offp = some l ∧ base + l ≤ x) ∨
        ∃ a, Step.prop a ∈ out.walked ∧ x = a + dtKeyLen + 3) →
      dtCheck mem' base size = some out := by
    intro mem' hr' hd
    refine dtCheckFuel_sameHeads mem mem' (size + 1) base size out ho
      (sameHeads_of_diff mem mem' (size + 1) base size out ho hr' (fun x hx => ?_))
    by_cases h1 : x < base
    · exact Or.inl h1
    · by_cases h2 : base + size ≤ x
      · exact Or.inr (Or.inl h2)
      · exact Or.inr (Or.inr (hd x (by omega) (by omega) hx))
  have hacc : ∀ n cs b, mem.IsNode n cs base b → b ≤ base + size →
      out.ret = 0 ∧ out.offp = some (b - base) := by
    intro n cs b hn hb
    have e := dtCheck_complete mem n cs base b size hn hb
    rw [ho] at e
    rw [Option.some.inj e]
    exact ⟨rfl, rfl⟩
  refine ⟨out, ho, ?_, hnone, ⟨fun h0 => ?_, fun ⟨n, cs, b, hn, hb⟩ => (hacc n cs b hn hb).1⟩,
    fun n cs b hn hb => (hacc n cs b hn hb).2, fun n cs b n' cs' b' hn hn' => ?_, hdep⟩
  · apply hdep _ (Mem.readable_window mem base size hr)
    intro x h1 h2 hne
    exact absurd (Mem.window_in mem base (base + size) x h1 h2) hne
  · obtain ⟨n, cs, b, hn, hb, _⟩ := hok h0
    exact ⟨n, cs, b, hn, hb⟩
  · obtain ⟨e, eb⟩ := Mem.isForest_unique mem _ _ base b b' hn hn' rfl
    obtain ⟨en, ec, _⟩ := Forest.node.inj e
    exact ⟨en, ec, eb⟩

/-- a root with two children, of which the first has a child, is accepted whole -/
theorem familyMem_accepted : ∃ out, dtCheck familyMem 0 72 = some out ∧ out.ret = 0 ∧
    ∃ n cs, familyMem.IsNode n cs 0 72 ∧
      ∀ n' cs' b, familyMem.IsNode n' cs' 0 b → n' = n ∧ cs' = cs ∧ b = 72 := by
  obtain ⟨out, ho, _, _, h0, hl, huniq, _⟩ :=
    dtCheck_accepts_grammar familyMem 0 72 familyMem_readable
  have hc : dtCheck familyMem 0 72 = some ⟨0, some 72,
      [.node 0, .prop 8, .node 48, .node 56, .node 64]⟩ := by decide +kernel
  obtain rfl := Option.some.inj (hc.symm.trans ho)
  obtain ⟨n, cs, b, hn, hb⟩ := h0.mp rfl
  obtain rfl : b = 72 := (Option.some.inj (hl n cs b hn hb)).symm
  exact ⟨_, hc, rfl, n, cs, hn, fun n' cs' b h => huniq n' cs' b n cs 72 h hn⟩

end AppleSilicon
