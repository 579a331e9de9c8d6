import Mathlib

/-!
# Folds with an early exit

`runUntil step s l` feeds the elements of `l` to `step` one after the other until `step` asks to
stop: the control flow of a traversal that calls a client back and aborts when the client says so.
The result keeps the last state, the exit value (if any) and the elements that were fed, the
stopping one included.

* `runUntil_append_stop`, `runUntil_append_go`   a run over `xs ++ ys`;
* `runUntil_seen`                                what was fed is a prefix of the list;
* `runUntil_quiet`                               elements that change nothing.
-/

namespace AppleSilicon

structure Run (σ α ρ : Type*) where
  state : σ
  exit : Option ρ
  seen : List α

/-- a run that comes after the elements `xs` -/
def Run.after {σ α ρ : Type*} (xs : List α) (r : Run σ α ρ) : Run σ α ρ :=
  ⟨r.state, r.exit, xs ++ r.seen⟩

section
variable {σ α ρ : Type*} (step : σ → α → σ × Option ρ)

def runUntil : σ → List α → Run σ α ρ
  | s, [] => ⟨s, none, []⟩
  | s, a :: l =>
    match (step s a).2 with
    | some r => ⟨(step s a).1, some r, [a]⟩
    | none => (runUntil (step s a).1 l).after [a]

theorem runUntil_cons_stop (s : σ) (a : α) (l : List α) (r : ρ) (h : (step s a).2 = some r) :
    runUntil step s (a :: l) = ⟨(step s a).1, some r, [a]⟩ := by
  rw [runUntil, h]

theorem runUntil_cons_go (s : σ) (a : α) (l : List α) (h : (step s a).2 = none) :
    runUntil step s (a :: l) = (runUntil step (step s a).1 l).after [a] := by
  rw [runUntil, h]

theorem runUntil_seen (s : σ) (l : List α) : (runUntil step s l).seen <+: l := by
  induction l generalizing s with
  | nil => exact List.nil_prefix
  | cons a l ih =>
    cases h : (step s a).2 with
    | some r =>
      rw [runUntil_cons_stop step s a l r h]
      exact ⟨l, rfl⟩
    | none =>
      rw [runUntil_cons_go step s a l h]
      obtain ⟨t, ht⟩ := ih (step s a).1
      refine ⟨t, ?_⟩
      show a :: ((runUntil step (step s a).1 l).seen ++ t) = a :: l
      rw [ht]

theorem runUntil_mem (s : σ) (l : List α) (a : α) (h : a ∈ (runUntil step s l).seen) : a ∈ l :=
  (runUntil_seen step s l).subset h

theorem runUntil_seen_all (s : σ) (l : List α) (h : (runUntil step s l).exit = none) :
    (runUntil step s l).seen = l := by
  induction l generalizing s with
  | nil => rfl
  | cons a l ih =>
    cases hs : (step s a).2 with
    | some r =>
      rw [runUntil_cons_stop step s a l r hs] at h
      cases h
    | none =>
      rw [runUntil_cons_go step s a l hs] at h ⊢
      show a :: (runUntil step (step s a).1 l).seen = a :: l
      rw [ih (step s a).1 h]

theorem runUntil_append_stop (s : σ) (xs ys : List α) (r : ρ)
    (h : (runUntil step s xs).exit = some r) :
    runUntil step s (xs ++ ys) = runUntil step s xs := by
  induction xs generalizing s with
  | nil => cases h
  | cons a xs ih =>
    rw [List.cons_append]
    cases hs : (step s a).2 with
    | some r' =>
      rw [runUntil_cons_stop step s a _ r' hs, runUntil_cons_stop step s a _ r' hs]
    | none =>
      rw [runUntil_cons_go step s a _ hs] at h
      rw [runUntil_cons_go step s a _ hs, runUntil_cons_go step s a _ hs, ih (step s a).1 h]

theorem runUntil_append_go (s : σ) (xs ys : List α) (h : (runUntil step s xs).exit = none) :
    runUntil step s (xs ++ ys) = (runUntil step (runUntil step s xs).state ys).after xs := by
  induction xs generalizing s with
  | nil => rfl
  | cons a xs ih =>
    rw [List.cons_append]
    cases hs : (step s a).2 with
    | some r' =>
      rw [runUntil_cons_stop step s a _ r' hs] at h
      cases h
    | none =>
      rw [runUntil_cons_go step s a _ hs] at h ⊢
      rw [runUntil_cons_go step s a _ hs, ih (step s a).1 h]
      rfl

theorem runUntil_append_seen (s : σ) (xs ys : List α) (a : α)
    (h : a ∈ (runUntil step s xs).seen) : a ∈ (runUntil step s (xs ++ ys)).seen := by
  cases he : (runUntil step s xs).exit with
  | some r =>
    rw [runUntil_append_stop step s xs ys r he]
    exact h
  | none =>
    rw [runUntil_append_go step s xs ys he]
    exact List.mem_append_left _ (runUntil_mem step s xs a h)

/-- elements the client ignores leave the state alone -/
theorem runUntil_quiet (s : σ) (l : List α) (h : ∀ a ∈ l, step s a = (s, none)) :
    runUntil step s l = ⟨s, none, l⟩ := by
  induction l with
  | nil => rfl
  | cons a l ih =>
    have ha := h a (List.mem_cons_self ..)
    rw [runUntil_cons_go step s a l (by rw [ha]), ha,
      ih (fun b hb => h b (List.mem_cons_of_mem _ hb))]
    rfl

/-- a client that never stops sees the whole list -/
theorem runUntil_exit_none (s : σ) (l : List α) (h : ∀ t, ∀ a ∈ l, (step t a).2 = none) :
    (runUntil step s l).exit = none := by
  induction l generalizing s with
  | nil => rfl
  | cons a l ih =>
    rw [runUntil_cons_go step s a l (h s a (List.mem_cons_self ..))]
    exact ih (step s a).1 (fun t b hb => h t b (List.mem_cons_of_mem _ hb))

/-- an exit value is one that some step gave -/
theorem runUntil_exit (P : ρ → Prop) (s : σ) (l : List α) (r : ρ)
    (h : ∀ t a r', (step t a).2 = some r' → P r') (he : (runUntil step s l).exit = some r) :
    P r := by
  induction l generalizing s with
  | nil => cases he
  | cons a l ih =>
    cases hs : (step s a).2 with
    | some r' =>
      rw [runUntil_cons_stop step s a l r' hs] at he
      rw [← Option.some.inj he]
      exact h s a r' hs
    | none =>
      rw [runUntil_cons_go step s a l hs] at he
      exact ih (step s a).1 he

end

end AppleSilicon
