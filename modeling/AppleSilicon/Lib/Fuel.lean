import Mathlib

/-!
# Results that do not depend on the fuel

A recursion with fuel fails when the fuel runs out; more fuel never changes a result (`Grows`).
Then one fuel that gives a result is as good as every fuel that is large enough (`Returns`).

* `Grows.bind`       one call after the other;
* `Grows.returns`    from one fuel to all that are larger;
* `Returns.unique`   there is one result.
-/

namespace AppleSilicon

variable {α β : Type*}

/-- with enough fuel the result is `a` -/
def Returns (f : ℕ → Option α) (a : α) : Prop := ∃ fuel₀, ∀ fuel, fuel₀ ≤ fuel → f fuel = some a

/-- more fuel does not change a result -/
def Grows (f : ℕ → Option α) : Prop := ∀ fuel a, f fuel = some a → f (fuel + 1) = some a

theorem Grows.le {f : ℕ → Option α} (hf : Grows f) (fuel fuel' : ℕ) (a : α)
    (h : f fuel = some a) (hle : fuel ≤ fuel') : f fuel' = some a := by
  induction fuel', hle using Nat.le_induction with
  | base => exact h
  | succ n _ ih => exact hf n a ih

theorem Grows.returns {f : ℕ → Option α} (hf : Grows f) (fuel : ℕ) (a : α)
    (h : f fuel = some a) : Returns f a :=
  ⟨fuel, fun fuel' hle => hf.le fuel fuel' a h hle⟩

theorem grows_const (o : Option α) : Grows (fun _ => o) := fun _ _ h => h

theorem Grows.bind {f : ℕ → Option α} {g : ℕ → α → Option β} (hf : Grows f)
    (hg : ∀ a, Grows (fun fuel => g fuel a)) : Grows (fun fuel => (f fuel).bind (g fuel)) := by
  intro fuel b h
  obtain ⟨a, ha, hb⟩ := Option.bind_eq_some_iff.mp h
  show (f (fuel + 1)).bind (g (fuel + 1)) = some b
  rw [hf fuel a ha, Option.bind_some]
  exact hg a fuel b hb

/-- with enough fuel for both, both have their results -/
theorem Returns.both {f : ℕ → Option α} {g : ℕ → Option β} {a : α} {b : β} (hf : Returns f a)
    (hg : Returns g b) : ∃ fuel, f fuel = some a ∧ g fuel = some b := by
  obtain ⟨n, hn⟩ := hf
  obtain ⟨m, hm⟩ := hg
  exact ⟨max n m, hn _ (le_max_left n m), hm _ (le_max_right n m)⟩

theorem Returns.unique {f : ℕ → Option α} {a b : α} (ha : Returns f a) (hb : Returns f b) :
    a = b := by
  obtain ⟨fuel, h, h'⟩ := ha.both hb
  exact Option.some.inj (h.symm.trans h')

/-- a call that needs no fuel follows -/
theorem Grows.returns_bind_iff {f : ℕ → Option α} (hf : Grows f) (g : α → Option β) (b : β) :
    Returns (fun fuel => (f fuel).bind g) b ↔ ∃ a, Returns f a ∧ g a = some b := by
  constructor
  · intro h
    obtain ⟨fuel, h⟩ := h
    obtain ⟨a, ha, hb⟩ := Option.bind_eq_some_iff.mp (h fuel (le_refl fuel))
    exact ⟨a, hf.returns fuel a ha, hb⟩
  · intro h
    obtain ⟨a, ⟨fuel, ha⟩, hb⟩ := h
    refine ⟨fuel, fun fuel' hle => ?_⟩
    show (f fuel').bind g = some b
    rw [ha fuel' hle, Option.bind_some, hb]

/-- finitely many results are there with one fuel -/
theorem returns_forall {ι : Type*} (l : List ι) (f : ι → ℕ → Option α) (a : ι → α)
    (h : ∀ i ∈ l, Returns (f i) (a i)) : ∃ fuel₀, ∀ fuel, fuel₀ ≤ fuel → ∀ i ∈ l,
      f i fuel = some (a i) := by
  induction l with
  | nil => exact ⟨0, fun _ _ i hi => absurd hi List.not_mem_nil⟩
  | cons i l ih =>
    obtain ⟨n, hn⟩ := h i (List.mem_cons_self ..)
    obtain ⟨m, hm⟩ := ih fun j hj => h j (List.mem_cons_of_mem i hj)
    refine ⟨max n m, fun fuel hf j hj => ?_⟩
    cases List.mem_cons.mp hj with
    | inl hji =>
      rw [hji]
      exact hn fuel (le_of_max_le_left hf)
    | inr hjl => exact hm fuel (le_of_max_le_right hf) j hjl

end AppleSilicon
