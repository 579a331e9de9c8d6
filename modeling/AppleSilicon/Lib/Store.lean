import Mathlib

/-!
# Stores and the writes to them

A store holds a value at every address.  What a program does to a store is the list of its writes,
each an address and a value.

* `applyWrites_untouched`   an address that is not written keeps its value;
* `applyWrites_single`      one that is written holds the value;
* `applyWrites_const`       and so it does after more writes of the same value;
* `applyWrites_copy`        a copy of a list, and `copied_list` the list read back.
-/

namespace AppleSilicon

section
variable {A V : Type*} [DecidableEq A]

def applyWrites (m : A → V) (ws : List (A × V)) : A → V :=
  ws.foldl (fun m w => Function.update m w.1 w.2) m

theorem applyWrites_cons (m : A → V) (w : A × V) (ws : List (A × V)) :
    applyWrites m (w :: ws) = applyWrites (Function.update m w.1 w.2) ws := rfl

theorem applyWrites_append (m : A → V) (ws ws' : List (A × V)) :
    applyWrites m (ws ++ ws') = applyWrites (applyWrites m ws) ws' := List.foldl_append

theorem applyWrites_untouched (m : A → V) (ws : List (A × V)) (a : A) (h : ∀ w ∈ ws, w.1 ≠ a) :
    applyWrites m ws a = m a := by
  induction ws generalizing m with
  | nil => rfl
  | cons w ws ih =>
    rw [applyWrites_cons, ih _ fun x hx => h x (List.mem_cons_of_mem _ hx)]
    exact Function.update_of_ne (h w (List.mem_cons_self ..)).symm _ _

theorem applyWrites_single (m : A → V) (a : A) (v : V) : applyWrites m [(a, v)] a = v :=
  Function.update_self ..

theorem applyWrites_const (m : A → V) (ws : List (A × V)) (a : A) (v : V)
    (h : ∀ w ∈ ws, w.1 = a → w.2 = v) (hex : ∃ w ∈ ws, w.1 = a) : applyWrites m ws a = v := by
  induction ws generalizing m with
  | nil =>
    obtain ⟨w, hw, _⟩ := hex
    cases hw
  | cons w ws ih =>
    have hrest : ∀ x ∈ ws, x.1 = a → x.2 = v := fun x hx => h x (List.mem_cons_of_mem _ hx)
    rw [applyWrites_cons]
    by_cases hlater : ∃ x ∈ ws, x.1 = a
    · exact ih _ hrest hlater
    · obtain ⟨x, hx, hxa⟩ := hex
      have hwa : w.1 = a := by
        rcases List.mem_cons.mp hx with rfl | hx
        · exact hxa
        · exact absurd ⟨x, hx, hxa⟩ hlater
      rw [applyWrites_untouched _ ws a fun x hx hxa => hlater ⟨x, hx, hxa⟩, hwa,
        ← h w (List.mem_cons_self ..) hwa]
      exact Function.update_self ..

end

/-! ## copies -/

section
variable {V : Type*}

/-- the values of a list, written one after the other from `a` on -/
def copyWrites (a : ℕ) : List V → List (ℕ × V)
  | [] => []
  | v :: vs => (a, v) :: copyWrites (a + 1) vs

theorem copyWrites_append (a : ℕ) (vs vs' : List V) :
    copyWrites a (vs ++ vs') = copyWrites a vs ++ copyWrites (a + vs.length) vs' := by
  induction vs generalizing a with
  | nil => rfl
  | cons v vs ih =>
    rw [List.cons_append, copyWrites, copyWrites, ih, List.cons_append, List.length_cons,
      show a + 1 + vs.length = a + (vs.length + 1) by omega]

theorem mem_copyWrites (a : ℕ) (vs : List V) (w : ℕ × V) (h : w ∈ copyWrites a vs) :
    a ≤ w.1 ∧ w.1 < a + vs.length := by
  induction vs generalizing a with
  | nil => cases h
  | cons v vs ih =>
    rw [List.length_cons]
    rcases List.mem_cons.mp h with rfl | h
    · exact ⟨le_refl a, by dsimp only; omega⟩
    · have := ih (a + 1) h
      omega

/-- **a copy**, read at one of its places -/
theorem applyWrites_copy (m : ℕ → V) (a i : ℕ) (vs : List V) (v : V) (h : vs[i]? = some v) :
    applyWrites m (copyWrites a vs) (a + i) = v := by
  induction vs generalizing m a i with
  | nil => cases h
  | cons v' vs ih =>
    rw [copyWrites, applyWrites_cons]
    cases i with
    | zero =>
      rw [applyWrites_untouched _ _ _ fun w hw e => by
        have := (mem_copyWrites (a + 1) vs w hw).1
        omega]
      obtain rfl := Option.some.inj h
      exact Function.update_self ..
    | succ i =>
      rw [show a + (i + 1) = a + 1 + i by omega]
      exact ih _ (a + 1) i h

/-- **a copied list, read back**, with what was there before behind it -/
theorem copied_list (m : ℕ → V) (vs : List V) (n : ℕ) (h : vs.length ≤ n) :
    (List.range n).map (applyWrites m (copyWrites 0 vs))
      = vs ++ (List.range' vs.length (n - vs.length)).map m := by
  apply List.ext_getElem
  · rw [List.length_map, List.length_range, List.length_append, List.length_map,
      List.length_range']
    omega
  · intro i h1 h2
    rw [List.getElem_map, List.getElem_range]
    by_cases hi : i < vs.length
    · have := applyWrites_copy m 0 i vs vs[i] (List.getElem?_eq_getElem hi)
      rw [Nat.zero_add] at this
      rw [this, List.getElem_append_left hi]
    · rw [List.getElem_append_right (by omega), List.getElem_map, List.getElem_range', Nat.one_mul,
        show vs.length + (i - vs.length) = i by omega]
      refine applyWrites_untouched m _ i fun w hw => ?_
      have := (mem_copyWrites 0 vs w hw).2
      omega

end

end AppleSilicon
