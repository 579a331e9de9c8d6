import Mathlib

/-!
# Loops with fuel

A turn of a loop goes on with the next state or leaves with a result; one that does not return is
`none`.  `runLoop turn n s` gives the loop `n` turns, and is `none` too when they do not suffice.

* `runLoop_total`    an invariant, and a measure that goes down with each turn: the loop leaves;
* `runLoop_unique`   the number of turns does not matter where it suffices.
-/

namespace AppleSilicon

inductive Turn (S R : Type*) where
  | again (s : S)
  | leave (r : R)

variable {S R : Type*}

def runLoop (turn : S → Option (Turn S R)) : ℕ → S → Option R
  | 0, _ => none
  | n + 1, s =>
    match turn s with
    | none => none
    | some (.again s) => runLoop turn n s
    | some (.leave r) => some r

/-- **the loop leaves**, and with a right result, if each turn does or keeps the invariant and
brings the measure down -/
theorem runLoop_total (turn : S → Option (Turn S R)) (inv : S → Prop) (measure : S → ℕ)
    (post : R → Prop)
    (hturn : ∀ s, inv s →
      (∃ s', turn s = some (.again s') ∧ inv s' ∧ measure s' < measure s) ∨
        ∃ r, turn s = some (.leave r) ∧ post r)
    (n : ℕ) (s : S) (hinv : inv s) (hn : measure s < n) :
    ∃ r, runLoop turn n s = some r ∧ post r := by
  induction n generalizing s with
  | zero => omega
  | succ n ih =>
    rw [runLoop]
    obtain ⟨s', hs', hinv', hless⟩ | ⟨r, hr, hpost⟩ := hturn s hinv
    · rw [hs']
      exact ih s' hinv' (by omega)
    · rw [hr]
      exact ⟨r, rfl, hpost⟩

/-- what the loop leaves with does not depend on the number of turns it is given -/
theorem runLoop_unique (turn : S → Option (Turn S R)) (n m : ℕ) (s : S) (r r' : R)
    (h : runLoop turn n s = some r) (h' : runLoop turn m s = some r') : r = r' := by
  induction n generalizing m s with
  | zero => cases h
  | succ n ih =>
    cases m with
    | zero => cases h'
    | succ m =>
      rw [runLoop] at h h'
      cases ht : turn s with
      | none =>
        rw [ht] at h
        cases h
      | some t =>
        rw [ht] at h h'
        cases t with
        | again s => exact ih m s h h'
        | leave r₀ => exact (Option.some.inj h).symm.trans (Option.some.inj h')

end AppleSilicon
