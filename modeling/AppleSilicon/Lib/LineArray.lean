import Mathlib

/-!
# Lines kept in words: write one to set, write one to clear

A bank of registers holds one line per bit.  `setOnes` and `clearOnes` are the two ways such a bank
is written: the bits that are one in the value are set, or cleared, and the others stay.

* `line_setOnes`, `line_clearOnes`       what a write does to a line;
* `line_setOnes_one`, `line_clearOnes_one`   with a single one it is an update of that line;
* `run_eq_lastWrite`   when each step of a run updates one key, a key holds what was last written.
-/

namespace AppleSilicon

section
variable {ι : Type*} [DecidableEq ι] {w : ℕ}

/-- the line at bit `b` of the word `i` -/
def lineAt (m : ι → BitVec w) (i : ι) (b : ℕ) : Bool := (m i).getLsbD b

def setOnes (m : ι → BitVec w) (i : ι) (v : BitVec w) : ι → BitVec w :=
  Function.update m i (m i ||| v)

def clearOnes (m : ι → BitVec w) (i : ι) (v : BitVec w) : ι → BitVec w :=
  Function.update m i (m i &&& ~~~v)

theorem line_setOnes (m : ι → BitVec w) (i j : ι) (v : BitVec w) (b : ℕ) :
    lineAt (setOnes m i v) j b = if j = i then lineAt m j b || v.getLsbD b else lineAt m j b := by
  unfold lineAt setOnes
  by_cases h : j = i
  · subst h
    simp
  · rw [Function.update_of_ne h, if_neg h]

theorem line_clearOnes (m : ι → BitVec w) (i j : ι) (v : BitVec w) (b : ℕ) (hb : b < w) :
    lineAt (clearOnes m i v) j b
      = if j = i then lineAt m j b && !v.getLsbD b else lineAt m j b := by
  unfold lineAt clearOnes
  by_cases h : j = i
  · subst h
    simp [hb]
  · rw [Function.update_of_ne h, if_neg h]

/-- `v` has a one at bit `b` and nowhere else -/
def IsOne (v : BitVec w) (b : ℕ) : Prop := ∀ c, c < w → v.getLsbD c = decide (c = b)

theorem line_setOnes_one (m : ι → BitVec w) (i j : ι) (v : BitVec w) (b c : ℕ) (hv : IsOne v b)
    (hc : c < w) :
    lineAt (setOnes m i v) j c = if j = i ∧ c = b then true else lineAt m j c := by
  rw [line_setOnes, hv c hc]
  by_cases hj : j = i <;> by_cases hcb : c = b <;> simp [hj, hcb]

theorem line_clearOnes_one (m : ι → BitVec w) (i j : ι) (v : BitVec w) (b c : ℕ) (hv : IsOne v b)
    (hc : c < w) :
    lineAt (clearOnes m i v) j c = if j = i ∧ c = b then false else lineAt m j c := by
  rw [line_clearOnes m i j v c hc, hv c hc]
  by_cases hj : j = i <;> by_cases hcb : c = b <;> simp [hj, hcb]

end

section
variable {κ β σ α : Type*} [DecidableEq κ]

/-- the last value written to the key `x`, if any; a step that writes nothing is `none` -/
def lastWrite (write : α → Option (κ × β)) : List α → κ → Option β
  | [], _ => none
  | a :: l, x => (lastWrite write l x).or ((write a).bind fun p => if p.1 = x then some p.2 else none)

/-- **last write wins**: a key holds what was last written to it, or what it held at the start -/
theorem run_eq_lastWrite (write : α → Option (κ × β)) (step : σ → α → σ) (get : σ → κ → β)
    (l : List α) (h : ∀ s, ∀ a ∈ l, ∀ x, get (step s a) x
      = ((write a).bind fun p => if p.1 = x then some p.2 else none).getD (get s x)) (s : σ) (x : κ) :
    get (l.foldl step s) x = (lastWrite write l x).getD (get s x) := by
  induction l generalizing s with
  | nil => rfl
  | cons a l ih =>
    rw [List.foldl_cons, ih (fun s b hb => h s b (List.mem_cons_of_mem _ hb)),
      h s a (List.mem_cons_self ..), lastWrite]
    cases lastWrite write l x with
    | none => rfl
    | some v => rfl

end

end AppleSilicon
