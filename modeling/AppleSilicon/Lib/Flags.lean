import Mathlib

/-!
# The flags of sums and differences

A processor sets four flags with a sum or a difference of words (negative, zero, carry, signed
overflow), and a branch reads a condition from them.

* `toInt_sub_cases`              a signed difference, and when it overflows;
* `subFlags_lt`, `subFlags_ge`   behind a comparison `lt` and `ge` are the signed order;
* `subFlags_mi`                  `mi` is the sign of the difference, whether it overflowed or not;
* `addFlags_cs`                  `cs` is the carry of a sum.
-/

namespace AppleSilicon

structure Flags where
  n : Bool
  z : Bool
  c : Bool
  v : Bool
deriving DecidableEq, Repr

namespace Flags

def mi (f : Flags) : Bool := f.n

def ge (f : Flags) : Bool := f.n == f.v

def lt (f : Flags) : Bool := f.n != f.v

def cs (f : Flags) : Bool := f.c

end Flags

variable {w : ℕ}

/-- the flags of `a + b` -/
def addFlags (a b : BitVec w) : Flags :=
  ⟨(a + b).msb, a + b == 0, a.uaddOverflow b, a.saddOverflow b⟩

/-- the flags of `a - b`, and of a comparison of `a` with `b` -/
def subFlags (a b : BitVec w) : Flags :=
  ⟨(a - b).msb, a - b == 0, !a.usubOverflow b, a.ssubOverflow b⟩

theorem addFlags_cs (a b : BitVec w) : (addFlags a b).cs = decide (2^w ≤ a.toNat + b.toNat) := rfl

theorem subFlags_mi (a b : BitVec w) : (subFlags a b).mi = decide (2^(w - 1) ≤ (a - b).toNat) :=
  BitVec.msb_eq_decide _

theorem toInt_sub_cases (a b : BitVec (w + 1)) :
    a.ssubOverflow b = false ∧ (a - b).toInt = a.toInt - b.toInt ∨
    a.ssubOverflow b = true ∧ a.toInt < b.toInt ∧ 0 ≤ (a - b).toInt ∨
    a.ssubOverflow b = true ∧ b.toInt ≤ a.toInt ∧ (a - b).toInt < 0 := by
  have ha := BitVec.two_mul_toInt_lt (x := a)
  have ha' := BitVec.le_two_mul_toInt (x := a)
  have hb := BitVec.two_mul_toInt_lt (x := b)
  have hb' := BitVec.le_two_mul_toInt (x := b)
  have hpow : (2 : Int)^(w + 1) = 2 * 2^w := by ring
  have hcast : ((2^(w + 1) : ℕ) : Int) = 2 * 2^w := by
    push_cast
    ring
  rw [hpow] at ha ha' hb hb'
  have hover : a.ssubOverflow b = decide (2^w ≤ a.toInt - b.toInt ∨ a.toInt - b.toInt < -2^w) := by
    rw [BitVec.ssubOverflow, Nat.add_sub_cancel, Bool.decide_or]
  rw [hover, BitVec.toInt_sub, Int.bmod_def, hcast, decide_eq_true_iff, decide_eq_false_iff_not]
  generalize (2 : Int)^w = p at *
  -- the difference is off by at most one turn
  rcases lt_or_ge (a.toInt - b.toInt) (-p) with hlow | hlow
  · rw [Int.emod_eq_add_self_emod, Int.emod_eq_of_lt (by omega) (by omega)]
    omega
  · rcases lt_or_ge (a.toInt - b.toInt) 0 with hneg | hneg
    · rw [Int.emod_eq_add_self_emod, Int.emod_eq_of_lt (by omega) (by omega)]
      omega
    · rw [Int.emod_eq_of_lt hneg (by omega)]
      omega

/-- **`lt` is the signed order**: a difference that overflows has the wrong sign -/
theorem subFlags_lt (a b : BitVec (w + 1)) : (subFlags a b).lt = decide (a.toInt < b.toInt) := by
  show ((a - b).msb != a.ssubOverflow b) = _
  rw [BitVec.msb_eq_toInt]
  rcases toInt_sub_cases a b with ⟨hv, hd⟩ | ⟨hv, hlt, hd⟩ | ⟨hv, hle, hd⟩
  · rw [hv, hd, Bool.bne_false, decide_eq_decide]
    omega
  · rw [hv, decide_eq_false (by omega), decide_eq_true hlt]
    rfl
  · rw [hv, decide_eq_true hd, decide_eq_false (by omega)]
    rfl

theorem subFlags_ge (a b : BitVec (w + 1)) : (subFlags a b).ge = decide (b.toInt ≤ a.toInt) := by
  have hnot : (subFlags a b).ge = !(subFlags a b).lt := (Bool.not_not _).symm
  rw [hnot, subFlags_lt, ← decide_not, decide_eq_decide]
  omega

end AppleSilicon
