import Mathlib

/-!
# Partial byte memory

A program that may only read some addresses is run on a PARTIAL memory: an address outside the
permitted range holds `none`, and reading it makes the run fail.  "Reads only bytes of `[a, b)`"
is then "does not fail on the memory cut down to `[a, b)`".

* `Mem.Readable mem a n`   the `n` bytes from `a` on can be read;
* `Mem.window mem a b`     the memory cut down to `[a, b)`;
* `Mem.le32 mem a`         the little-endian 32-bit word at `a`;
* `Mem.at mem a`           the byte stream that starts at `a` (a C string pointer).
-/

namespace AppleSilicon

/-- two halves put together in a word of `w` bits -/
theorem shiftLeft_mod_or (low high k w : ℕ) (hlow : low < 2^k) (hhigh : 2^k * high < 2^w) :
    high <<< k % 2^w ||| low = low + 2^k * high := by
  rw [Nat.shiftLeft_eq, Nat.mul_comm, Nat.mod_eq_of_lt hhigh,
    ← Nat.two_pow_add_eq_or_of_lt hlow, Nat.add_comm]

/-- bytes by address; `none` is an address that may not be read -/
abbrev Mem := ℕ → Option UInt8

namespace Mem

def Readable (mem : Mem) (a n : ℕ) : Prop := ∀ i, i < n → ∃ b, mem (a + i) = some b

def window (mem : Mem) (a b : ℕ) : Mem := fun x => if a ≤ x ∧ x < b then mem x else none

/-- `*(uint32_t *)a`, least significant byte first -/
def le32 (mem : Mem) (a : ℕ) : Option ℕ :=
  (mem a).bind fun b0 => (mem (a + 1)).bind fun b1 => (mem (a + 2)).bind fun b2 =>
    (mem (a + 3)).bind fun b3 =>
      some (b0.toNat + 2^8 * b1.toNat + 2^16 * b2.toNat + 2^24 * b3.toNat)

def «at» (mem : Mem) (a : ℕ) : ℕ → Option UInt8 := fun i => mem (a + i)

theorem readable_mono (mem : Mem) (a n m : ℕ) (h : mem.Readable a n) (hm : m ≤ n) :
    mem.Readable a m :=
  fun i hi => h i (lt_of_lt_of_le hi hm)

theorem readable_sub (mem : Mem) (a n k m : ℕ) (h : mem.Readable a n) (hk : k + m ≤ n) :
    mem.Readable (a + k) m := by
  intro i hi
  rw [Nat.add_assoc]
  exact h (k + i) (by omega)

theorem window_in (mem : Mem) (a b x : ℕ) (ha : a ≤ x) (hb : x < b) :
    mem.window a b x = mem x := by
  unfold window
  rw [if_pos ⟨ha, hb⟩]

theorem readable_window (mem : Mem) (a n : ℕ) (h : mem.Readable a n) :
    (mem.window a (a + n)).Readable a n := by
  intro i hi
  rw [window_in mem a (a + n) (a + i) (by omega) (by omega)]
  exact h i hi

/-- two memories that agree on the four bytes hold the same word -/
theorem le32_congr (mem mem' : Mem) (a : ℕ) (h : ∀ i, i < 4 → mem' (a + i) = mem (a + i)) :
    mem'.le32 a = mem.le32 a := by
  have h0 := h 0 (by omega)
  rw [Nat.add_zero] at h0
  unfold le32
  rw [h0, h 1 (by omega), h 2 (by omega), h 3 (by omega)]

theorem le32_window (mem : Mem) (a b x : ℕ) (ha : a ≤ x) (hb : x + 4 ≤ b) :
    (mem.window a b).le32 x = mem.le32 x :=
  le32_congr mem (mem.window a b) x
    (fun i hi => window_in mem a b (x + i) (by omega) (by omega))

theorem le32_of_bytes (mem : Mem) (a : ℕ) (b0 b1 b2 b3 : UInt8) (h0 : mem a = some b0)
    (h1 : mem (a + 1) = some b1) (h2 : mem (a + 2) = some b2) (h3 : mem (a + 3) = some b3) :
    mem.le32 a = some (b0.toNat + 2^8 * b1.toNat + 2^16 * b2.toNat + 2^24 * b3.toNat) := by
  unfold le32
  rw [h0, h1, h2, h3]
  rfl

/-- four readable bytes are a word -/
theorem le32_readable (mem : Mem) (a : ℕ) (h : mem.Readable a 4) : ∃ w, mem.le32 a = some w := by
  obtain ⟨b0, h0⟩ := h 0 (by omega)
  obtain ⟨b1, h1⟩ := h 1 (by omega)
  obtain ⟨b2, h2⟩ := h 2 (by omega)
  obtain ⟨b3, h3⟩ := h 3 (by omega)
  exact ⟨_, le32_of_bytes mem a b0 b1 b2 b3 h0 h1 h2 h3⟩

/-- the low 24 bits of a word are its three low bytes -/
theorem le32_low24 (b0 b1 b2 b3 : UInt8) :
    (b0.toNat + 2^8 * b1.toNat + 2^16 * b2.toNat + 2^24 * b3.toNat) % 2^24
      = b0.toNat + 2^8 * b1.toNat + 2^16 * b2.toNat := by
  have h0 := b0.toNat_lt
  have h1 := b1.toNat_lt
  have h2 := b2.toNat_lt
  omega

/-- words whose three low bytes agree have the same low 24 bits -/
theorem le32_congr_low24 (mem mem' : Mem) (a w : ℕ) (h : ∀ i, i < 3 → mem' (a + i) = mem (a + i))
    (h3 : ∃ b, mem' (a + 3) = some b) (hw : mem.le32 a = some w) :
    ∃ w', mem'.le32 a = some w' ∧ w' % 2^24 = w % 2^24 := by
  unfold le32 at hw
  obtain ⟨b0, e0, hw⟩ := Option.bind_eq_some_iff.mp hw
  obtain ⟨b1, e1, hw⟩ := Option.bind_eq_some_iff.mp hw
  obtain ⟨b2, e2, hw⟩ := Option.bind_eq_some_iff.mp hw
  obtain ⟨b3, e3, hw⟩ := Option.bind_eq_some_iff.mp hw
  obtain ⟨c3, f3⟩ := h3
  have f0 : mem' a = some b0 := (h 0 (by omega)).trans e0
  have f1 : mem' (a + 1) = some b1 := (h 1 (by omega)).trans e1
  have f2 : mem' (a + 2) = some b2 := (h 2 (by omega)).trans e2
  refine ⟨_, le32_of_bytes mem' a b0 b1 b2 c3 f0 f1 f2 f3, ?_⟩
  rw [← Option.some.inj hw, le32_low24, le32_low24]

end Mem

end AppleSilicon
