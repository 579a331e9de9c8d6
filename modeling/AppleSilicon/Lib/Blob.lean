import AppleSilicon.Lib.Bytes

/-!
# Byte strings in a memory

A list of bytes lies in a memory at an address, or is read off it.

* `holds_append`    two strings, one behind the other;
* `holds_bytesAt`, `bytesAt_of_holds`   what is read is what is held;
* `Holds.joined`    two strings held at one address agree as far as both go;
* `le32_word32`, `holds_word32`, `word32_inj`   a 32-bit word as a string of four bytes.
-/

namespace AppleSilicon

/-- a 32-bit word, least significant byte first -/
def word32 (w : ℕ) : List UInt8 :=
  [UInt8.ofNat w, UInt8.ofNat (w / 2^8), UInt8.ofNat (w / 2^16), UInt8.ofNat (w / 2^24)]

theorem word32_length (w : ℕ) : (word32 w).length = 4 := rfl

namespace Mem

/-- the bytes from `a` on are `bs` -/
def Holds (mem : Mem) (a : ℕ) (bs : List UInt8) : Prop := ∀ i, i < bs.length → mem (a + i) = bs[i]?

theorem holds_nil (mem : Mem) (a : ℕ) : mem.Holds a [] := fun _ hi => absurd hi (Nat.not_lt_zero _)

theorem holds_append (mem : Mem) (a : ℕ) (xs ys : List UInt8) :
    mem.Holds a (xs ++ ys) ↔ mem.Holds a xs ∧ mem.Holds (a + xs.length) ys := by
  constructor
  · intro h
    constructor
    · intro i hi
      rw [h i (by rw [List.length_append]; omega), List.getElem?_append_left hi]
    · intro i hi
      rw [Nat.add_assoc, h _ (by rw [List.length_append]; omega),
        List.getElem?_append_right (Nat.le_add_right ..), Nat.add_sub_cancel_left]
  · intro ⟨hx, hy⟩ i hi
    rw [List.length_append] at hi
    by_cases hlt : i < xs.length
    · rw [hx i hlt, List.getElem?_append_left hlt]
    · have h := hy (i - xs.length) (by omega)
      rw [Nat.add_assoc, show xs.length + (i - xs.length) = i by omega] at h
      rw [h, List.getElem?_append_right (by omega)]

theorem Holds.readable {mem : Mem} {a : ℕ} {bs : List UInt8} (h : mem.Holds a bs) :
    mem.Readable a bs.length := by
  intro i hi
  exact ⟨bs[i], (h i hi).trans (List.getElem?_eq_getElem hi)⟩

/-- two strings held at one address agree as far as both go -/
theorem Holds.joined {mem : Mem} {a : ℕ} {xs ys : List UInt8} (hx : mem.Holds a xs)
    (hy : mem.Holds a ys) : ∃ r r', xs ++ r = ys ++ r' := by
  refine ⟨ys.drop xs.length, xs.drop ys.length, List.ext_getElem? fun i => ?_⟩
  by_cases hi : i < xs.length
  · rw [List.getElem?_append_left hi]
    by_cases hj : i < ys.length
    · rw [List.getElem?_append_left hj, ← hx i hi, hy i hj]
    · rw [List.getElem?_append_right (by omega), List.getElem?_drop,
        show ys.length + (i - ys.length) = i by omega]
  · rw [List.getElem?_append_right (by omega), List.getElem?_drop,
      show xs.length + (i - xs.length) = i by omega]
    by_cases hj : i < ys.length
    · rw [List.getElem?_append_left hj]
    · rw [List.getElem?_append_right (by omega), List.getElem?_drop,
        show ys.length + (i - ys.length) = i by omega, List.getElem?_eq_none (by omega),
        List.getElem?_eq_none (by omega)]

/-- the `n` bytes from `a` on -/
def bytesAt (mem : Mem) (a n : ℕ) : List UInt8 := (List.range n).map fun i => (mem (a + i)).getD 0

theorem bytesAt_length (mem : Mem) (a n : ℕ) : (mem.bytesAt a n).length = n := by
  unfold bytesAt
  rw [List.length_map, List.length_range]

theorem holds_bytesAt (mem : Mem) (a n : ℕ) (h : mem.Readable a n) :
    mem.Holds a (mem.bytesAt a n) := by
  intro i hi
  rw [bytesAt_length] at hi
  obtain ⟨b, hb⟩ := h i hi
  unfold bytesAt
  rw [List.getElem?_map, List.getElem?_range hi, Option.map_some, hb, Option.getD_some]

theorem bytesAt_of_holds (mem : Mem) (a : ℕ) (bs : List UInt8) (h : mem.Holds a bs) :
    mem.bytesAt a bs.length = bs := by
  apply List.ext_getElem?
  intro i
  unfold bytesAt
  rw [List.getElem?_map]
  by_cases hi : i < bs.length
  · rw [List.getElem?_range hi, Option.map_some, h i hi, List.getElem?_eq_getElem hi,
      Option.getD_some]
  · rw [List.getElem?_eq_none (by rw [List.length_range]; omega),
      List.getElem?_eq_none (by omega)]
    rfl

/-! ## words -/

theorem le32_word32 (mem : Mem) (a w : ℕ) (hw : w < 2^32) (h : mem.Holds a (word32 w)) :
    mem.le32 a = some w := by
  have hl := word32_length w
  have h0 := h 0 (by omega)
  rw [Nat.add_zero] at h0
  rw [le32_of_bytes mem a _ _ _ _ h0 (h 1 (by omega)) (h 2 (by omega)) (h 3 (by omega))]
  simp only [UInt8.toNat_ofNat']
  congr 1
  omega

theorem holds_word32 (mem : Mem) (a w : ℕ) (h : mem.le32 a = some w) :
    mem.Holds a (word32 w) := by
  unfold le32 at h
  obtain ⟨b0, h0, h⟩ := Option.bind_eq_some_iff.mp h
  obtain ⟨b1, h1, h⟩ := Option.bind_eq_some_iff.mp h
  obtain ⟨b2, h2, h⟩ := Option.bind_eq_some_iff.mp h
  obtain ⟨b3, h3, h⟩ := Option.bind_eq_some_iff.mp h
  have l0 := b0.toNat_lt
  have l1 := b1.toNat_lt
  have l2 := b2.toNat_lt
  have l3 := b3.toNat_lt
  have hb : word32 w = [b0, b1, b2, b3] := by
    unfold word32
    rw [← Option.some.inj h]
    simp only [List.cons.injEq, and_true, ← UInt8.toNat_inj, UInt8.toNat_ofNat']
    omega
  rw [hb]
  intro i hi
  match i with
  | 0 => exact h0
  | 1 => exact h1
  | 2 => exact h2
  | 3 => exact h3
  | i + 4 => exact absurd hi (by show ¬ i + 4 < 4; omega)

end Mem

theorem word32_inj (w w' : ℕ) (hw : w < 2^32) (hw' : w' < 2^32) (h : word32 w = word32 w') :
    w = w' := by
  unfold word32 at h
  simp only [List.cons.injEq, and_true, ← UInt8.toNat_inj, UInt8.toNat_ofNat'] at h
  omega

end AppleSilicon
