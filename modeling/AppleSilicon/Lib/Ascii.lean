import AppleSilicon.Lib.Bytes

/-!
# NUL-terminated strings and the string functions of BaseLib

A string in memory is a byte stream (`Mem.at`); `IsStr f s` says that it is the string `s`, and
`IsStrN f n s` that `s` is what a comparison of at most `n` characters sees of it.  A string of the
caller (a literal, a path) is the list of its characters.

The string functions themselves are not part of the repository: they are the fields of `AsciiLib`,
and `AsciiLib.Documented` is what their documentation says of a result and of the reads it takes.
`asciiLib` is one such library.
-/

namespace AppleSilicon

/-- a list of characters that holds no NUL -/
def NoNul (s : List UInt8) : Prop := ∀ c ∈ s, c ≠ 0

instance (s : List UInt8) : Decidable (NoNul s) := List.decidableBAll (fun c => c ≠ 0) s

def IsStr (f : ℕ → Option UInt8) (s : List UInt8) : Prop :=
  NoNul s ∧ (∀ i, i < s.length → f i = s[i]?) ∧ f s.length = some 0

/-- the first `n` characters of a stream, cut at the NUL -/
def IsStrN (f : ℕ → Option UInt8) (n : ℕ) (s : List UInt8) : Prop :=
  NoNul s ∧ (∀ i, i < s.length → f i = s[i]?) ∧
    (s.length = n ∨ s.length < n ∧ f s.length = some 0)

/-- the characters of the `n` bytes at `a`, cut at the NUL -/
def Mem.strN (mem : Mem) : ℕ → ℕ → List UInt8
  | _, 0 => []
  | a, n + 1 =>
    match mem a with
    | none => []
    | some c => if c = 0 then [] else c :: mem.strN (a + 1) n

structure AsciiLib where
  asciiStrCmp : (ℕ → Option UInt8) → List UInt8 → Option Int
  asciiStrnCmp : List UInt8 → (ℕ → Option UInt8) → ℕ → Option Int
  asciiStrLen : List UInt8 → ℕ
  asciiStrStr : List UInt8 → List UInt8 → Option ℕ

structure AsciiLib.Documented (lib : AsciiLib) : Prop where
  /-- 0 iff the strings are equal -/
  strCmp : ∀ f s t, IsStr f s → NoNul t → ∃ r, lib.asciiStrCmp f t = some r ∧ (r = 0 ↔ s = t)
  /-- 0 iff the strings are equal up to the length given -/
  strnCmp : ∀ t f n s, NoNul t → IsStrN f n s →
    ∃ r, lib.asciiStrnCmp t f n = some r ∧ (r = 0 ↔ t.take n = s)
  strLen : ∀ s, NoNul s → lib.asciiStrLen s = s.length
  /-- the first occurrence of the second string in the first -/
  strStr_some : ∀ s t i, t ≠ [] → lib.asciiStrStr s t = some i →
    t <+: s.drop i ∧ ∀ j, j < i → ¬ t <+: s.drop j
  strStr_none : ∀ s t, t ≠ [] → lib.asciiStrStr s t = none → ∀ j, ¬ t <+: s.drop j

theorem IsStr.take {f : ℕ → Option UInt8} {s : List UInt8} (h : IsStr f s) (n : ℕ) :
    IsStrN f n (s.take n) := by
  obtain ⟨h0, h1, h2⟩ := h
  refine ⟨fun c hc => h0 c (List.mem_of_mem_take hc), ?_, ?_⟩
  · intro i hi
    rw [List.length_take] at hi
    rw [h1 i (by omega), List.getElem?_take_of_lt (by omega)]
  · rw [List.length_take]
    by_cases hn : n ≤ s.length
    · exact Or.inl (by omega)
    · refine Or.inr ⟨by omega, ?_⟩
      rw [show min n s.length = s.length by omega]
      exact h2

/-- a stream cut at `n` is one list of characters -/
theorem isStrN_unique (f : ℕ → Option UInt8) (n : ℕ) (s t : List UInt8) (hs : IsStrN f n s)
    (ht : IsStrN f n t) : s = t := by
  have key : ∀ s t : List UInt8, IsStrN f n s → IsStrN f n t → ¬ s.length < t.length := by
    intro s t ⟨_, _, hs2⟩ ⟨ht0, ht1, ht2⟩ hlt
    rcases hs2 with hs2 | ⟨_, hs2⟩
    · omega
    · rw [ht1 s.length hlt, List.getElem?_eq_getElem hlt] at hs2
      exact ht0 _ (List.getElem_mem hlt) (Option.some.inj hs2)
  have hl : s.length = t.length := by
    have h1 := key s t hs ht
    have h2 := key t s ht hs
    omega
  apply List.ext_getElem?
  intro i
  by_cases hi : i < s.length
  · rw [← hs.2.1 i hi, ← ht.2.1 i (by omega)]
  · rw [List.getElem?_eq_none (by omega), List.getElem?_eq_none (by omega)]

theorem Mem.isStrN_strN (mem : Mem) (a n : ℕ) (h : mem.Readable a n) :
    IsStrN (mem.at a) n (mem.strN a n) := by
  induction n generalizing a with
  | zero => exact ⟨List.forall_mem_nil _, fun i hi => absurd hi (Nat.not_lt_zero i), Or.inl rfl⟩
  | succ n ih =>
    obtain ⟨c, hc⟩ := h 0 (Nat.succ_pos n)
    rw [Nat.add_zero] at hc
    rw [strN, hc]
    dsimp only
    by_cases h0 : c = 0
    · rw [if_pos h0]
      refine ⟨List.forall_mem_nil _, fun i hi => absurd hi (Nat.not_lt_zero i),
        Or.inr ⟨Nat.succ_pos n, ?_⟩⟩
      show mem (a + 0) = some 0
      rw [Nat.add_zero, hc, h0]
    · rw [if_neg h0]
      have hs : mem.Readable (a + 1) n := readable_sub mem a (n + 1) 1 n h (by omega)
      obtain ⟨h1, h2, h3⟩ := ih (a + 1) hs
      refine ⟨?_, ?_, ?_⟩
      · intro d hd
        rcases List.mem_cons.mp hd with rfl | hd
        · exact h0
        · exact h1 d hd
      · intro i hi
        cases i with
        | zero =>
          show mem (a + 0) = some c
          rw [Nat.add_zero, hc]
        | succ i =>
          rw [List.getElem?_cons_succ, ← h2 i (Nat.lt_of_succ_lt_succ hi)]
          show mem (a + (i + 1)) = mem (a + 1 + i)
          rw [show a + (i + 1) = a + 1 + i by omega]
      · rw [List.length_cons]
        rcases h3 with h3 | ⟨h3, h4⟩
        · exact Or.inl (by omega)
        · refine Or.inr ⟨by omega, ?_⟩
          rw [← h4]
          show mem (a + ((mem.strN (a + 1) n).length + 1)) = mem (a + 1 + _)
          rw [show a + ((mem.strN (a + 1) n).length + 1) = a + 1 + (mem.strN (a + 1) n).length by
            omega]

/-! ## one such library -/

namespace Ascii

/-- the difference of the first characters that differ -/
def strCmp : ℕ → (ℕ → Option UInt8) → List UInt8 → Option Int
  | i, f, [] => (f i).map fun c => (c.toNat : Int)
  | i, f, a :: t => (f i).bind fun c => if c = a then strCmp (i + 1) f t else some (c.toNat - a.toNat)

def strnCmp : ℕ → List UInt8 → (ℕ → Option UInt8) → ℕ → Option Int
  | _, _, _, 0 => some 0
  | i, [], f, _ + 1 => (f i).map fun c => -(c.toNat : Int)
  | i, a :: t, f, n + 1 =>
    (f i).bind fun c => if c = a then strnCmp (i + 1) t f n else some (a.toNat - c.toNat)

def strStr : List UInt8 → List UInt8 → Option ℕ
  | [], t => if t = [] then some 0 else none
  | a :: s, t => if t <+: a :: s then some 0 else (strStr s t).map (· + 1)

end Ascii

def asciiLib : AsciiLib where
  asciiStrCmp := Ascii.strCmp 0
  asciiStrnCmp := Ascii.strnCmp 0
  asciiStrLen := List.length
  asciiStrStr := Ascii.strStr

theorem toNat_ne (a c : UInt8) (h : c ≠ a) : (c.toNat : Int) ≠ a.toNat := by
  intro e
  exact h (UInt8.toNat_inj.mp (by omega))

theorem Ascii.strCmp_spec (f : ℕ → Option UInt8) (s t : List UInt8) (i : ℕ) (hs : NoNul s)
    (hf : ∀ j, j < s.length → f (i + j) = s[j]?) (hz : f (i + s.length) = some 0) (ht : NoNul t) :
    ∃ r, strCmp i f t = some r ∧ (r = 0 ↔ s = t) := by
  induction t generalizing s i with
  | nil =>
    cases s with
    | nil =>
      refine ⟨0, ?_, by simp⟩
      rw [strCmp, show f i = some 0 from hz]
      rfl
    | cons c s =>
      have hc : f i = some c := hf 0 (Nat.succ_pos _)
      refine ⟨c.toNat, by rw [strCmp, hc]; rfl, fun h => ?_, fun h => by cases h⟩
      exact absurd h (toNat_ne 0 c (hs c (List.mem_cons_self ..)))
  | cons a t ih =>
    cases s with
    | nil =>
      have ha : (0 : UInt8) ≠ a := fun e => ht a (List.mem_cons_self ..) e.symm
      refine ⟨(0 : UInt8).toNat - a.toNat, ?_, ?_, fun h => by cases h⟩
      · rw [strCmp, show f i = some 0 from hz, Option.bind_some, if_neg ha]
      · intro h
        exact absurd (sub_eq_zero.mp h) (toNat_ne a 0 ha)
    | cons c s =>
      have hc : f i = some c := hf 0 (Nat.succ_pos _)
      rw [strCmp, hc, Option.bind_some]
      by_cases h : c = a
      · rw [if_pos h, h]
        obtain ⟨r, hr, hiff⟩ := ih s (i + 1) (fun d hd => hs d (List.mem_cons_of_mem _ hd))
          (fun j hj => by
            rw [show i + 1 + j = i + (j + 1) by omega, hf (j + 1) (Nat.succ_lt_succ hj)]
            rfl)
          (by rw [show i + 1 + s.length = i + (s.length + 1) by omega]; exact hz)
          (fun d hd => ht d (List.mem_cons_of_mem _ hd))
        refine ⟨r, hr, hiff.trans ?_⟩
        rw [List.cons_inj_right]
      · rw [if_neg h]
        refine ⟨_, rfl, fun e => absurd (sub_eq_zero.mp e) (toNat_ne a c h), ?_⟩
        intro e
        exact absurd (List.cons.inj e).1 h

theorem Ascii.strnCmp_spec (f : ℕ → Option UInt8) (s t : List UInt8) (i n : ℕ) (hs : NoNul s)
    (hf : ∀ j, j < s.length → f (i + j) = s[j]?)
    (hz : s.length = n ∨ s.length < n ∧ f (i + s.length) = some 0) (ht : NoNul t) :
    ∃ r, strnCmp i t f n = some r ∧ (r = 0 ↔ t.take n = s) := by
  induction n generalizing s t i with
  | zero =>
    have : s = [] := List.eq_nil_of_length_eq_zero (by omega)
    exact ⟨0, by unfold strnCmp; rfl, by rw [this]; simp⟩
  | succ n ih =>
    cases t with
    | nil =>
      cases s with
      | nil =>
        have hz' : f i = some 0 := (hz.resolve_left (by simp)).2
        exact ⟨0, by rw [strnCmp, hz']; rfl, by simp⟩
      | cons c s =>
        have hc : f i = some c := hf 0 (Nat.succ_pos _)
        refine ⟨-(c.toNat : Int), by rw [strnCmp, hc]; rfl, fun h => ?_, fun h => by cases h⟩
        exact absurd (neg_eq_zero.mp h) (toNat_ne 0 c (hs c (List.mem_cons_self ..)))
    | cons a t =>
      cases s with
      | nil =>
        have hz' : f i = some 0 := (hz.resolve_left (by simp)).2
        have ha : (0 : UInt8) ≠ a := fun e => ht a (List.mem_cons_self ..) e.symm
        refine ⟨a.toNat - (0 : UInt8).toNat, ?_, ?_, fun h => by cases h⟩
        · rw [strnCmp, hz', Option.bind_some, if_neg ha]
        · intro h
          exact absurd (sub_eq_zero.mp h).symm (toNat_ne a 0 ha)
      | cons c s =>
        have hc : f i = some c := hf 0 (Nat.succ_pos _)
        rw [strnCmp, hc, Option.bind_some]
        by_cases h : c = a
        · rw [if_pos h, h]
          obtain ⟨r, hr, hiff⟩ := ih s t (i + 1) (fun d hd => hs d (List.mem_cons_of_mem _ hd))
            (fun j hj => by
              rw [show i + 1 + j = i + (j + 1) by omega, hf (j + 1) (Nat.succ_lt_succ hj)]
              rfl)
            (by
              rw [show i + 1 + s.length = i + (s.length + 1) by omega]
              rcases hz with hz | hz
              · exact Or.inl (Nat.succ.inj hz)
              · exact Or.inr ⟨Nat.lt_of_succ_lt_succ hz.1, hz.2⟩)
            (fun d hd => ht d (List.mem_cons_of_mem _ hd))
          refine ⟨r, hr, hiff.trans ?_⟩
          rw [List.take_succ_cons, List.cons_inj_right]
        · rw [if_neg h]
          refine ⟨_, rfl, fun e => absurd (sub_eq_zero.mp e).symm (toNat_ne a c h), ?_⟩
          intro e
          rw [List.take_succ_cons] at e
          exact absurd (List.cons.inj e).1.symm h

theorem Ascii.strStr_spec (s t : List UInt8) (ht : t ≠ []) :
    (∀ i, strStr s t = some i → t <+: s.drop i ∧ ∀ j, j < i → ¬ t <+: s.drop j) ∧
      (strStr s t = none → ∀ j, ¬ t <+: s.drop j) := by
  induction s with
  | nil =>
    rw [strStr, if_neg ht]
    refine ⟨fun i h => (by cases h), ?_⟩
    intro _ j h
    rw [List.drop_nil] at h
    exact ht (List.prefix_nil.mp h)
  | cons a s ih =>
    rw [strStr]
    by_cases h0 : t <+: a :: s
    · rw [if_pos h0]
      refine ⟨fun i h => ?_, fun h => by cases h⟩
      obtain rfl := Option.some.inj h
      exact ⟨h0, fun j hj => absurd hj (Nat.not_lt_zero j)⟩
    · rw [if_neg h0]
      constructor
      · intro i h
        obtain ⟨k, hk, rfl⟩ := Option.map_eq_some_iff.mp h
        obtain ⟨h1, h2⟩ := ih.1 k hk
        refine ⟨h1, ?_⟩
        intro j hj
        cases j with
        | zero => exact h0
        | succ j => exact h2 j (by omega)
      · intro h j
        cases j with
        | zero => exact h0
        | succ j => exact ih.2 (Option.map_eq_none_iff.mp h) j

/-- the documentation has an implementation -/
theorem asciiLib_documented : asciiLib.Documented where
  strCmp f s t h ht := Ascii.strCmp_spec f s t 0 h.1 (fun j hj => by rw [Nat.zero_add]; exact h.2.1 j hj)
    (by rw [Nat.zero_add]; exact h.2.2) ht
  strnCmp t f n s ht h := Ascii.strnCmp_spec f s t 0 n h.1
    (fun j hj => by rw [Nat.zero_add]; exact h.2.1 j hj) (by rw [Nat.zero_add]; exact h.2.2) ht
  strLen _ _ := rfl
  strStr_some s t i ht h := (Ascii.strStr_spec s t ht).1 i h
  strStr_none s t ht h := (Ascii.strStr_spec s t ht).2 h

end AppleSilicon
