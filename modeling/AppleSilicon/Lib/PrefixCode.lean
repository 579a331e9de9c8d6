import Mathlib

/-!
# Streams of records that say where they end

The code of a record is a string that no rest can make ambiguous, and no record begins like the
marker that ends a stream.

* `stream_unique`      a stream can be read in one way, whatever follows it;
* `records_prefix_iff`   a stream begins with the codes of some records exactly when those are its
  first ones;
* `split_at_first`     a terminated string can be read off the front in one way.
-/

namespace AppleSilicon

variable {N B : Type*}

/-- a record can be read off the front of a string in one way, and is not the end marker -/
structure PrefixCode (enc : N → List B) (stop : List B) : Prop where
  split : ∀ a b x y, enc a ++ x = enc b ++ y → a = b ∧ x = y
  stops : ∀ a x y, enc a ++ x ≠ stop ++ y

/-- the codes of the records, and the end marker -/
def stream (enc : N → List B) (stop : List B) (ns : List N) : List B := ns.flatMap enc ++ stop

variable {enc : N → List B} {stop : List B}

theorem stream_nil : stream enc stop [] = stop := rfl

theorem stream_cons (n : N) (ns : List N) :
    stream enc stop (n :: ns) = enc n ++ stream enc stop ns := by
  rw [stream, stream, List.flatMap_cons, List.append_assoc]

theorem PrefixCode.ne_nil (h : PrefixCode enc stop) (n : N) : enc n ≠ [] := by
  intro hn
  apply h.stops n (stop ++ []) []
  rw [hn]
  rfl

/-- the codes of some records begin a stream exactly when the records are its first ones -/
theorem PrefixCode.records_prefix_iff (h : PrefixCode enc stop) (ns ms : List N) (rest : List B) :
    ns.flatMap enc <+: stream enc stop ms ++ rest ↔ ns <+: ms := by
  induction ns generalizing ms with
  | nil => simp
  | cons n ns ih =>
    cases ms with
    | nil =>
      constructor
      · intro ⟨t, ht⟩
        rw [List.flatMap_cons, List.append_assoc, stream_nil] at ht
        exact absurd ht (h.stops n _ _)
      · intro hp
        have hlen := hp.length_le
        simp at hlen
    | cons m ms =>
      rw [List.flatMap_cons, stream_cons, List.append_assoc]
      constructor
      · intro ⟨t, ht⟩
        rw [List.append_assoc] at ht
        obtain ⟨rfl, hrest⟩ := h.split n m _ _ ht
        rw [List.cons_prefix_cons]
        exact ⟨rfl, (ih ms).mp ⟨t, hrest⟩⟩
      · intro hp
        obtain ⟨rfl, hrest⟩ := List.cons_prefix_cons.mp hp
        exact (List.prefix_append_right_inj (enc n)).mpr ((ih ms).mpr hrest)

/-- a stream can be read in one way -/
theorem PrefixCode.stream_unique (h : PrefixCode enc stop) (ns ms : List N) (x y : List B)
    (heq : stream enc stop ns ++ x = stream enc stop ms ++ y) : ns = ms := by
  have hle : ∀ (as bs : List N) (u v : List B),
      stream enc stop as ++ u = stream enc stop bs ++ v → as <+: bs := by
    intro as bs u v huv
    apply (h.records_prefix_iff as bs v).mp
    refine ⟨stop ++ u, ?_⟩
    rw [← huv, stream, List.append_assoc]
  exact (hle ns ms x y heq).eq_of_length_le (hle ms ns y x heq.symm).length_le

/-- without the end marker, records are still read in one way -/
theorem PrefixCode.records_unique (h : PrefixCode enc stop) (ns ms : List N)
    (heq : ns.flatMap enc = ms.flatMap enc) : ns = ms := by
  apply h.stream_unique ns ms [] []
  rw [stream, stream, heq]

/-- a string ends where its terminator stands for the first time -/
theorem split_at_first (a : B) (xs ys u v : List B) (hx : a ∉ xs) (hy : a ∉ ys)
    (h : xs ++ a :: u = ys ++ a :: v) : xs = ys ∧ u = v := by
  induction xs generalizing ys with
  | nil =>
    cases ys with
    | nil => exact ⟨rfl, (List.cons.inj h).2⟩
    | cons y ys =>
      obtain ⟨rfl, _⟩ := List.cons.inj h
      exact absurd (List.mem_cons_self ..) hy
  | cons x xs ih =>
    cases ys with
    | nil =>
      obtain ⟨rfl, _⟩ := List.cons.inj h
      exact absurd (List.mem_cons_self ..) hx
    | cons y ys =>
      obtain ⟨rfl, hrest⟩ := List.cons.inj h
      obtain ⟨rfl, huv⟩ := ih ys (fun hm => hx (List.mem_cons_of_mem _ hm))
        (fun hm => hy (List.mem_cons_of_mem _ hm)) hrest
      exact ⟨rfl, huv⟩

/-- fewer records in front make a shorter stream -/
theorem PrefixCode.stream_length_lt (h : PrefixCode enc stop) (ns ms : List N) (hp : ns <+: ms)
    (hne : ns ≠ ms) : (stream enc stop ns).length < (stream enc stop ms).length := by
  obtain ⟨rest, rfl⟩ := hp
  cases rest with
  | nil =>
    rw [List.append_nil] at hne
    exact absurd rfl hne
  | cons m rest =>
    have hpos : 0 < (enc m).length := List.length_pos_iff.mpr (h.ne_nil m)
    simp only [stream, List.flatMap_append, List.flatMap_cons, List.length_append]
    omega

end AppleSilicon
