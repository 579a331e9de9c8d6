import Mathlib

/-!
# Labelled forests in pre-order

A `Forest α` is a list of trees: `node a cs sb` is the tree with label `a` and children `cs`,
followed by its later siblings `sb`.  One type for trees and lists of trees keeps every proof a
plain induction with one hypothesis for the children and one for the siblings.

* `count`, `height`      number of trees, number of levels;
* `pre d f`              the labels in pre-order, each with its depth (roots at depth `d`);
* `chain p f`            the first node in pre-order with `p`, then its ancestors, nearest first;
* `ChildOf f a b`        `b` labels a child of a node labelled `a`.

With labels told apart by a key (`Nodup`), the tail of the chain of a node is the chain of its
parent (`chain_parent`), and chains and `ChildOf` agree (`childOf_iff`).
-/

set_option linter.unusedSectionVars false

namespace AppleSilicon

inductive Forest (α : Type*) where
  | nil : Forest α
  | node (label : α) (children siblings : Forest α) : Forest α

namespace Forest
variable {α κ : Type*}

def count : Forest α → ℕ
  | nil => 0
  | node _ _ sb => sb.count + 1

def height : Forest α → ℕ
  | nil => 0
  | node _ cs sb => max (cs.height + 1) sb.height

def roots : Forest α → List α
  | nil => []
  | node a _ sb => a :: sb.roots

def labels : Forest α → List α
  | nil => []
  | node a cs sb => a :: (cs.labels ++ sb.labels)

/-- the labels in pre-order with their depths, the roots at depth `d` -/
def pre : ℕ → Forest α → List (ℕ × α)
  | _, nil => []
  | d, node a cs sb => (d, a) :: (pre (d + 1) cs ++ pre d sb)

/-- the first node with `p` in pre-order, followed by its ancestors -/
def chain (p : α → Bool) : Forest α → Option (List α)
  | nil => none
  | node a cs sb =>
    if p a then some [a]
    else match cs.chain p with
      | some l => some (l ++ [a])
      | none => sb.chain p

/-- some node labelled `a` has a child labelled `b` -/
def ChildOf : Forest α → α → α → Prop
  | nil, _, _ => False
  | node x cs sb, a, b => (a = x ∧ b ∈ cs.roots) ∨ cs.ChildOf a b ∨ sb.ChildOf a b

theorem pre_map_snd (d : ℕ) (f : Forest α) : (f.pre d).map Prod.snd = f.labels := by
  induction f generalizing d with
  | nil => rfl
  | node a cs sb ihc ihs =>
    show a :: ((cs.pre (d + 1) ++ sb.pre d).map Prod.snd) = a :: (cs.labels ++ sb.labels)
    rw [List.map_append, ihc, ihs]

theorem pre_depth (d : ℕ) (f : Forest α) : ∀ x ∈ f.pre d, d ≤ x.1 ∧ x.1 < d + f.height := by
  induction f generalizing d with
  | nil => intro x hx; cases hx
  | node a cs sb ihc ihs =>
    intro x hx
    have hm : (node a cs sb).height = max (cs.height + 1) sb.height := rfl
    rcases List.mem_cons.mp hx with rfl | hx
    · show d ≤ d ∧ d < d + (node a cs sb).height
      omega
    · rcases List.mem_append.mp hx with h | h
      · have := ihc (d + 1) x h
        omega
      · have := ihs d x h
        omega

theorem mem_labels_of_root (f : Forest α) : ∀ a ∈ f.roots, a ∈ f.labels := by
  induction f with
  | nil => intro a h; cases h
  | node x cs sb _ ihs =>
    intro a h
    rcases List.mem_cons.mp h with rfl | h
    · exact List.mem_cons_self ..
    · exact List.mem_cons_of_mem _ (List.mem_append_right _ (ihs a h))

theorem childOf_mem (f : Forest α) (a b : α) (h : f.ChildOf a b) :
    a ∈ f.labels ∧ b ∈ f.labels := by
  induction f with
  | nil => exact False.elim h
  | node x cs sb ihc ihs =>
    rcases h with ⟨rfl, h⟩ | h | h
    · exact ⟨List.mem_cons_self ..,
        List.mem_cons_of_mem _ (List.mem_append_left _ (mem_labels_of_root cs b h))⟩
    · exact ⟨List.mem_cons_of_mem _ (List.mem_append_left _ (ihc h).1),
        List.mem_cons_of_mem _ (List.mem_append_left _ (ihc h).2)⟩
    · exact ⟨List.mem_cons_of_mem _ (List.mem_append_right _ (ihs h).1),
        List.mem_cons_of_mem _ (List.mem_append_right _ (ihs h).2)⟩

/-! ## chains -/

theorem chain_node_self (p : α → Bool) (a : α) (cs sb : Forest α) (h : p a = true) :
    (node a cs sb).chain p = some [a] := by
  rw [chain, if_pos h]

theorem chain_node_child (p : α → Bool) (a : α) (cs sb : Forest α) (l : List α)
    (h : p a = false) (hc : cs.chain p = some l) : (node a cs sb).chain p = some (l ++ [a]) := by
  rw [chain, if_neg (by rw [h]; exact Bool.false_ne_true), hc]

theorem chain_node_sibling (p : α → Bool) (a : α) (cs sb : Forest α)
    (h : p a = false) (hc : cs.chain p = none) : (node a cs sb).chain p = sb.chain p := by
  rw [chain, if_neg (by rw [h]; exact Bool.false_ne_true), hc]

theorem chain_none (p : α → Bool) (f : Forest α) (h : ∀ a ∈ f.labels, p a = false) :
    f.chain p = none := by
  induction f with
  | nil => rfl
  | node a cs sb ihc ihs =>
    rw [chain_node_sibling p a cs sb (h a (List.mem_cons_self ..))
      (ihc (fun b hb => h b (List.mem_cons_of_mem _ (List.mem_append_left _ hb))))]
    exact ihs (fun b hb => h b (List.mem_cons_of_mem _ (List.mem_append_right _ hb)))

theorem chain_some (p : α → Bool) (f : Forest α) (a : α) (ha : a ∈ f.labels) (hp : p a = true) :
    ∃ l, f.chain p = some l := by
  induction f with
  | nil => cases ha
  | node x cs sb ihc ihs =>
    cases hx : p x with
    | true => exact ⟨[x], chain_node_self p x cs sb hx⟩
    | false =>
      cases hc : cs.chain p with
      | some l => exact ⟨l ++ [x], chain_node_child p x cs sb l hx hc⟩
      | none =>
        rw [chain_node_sibling p x cs sb hx hc]
        rcases List.mem_cons.mp ha with rfl | ha
        · rw [hp] at hx
          cases hx
        · rcases List.mem_append.mp ha with h | h
          · obtain ⟨l, hl⟩ := ihc h
            rw [hc] at hl
            cases hl
          · exact ihs h

/-- every node of a chain is a node of the forest, and the first one has `p` -/
theorem chain_mem (p : α → Bool) (f : Forest α) (l : List α) (h : f.chain p = some l) :
    (∀ a ∈ l, a ∈ f.labels) ∧ ∃ a t, l = a :: t ∧ p a = true := by
  induction f generalizing l with
  | nil => cases h
  | node x cs sb ihc ihs =>
    cases hx : p x with
    | true =>
      rw [chain_node_self p x cs sb hx] at h
      obtain rfl := Option.some.inj h
      refine ⟨fun a ha => ?_, x, [], rfl, hx⟩
      rw [List.mem_singleton.mp ha]
      exact List.mem_cons_self ..
    | false =>
      cases hc : cs.chain p with
      | some l' =>
        rw [chain_node_child p x cs sb l' hx hc] at h
        obtain rfl := Option.some.inj h
        obtain ⟨hm, a, t, rfl, ha⟩ := ihc l' hc
        refine ⟨fun b hb => ?_, a, t ++ [x], rfl, ha⟩
        rcases List.mem_append.mp hb with h1 | h1
        · exact List.mem_cons_of_mem _ (List.mem_append_left _ (hm b h1))
        · rw [List.mem_singleton.mp h1]
          exact List.mem_cons_self ..
      | none =>
        rw [chain_node_sibling p x cs sb hx hc] at h
        obtain ⟨hm, ha⟩ := ihs l h
        exact ⟨fun b hb => List.mem_cons_of_mem _ (List.mem_append_right _ (hm b hb)), ha⟩

theorem chain_length (p : α → Bool) (f : Forest α) (l : List α) (h : f.chain p = some l) :
    l.length ≤ f.height := by
  induction f generalizing l with
  | nil => cases h
  | node x cs sb ihc ihs =>
    have hm : (node x cs sb).height = max (cs.height + 1) sb.height := rfl
    cases hx : p x with
    | true =>
      rw [chain_node_self p x cs sb hx] at h
      rw [← Option.some.inj h, List.length_singleton]
      omega
    | false =>
      cases hc : cs.chain p with
      | some l' =>
        rw [chain_node_child p x cs sb l' hx hc] at h
        have := ihc l' hc
        rw [← Option.some.inj h, List.length_append, List.length_singleton]
        omega
      | none =>
        rw [chain_node_sibling p x cs sb hx hc] at h
        have := ihs l h
        omega

/-! ## labels told apart by a key -/

section
variable [DecidableEq κ] (key : α → κ)

/-- the chain of the node with key `k` -/
def chainOf (k : κ) (f : Forest α) : Option (List α) := f.chain (fun a => decide (key a = k))

def Keyed (f : Forest α) : Prop := (f.labels.map key).Nodup

theorem keyed_node (a : α) (cs sb : Forest α) (h : (node a cs sb).Keyed key) :
    (∀ b ∈ cs.labels ++ sb.labels, key b ≠ key a) ∧ cs.Keyed key ∧ sb.Keyed key ∧
      ∀ b ∈ cs.labels, ∀ c ∈ sb.labels, key b ≠ key c := by
  unfold Keyed at h
  rw [labels, List.map_cons, List.nodup_cons, List.map_append, List.nodup_append'] at h
  obtain ⟨h1, h2, h3, h4⟩ := h
  refine ⟨fun b hb e => h1 ?_, h2, h3, ?_⟩
  · rw [← List.map_append, ← e]
    exact List.mem_map_of_mem hb
  · intro b hb c hc e
    apply h4 (List.mem_map_of_mem hb)
    rw [e]
    exact List.mem_map_of_mem hc

theorem chainOf_none (k : κ) (f : Forest α) (h : ∀ a ∈ f.labels, key a ≠ k) :
    f.chainOf key k = none :=
  chain_none _ f (fun a ha => decide_eq_false (h a ha))

theorem chainOf_node (k : κ) (a : α) (cs sb : Forest α) :
    (node a cs sb).chainOf key k = if key a = k then some [a]
      else match cs.chainOf key k with
        | some l => some (l ++ [a])
        | none => sb.chainOf key k := by
  show (if decide (key a = k) = true then _ else _) = _
  by_cases h : key a = k
  · rw [if_pos (decide_eq_true h), if_pos h]
  · rw [if_neg (by rw [decide_eq_false h]; exact Bool.false_ne_true), if_neg h]
    rfl

/-- every node of a keyed forest heads its own chain -/
theorem chainOf_self (f : Forest α) (hk : f.Keyed key) (a : α) (ha : a ∈ f.labels) :
    ∃ t, f.chainOf key (key a) = some (a :: t) := by
  obtain ⟨l, hl⟩ := chain_some (fun b => decide (key b = key a)) f a ha (decide_eq_true rfl)
  obtain ⟨hm, b, t, rfl, hb⟩ := chain_mem _ f l hl
  have e : b = a := List.inj_on_of_nodup_map hk (hm b (List.mem_cons_self ..)) ha
    (of_decide_eq_true hb)
  rw [e] at hl
  exact ⟨t, hl⟩

/-- **The tail of a chain is the chain of the parent.** -/
theorem chain_parent (f : Forest α) (hk : f.Keyed key) (k : κ) (a b : α) (t : List α)
    (h : f.chainOf key k = some (a :: b :: t)) : f.chainOf key (key b) = some (b :: t) := by
  induction f generalizing a t with
  | nil => cases h
  | node x cs sb ihc ihs =>
    obtain ⟨hx, hkc, hks, hcs⟩ := keyed_node key x cs sb hk
    rw [chainOf_node] at h
    by_cases hxk : key x = k
    · rw [if_pos hxk] at h
      cases h
    · rw [if_neg hxk] at h
      cases hc : cs.chainOf key k with
      | some l =>
        rw [hc] at h
        have hl : l ++ [x] = a :: b :: t := Option.some.inj h
        match l, hc, hl with
        | [], hc, hl => cases hl
        | [a'], hc, hl =>
          -- the parent is `x` itself
          obtain ⟨_, e⟩ := List.cons.inj hl
          obtain ⟨e1, e2⟩ := List.cons.inj e
          subst e1
          subst e2
          rw [chainOf_node, if_pos rfl]
        | a' :: b' :: t', hc, hl =>
          obtain ⟨_, e⟩ := List.cons.inj hl
          obtain ⟨e1, e2⟩ := List.cons.inj e
          subst e1
          subst e2
          have hb : b' ∈ cs.labels := (chain_mem _ cs _ hc).1 b' (by simp)
          rw [chainOf_node, if_neg (fun e => hx b' (List.mem_append_left _ hb) e.symm),
            ihc hkc a' t' hc]
          rfl
      | none =>
        rw [hc] at h
        have hb : b ∈ sb.labels := (chain_mem _ sb _ h).1 b (by simp)
        rw [chainOf_node, if_neg (fun e => hx b (List.mem_append_right _ hb) e.symm),
          chainOf_none key (key b) cs (fun c hc' => hcs c hc' b hb)]
        exact ihs hks a t h

/-- a root has no ancestor, and only a root has none -/
theorem chainOf_root (f : Forest α) (hk : f.Keyed key) (a : α) (t : List α)
    (h : f.chainOf key (key a) = some (a :: t)) : a ∈ f.roots ↔ t = [] := by
  induction f generalizing t with
  | nil => cases h
  | node x cs sb ihc ihs =>
    obtain ⟨hx, hkc, hks, hcs⟩ := keyed_node key x cs sb hk
    rw [chainOf_node] at h
    by_cases hxk : key x = key a
    · rw [if_pos hxk] at h
      obtain ⟨e, e'⟩ := List.cons.inj (Option.some.inj h)
      rw [← e, ← e']
      exact ⟨fun _ => rfl, fun _ => List.mem_cons_self ..⟩
    · rw [if_neg hxk] at h
      have hne : a ≠ x := fun e => hxk (by rw [e])
      have hroots : a ∈ (node x cs sb).roots ↔ a ∈ sb.roots := by
        show a ∈ x :: sb.roots ↔ _
        rw [List.mem_cons]
        exact ⟨fun h => h.resolve_left hne, Or.inr⟩
      rw [hroots]
      cases hc : cs.chainOf key (key a) with
      | some l =>
        rw [hc] at h
        have hl : l ++ [x] = a :: t := Option.some.inj h
        obtain ⟨hm, c, s, hcs', hcc⟩ := chain_mem _ cs l hc
        have ht : t ≠ [] := by
          rw [hcs'] at hl
          obtain ⟨_, e⟩ := List.cons.inj hl
          rw [← e]
          simp
        refine ⟨fun hr => ?_, fun e => absurd e ht⟩
        have hcm : c ∈ cs.labels := hm c (by rw [hcs']; exact List.mem_cons_self ..)
        exact absurd (of_decide_eq_true hcc) (hcs c hcm a (mem_labels_of_root sb a hr))
      | none =>
        rw [hc] at h
        exact ihs hks t h

/-- **Chains and `ChildOf` agree.** -/
theorem childOf_iff (f : Forest α) (hk : f.Keyed key) (a b : α) :
    f.ChildOf b a ↔ ∃ t, f.chainOf key (key a) = some (a :: b :: t) := by
  induction f with
  | nil => exact ⟨fun h => False.elim h, fun ⟨t, h⟩ => by cases h⟩
  | node x cs sb ihc ihs =>
    obtain ⟨hx, hkc, hks, hcs⟩ := keyed_node key x cs sb hk
    constructor
    · rintro (⟨rfl, h⟩ | h | h)
      · have ha := mem_labels_of_root cs a h
        obtain ⟨t, ht⟩ := chainOf_self key cs hkc a ha
        have e : t = [] := (chainOf_root key cs hkc a t ht).mp h
        refine ⟨[], ?_⟩
        rw [chainOf_node, if_neg (fun e => hx a (List.mem_append_left _ ha) e.symm), ht, e]
        rfl
      · have ha := (childOf_mem cs b a h).2
        obtain ⟨t, ht⟩ := (ihc hkc).mp h
        refine ⟨t ++ [x], ?_⟩
        rw [chainOf_node, if_neg (fun e => hx a (List.mem_append_left _ ha) e.symm), ht]
        rfl
      · have ha := (childOf_mem sb b a h).2
        obtain ⟨t, ht⟩ := (ihs hks).mp h
        refine ⟨t, ?_⟩
        rw [chainOf_node, if_neg (fun e => hx a (List.mem_append_right _ ha) e.symm),
          chainOf_none key (key a) cs (fun c hc => hcs c hc a ha)]
        exact ht
    · rintro ⟨t, h⟩
      rw [chainOf_node] at h
      by_cases hxk : key x = key a
      · rw [if_pos hxk] at h
        cases h
      · rw [if_neg hxk] at h
        cases hc : cs.chainOf key (key a) with
        | none =>
          rw [hc] at h
          exact Or.inr (Or.inr ((ihs hks).mpr ⟨t, h⟩))
        | some l =>
          rw [hc] at h
          have hl : l ++ [x] = a :: b :: t := Option.some.inj h
          match l, hc, hl with
          | [], hc, hl => cases hl
          | [a'], hc, hl =>
            obtain ⟨e0, e⟩ := List.cons.inj hl
            obtain ⟨e1, _⟩ := List.cons.inj e
            subst e0
            refine Or.inl ⟨e1.symm, ?_⟩
            exact (chainOf_root key cs hkc a' [] hc).mpr rfl
          | a' :: b' :: t', hc, hl =>
            obtain ⟨e0, e⟩ := List.cons.inj hl
            obtain ⟨e1, _⟩ := List.cons.inj e
            subst e0
            subst e1
            exact Or.inr (Or.inl ((ihc hkc).mpr ⟨t', hc⟩))

end

end Forest

end AppleSilicon
