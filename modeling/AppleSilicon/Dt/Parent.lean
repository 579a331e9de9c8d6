import AppleSilicon.Dt.Check
import AppleSilicon.Dt.Lookup
import AppleSilicon.Dt.Deep

/-!
# `dt_node_parent`: the parent of a node, found by walking the tree again

The callback keeps the last node of every level in `path[8]` and stops at the target, whose parent
is then `path[depth - 1]`.  The depth checks of the C code only log.  The model keeps the list of
the indices `path` is accessed with (`access`).  A read outside `path` gives whatever is there
(`stray`); a write outside it is undefined, and there the walk is given up (`none`).

* `dtNodeParent_run`    the walk is the run of the callback, on trees of any depth;
* `parentRun_found`     what the target finds in `path` is its parent;
* `dtNodeParent_iff`    the result is right exactly for the nodes other than the root that no node
                        of level 8 or deeper comes before.
-/

namespace AppleSilicon

/-- `dt_node_parent_cb_t` -/
structure ParentArg where
  path : ℕ → Option ℕ
  target : ℕ
  parent : Option ℕ
  access : List Int

/-- is `i` an index of `path` -/
def InPath (i : Int) : Prop := 0 ≤ i ∧ i < 8

instance (i : Int) : Decidable (InPath i) := inferInstanceAs (Decidable (0 ≤ i ∧ i < 8))

def ParentArg.read (stray : Int → Option ℕ) (arg : ParentArg) (i : Int) : Option ℕ :=
  if InPath i then arg.path i.toNat else stray i

def dtNodeParentCb (stray : Int → Option ℕ) (arg : ParentArg) (node : ℕ) (depth : Int) :
    Option (ParentArg × Int) :=
  if node = arg.target then
    let i := i32 (depth - 1)
    some ({ arg with parent := arg.read stray i, access := arg.access ++ [i] }, 1)
  else if InPath depth then
    some ({ arg with path := Function.update arg.path depth.toNat (some node),
                     access := arg.access ++ [depth] }, 0)
  else none

def parentCbs (stray : Int → Option ℕ) : Callbacks (Option ParentArg) :=
  ⟨some (faultingNode (dtNodeParentCb stray)), none⟩

/-- `dt_node_parent(node)` on the tree at `adt`: the client data when the walk is over -/
def dtNodeParent (stray : Int → Option ℕ) (mem : Mem) (fuel adt node : ℕ) : Option ParentArg :=
  (dtParse mem (parentCbs stray) fuel adt 0 (some ⟨fun _ => none, node, none, []⟩)).bind
    ParseOut.st

namespace ParentArg

/-- the callback at a node that is not the target -/
def enter (arg : ParentArg) (a d : ℕ) : ParentArg :=
  { arg with path := Function.update arg.path d (some a), access := arg.access ++ [(d : Int)] }

/-- the callback at the target -/
def arrive (arg : ParentArg) (stray : Int → Option ℕ) (d : ℕ) : ParentArg :=
  { arg with parent := arg.read stray ((d : Int) - 1), access := arg.access ++ [(d : Int) - 1] }

/-- the parent a target on level `d` gets whose ancestors in the forest at hand are `t` -/
def above (arg : ParentArg) (stray : Int → Option ℕ) (d : ℕ) : List NodeRec → Option ℕ
  | [] => arg.read stray ((d : Int) - 1)
  | b :: _ => some b.addr

end ParentArg

section
variable (stray : Int → Option ℕ)

/-! ## one node -/

theorem i32_pred (d : ℕ) (h : d < 2^31) : i32 ((d : Int) - 1) = (d : Int) - 1 := by
  unfold i32
  rw [Int.bmod_def]
  omega

theorem parentCbs_target (arg : ParentArg) (d : ℕ) (hd : d < 2^31) :
    (parentCbs stray).step (some arg) (.node arg.target d) = (some (arg.arrive stray d), some 1) := by
  have hcb : dtNodeParentCb stray arg arg.target d = some (arg.arrive stray d, 1) := by
    rw [dtNodeParentCb, if_pos rfl, i32_pred d hd]
    rfl
  exact faultingNode_step none _ _ _ _ _ _ hcb

theorem parentCbs_enter (arg : ParentArg) (a d : ℕ) (ha : a ≠ arg.target) (hd : d < 8) :
    (parentCbs stray).step (some arg) (.node a d) = (some (arg.enter a d), none) := by
  have hin : InPath d := ⟨by omega, by omega⟩
  have hcb : dtNodeParentCb stray arg a d = some (arg.enter a d, 0) := by
    rw [dtNodeParentCb, if_neg ha, if_pos hin]
    rfl
  exact faultingNode_step none _ _ _ _ _ _ hcb

theorem parentCbs_fault (arg : ParentArg) (a d : ℕ) (ha : a ≠ arg.target) (hd : 8 ≤ d) :
    (parentCbs stray).step (some arg) (.node a d) = (none, some 1) := by
  have hin : ¬ InPath d := fun h => by
    have := h.2
    omega
  have hcb : dtNodeParentCb stray arg a d = none := by
    rw [dtNodeParentCb, if_neg ha, if_neg hin]
  exact faultingNode_fault none _ _ _ _ hcb

/-- the properties of a node are passed over -/
theorem parentRun_props (s : Option ParentArg) (a : ℕ) (d : Int) (ps : List PropRec) :
    runUntil (parentCbs stray).step s (propVisits a d ps) = ⟨s, none, propVisits a d ps⟩ := by
  apply runUntil_quiet
  intro v hv
  obtain ⟨p, _, rfl⟩ := List.mem_map.mp hv
  rfl

theorem parentRun_enter (arg : ParentArg) (n : NodeRec) (d : ℕ) (ha : n.addr ≠ arg.target)
    (hd : d < 8) :
    runUntil (parentCbs stray).step (some arg) (nodeVisits d n)
      = ⟨some (arg.enter n.addr d), none, nodeVisits d n⟩ := by
  have e := parentCbs_enter stray arg n.addr d ha hd
  rw [nodeVisits, runUntil_cons_go _ _ _ _ (by rw [e]), e, parentRun_props]
  rfl

/-! ## the walk before the target -/

/-- **Before the target**: over nodes of the levels below 8, none of them the target, the walk goes
on and leaves the levels above them alone. -/
theorem parentRun_pass (l : List (ℕ × NodeRec)) (arg : ParentArg)
    (h : ∀ y ∈ l, y.2.addr ≠ arg.target ∧ y.1 < 8) :
    ∃ arg', (runUntil (parentCbs stray).step (some arg) (l.flatMap fun y => nodeVisits y.1 y.2)).state
        = some arg' ∧
      (runUntil (parentCbs stray).step (some arg) (l.flatMap fun y => nodeVisits y.1 y.2)).exit
        = none ∧
      arg'.target = arg.target ∧
      (∀ d, (∀ y ∈ l, d ≤ y.1) → ∀ j, j < d → arg'.path j = arg.path j) ∧
      ∀ i ∈ arg'.access, i ∈ arg.access ∨ InPath i := by
  induction l generalizing arg with
  | nil => exact ⟨arg, rfl, rfl, rfl, fun _ _ _ _ => rfl, fun i hi => Or.inl hi⟩
  | cons y l ih =>
    obtain ⟨ha, hd⟩ := h y (List.mem_cons_self ..)
    obtain ⟨arg', h1, h2, h3, h4, h5⟩ := ih (arg.enter y.2.addr y.1)
      (fun z hz => h z (List.mem_cons_of_mem _ hz))
    have e := parentRun_enter stray arg y.2 y.1 ha hd
    rw [List.flatMap_cons, runUntil_append_go _ _ _ _ (by rw [e]), e]
    refine ⟨arg', h1, h2, h3, ?_, ?_⟩
    · intro d hl j hj
      rw [h4 d (fun z hz => hl z (List.mem_cons_of_mem _ hz)) j hj]
      have := hl y (List.mem_cons_self ..)
      exact Function.update_of_ne (by omega) _ _
    · intro i hi
      rcases h5 i hi with h6 | h6
      · rcases List.mem_append.mp h6 with h6 | h6
        · exact Or.inl h6
        · rw [List.mem_singleton.mp h6]
          exact Or.inr ⟨by omega, by omega⟩
      · exact Or.inr h6

/-- the nodes that come before the one at `x` -/
def before (x : ℕ) (l : List (ℕ × NodeRec)) : List (ℕ × NodeRec) :=
  l.takeWhile (fun y => decide (y.2.addr ≠ x))

theorem before_cons (x : ℕ) (y : ℕ × NodeRec) (l : List (ℕ × NodeRec)) (h : y.2.addr ≠ x) :
    before x (y :: l) = y :: before x l :=
  List.takeWhile_cons_of_pos (decide_eq_true h)

theorem before_cons_self (x : ℕ) (y : ℕ × NodeRec) (l : List (ℕ × NodeRec)) (h : y.2.addr = x) :
    before x (y :: l) = [] :=
  List.takeWhile_cons_of_neg (by rw [decide_eq_false (fun e => e h)]; exact Bool.false_ne_true)

theorem before_append (x : ℕ) (l₁ l₂ : List (ℕ × NodeRec)) (h : ∀ y ∈ l₁, y.2.addr ≠ x) :
    before x (l₁ ++ l₂) = l₁ ++ before x l₂ :=
  List.takeWhile_append_of_pos (fun y hy => decide_eq_true (h y hy))

theorem mem_before_append (x : ℕ) (l₁ l₂ : List (ℕ × NodeRec)) (y : ℕ × NodeRec)
    (h : y ∈ before x l₁) : y ∈ before x (l₁ ++ l₂) := by
  induction l₁ with
  | nil => cases h
  | cons z l₁ ih =>
    by_cases hz : z.2.addr = x
    · rw [before_cons_self x z l₁ hz] at h
      cases h
    · rw [before_cons x z l₁ hz] at h
      rw [List.cons_append, before_cons x z _ hz]
      rcases List.mem_cons.mp h with h | h
      · rw [h]
        exact List.mem_cons_self ..
      · exact List.mem_cons_of_mem _ (ih h)

/-- the walk is given up at the first node of level 8 before the target -/
theorem parentRun_fault (l : List (ℕ × NodeRec)) (arg : ParentArg)
    (h : ∃ y ∈ before arg.target l, 8 ≤ y.1) :
    (runUntil (parentCbs stray).step (some arg) (l.flatMap fun y => nodeVisits y.1 y.2)).state
      = none := by
  induction l generalizing arg with
  | nil =>
    obtain ⟨y, hy, _⟩ := h
    cases hy
  | cons y l ih =>
    obtain ⟨z, hz, h8⟩ := h
    by_cases ha : y.2.addr = arg.target
    · rw [before_cons_self _ y l ha] at hz
      cases hz
    · rw [before_cons _ y l ha] at hz
      rw [List.flatMap_cons]
      by_cases hd : y.1 < 8
      · have e := parentRun_enter stray arg y.2 y.1 ha hd
        rw [runUntil_append_go _ _ _ _ (by rw [e]), e]
        apply ih (arg.enter y.2.addr y.1)
        rcases List.mem_cons.mp hz with h | h
        · rw [h] at h8
          omega
        · exact ⟨z, h, h8⟩
      · have e := parentCbs_fault stray arg y.2.addr y.1 ha (by omega)
        rw [nodeVisits, List.cons_append, runUntil_cons_stop _ _ _ _ 1 (by rw [e]), e]

/-- whatever the tree, the walk ends before it leaves level 8 -/
theorem parentRun_seen (f : Forest NodeRec) (d : ℕ) (hd : d ≤ 8) (s : Option ParentArg) :
    ∀ v ∈ (runUntil (parentCbs stray).step s (visits d f)).seen, v.depth ≤ 8 := by
  have happ : ∀ (s : Option ParentArg) (l₁ l₂ : List Visit),
      (∀ t, ∀ v ∈ (runUntil (parentCbs stray).step t l₁).seen, v.depth ≤ 8) →
      (∀ t, ∀ v ∈ (runUntil (parentCbs stray).step t l₂).seen, v.depth ≤ 8) →
      ∀ v ∈ (runUntil (parentCbs stray).step s (l₁ ++ l₂)).seen, v.depth ≤ 8 := by
    intro s l₁ l₂ h1 h2 v hv
    cases hx : (runUntil (parentCbs stray).step s l₁).exit with
    | some r =>
      rw [runUntil_append_stop _ _ _ _ r hx] at hv
      exact h1 s v hv
    | none =>
      rw [runUntil_append_go _ _ _ _ hx] at hv
      rcases List.mem_append.mp hv with hv | hv
      · rw [← runUntil_seen_all _ _ _ hx] at hv
        exact h1 s v hv
      · exact h2 _ v hv
  induction f generalizing d s with
  | nil => intro v hv; cases hv
  | node n cs sb ihc ihs =>
    have hnode : ∀ t, ∀ v ∈ (runUntil (parentCbs stray).step t (nodeVisits d n)).seen,
        v.depth ≤ 8 := by
      intro t v hv
      have hm := runUntil_mem _ _ _ v hv
      rcases List.mem_cons.mp hm with rfl | hm
      · show (d : Int) ≤ 8
        omega
      · obtain ⟨p, _, rfl⟩ := List.mem_map.mp hm
        show (d : Int) ≤ 8
        omega
    rw [visits_node]
    by_cases h8 : d = 8
    · -- a node of level 8 ends the walk
      have hstop : ∃ r, ((parentCbs stray).step s (.node n.addr d)).2 = some r := by
        cases s with
        | none => exact ⟨1, rfl⟩
        | some arg =>
          by_cases ha : n.addr = arg.target
          · rw [ha, parentCbs_target stray arg d (by omega)]
            exact ⟨1, rfl⟩
          · rw [parentCbs_fault stray arg n.addr d ha (by omega)]
            exact ⟨1, rfl⟩
      obtain ⟨r, hr⟩ := hstop
      intro v hv
      rw [nodeVisits, List.cons_append, runUntil_cons_stop _ _ _ _ r hr] at hv
      rw [List.mem_singleton.mp hv]
      show (d : Int) ≤ 8
      omega
    · exact happ s _ _ hnode (fun t => happ t _ _ (ihc (d + 1) (by omega)) (ihs d hd))

/-! ## the target -/

/-- the run over `l` ends at a target on level `d`, whose ancestors in the forest at hand are `t` -/
structure Arrives (arg : ParentArg) (d : ℕ) (t : List NodeRec) (l : List Visit)
    (arg' : ParentArg) : Prop where
  state : (runUntil (parentCbs stray).step (some arg) l).state = some arg'
  exit : (runUntil (parentCbs stray).step (some arg) l).exit = some 1
  parent : arg'.parent = arg.above stray d t
  access : ∀ i ∈ arg'.access, i ∈ arg.access ∨ InPath i ∨ t = [] ∧ i = (d : Int) - 1

theorem enter_access (arg : ParentArg) (a d : ℕ) (hd : d < 8) (i : Int)
    (hi : i ∈ (arg.enter a d).access) : i ∈ arg.access ∨ InPath i := by
  rcases List.mem_append.mp hi with hi | hi
  · exact Or.inl hi
  · rw [List.mem_singleton.mp hi]
    exact Or.inr ⟨by omega, by omega⟩

theorem arrives_here (arg : ParentArg) (n : NodeRec) (d : ℕ) (l : List Visit)
    (ha : n.addr = arg.target) (hd : d ≤ 8) :
    Arrives stray arg d [] (nodeVisits d n ++ l) (arg.arrive stray d) := by
  have e := parentCbs_target stray arg d (by omega)
  have hrun : runUntil (parentCbs stray).step (some arg) (nodeVisits d n ++ l)
      = ⟨some (arg.arrive stray d), some 1, [.node arg.target d]⟩ := by
    rw [nodeVisits, ha, List.cons_append, runUntil_cons_stop _ _ _ _ 1 (by rw [e]), e]
  refine ⟨by rw [hrun], by rw [hrun], rfl, ?_⟩
  intro i hi
  rcases List.mem_append.mp hi with hi | hi
  · exact Or.inl hi
  · exact Or.inr (Or.inr ⟨rfl, List.mem_singleton.mp hi⟩)

/-- the target is below `n`, which `path` then holds on level `d` -/
theorem arrives_below (arg arg' : ParentArg) (n : NodeRec) (d : ℕ) (t : List NodeRec)
    (l l' : List Visit) (ha : n.addr ≠ arg.target) (hd : d < 8)
    (h : Arrives stray (arg.enter n.addr d) (d + 1) t l arg') :
    Arrives stray arg d (t ++ [n]) (nodeVisits d n ++ (l ++ l')) arg' := by
  have e := parentRun_enter stray arg n d ha hd
  have hdd : ((d + 1 : ℕ) : Int) - 1 = d := by omega
  have hin : InPath d := ⟨by omega, by omega⟩
  constructor
  · rw [runUntil_append_go _ _ _ _ (by rw [e]), e, runUntil_append_stop _ _ _ _ 1 h.exit]
    exact h.state
  · rw [runUntil_append_go _ _ _ _ (by rw [e]), e, runUntil_append_stop _ _ _ _ 1 h.exit]
    exact h.exit
  · rw [h.parent]
    cases t with
    | nil =>
      show (arg.enter n.addr d).read stray (((d + 1 : ℕ) : Int) - 1) = some n.addr
      rw [hdd, ParentArg.read, if_pos hin]
      exact Function.update_self _ _ _
    | cons b t => rfl
  · intro i hi
    rcases h.access i hi with h1 | h1 | ⟨_, h1⟩
    · exact (enter_access arg n.addr d hd i h1).imp id Or.inl
    · exact Or.inr (Or.inl h1)
    · rw [h1, hdd]
      exact Or.inr (Or.inl hin)

/-- the target comes after the tree of `n`: the walk passes over it -/
theorem arrives_after (arg : ParentArg) (n : NodeRec) (cs : Forest NodeRec) (d : ℕ)
    (ha : n.addr ≠ arg.target) (hd : d < 8)
    (hcs : ∀ y ∈ cs.pre (d + 1), y.2.addr ≠ arg.target ∧ y.1 < 8) :
    ∃ arg₁, arg₁.target = arg.target ∧ ∀ l t arg', Arrives stray arg₁ d t l arg' →
      Arrives stray arg d t (nodeVisits d n ++ (visits (d + 1) cs ++ l)) arg' := by
  obtain ⟨arg₁, h1, h2, h3, h4, h5⟩ := parentRun_pass stray (cs.pre (d + 1)) (arg.enter n.addr d) hcs
  refine ⟨arg₁, h3, ?_⟩
  intro l t arg' h
  have e := parentRun_enter stray arg n d ha hd
  have hrun : ∀ r, (runUntil (parentCbs stray).step (some arg₁) l).state = some arg' →
      (runUntil (parentCbs stray).step (some arg₁) l).exit = r →
      (runUntil (parentCbs stray).step (some arg) (nodeVisits d n ++ (visits (d + 1) cs ++ l))).state
        = some arg' ∧
      (runUntil (parentCbs stray).step (some arg) (nodeVisits d n ++ (visits (d + 1) cs ++ l))).exit
        = r := by
    intro r hs hr
    rw [runUntil_append_go _ _ _ _ (by rw [e]), e,
      show visits (d + 1) cs = (cs.pre (d + 1)).flatMap fun y => nodeVisits y.1 y.2 from rfl,
      runUntil_append_go _ _ _ _ h2, h1]
    exact ⟨hs, hr⟩
  -- the levels above `d` are as they were
  have hpath : arg₁.read stray ((d : Int) - 1) = arg.read stray ((d : Int) - 1) := by
    unfold ParentArg.read
    by_cases hp : InPath ((d : Int) - 1)
    · have hp0 := hp.1
      rw [if_pos hp, if_pos hp, h4 (d + 1) (fun y hy => (Forest.pre_depth _ _ y hy).1) _ (by omega)]
      exact Function.update_of_ne (by omega) _ _
    · rw [if_neg hp, if_neg hp]
  refine ⟨(hrun _ h.state h.exit).1, (hrun _ h.state h.exit).2, ?_, ?_⟩
  · rw [h.parent]
    cases t with
    | nil => exact hpath
    | cons b t => rfl
  · intro i hi
    rcases h.access i hi with h6 | h6
    · rcases h5 i h6 with h7 | h7
      · exact (enter_access arg n.addr d hd i h7).imp id Or.inl
      · exact Or.inr (Or.inl h7)
    · exact Or.inr h6

/-- **At the target** the level above holds its parent, or what it held before when the target is a
root of the forest. -/
theorem parentRun_found (f : Forest NodeRec) (hk : f.Keyed NodeRec.addr) (d : ℕ) (hd : d ≤ 8)
    (arg : ParentArg) (q : NodeRec) (t : List NodeRec)
    (hq : f.chainOf NodeRec.addr arg.target = some (q :: t))
    (hb : ∀ y ∈ before arg.target (f.pre d), y.1 < 8) :
    ∃ arg', Arrives stray arg d t (visits d f) arg' := by
  induction f generalizing d arg q t with
  | nil => cases hq
  | node n cs sb ihc ihs =>
    obtain ⟨_, hkc, hks, _⟩ := Forest.keyed_node NodeRec.addr n cs sb hk
    rw [Forest.chainOf_node] at hq
    rw [visits_node]
    by_cases ha : n.addr = arg.target
    · rw [if_pos ha] at hq
      obtain ⟨rfl, rfl⟩ := List.cons.inj (Option.some.inj hq)
      exact ⟨_, arrives_here stray arg n d _ ha hd⟩
    · rw [if_neg ha] at hq
      have hpre : (Forest.node n cs sb).pre d = (d, n) :: (cs.pre (d + 1) ++ sb.pre d) := rfl
      rw [hpre, before_cons _ _ _ ha] at hb
      have hd8 : d < 8 := hb (d, n) (List.mem_cons_self ..)
      cases hc : cs.chainOf NodeRec.addr arg.target with
      | some l =>
        rw [hc] at hq
        have hq' : l ++ [n] = q :: t := Option.some.inj hq
        cases l with
        | nil =>
          obtain ⟨_, _, _, h, _⟩ := Forest.chain_mem _ cs _ hc
          cases h
        | cons q' t' =>
          obtain ⟨rfl, rfl⟩ := List.cons.inj hq'
          obtain ⟨arg', h⟩ := ihc hkc (d + 1) (by omega) (arg.enter n.addr d) q' t' hc
            (fun y hy => hb y (List.mem_cons_of_mem _ (mem_before_append _ _ _ y hy)))
          exact ⟨arg', arrives_below stray arg arg' n d t' _ _ ha hd8 h⟩
      | none =>
        rw [hc] at hq
        -- the target is not below `n`
        have hne : ∀ y ∈ cs.pre (d + 1), y.2.addr ≠ arg.target := by
          intro y hy h
          have hm : y.2 ∈ cs.labels := by
            rw [← Forest.pre_map_snd (d + 1) cs]
            exact List.mem_map_of_mem hy
          obtain ⟨t', ht'⟩ := Forest.chainOf_self NodeRec.addr cs hkc y.2 hm
          rw [h, hc] at ht'
          cases ht'
        rw [before_append _ _ _ hne] at hb
        obtain ⟨arg₁, htarget, hafter⟩ := arrives_after stray arg n cs d ha hd8
          (fun y hy => ⟨hne y hy, hb y (List.mem_cons_of_mem _ (List.mem_append_left _ hy))⟩)
        rw [← htarget] at hq hb
        obtain ⟨arg', h⟩ := ihs hks d hd arg₁ q t hq
          (fun y hy => hb y (List.mem_cons_of_mem _ (List.mem_append_right _ hy)))
        exact ⟨arg', hafter _ t arg' h⟩

/-! ## `dt_node_parent` -/

/-- **The walk is the run of the callback**, on a tree of any depth. -/
theorem dtNodeParent_run (mem : Mem) (n : NodeRec) (cs : Forest NodeRec) (fuel adt b x : ℕ)
    (h : mem.IsNode n cs adt b) (hf : cs.height < fuel) :
    dtNodeParent stray mem fuel adt x
      = (runUntil (parentCbs stray).step (some ⟨fun _ => none, x, none, []⟩)
          (visits 0 (.node n cs .nil))).state := by
  have hs := dtParse_spec mem (parentCbs stray) n cs fuel adt b 0
    (some ⟨fun _ => none, x, none, []⟩) h hf (fun v hv => by
      have := parentRun_seen stray _ 0 (Nat.zero_le 8) _ v hv
      omega)
  rw [Nat.cast_zero] at hs
  rw [dtNodeParent, hs, Option.bind_some]
  rfl

theorem dtNodeParent_found (mem : Mem) (n : NodeRec) (cs : Forest NodeRec) (fuel adt b : ℕ)
    (h : mem.IsNode n cs adt b) (hf : cs.height < fuel) (q p : NodeRec) (t : List NodeRec)
    (hq : (Forest.node n cs .nil).chainOf NodeRec.addr q.addr = some (q :: p :: t))
    (hb : ∀ y ∈ before q.addr ((Forest.node n cs .nil).pre 0), y.1 < 8) :
    ∃ arg, dtNodeParent stray mem fuel adt q.addr = some arg ∧ arg.parent = some p.addr ∧
      ∀ i ∈ arg.access, InPath i := by
  obtain ⟨arg, h1, _, h3, h4⟩ := parentRun_found stray _ (Mem.isForest_keyed mem _ _ _ h) 0
    (Nat.zero_le 8) ⟨fun _ => none, q.addr, none, []⟩ q (p :: t) hq hb
  refine ⟨arg, (dtNodeParent_run stray mem n cs fuel adt b q.addr h hf).trans h1, h3,
    fun i hi => ?_⟩
  rcases h4 i hi with h5 | h5 | ⟨h5, _⟩
  · cases h5
  · exact h5
  · cases h5

/-- the target is the root: `path` is read at -1, outside its eight entries -/
theorem dtNodeParent_root (mem : Mem) (n : NodeRec) (cs : Forest NodeRec) (fuel adt b : ℕ)
    (h : mem.IsNode n cs adt b) (hf : cs.height < fuel) :
    ∃ arg, dtNodeParent stray mem fuel adt adt = some arg ∧ arg.parent = stray (-1) ∧
      (-1 : Int) ∈ arg.access := by
  obtain ⟨arg, harg⟩ : ∃ arg : ParentArg, arg = ⟨fun _ => none, n.addr, none, []⟩ := ⟨_, rfl⟩
  have e := parentCbs_target stray arg 0 (by omega)
  have ha : n.addr = adt := h.1
  have hrun := dtNodeParent_run stray mem n cs fuel adt b n.addr h hf
  rw [← harg, visits_node, nodeVisits, show n.addr = arg.target by rw [harg], List.cons_append,
    runUntil_cons_stop _ _ _ _ 1 (by rw [e]), e, harg, ha] at hrun
  exact ⟨_, hrun, rfl, List.mem_append_right _ (List.mem_singleton_self _)⟩

theorem dtNodeParent_deep (mem : Mem) (n : NodeRec) (cs : Forest NodeRec) (fuel adt b x : ℕ)
    (h : mem.IsNode n cs adt b) (hf : cs.height < fuel)
    (hd : ∃ y ∈ before x ((Forest.node n cs .nil).pre 0), 8 ≤ y.1) :
    dtNodeParent stray mem fuel adt x = none :=
  (dtNodeParent_run stray mem n cs fuel adt b x h hf).trans
    (parentRun_fault stray _ ⟨fun _ => none, x, none, []⟩ hd)

/-- `dt_node_parent(x)` gives the one node of the tree `f` at `adt` that has a child at `x`, `NULL`
for the root, and only uses `path[0]` to `path[7]` on the way -/
def RealParent (mem : Mem) (f : Forest NodeRec) (adt x : ℕ) : Prop :=
  ∃ fuel₀, ∀ fuel, fuel₀ ≤ fuel → ∃ arg, dtNodeParent stray mem fuel adt x = some arg ∧
    (∀ i ∈ arg.access, InPath i) ∧ (x = adt → arg.parent = none) ∧
    (x ≠ adt → ∃ p q, q.addr = x ∧ f.ChildOf p q ∧
      (∀ p' q', q'.addr = x → f.ChildOf p' q' → p' = p) ∧ arg.parent = some p.addr)

/-- `x` is a node of `f` but not a root, and no node of level 8 or deeper comes before it -/
def Climbable (f : Forest NodeRec) (x : ℕ) : Prop :=
  x ∈ f.labels.map NodeRec.addr ∧ x ∉ f.roots.map NodeRec.addr ∧ ∀ y ∈ before x (f.pre 0), y.1 < 8

theorem realParent_of_climbable (mem : Mem) (n : NodeRec) (cs : Forest NodeRec) (adt b x : ℕ)
    (h : mem.IsNode n cs adt b) (hc : Climbable (.node n cs .nil) x) :
    RealParent stray mem (.node n cs .nil) adt x := by
  have hk := Mem.isForest_keyed mem _ _ _ h
  obtain ⟨hm, hroot, hb⟩ := hc
  obtain ⟨q, hq, rfl⟩ := List.mem_map.mp hm
  obtain ⟨t, ht⟩ := Forest.chainOf_self NodeRec.addr _ hk q hq
  cases t with
  | nil =>
    have hr := (Forest.chainOf_root NodeRec.addr _ hk q [] ht).mpr rfl
    exact absurd (List.mem_map_of_mem hr) hroot
  | cons p t =>
    refine ⟨cs.height + 1, ?_⟩
    intro fuel hf
    obtain ⟨arg, h1, h2, h3⟩ :=
      dtNodeParent_found stray mem n cs fuel adt b h (by omega) q p t ht hb
    refine ⟨arg, h1, h3, fun e => ?_, fun _ => ⟨p, q, rfl,
      (Forest.childOf_iff NodeRec.addr _ hk q p).mpr ⟨t, ht⟩, fun p' q' e hp' => ?_, h2⟩⟩
    · refine absurd ?_ hroot
      rw [e, ← h.1]
      exact List.mem_singleton_self _
    · obtain ⟨t', ht'⟩ := (Forest.childOf_iff NodeRec.addr _ hk q' p').mp hp'
      rw [e, ht] at ht'
      exact (List.cons.inj (List.cons.inj (Option.some.inj ht')).2).1.symm

theorem climbable_of_realParent (mem : Mem) (n : NodeRec) (cs : Forest NodeRec) (adt b x : ℕ)
    (h : mem.IsNode n cs adt b) (hp : RealParent stray mem (.node n cs .nil) adt x) :
    Climbable (.node n cs .nil) x := by
  obtain ⟨fuel₀, hp⟩ := hp
  obtain ⟨arg, h1, h2, _, h4⟩ := hp (fuel₀ + cs.height + 1) (by omega)
  have hne : x ≠ adt := by
    rintro rfl
    obtain ⟨arg', h5, _, h6⟩ :=
      dtNodeParent_root stray mem n cs (fuel₀ + cs.height + 1) x b h (by omega)
    rw [h1] at h5
    rw [← Option.some.inj h5] at h6
    exact absurd (h2 _ h6).1 (by decide)
  obtain ⟨p, q, rfl, hpq, _⟩ := h4 hne
  refine ⟨List.mem_map_of_mem (Forest.childOf_mem _ p q hpq).2, fun hr => hne ?_, ?_⟩
  · rw [List.mem_singleton.mp hr]
    exact h.1
  · intro y hy
    by_contra h8
    rw [dtNodeParent_deep stray mem n cs (fuel₀ + cs.height + 1) adt b q.addr h (by omega)
      ⟨y, hy, by omega⟩] at h1
    cases h1

/-- **When `dt_node_parent` is right**: on every tree `dt_check` accepts, for every node pointer
`x`, exactly when `x` is not the root and no node of level 8 or deeper comes before it. -/
theorem dtNodeParent_iff (mem : Mem) (adt size : ℕ) (out : CheckOut) (hr : mem.Readable adt size)
    (hc : dtCheck mem adt size = some out) (h0 : out.ret = 0) :
    ∃ n cs b, mem.IsNode n cs adt b ∧ b ≤ adt + size ∧
      ∀ x, RealParent stray mem (.node n cs .nil) adt x ↔ Climbable (.node n cs .nil) x := by
  obtain ⟨n, cs, b, hn, hb, _⟩ := dtCheck_node mem adt size out hr hc h0
  exact ⟨n, cs, b, hn, hb, fun x => ⟨climbable_of_realParent stray mem n cs adt b x hn,
    realParent_of_climbable stray mem n cs adt b x hn⟩⟩

end

/-- the parent of the second node of the chain is the first -/
theorem deepMem_parent :
    RealParent (fun _ => none) (deepMem 2) (deepForest 2 0) (deepAt 0) (deepAt 1) := by
  have hn := deepMem_isNode 1
  have hc := dtCheck_complete (deepMem 2) _ _ (deepAt 0) (deepAt 2) 96 hn (le_refl _)
  obtain ⟨n, cs, b, hn', _, h⟩ :=
    dtNodeParent_iff (fun _ => none) (deepMem 2) (deepAt 0) 96 _ (deepMem_readable 2) hc rfl
  obtain ⟨e, _⟩ := Mem.isForest_unique _ _ _ _ _ _ hn' hn rfl
  rw [e] at h
  exact (h (deepAt 1)).mpr ⟨by decide, by decide, by decide⟩

/-- `dt_find` returns the root of a one-node tree, and `dt_node_parent` of it reads `path[-1]` and
returns what is there -/
theorem dtNodeParent_root_stray :
    (∃ w, dtCheck (deepMem 1) (deepAt 0) 48 = some ⟨0, some 48, w⟩) ∧
      dtFind asciiLib (deepMem 1) 2 (deepAt 0) [0x62] = some (some (deepAt 0)) ∧
      ∀ stray, (∃ arg, dtNodeParent stray (deepMem 1) 2 (deepAt 0) (deepAt 0) = some arg ∧
        arg.parent = stray (-1) ∧ (-1 : Int) ∈ arg.access) ∧
        ¬ RealParent stray (deepMem 1) (deepForest 1 0) (deepAt 0) (deepAt 0) := by
  have hn := deepMem_isNode 0
  refine ⟨⟨_, dtCheck_complete (deepMem 1) _ _ (deepAt 0) (deepAt 1) 48 hn (le_refl _)⟩,
    by decide +kernel, fun stray => ⟨?_, fun hp => ?_⟩⟩
  · exact dtNodeParent_root stray (deepMem 1) _ _ 2 (deepAt 0) (deepAt 1) hn (by decide)
  · exact absurd (climbable_of_realParent stray _ _ _ _ _ _ hn hp).2.1 (by decide)

end AppleSilicon
