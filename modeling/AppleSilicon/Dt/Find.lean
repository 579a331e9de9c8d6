import AppleSilicon.Dt.Check
import AppleSilicon.Dt.Lookup
import AppleSilicon.Dt.DeepWalk

/-!
# `dt_find`: paths and names

The search is a state machine (what is left of the path, the depth it must match at) that a flat
pre-order walk drives and that can only stop the walk.  What it should compute is `resolve`, for a
path, and the first node in pre-order with the name, for a simple name.

* `findCb_*`              one node: ignored, climbed out of, matched or found;
* `findRun_path`          the walk over the nodes of one level and everything below them;
* `dtFind_path`           a path, on trees no node of which is on level `2^31`;
* `dtFind_simple`         a simple name, on the same trees;
* `dtFind_spec`           both, from what `dt_check` accepts.
-/

namespace AppleSilicon

/-- a path, one component after the other -/
def pathName (comps : List (List UInt8)) : List UInt8 := comps.flatMap (fun c => slash :: c)

/-- a node with one property `name`, whose value is a string, and with keys that are strings -/
structure NodeRec.Named (mem : Mem) (n : NodeRec) : Prop where
  keys : ∀ p ∈ n.props, ∃ s, IsStr (mem.at p.key) s ∧ s.length < dtKeyLen
  one : ∃ p s, n.props.filter (PropRec.hasKey mem nameKey) = [p] ∧ IsStr (mem.at p.val) s ∧
    p.len = s.length + 1

/-- the value of the property `name` -/
def NodeRec.name (mem : Mem) (n : NodeRec) : List UInt8 :=
  match n.find mem nameKey with
  | none => []
  | some p => mem.strN p.val p.len

/-- the first tree of the forest whose root has the name: its root and the children -/
def firstNamed (mem : Mem) (c : List UInt8) : Forest NodeRec → Option (NodeRec × Forest NodeRec)
  | .nil => none
  | .node n kids sb => if n.name mem = c then some (n, kids) else firstNamed mem c sb

/-- the node a path leads to -/
def resolve (mem : Mem) : List (List UInt8) → Forest NodeRec → Option NodeRec
  | [], _ => none
  | c :: rest, f =>
    (firstNamed mem c f).bind fun (n, kids) => if rest = [] then some n else resolve mem rest kids

/-! ## strings -/

theorem Mem.strN_of_isStr (mem : Mem) (a n : ℕ) (s : List UInt8) (h : IsStr (mem.at a) s)
    (hr : mem.Readable a n) (hn : s.length < n) : mem.strN a n = s := by
  have h1 := Mem.isStrN_strN mem a n hr
  have h2 := h.take n
  rw [List.take_of_length_le (by omega)] at h2
  exact isStrN_unique _ _ _ _ h1 h2

theorem nodup_slash (c tl : List UInt8) (hc : slash ∉ c) (i : ℕ) (hi : i < c.length) :
    ¬ [slash] <+: (c ++ tl).drop i := by
  rintro ⟨t, ht⟩
  have h0 : (c ++ tl)[i]? = some slash := by
    rw [← List.head?_drop, ← ht]
    rfl
  rw [List.getElem?_append_left hi] at h0
  exact hc (List.mem_of_getElem? h0)

/-- `AsciiStrStr(name, "/")` in the last component -/
theorem strStr_leaf (lib : AsciiLib) (hl : lib.Documented) (c : List UInt8) (hc : slash ∉ c) :
    lib.asciiStrStr c [slash] = none := by
  cases h : lib.asciiStrStr c [slash] with
  | none => rfl
  | some i =>
    obtain ⟨⟨t, ht⟩, _⟩ := hl.strStr_some c [slash] i (by simp) h
    refine absurd ?_ hc
    apply List.mem_of_mem_drop (i := i)
    rw [← ht]
    exact List.mem_cons_self ..

/-- `AsciiStrStr(name, "/")` before the last component -/
theorem strStr_inner (lib : AsciiLib) (hl : lib.Documented) (c tl : List UInt8) (hc : slash ∉ c) :
    lib.asciiStrStr (c ++ slash :: tl) [slash] = some c.length := by
  have hat : [slash] <+: (c ++ slash :: tl).drop c.length := by
    rw [List.drop_left]
    exact ⟨tl, rfl⟩
  cases h : lib.asciiStrStr (c ++ slash :: tl) [slash] with
  | none => exact absurd hat (hl.strStr_none _ _ (by simp) h c.length)
  | some i =>
    obtain ⟨h1, h2⟩ := hl.strStr_some _ _ i (by simp) h
    have h3 : ¬ i < c.length := fun hi => nodup_slash c _ hc i hi h1
    have h4 : ¬ c.length < i := fun hi => h2 c.length hi hat
    rw [show i = c.length by omega]

/-! ## one node -/

/-- a node whose properties can be read, too -/
def Searchable (mem : Mem) (n : NodeRec) : Prop :=
  n.Named mem ∧ ∀ p ∈ n.props, mem.Readable p.key dtKeyLen ∧ mem.Readable p.val p.len

/-- the components of a path -/
def PathComp (c : List UInt8) : Prop := slash ∉ c ∧ NoNul c

instance (c : List UInt8) : Decidable (PathComp c) := inferInstanceAs (Decidable (_ ∧ _))

theorem noNul_pathName (comps : List (List UInt8)) (h : ∀ c ∈ comps, PathComp c) :
    NoNul (pathName comps) := by
  intro x hx
  obtain ⟨c, hc, hx⟩ := List.mem_flatMap.mp hx
  rcases List.mem_cons.mp hx with rfl | hx
  · decide
  · exact (h c hc).2 x hx

theorem named_key (mem : Mem) (n : NodeRec) (hn : Searchable mem n) (p : PropRec)
    (hp : p ∈ n.props) :
    ∃ s, IsStr (mem.at p.key) s ∧ (p.hasKey mem nameKey = true ↔ s = nameKey) := by
  obtain ⟨s, hs, hlen⟩ := hn.1.keys p hp
  refine ⟨s, hs, ?_⟩
  rw [PropRec.hasKey, Mem.strN_of_isStr mem p.key dtKeyLen s hs (hn.2 p hp).1 hlen]
  exact ⟨of_decide_eq_true, decide_eq_true⟩

/-- the property `name` of a node -/
theorem named_prop (mem : Mem) (n : NodeRec) (hn : Searchable mem n) :
    ∃ p, n.props.filter (PropRec.hasKey mem nameKey) = [p] ∧ p ∈ n.props ∧
      IsStr (mem.at p.key) nameKey ∧ IsStr (mem.at p.val) (n.name mem) ∧
      p.len = (n.name mem).length + 1 := by
  obtain ⟨p, s, hf, hs, hlen⟩ := hn.1.one
  have hmem : p ∈ n.props.filter (PropRec.hasKey mem nameKey) := by
    rw [hf]
    exact List.mem_singleton_self p
  obtain ⟨hp, hkey⟩ := List.mem_filter.mp hmem
  obtain ⟨k, hk, hiff⟩ := named_key mem n hn p hp
  rw [hiff.mp hkey] at hk
  have hfind : n.find mem nameKey = some p := by
    rw [NodeRec.find, ← List.head?_filter, hf]
    rfl
  have hname : n.name mem = s := by
    rw [NodeRec.name, hfind]
    exact Mem.strN_of_isStr mem p.val p.len s hs (hn.2 p hp).2 (by omega)
  rw [hname]
  exact ⟨p, hf, hp, hk, hs, hlen⟩

section
variable (lib : AsciiLib) (mem : Mem)

theorem findCb_other (hl : lib.Documented) (arg : FindArg) (a : ℕ) (d : Int) (p : PropRec)
    (s : List UInt8) (hs : IsStr (mem.at p.key) s) (hne : s ≠ nameKey) :
    dtFindCb lib mem arg a d p.key p.val p.len = some (arg, 0) := by
  obtain ⟨r, hr, hiff⟩ := hl.strCmp _ s nameKey hs (by decide)
  rw [dtFindCb, hr, Option.bind_some, if_pos (fun h => hne (hiff.mp h))]

theorem findLeaf_spec (hl : lib.Documented) (arg : FindArg) (name s : List UInt8)
    (hn : NoNul name) (a val len : ℕ) (hs : IsStr (mem.at val) s) (hlen : len = s.length + 1) :
    dtFindLeaf lib mem arg name a val len
      = some (if s = name then ({ arg with node := some a }, 1) else (arg, 0)) := by
  have hcut := hs.take len
  rw [List.take_of_length_le (by omega)] at hcut
  obtain ⟨r, hr, hiff⟩ := hl.strnCmp name _ len s hn hcut
  rw [dtFindLeaf, hr, Option.map_some, hl.strLen name hn]
  congr 1
  by_cases h : s = name
  · rw [if_pos h, if_pos ⟨hiff.mpr (by rw [← h, List.take_of_length_le (by omega)]), by rw [hlen, h]⟩]
  · rw [if_neg h, if_neg]
    rintro ⟨h0, h1⟩
    have := hiff.mp h0
    rw [List.take_of_length_le (by omega)] at this
    exact h this.symm

/-- a simple name: found or not -/
theorem findCb_simple (hl : lib.Documented) (arg : FindArg) (hn : NoNul arg.name)
    (hs : arg.name.head? ≠ some slash) (a : ℕ) (d : Int) (p : PropRec) (s : List UInt8)
    (hk : IsStr (mem.at p.key) nameKey) (hv : IsStr (mem.at p.val) s) (hlen : p.len = s.length + 1) :
    dtFindCb lib mem arg a d p.key p.val p.len
      = some (if s = arg.name then ({ arg with node := some a }, 1) else (arg, 0)) := by
  obtain ⟨r, hr, hiff⟩ := hl.strCmp _ nameKey nameKey hk (by decide)
  rw [dtFindCb, hr, Option.bind_some, if_neg (fun h => h (hiff.mpr rfl)), if_neg hs,
    findLeaf_spec lib mem hl arg arg.name s hn a p.val p.len hv hlen]

/-- a path at the root of the tree -/
theorem findCb_root (hl : lib.Documented) (arg : FindArg) (hs : arg.name.head? = some slash)
    (a : ℕ) (p : PropRec) (hk : IsStr (mem.at p.key) nameKey) :
    dtFindCb lib mem arg a 0 p.key p.val p.len = some (arg, 0) := by
  obtain ⟨r, hr, hiff⟩ := hl.strCmp _ nameKey nameKey hk (by decide)
  rw [dtFindCb, hr, Option.bind_some, if_neg (fun h => h (hiff.mpr rfl)), if_pos hs, if_pos rfl]

/-- a path at a node named `s` below the root: inside the subtree of a node that did not match,
back out of the one that did, matched, found, or passed over -/
def pathStep (s c : List UInt8) (rest : List (List UInt8)) (arg : FindArg) (a : ℕ) (d : Int) :
    FindArg × Int :=
  if d > arg.matchdepth then (arg, 0)
  else if d < arg.matchdepth then (arg, -1)
  else if s = c then
    if rest = [] then ({ arg with node := some a }, 1)
    else (⟨pathName rest, arg.node, i32 (d + 1)⟩, 0)
  else (arg, 0)

theorem pathStep_below (s c : List UInt8) (rest : List (List UInt8)) (arg : FindArg) (a : ℕ)
    (d : Int) (h : arg.matchdepth < d) : pathStep s c rest arg a d = (arg, 0) := by
  rw [pathStep, if_pos h]

theorem pathStep_back (s c : List UInt8) (rest : List (List UInt8)) (arg : FindArg) (a : ℕ)
    (d : Int) (h : d < arg.matchdepth) : pathStep s c rest arg a d = (arg, -1) := by
  rw [pathStep, if_neg (by omega), if_pos h]

theorem pathStep_at (s c : List UInt8) (rest : List (List UInt8)) (arg : FindArg) (a : ℕ)
    (d : Int) (h : arg.matchdepth = d) :
    pathStep s c rest arg a d
      = if s = c then
          if rest = [] then ({ arg with node := some a }, 1)
          else (⟨pathName rest, arg.node, i32 (d + 1)⟩, 0)
        else (arg, 0) := by
  rw [pathStep, if_neg (by omega), if_neg (by omega)]

theorem findCb_path (hl : lib.Documented) (c : List UInt8) (rest : List (List UInt8))
    (hc : ∀ x ∈ c :: rest, PathComp x) (arg : FindArg) (hname : arg.name = pathName (c :: rest))
    (a : ℕ) (d : Int) (hd : d ≠ 0) (p : PropRec) (s : List UInt8)
    (hk : IsStr (mem.at p.key) nameKey) (hv : IsStr (mem.at p.val) s) (hlen : p.len = s.length + 1) :
    dtFindCb lib mem arg a d p.key p.val p.len = some (pathStep s c rest arg a d) := by
  obtain ⟨r, hr, hiff⟩ := hl.strCmp _ nameKey nameKey hk (by decide)
  have hcons : arg.name = slash :: (c ++ pathName rest) := hname
  have hhead : arg.name.head? = some slash := by rw [hcons]; rfl
  have hcc := hc c (List.mem_cons_self ..)
  rw [dtFindCb, hr, Option.bind_some, if_neg (fun h => h (hiff.mpr rfl)), if_pos hhead, if_neg hd,
    pathStep]
  by_cases h1 : d > arg.matchdepth
  · rw [if_pos h1, if_pos h1]
  · rw [if_neg h1, if_neg h1]
    by_cases h2 : d < arg.matchdepth
    · rw [if_pos h2, if_pos h2]
    · rw [if_neg h2, if_neg h2, show arg.name.tail = c ++ pathName rest by rw [hcons]; rfl]
      cases rest with
      | nil =>
        rw [show c ++ pathName [] = c from List.append_nil c]
        dsimp only
        rw [strStr_leaf lib hl c hcc.1]
        dsimp only
        rw [findLeaf_spec lib mem hl arg c s hcc.2 a p.val p.len hv hlen]
        by_cases h : s = c
        · rw [if_pos h, if_pos h, if_pos rfl]
        · rw [if_neg h, if_neg h]
      | cons c' rest =>
        rw [show pathName (c' :: rest) = slash :: (c' ++ pathName rest) from rfl]
        dsimp only
        rw [strStr_inner lib hl c _ hcc.1]
        dsimp only
        have hnn : NoNul (c ++ slash :: (c' ++ pathName rest)) := by
          have h := noNul_pathName (c :: c' :: rest) hc
          exact fun x hx => h x (List.mem_cons_of_mem _ hx)
        obtain ⟨r', hr', hiff'⟩ := hl.strnCmp _ _ c.length _ hnn (hv.take c.length)
        rw [List.take_left] at hiff'
        rw [hr', Option.bind_some]
        by_cases h : s = c
        · have hz : mem (p.val + c.length) = some 0 := by
            rw [← h]
            exact hv.2.2
          have h0 : r' = 0 := hiff'.mpr (by rw [h, List.take_of_length_le (le_refl _)])
          rw [if_pos ⟨h0, by rw [hlen, h]⟩, hz, Option.map_some, if_pos rfl, if_pos h,
            if_neg (by simp), List.drop_left]
        · rw [if_neg h, if_neg]
          rintro ⟨h0, h3⟩
          refine h ((hiff'.mp h0).trans ?_).symm
          exact List.take_of_length_le (by omega)

/-! ## the properties of one node -/

theorem findRun_quiet (hl : lib.Documented) (n : NodeRec) (hn : Searchable mem n) (arg : FindArg)
    (a : ℕ) (d : Int) (ps : List PropRec) (hps : ∀ p ∈ ps, p ∈ n.props)
    (hnone : ps.filter (PropRec.hasKey mem nameKey) = []) :
    runUntil (findCbs lib mem).step (some arg) (propVisits a d ps)
      = ⟨some arg, none, propVisits a d ps⟩ := by
  apply runUntil_quiet
  intro v hv
  obtain ⟨p, hp, rfl⟩ := List.mem_map.mp hv
  obtain ⟨s, hs, hiff⟩ := named_key mem n hn p (hps p hp)
  have hne : s ≠ nameKey := fun e => by
    have hm : p ∈ ps.filter (PropRec.hasKey mem nameKey) := List.mem_filter.mpr ⟨hp, hiff.mpr e⟩
    rw [hnone] at hm
    cases hm
  exact faulting_step none _ _ _ _ _ _ _ _ _ (findCb_other lib mem hl arg a d p s hs hne)

/-- only the property `name` counts -/
theorem findRun_props (hl : lib.Documented) (n : NodeRec) (hn : Searchable mem n)
    (arg arg' : FindArg) (r : Int) (a : ℕ) (d : Int) (p : PropRec) (ps : List PropRec)
    (hps : ∀ x ∈ ps, x ∈ n.props) (hone : ps.filter (PropRec.hasKey mem nameKey) = [p])
    (hcb : dtFindCb lib mem arg a d p.key p.val p.len = some (arg', r)) :
    (runUntil (findCbs lib mem).step (some arg) (propVisits a d ps)).state = some arg' ∧
      (runUntil (findCbs lib mem).step (some arg) (propVisits a d ps)).exit
        = if r = 0 then none else some r := by
  induction ps with
  | nil => cases hone
  | cons x ps ih =>
    rw [show propVisits a d (x :: ps) = .prop a d x.key x.val x.len :: propVisits a d ps from rfl]
    have hps' : ∀ y ∈ ps, y ∈ n.props := fun y hy => hps y (List.mem_cons_of_mem _ hy)
    cases hx : x.hasKey mem nameKey with
    | true =>
      rw [List.filter_cons_of_pos hx] at hone
      obtain ⟨rfl, hnone⟩ := List.cons.inj hone
      have hs : (findCbs lib mem).step (some arg) (.prop a d x.key x.val x.len)
          = (some arg', if r = 0 then none else some r) := faulting_step none _ _ _ _ _ _ _ _ _ hcb
      by_cases h0 : r = 0
      · rw [if_pos h0] at hs ⊢
        rw [runUntil_cons_go _ _ _ _ (by rw [hs]), hs,
          findRun_quiet lib mem hl n hn arg' a d ps hps' hnone]
        exact ⟨rfl, rfl⟩
      · rw [if_neg h0] at hs ⊢
        rw [runUntil_cons_stop _ _ _ _ r (by rw [hs]), hs]
        exact ⟨rfl, rfl⟩
    | false =>
      rw [List.filter_cons_of_neg (by rw [hx]; exact Bool.false_ne_true)] at hone
      obtain ⟨s, hs, hiff⟩ := named_key mem n hn x (hps x (List.mem_cons_self ..))
      have hne : s ≠ nameKey := fun e => by
        rw [hiff.mpr e] at hx
        cases hx
      have e : (findCbs lib mem).step (some arg) (.prop a d x.key x.val x.len)
          = (some arg, none) := faulting_step none _ _ _ _ _ _ _ _ _
        (findCb_other lib mem hl arg a d x s hs hne)
      rw [runUntil_cons_go _ _ _ _ (by rw [e]), e]
      exact ih hps' hone

theorem findRun_node (hl : lib.Documented) (n : NodeRec) (hn : Searchable mem n)
    (arg arg' : FindArg) (r : Int) (d : ℕ)
    (hcb : ∀ p : PropRec, IsStr (mem.at p.key) nameKey → IsStr (mem.at p.val) (n.name mem) →
      p.len = (n.name mem).length + 1 →
      dtFindCb lib mem arg n.addr d p.key p.val p.len = some (arg', r)) :
    (runUntil (findCbs lib mem).step (some arg) (nodeVisits d n)).state = some arg' ∧
      (runUntil (findCbs lib mem).step (some arg) (nodeVisits d n)).exit
        = if r = 0 then none else some r := by
  obtain ⟨p, hf, hp, hk, hv, hlen⟩ := named_prop mem n hn
  have e : (findCbs lib mem).step (some arg) (.node n.addr d) = (some arg, none) := rfl
  rw [nodeVisits, runUntil_cons_go _ _ _ _ (by rw [e]), e]
  exact findRun_props lib mem hl n hn arg arg' r n.addr d p n.props (fun x hx => hx) hf
    (hcb p hk hv hlen)

/-! ## one level of the tree and everything below -/

/-- the search at a node named `n.name` below the root -/
theorem findRun_step (hl : lib.Documented) (n : NodeRec) (hn : Searchable mem n) (c : List UInt8)
    (rest : List (List UInt8)) (hc : ∀ x ∈ c :: rest, PathComp x) (arg : FindArg)
    (hname : arg.name = pathName (c :: rest)) (d : ℕ) (hd : 0 < d) :
    (runUntil (findCbs lib mem).step (some arg) (nodeVisits d n)).state
        = some (pathStep (n.name mem) c rest arg n.addr d).1 ∧
      (runUntil (findCbs lib mem).step (some arg) (nodeVisits d n)).exit
        = if (pathStep (n.name mem) c rest arg n.addr d).2 = 0 then none
          else some (pathStep (n.name mem) c rest arg n.addr d).2 :=
  findRun_node lib mem hl n hn arg _ _ d (fun p hk hv hlen =>
    findCb_path lib mem hl c rest hc arg hname n.addr d (by omega) p _ hk hv hlen)

/-- the subtree of a node that did not match is passed over -/
theorem findRun_ignore (hl : lib.Documented) (f : Forest NodeRec)
    (hf : ∀ n ∈ f.labels, Searchable mem n) (c : List UInt8) (rest : List (List UInt8))
    (hc : ∀ x ∈ c :: rest, PathComp x) (arg : FindArg) (hname : arg.name = pathName (c :: rest))
    (d : ℕ) (hd : 0 < d) (hm : arg.matchdepth < d) :
    (runUntil (findCbs lib mem).step (some arg) (visits d f)).state = some arg ∧
      (runUntil (findCbs lib mem).step (some arg) (visits d f)).exit = none := by
  induction f generalizing d with
  | nil => exact ⟨rfl, rfl⟩
  | node n kids sb ihc ihs =>
    obtain ⟨h1, h2⟩ := findRun_step lib mem hl n (hf n (List.mem_cons_self ..)) c rest hc arg hname
      d hd
    rw [pathStep_below _ _ _ _ _ _ hm] at h1 h2
    obtain ⟨h3, h4⟩ := ihc
      (fun x hx => hf x (List.mem_cons_of_mem _ (List.mem_append_left _ hx))) (d + 1) (by omega)
      (by push_cast; omega)
    obtain ⟨h5, h6⟩ := ihs
      (fun x hx => hf x (List.mem_cons_of_mem _ (List.mem_append_right _ hx))) d hd hm
    rw [if_pos rfl] at h2
    rw [visits_node, runUntil_append_go _ _ _ _ h2, h1, runUntil_append_go _ _ _ _ h4, h3]
    exact ⟨h5, h6⟩

/-- the search has matched a node on level `d` whose subtree did not hold the rest of the path: no
node on that level can be returned any more.  (The match depth is negative when `d + 1` overflows.) -/
def Stuck (arg : FindArg) (d : ℕ) : Prop :=
  arg.node = none ∧
    (∃ c rest, (∀ x ∈ c :: rest, PathComp x) ∧ arg.name = pathName (c :: rest)) ∧
    ((d : Int) < arg.matchdepth ∨ arg.matchdepth < 0)

theorem findRun_stuck (hl : lib.Documented) (f : Forest NodeRec)
    (hf : ∀ n ∈ f.labels, Searchable mem n) (arg : FindArg) (d : ℕ) (hd : 0 < d)
    (hs : Stuck arg d) :
    (runUntil (findCbs lib mem).step (some arg) (visits d f)).state = some arg := by
  obtain ⟨_, ⟨c, rest, hc, hname⟩, hm⟩ := hs
  rcases hm with hm | hm
  · cases f with
    | nil => rfl
    | node n kids sb =>
      -- the first node on the level ends the walk
      obtain ⟨h1, h2⟩ := findRun_step lib mem hl n (hf n (List.mem_cons_self ..)) c rest hc arg
        hname d hd
      rw [pathStep_back _ _ _ _ _ _ hm] at h1 h2
      rw [visits_node, runUntil_append_stop _ _ _ _ (-1) h2]
      exact h1
  · exact (findRun_ignore lib mem hl f hf c rest hc arg hname d hd (by omega)).1

theorem resolve_here (n : NodeRec) (kids sb : Forest NodeRec) (c : List UInt8)
    (rest : List (List UInt8)) (h : n.name mem = c) :
    resolve mem (c :: rest) (.node n kids sb)
      = if rest = [] then some n else resolve mem rest kids := by
  rw [resolve, firstNamed, if_pos h, Option.bind_some]

theorem resolve_next (n : NodeRec) (kids sb : Forest NodeRec) (c : List UInt8)
    (rest : List (List UInt8)) (h : n.name mem ≠ c) :
    resolve mem (c :: rest) (.node n kids sb) = resolve mem (c :: rest) sb := by
  rw [resolve, firstNamed, if_neg h, resolve]

/-- the run over `l` ends with the node `found` to be returned; if no callback stopped it, nothing was
found and the client data is as `left` says -/
def Searched (arg : FindArg) (l : List Visit) (found : Option NodeRec) (left : FindArg → Prop) :
    Prop :=
  ∃ arg', (runUntil (findCbs lib mem).step (some arg) l).state = some arg' ∧
    arg'.node = found.map NodeRec.addr ∧
    ((runUntil (findCbs lib mem).step (some arg) l).exit = none → found = none ∧ left arg')

/-- first `l₁`, which no callback stops -/
theorem searched_append (arg arg₁ : FindArg) (l₁ l₂ : List Visit) (found : Option NodeRec)
    (left : FindArg → Prop)
    (h1 : (runUntil (findCbs lib mem).step (some arg) l₁).state = some arg₁)
    (h2 : (runUntil (findCbs lib mem).step (some arg) l₁).exit = none)
    (h : Searched lib mem arg₁ l₂ found left) : Searched lib mem arg (l₁ ++ l₂) found left := by
  rw [Searched, runUntil_append_go _ _ _ _ h2, h1]
  exact h

/-- a search that is stuck among the children of a node is stuck on the level of the node -/
theorem stuck_above (arg : FindArg) (d : ℕ) (h : Stuck arg (d + 1)) : Stuck arg d := by
  obtain ⟨h1, h2, h3⟩ := h
  refine ⟨h1, h2, ?_⟩
  push_cast at h3
  omega

/-- after a match on level `d`: the search among the children finds the rest of the path or is stuck;
when the match depth overflows there are no children -/
theorem searched_children (kids : Forest NodeRec) (c : List UInt8) (rest : List (List UInt8))
    (hc : ∀ x ∈ c :: rest, PathComp x) (d : ℕ) (hh : d + 1 + kids.height ≤ 2^31)
    (ih : d + 1 < 2^31 → Searched lib mem ⟨pathName (c :: rest), none, ((d + 1 : ℕ) : Int)⟩
      (visits (d + 1) kids) (resolve mem (c :: rest) kids)
      (fun a => a = ⟨pathName (c :: rest), none, ((d + 1 : ℕ) : Int)⟩ ∨ Stuck a (d + 1))) :
    Searched lib mem ⟨pathName (c :: rest), none, i32 ((d : Int) + 1)⟩ (visits (d + 1) kids)
      (resolve mem (c :: rest) kids) (fun a => Stuck a d) := by
  by_cases hlt : d + 1 < 2^31
  · have hi : i32 ((d : Int) + 1) = ((d + 1 : ℕ) : Int) := by
      rw [← i32_small (d + 1) hlt, Nat.cast_succ]
    rw [hi]
    obtain ⟨arg', h1, h2, h3⟩ := ih hlt
    refine ⟨arg', h1, h2, ?_⟩
    intro hx
    obtain ⟨h4, h5⟩ := h3 hx
    refine ⟨h4, ?_⟩
    rcases h5 with rfl | h5
    · exact ⟨rfl, ⟨c, rest, hc, rfl⟩, Or.inl (by push_cast; omega)⟩
    · exact stuck_above arg' d h5
  · have hkids : kids = .nil := by
      cases kids with
      | nil => rfl
      | node x kc ks =>
        have hm : (Forest.node x kc ks).height = max (kc.height + 1) ks.height := rfl
        omega
    have hneg : i32 ((d : Int) + 1) < 0 := by
      unfold i32
      rw [Int.bmod_def]
      omega
    generalize i32 ((d : Int) + 1) = m at hneg
    rw [hkids]
    exact ⟨⟨pathName (c :: rest), none, m⟩, rfl, rfl,
      fun _ => ⟨rfl, rfl, ⟨c, rest, hc, rfl⟩, Or.inr hneg⟩⟩

/-- a search that found something or is stuck has nothing to do with the later siblings -/
theorem searched_siblings (hl : lib.Documented) (sb : Forest NodeRec)
    (hsb : ∀ n ∈ sb.labels, Searchable mem n) (arg : FindArg) (l : List Visit)
    (found : Option NodeRec) (d : ℕ) (hd : 0 < d)
    (h : Searched lib mem arg l found (fun a => Stuck a d)) :
    Searched lib mem arg (l ++ visits d sb) found (fun a => Stuck a d) := by
  obtain ⟨arg', h1, h2, h3⟩ := h
  cases hx : (runUntil (findCbs lib mem).step (some arg) l).exit with
  | some r =>
    rw [Searched, runUntil_append_stop _ _ _ _ r hx]
    refine ⟨arg', h1, h2, ?_⟩
    intro h
    rw [hx] at h
    cases h
  | none =>
    obtain ⟨h4, h5⟩ := h3 hx
    apply searched_append lib mem arg arg' l _ found _ h1 hx
    exact ⟨arg', findRun_stuck lib mem hl sb hsb arg' d hd h5, h2, fun _ => ⟨h4, h5⟩⟩

/-- **One level of the path search**: entered with the match depth at the level, the walk ends at
the node the rest of the path leads to; when there is none it returns no node, and if it has
matched on this level it is stuck there. -/
theorem findRun_path (hl : lib.Documented) (f : Forest NodeRec)
    (hf : ∀ n ∈ f.labels, Searchable mem n) (c : List UInt8) (rest : List (List UInt8))
    (hc : ∀ x ∈ c :: rest, PathComp x) (d : ℕ) (hd : 0 < d) (hh : d + f.height ≤ 2^31) :
    Searched lib mem ⟨pathName (c :: rest), none, (d : Int)⟩ (visits d f)
      (resolve mem (c :: rest) f)
      (fun a => a = ⟨pathName (c :: rest), none, (d : Int)⟩ ∨ Stuck a d) := by
  induction f generalizing d c rest with
  | nil => exact ⟨_, rfl, rfl, fun _ => ⟨rfl, Or.inl rfl⟩⟩
  | node n kids sb ihc ihs =>
    have hheight : (Forest.node n kids sb).height = max (kids.height + 1) sb.height := rfl
    have hkids : ∀ x ∈ kids.labels, Searchable mem x :=
      fun x hx => hf x (List.mem_cons_of_mem _ (List.mem_append_left _ hx))
    have hsb : ∀ x ∈ sb.labels, Searchable mem x :=
      fun x hx => hf x (List.mem_cons_of_mem _ (List.mem_append_right _ hx))
    obtain ⟨h1, h2⟩ := findRun_step lib mem hl n (hf n (List.mem_cons_self ..)) c rest hc
      ⟨pathName (c :: rest), none, (d : Int)⟩ rfl d hd
    rw [pathStep_at _ _ _ _ _ _ rfl] at h1 h2
    rw [visits_node]
    by_cases hn : n.name mem = c
    · rw [if_pos hn] at h1 h2
      rw [resolve_here mem n kids sb c rest hn]
      by_cases hrest : rest = []
      · -- the last component: found
        rw [if_pos hrest] at h1 h2
        rw [if_pos hrest, Searched, runUntil_append_stop _ _ _ _ 1 h2]
        refine ⟨_, h1, rfl, ?_⟩
        intro h
        rw [h2] at h
        cases h
      · -- matched: the search goes on among the children, then it is stuck
        rw [if_neg hrest] at h1 h2
        rw [if_neg hrest]
        obtain ⟨c', rest', rfl⟩ : ∃ c' rest', rest = c' :: rest' := List.exists_cons_of_ne_nil hrest
        have hc' : ∀ x ∈ c' :: rest', PathComp x := fun x hx => hc x (List.mem_cons_of_mem _ hx)
        have hbelow := searched_children lib mem kids c' rest' hc' d (by omega)
          (fun hlt => ihc hkids c' rest' hc' (d + 1) (by omega) (by omega))
        obtain ⟨arg', h3, h4, h5⟩ := searched_append lib mem _ _ _ _ _ _ h1 h2
          (searched_siblings lib mem hl sb hsb _ _ _ d hd hbelow)
        exact ⟨arg', h3, h4, fun hx => ⟨(h5 hx).1, Or.inr (h5 hx).2⟩⟩
    · rw [if_neg hn] at h1 h2
      obtain ⟨h3, h4⟩ := findRun_ignore lib mem hl kids hkids c rest hc
        ⟨pathName (c :: rest), none, (d : Int)⟩ rfl (d + 1) (by omega) (by push_cast; omega)
      rw [resolve_next mem n kids sb c rest hn]
      exact searched_append lib mem _ _ _ _ _ _ h1 h2
        (searched_append lib mem _ _ _ _ _ _ h3 h4 (ihs hsb c rest hc d hd (by omega)))

/-- the search for a simple name -/
theorem findRun_simple (hl : lib.Documented) (l : List (ℕ × NodeRec))
    (hf : ∀ y ∈ l, Searchable mem y.2) (arg : FindArg) (hname : NoNul arg.name)
    (hs : arg.name.head? ≠ some slash) (hnode : arg.node = none) :
    ∃ arg', (runUntil (findCbs lib mem).step (some arg)
        (l.flatMap fun y => nodeVisits y.1 y.2)).state = some arg' ∧
      arg'.node = ((l.map Prod.snd).find? (fun q => decide (q.name mem = arg.name))).map
        NodeRec.addr := by
  induction l with
  | nil => exact ⟨arg, rfl, hnode⟩
  | cons y l ih =>
    obtain ⟨h1, h2⟩ := findRun_node lib mem hl y.2 (hf y (List.mem_cons_self ..)) arg
      (if y.2.name mem = arg.name then { arg with node := some y.2.addr } else arg)
      (if y.2.name mem = arg.name then 1 else 0) y.1 (fun p hk hv hlen => by
        rw [findCb_simple lib mem hl arg hname hs y.2.addr y.1 p _ hk hv hlen]
        by_cases h : y.2.name mem = arg.name
        · rw [if_pos h, if_pos h, if_pos h]
        · rw [if_neg h, if_neg h, if_neg h])
    rw [List.flatMap_cons, List.map_cons]
    by_cases h : y.2.name mem = arg.name
    · rw [if_pos h] at h1 h2
      rw [runUntil_append_stop _ _ _ _ 1 h2, List.find?_cons, decide_eq_true h]
      exact ⟨_, h1, rfl⟩
    · rw [if_neg h] at h1 h2
      rw [if_pos rfl] at h2
      rw [runUntil_append_go _ _ _ _ h2, h1, List.find?_cons, decide_eq_false h]
      exact ih (fun z hz => hf z (List.mem_cons_of_mem _ hz))

end

/-- the nodes of an accepted tree can be searched -/
theorem searchable_accepted (mem : Mem) (adt size : ℕ) (out : CheckOut) (n : NodeRec)
    (cs : Forest NodeRec) (b : ℕ) (hr : mem.Readable adt size)
    (hc : dtCheck mem adt size = some out) (h0 : out.ret = 0) (hn : mem.IsNode n cs adt b)
    (hnamed : ∀ q ∈ (Forest.node n cs .nil).labels, q.Named mem) :
    ∀ q ∈ (Forest.node n cs .nil).labels, Searchable mem q := by
  have hread := dtCheck_readable mem adt size out hr hc h0 n cs b hn
  intro q hq
  refine ⟨hnamed q hq, ?_⟩
  intro p hp
  obtain ⟨h1, h2⟩ := Mem.isForest_readable mem _ adt b hn hread q hq p hp
  exact ⟨h1, Mem.readable_mono mem _ _ _ h2 (le_padded p.len)⟩

/-- the walk over a root with less than `2^31` levels below it sees no level from `2^31` on -/
theorem seen_depth_lt {σ : Type} (cbs : Callbacks σ) (n : NodeRec) (cs : Forest NodeRec)
    (hd : cs.height < 2^31) (arg : σ) :
    ∀ v ∈ (runUntil cbs.step arg (visits 0 (.node n cs .nil))).seen, v.depth < 2^31 := by
  intro v hv
  have h1 := visits_depth_lt 0 _ v (runUntil_mem _ _ _ v hv)
  have hm : (Forest.node n cs .nil).height = max (cs.height + 1) 0 := rfl
  omega

/-- with a path, `dt_find` finds the node that taking the first child of each name leads to -/
theorem dtFind_path (lib : AsciiLib) (mem : Mem) (adt : ℕ) (n : NodeRec) (cs : Forest NodeRec)
    (b fuel : ℕ) (hl : lib.Documented) (hn : mem.IsNode n cs adt b)
    (hs : ∀ q ∈ (Forest.node n cs .nil).labels, Searchable mem q) (hd : cs.height < 2^31)
    (hf : cs.height + 1 ≤ fuel) (comps : List (List UInt8)) (hne : comps ≠ [])
    (hcomps : ∀ c ∈ comps, PathComp c) :
    dtFind lib mem fuel adt (pathName comps)
      = some ((resolve mem comps cs).map NodeRec.addr) := by
  obtain ⟨c, rest, rfl⟩ : ∃ c rest, comps = c :: rest := List.exists_cons_of_ne_nil hne
  have hp := dtParse_spec mem (findCbs lib mem) n cs fuel adt b 0
    (some ⟨pathName (c :: rest), none, 1⟩) hn (by omega) (seen_depth_lt _ n cs hd _)
  rw [Nat.cast_zero] at hp
  -- the root is passed over
  obtain ⟨h1, h2⟩ := findRun_node lib mem hl n (hs n (List.mem_cons_self ..))
    ⟨pathName (c :: rest), none, 1⟩ ⟨pathName (c :: rest), none, 1⟩ 0 0
    (fun p hk _ _ => findCb_root lib mem hl _ rfl n.addr p hk)
  obtain ⟨arg', h3, h4, _⟩ := findRun_path lib mem hl cs
    (fun x hx => hs x (List.mem_cons_of_mem _ (List.mem_append_left _ hx))) c rest hcomps 1
    (by omega) (by omega)
  have hrun : (runUntil (findCbs lib mem).step (some ⟨pathName (c :: rest), none, 1⟩)
      (visits 0 (.node n cs .nil))).state = some arg' := by
    rw [visits_node, visits_nil, List.append_nil, runUntil_append_go _ _ _ _ h2, h1]
    exact h3
  rw [dtFind, hp, Option.bind_some, ParseOut.ofRun, hrun, Option.map_some, h4]

/-- with a simple name, `dt_find` finds the first node of the name in pre-order -/
theorem dtFind_simple (lib : AsciiLib) (mem : Mem) (adt : ℕ) (n : NodeRec) (cs : Forest NodeRec)
    (b fuel : ℕ) (hl : lib.Documented) (hn : mem.IsNode n cs adt b)
    (hs : ∀ q ∈ (Forest.node n cs .nil).labels, Searchable mem q) (hd : cs.height < 2^31)
    (hf : cs.height + 1 ≤ fuel) (c : List UInt8) (hc : NoNul c) (hslash : c.head? ≠ some slash) :
    dtFind lib mem fuel adt c
      = some (((Forest.node n cs .nil).labels.find? (fun q => decide (q.name mem = c))).map
          NodeRec.addr) := by
  have hp := dtParse_spec mem (findCbs lib mem) n cs fuel adt b 0 (some ⟨c, none, 1⟩) hn
    (by omega) (seen_depth_lt _ n cs hd _)
  rw [Nat.cast_zero] at hp
  obtain ⟨arg', h1, h2⟩ := findRun_simple lib mem hl ((Forest.node n cs .nil).pre 0)
    (fun y hy => hs y.2 (by rw [← Forest.pre_map_snd 0]; exact List.mem_map_of_mem hy))
    ⟨c, none, 1⟩ hc hslash rfl
  rw [Forest.pre_map_snd] at h2
  rw [dtFind, hp, Option.bind_some, ParseOut.ofRun,
    show (runUntil (findCbs lib mem).step (some ⟨c, none, 1⟩)
      (visits 0 (.node n cs .nil))).state = some arg' from h1, Option.map_some, h2]

/-- **`dt_find` finds what it is asked for.**  On every tree `dt_check` accepts with one `name` at
every node and keys that are strings, if no node is on level `2^31`: a path leads to the node
reached by taking at each level the first child with the name, and a simple name to the first node
with the name in pre-order. -/
theorem dtFind_spec (lib : AsciiLib) (mem : Mem) (adt size : ℕ) (out : CheckOut) (n : NodeRec)
    (cs : Forest NodeRec) (b : ℕ) (hl : lib.Documented) (hr : mem.Readable adt size)
    (hc : dtCheck mem adt size = some out) (h0 : out.ret = 0) (hn : mem.IsNode n cs adt b)
    (hnamed : ∀ q ∈ (Forest.node n cs .nil).labels, q.Named mem) (hd : cs.height < 2^31) :
    ∃ fuel₀, ∀ fuel, fuel₀ ≤ fuel →
      (∀ comps, comps ≠ [] → (∀ c ∈ comps, PathComp c) →
        dtFind lib mem fuel adt (pathName comps)
          = some ((resolve mem comps cs).map NodeRec.addr)) ∧
      (∀ c, NoNul c → c.head? ≠ some slash →
        dtFind lib mem fuel adt c
          = some (((Forest.node n cs .nil).labels.find? (fun q => decide (q.name mem = c))).map
              NodeRec.addr)) := by
  have hs := searchable_accepted mem adt size out n cs b hr hc h0 hn hnamed
  exact ⟨cs.height + 1, fun fuel hf =>
    ⟨dtFind_path lib mem adt n cs b fuel hl hn hs hd hf,
      dtFind_simple lib mem adt n cs b fuel hl hn hs hd hf⟩⟩

/-! ## the chain of nodes -/

/-- the name of the `i`-th node of the chain -/
def deepName (N i : ℕ) : List UInt8 := if i + 1 = N then ascii ['b'] else ascii ['a']

theorem deepMem_key (N i : ℕ) (hi : i < N) : IsStr ((deepMem N).at (deepAt i + 8)) nameKey := by
  have hat : ∀ j, j < 40 → (deepMem N).at (deepAt i + 8) j
      = some (deepByte (decide (i + 1 = N)) (8 + j)) := by
    intro j hj
    rw [← deepMem_at N i (8 + j) hi (by omega), ← Nat.add_assoc]
    rfl
  refine ⟨by decide, ?_, ?_⟩
  · intro j hj
    have hj4 : j < 4 := hj
    rw [hat j (by omega)]
    interval_cases j <;> rfl
  · rw [hat _ (by decide)]
    rfl

theorem deepMem_val (N i : ℕ) (hi : i < N) : IsStr ((deepMem N).at (deepAt i + 44)) (deepName N i) := by
  have hat : ∀ j, j < 4 → (deepMem N).at (deepAt i + 44) j
      = some (deepByte (decide (i + 1 = N)) (44 + j)) := by
    intro j hj
    rw [← deepMem_at N i (44 + j) hi (by omega), ← Nat.add_assoc]
    rfl
  unfold deepName
  by_cases h : i + 1 = N
  · rw [if_pos h]
    refine ⟨by decide, ?_, ?_⟩
    · intro j hj
      have hj1 : j < 1 := hj
      rw [hat j (by omega), decide_eq_true h, show j = 0 by omega]
      rfl
    · rw [hat _ (by decide)]
      rfl
  · rw [if_neg h]
    refine ⟨by decide, ?_, ?_⟩
    · intro j hj
      have hj1 : j < 1 := hj
      rw [hat j (by omega), decide_eq_false h, show j = 0 by omega]
      rfl
    · rw [hat _ (by decide)]
      rfl

theorem deepMem_prop_readable (N i : ℕ) (hi : i < N) :
    (deepMem N).Readable (deepAt i + 8) dtKeyLen ∧ (deepMem N).Readable (deepAt i + 44) 2 := by
  have h32 : dtKeyLen = 32 := rfl
  constructor
  · intro j hj
    rw [Nat.add_assoc, deepMem_at N i (8 + j) hi (by omega)]
    exact ⟨_, rfl⟩
  · intro j hj
    rw [Nat.add_assoc, deepMem_at N i (44 + j) hi (by omega)]
    exact ⟨_, rfl⟩

theorem deepMem_searchable (N i : ℕ) (hi : i < N) :
    Searchable (deepMem N) (deepNode i) ∧ (deepNode i).name (deepMem N) = deepName N i := by
  obtain ⟨hr1, hr2⟩ := deepMem_prop_readable N i hi
  have hkey := deepMem_key N i hi
  have hlen : (deepName N i).length = 1 := by
    unfold deepName
    by_cases h : i + 1 = N
    · rw [if_pos h]
      rfl
    · rw [if_neg h]
      rfl
  have hhas : (⟨deepAt i + 8, 2⟩ : PropRec).hasKey (deepMem N) nameKey = true :=
    decide_eq_true (Mem.strN_of_isStr _ _ _ _ hkey hr1 (by decide))
  have hs : Searchable (deepMem N) (deepNode i) := by
    refine ⟨⟨fun p hp => ?_, ⟨deepAt i + 8, 2⟩, deepName N i, ?_, deepMem_val N i hi, ?_⟩,
      fun p hp => ?_⟩
    · rw [List.mem_singleton.mp hp]
      exact ⟨nameKey, hkey, by decide⟩
    · show List.filter _ [_] = _
      rw [List.filter_cons_of_pos hhas, List.filter_nil]
    · rw [hlen]
    · rw [List.mem_singleton.mp hp]
      exact ⟨hr1, hr2⟩
  refine ⟨hs, ?_⟩
  have hfind : (deepNode i).find (deepMem N) nameKey = some ⟨deepAt i + 8, 2⟩ :=
    List.find?_cons_of_pos hhas
  rw [NodeRec.name, hfind]
  exact Mem.strN_of_isStr _ _ 2 _ (deepMem_val N i hi) hr2 (by omega)

theorem deepForest_labels (k i : ℕ) : ∀ q ∈ (deepForest k i).labels, ∃ j, j < i + k ∧ q = deepNode j := by
  induction k generalizing i with
  | zero => intro q hq; cases hq
  | succ k ih =>
    intro q hq
    rcases List.mem_cons.mp hq with rfl | hq
    · exact ⟨i, by omega, rfl⟩
    · rcases List.mem_append.mp hq with hq | hq
      · obtain ⟨j, hj, e⟩ := ih (i + 1) q hq
        exact ⟨j, by omega, e⟩
      · cases hq

/-- the first node of the chain named `"b"` is the last one -/
theorem deepForest_find (N k i : ℕ) (h : i + k + 1 = N) :
    (deepForest (k + 1) i).labels.find?
        (fun q => decide (q.name (deepMem N) = ascii ['b'])) = some (deepNode (i + k)) := by
  induction k generalizing i with
  | zero =>
    have hb : (deepNode i).name (deepMem N) = ascii ['b'] := by
      rw [(deepMem_searchable N i (by omega)).2, deepName, if_pos (by omega)]
    exact List.find?_cons_of_pos (decide_eq_true hb)
  | succ k ih =>
    have ha : (deepNode i).name (deepMem N) ≠ ascii ['b'] := by
      rw [(deepMem_searchable N i (by omega)).2, deepName, if_neg (by omega)]
      decide
    show (deepNode i :: ((deepForest (k + 1) (i + 1)).labels ++ [])).find? _ = _
    rw [List.find?_cons, decide_eq_false ha, List.append_nil, show i + (k + 1) = i + 1 + k by omega]
    exact ih (i + 1) (by omega)

theorem deepMem_find_path : ∃ fuel₀, ∀ fuel, fuel₀ ≤ fuel →
    dtFind asciiLib (deepMem 3) fuel (deepAt 0) (pathName [ascii ['a'], ascii ['b']])
      = some (some (deepAt 2)) := by
  have hn := deepMem_isNode 2
  have hc := dtCheck_complete (deepMem 3) _ _ (deepAt 0) (deepAt 3) 144 hn (le_refl _)
  obtain ⟨fuel₀, h⟩ := dtFind_spec asciiLib (deepMem 3) (deepAt 0) 144 _ _ _ _ asciiLib_documented
    (deepMem_readable 3) hc rfl hn (fun q hq => by
      obtain ⟨j, hj, rfl⟩ := deepForest_labels 3 0 q hq
      exact (deepMem_searchable 3 j (by omega)).1.1) (by decide)
  refine ⟨fuel₀, ?_⟩
  intro fuel hf
  rw [(h fuel hf).1 _ (by simp) (by decide)]
  decide +kernel

/-- in the chain of `2^31 + 2` nodes the search for the name of the last one does not reach it -/
theorem deepMem_find_short :
    (∃ w, dtCheck (deepMem (2^31 + 2)) (deepAt 0) (48 * (2^31 + 2))
        = some ⟨0, some (48 * (2^31 + 2)), w⟩) ∧
      (∀ q ∈ (deepForest (2^31 + 2) 0).labels, q.Named (deepMem (2^31 + 2))) ∧
      (deepForest (2^31 + 2) 0).labels.find?
        (fun q => decide (q.name (deepMem (2^31 + 2)) = ascii ['b'])) = some (deepNode (2^31 + 1)) ∧
      ∀ fuel, 2^31 + 1 ≤ fuel →
        dtFind asciiLib (deepMem (2^31 + 2)) fuel (deepAt 0) (ascii ['b']) = some none := by
  have hc := dtCheck_complete _ _ _ (deepAt 0) (deepAt (2^31 + 2)) (48 * (2^31 + 2))
    (deepMem_isNode (2^31 + 1)) (by unfold deepAt; omega)
  rw [show deepAt (2^31 + 2) - deepAt 0 = 48 * (2^31 + 2) by unfold deepAt; omega] at hc
  refine ⟨⟨_, hc⟩, ?_, ?_, ?_⟩
  · intro q hq
    obtain ⟨j, hj, rfl⟩ := deepForest_labels _ _ q hq
    exact (deepMem_searchable _ j (by omega)).1.1
  · have h := deepForest_find (2^31 + 2) (2^31 + 1) 0 (by omega)
    rw [Nat.zero_add] at h
    exact h
  · intro fuel hf
    obtain ⟨log, h⟩ := deep_walk (findCbs asciiLib (deepMem (2^31 + 2)))
      (some ⟨ascii ['b'], none, 1⟩) (2^31 - 1) 0 fuel (by omega) (by omega) (fun i d => ⟨rfl, fun hi => by
        have hdn : deepName (2^31 + 2) i = ascii ['a'] := by
          rw [deepName, if_neg (by omega)]
        have hcb := findCb_simple asciiLib (deepMem (2^31 + 2)) asciiLib_documented
          ⟨ascii ['b'], none, 1⟩ (by decide) (by decide) (deepAt i) d ⟨deepAt i + 8, 2⟩
          (deepName (2^31 + 2) i) (deepMem_key _ i (by omega)) (deepMem_val _ i (by omega))
          (by rw [hdn]; rfl)
        rw [hdn, if_neg (by decide)] at hcb
        exact faulting_some _ _ _ _ _ _ _ _ _ hcb⟩)
    rw [dtFind, show (0 : Int) = ((0 : ℕ) : Int) from rfl, h]
    rfl

end AppleSilicon
