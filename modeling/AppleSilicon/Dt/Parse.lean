import AppleSilicon.Dt.Tree
import AppleSilicon.Lib.EarlyExit
import AppleSilicon.Lib.Fuel

/-!
# `dt_parse`: the walk over the device tree

`dtParse mem cbs fuel node depth s` follows `dt_parse(node, depth, &off, cb_node, _, cb_prop, _)`.
The two callbacks share a client state `s`; a callback that is `NULL` is `none`.  Besides the C
results the model keeps `log`: the nodes and properties reached, in order, with what the callbacks
are given.

`depth` is a C `int`: the sum `depth + 1` is reduced to 32 bits (`i32`), as the machine does.

* `dtParse_grows`                          more fuel changes nothing;
* `dtParseChildren_spec`, `dtParse_spec`   as long as no node on level `2^31` is reached, the walk
                                           is the run of the callbacks over the pre-order list.
-/

namespace AppleSilicon

/-- a 32-bit `int` -/
def i32 (x : Int) : Int := x.bmod (2^32)

theorem i32_small (d : ℕ) (h : d < 2^31) : i32 d = d := by
  unfold i32
  rw [Int.bmod_def]
  omega

/-- what a callback is given: the node, the depth and, for a property, `key`, `val`, `len` -/
inductive Visit where
  | node (addr : ℕ) (depth : Int)
  | prop (addr : ℕ) (depth : Int) (key val len : ℕ)
deriving DecidableEq

def Visit.depth : Visit → Int
  | .node _ d => d
  | .prop _ d _ _ _ => d

structure Callbacks (σ : Type*) where
  node : Option (σ → ℕ → Int → σ × Int)
  prop : Option (σ → ℕ → Int → ℕ → ℕ → ℕ → σ × Int)

/-- the return value, what was stored to `*offp` (if anything), the client state and the log -/
structure ParseOut (σ : Type*) where
  ret : Int
  offp : Option ℕ
  st : σ
  log : List Visit

/-- where a loop of `dt_parse` stands; `ret ≠ 0` is a `return ret` out of the function -/
structure ParseCur (σ : Type*) where
  ret : Int
  off : ℕ
  st : σ
  log : List Visit

section
variable {σ : Type*}

def ParseCur.after (w : List Visit) (c : ParseCur σ) : ParseCur σ := ⟨c.ret, c.off, c.st, w ++ c.log⟩

namespace Callbacks

def onNode (cbs : Callbacks σ) (s : σ) (node : ℕ) (depth : Int) : σ × Int :=
  match cbs.node with
  | none => (s, 0)
  | some cb => cb s node depth

def onProp (cbs : Callbacks σ) (s : σ) (node : ℕ) (depth : Int) (key val len : ℕ) : σ × Int :=
  match cbs.prop with
  | none => (s, 0)
  | some cb => cb s node depth key val len

/-- one callback as a step of a run: a non-zero result stops it -/
def step (cbs : Callbacks σ) (s : σ) (v : Visit) : σ × Option Int :=
  let r := match v with
    | .node a d => cbs.onNode s a d
    | .prop a d key val len => cbs.onProp s a d key val len
  (r.1, if r.2 = 0 then none else some r.2)

end Callbacks

/-- the property loop, with `n` iterations left -/
def dtParseProps (mem : Mem) (cbs : Callbacks σ) (node : ℕ) (depth : Int) :
    ℕ → ℕ → σ → Option (ParseCur σ)
  | 0, off, s => some ⟨0, off, s, []⟩
  | n + 1, off, s =>
    (mem.le32 (node + off + dtKeyLen)).bind fun len =>
      let l := len &&& 0xffffff
      let off' := off + (sizeofProp + padded l)
      let key := node + off
      let val := node + off + sizeofProp
      let r := cbs.onProp s node depth key val l
      if r.2 ≠ 0 then some ⟨r.2, off', r.1, [.prop node depth key val l]⟩
      else (dtParseProps mem cbs node depth n off' r.1).map
        (ParseCur.after [.prop node depth key val l])

/-- the child loop, with `n` iterations left; `parse` is the recursive call -/
def dtParseChildren (parse : ℕ → σ → Option (ParseOut σ)) (node : ℕ) :
    ℕ → ℕ → σ → Option (ParseCur σ)
  | 0, off, s => some ⟨0, off, s, []⟩
  | n + 1, off, s =>
    (parse (node + off) s).bind fun c =>
      if c.ret ≠ 0 then some ⟨c.ret, off, c.st, c.log⟩
      -- `add` starts at 0 and is what the call stored
      else (dtParseChildren parse node n (off + c.offp.getD 0) c.st).map (ParseCur.after c.log)

def dtParse (mem : Mem) (cbs : Callbacks σ) : ℕ → ℕ → Int → σ → Option (ParseOut σ)
  | 0, _, _, _ => none
  | fuel + 1, node, depth, s =>
    let r := cbs.onNode s node depth
    if r.2 ≠ 0 then some ⟨r.2, none, r.1, [.node node depth]⟩
    else if depth ≥ 0 ∨ cbs.prop.isSome then
      (mem.le32 node).bind fun nprop =>
        (dtParseProps mem cbs node depth nprop sizeofNode r.1).bind fun p =>
          if p.ret ≠ 0 then some ⟨p.ret, none, p.st, .node node depth :: p.log⟩
          else if depth ≥ 0 then
            (mem.le32 (node + 4)).bind fun nchld =>
              (dtParseChildren (fun a s => dtParse mem cbs fuel a (i32 (depth + 1)) s) node nchld
                  p.off p.st).bind fun c =>
                if c.ret ≠ 0 then some ⟨c.ret, none, c.st, .node node depth :: (p.log ++ c.log)⟩
                else some ⟨0, some c.off, c.st, .node node depth :: (p.log ++ c.log)⟩
          else some ⟨0, none, p.st, .node node depth :: p.log⟩
    else some ⟨0, none, r.1, [.node node depth]⟩

/-! ## fuel -/

theorem dtParseChildren_grows (parse parse' : ℕ → σ → Option (ParseOut σ))
    (h : ∀ a s o, parse a s = some o → parse' a s = some o) (node n off : ℕ) (s : σ)
    (c : ParseCur σ) (hc : dtParseChildren parse node n off s = some c) :
    dtParseChildren parse' node n off s = some c := by
  induction n generalizing off s c with
  | zero => exact hc
  | succ n ih =>
    rw [dtParseChildren] at hc ⊢
    obtain ⟨o, ho, hc⟩ := Option.bind_eq_some_iff.mp hc
    rw [h _ _ o ho, Option.bind_some]
    by_cases hret : o.ret ≠ 0
    · rw [if_pos hret] at hc ⊢
      exact hc
    · rw [if_neg hret] at hc ⊢
      obtain ⟨c', hc', rfl⟩ := Option.map_eq_some_iff.mp hc
      rw [ih _ _ c' hc', Option.map_some]

/-- more fuel does not change what `dt_parse` does -/
theorem dtParse_grows (mem : Mem) (cbs : Callbacks σ) (node : ℕ) (depth : Int) (s : σ) :
    Grows (fun fuel => dtParse mem cbs fuel node depth s) := by
  intro fuel o h
  induction fuel generalizing node depth s o with
  | zero => cases h
  | succ fuel ih =>
    change dtParse mem cbs (fuel + 1) node depth s = some o at h
    show dtParse mem cbs (fuel + 1 + 1) node depth s = some o
    rw [dtParse] at h ⊢
    by_cases hnode : (cbs.onNode s node depth).2 ≠ 0
    · rw [if_pos hnode] at h ⊢
      exact h
    · rw [if_neg hnode] at h ⊢
      by_cases hprops : depth ≥ 0 ∨ cbs.prop.isSome
      · rw [if_pos hprops] at h ⊢
        obtain ⟨nprop, h1, h⟩ := Option.bind_eq_some_iff.mp h
        obtain ⟨p, h2, h⟩ := Option.bind_eq_some_iff.mp h
        rw [h1, Option.bind_some, h2, Option.bind_some]
        by_cases hret : p.ret ≠ 0
        · rw [if_pos hret] at h ⊢
          exact h
        · rw [if_neg hret] at h ⊢
          by_cases hd : depth ≥ 0
          · rw [if_pos hd] at h ⊢
            obtain ⟨nchld, h3, h⟩ := Option.bind_eq_some_iff.mp h
            obtain ⟨c, h4, h⟩ := Option.bind_eq_some_iff.mp h
            rw [h3, Option.bind_some, dtParseChildren_grows _ _
              (fun a s o ho => ih a (i32 (depth + 1)) s o ho) node nchld p.off p.st c h4,
              Option.bind_some]
            exact h
          · rw [if_neg hd] at h ⊢
            exact h
      · rw [if_neg hprops] at h ⊢
        exact h

/-! ## the pre-order list of visits -/

def propVisits (a : ℕ) (d : Int) (ps : List PropRec) : List Visit :=
  ps.map (fun p => .prop a d p.key p.val p.len)

def nodeVisits (d : ℕ) (n : NodeRec) : List Visit := .node n.addr d :: propVisits n.addr d n.props

/-- the visits of a forest whose roots are on level `d` -/
def visits (d : ℕ) (f : Forest NodeRec) : List Visit :=
  (f.pre d).flatMap (fun x => nodeVisits x.1 x.2)

theorem visits_nil (d : ℕ) : visits d .nil = [] := rfl

theorem visits_node (d : ℕ) (n : NodeRec) (cs sb : Forest NodeRec) :
    visits d (.node n cs sb) = nodeVisits d n ++ (visits (d + 1) cs ++ visits d sb) := by
  show nodeVisits d n ++ ((cs.pre (d + 1) ++ sb.pre d).flatMap _) = _
  rw [List.flatMap_append]
  rfl

theorem mem_visits (d : ℕ) (f : Forest NodeRec) (v : Visit) (h : v ∈ visits d f) :
    ∃ x ∈ f.pre d, v.depth = x.1 ∧
      (v = .node x.2.addr x.1 ∨ ∃ p ∈ x.2.props, v = .prop x.2.addr x.1 p.key p.val p.len) := by
  obtain ⟨x, hx, hv⟩ := List.mem_flatMap.mp h
  refine ⟨x, hx, ?_⟩
  rcases List.mem_cons.mp hv with rfl | hv
  · exact ⟨rfl, Or.inl rfl⟩
  · obtain ⟨p, hp, rfl⟩ := List.mem_map.mp hv
    exact ⟨rfl, Or.inr ⟨p, hp, rfl⟩⟩

theorem visits_depth_lt (d : ℕ) (f : Forest NodeRec) (v : Visit) (h : v ∈ visits d f) :
    v.depth < d + f.height := by
  obtain ⟨x, hx, e, _⟩ := mem_visits d f v h
  have := (Forest.pre_depth d f x hx).2
  omega

/-! ## the walk is the run of the callbacks over that list -/

/-- the cursor a loop leaves after the run `r` -/
def ParseCur.ofRun (off : ℕ) (r : Run σ Visit Int) : ParseCur σ :=
  ⟨r.exit.getD 0, off, r.state, r.seen⟩

/-- the result of a call that makes the run `r` on a node of `len` bytes -/
def ParseOut.ofRun (len : ℕ) (r : Run σ Visit Int) : ParseOut σ :=
  ⟨r.exit.getD 0, if r.exit = none then some len else none, r.state, r.seen⟩

theorem ParseCur.ofRun_stop (off : ℕ) (run : Run σ Visit Int) (r : Int) (h : run.exit = some r) :
    ParseCur.ofRun off run = ⟨r, off, run.state, run.seen⟩ := by
  rw [ParseCur.ofRun, h, Option.getD_some]

theorem ParseCur.ofRun_go (off : ℕ) (run : Run σ Visit Int) (h : run.exit = none) :
    ParseCur.ofRun off run = ⟨0, off, run.state, run.seen⟩ := by
  rw [ParseCur.ofRun, h, Option.getD_none]

theorem ParseOut.ofRun_stop (len : ℕ) (run : Run σ Visit Int) (r : Int) (h : run.exit = some r) :
    ParseOut.ofRun len run = ⟨r, none, run.state, run.seen⟩ := by
  rw [ParseOut.ofRun, h, Option.getD_some, if_neg (fun e => by cases e)]

theorem ParseOut.ofRun_go (len : ℕ) (run : Run σ Visit Int) (h : run.exit = none) :
    ParseOut.ofRun len run = ⟨0, some len, run.state, run.seen⟩ := by
  rw [ParseOut.ofRun, h, Option.getD_none, if_pos rfl]

theorem exit_ne_zero (cbs : Callbacks σ) (s : σ) (l : List Visit) (r : Int)
    (h : (runUntil cbs.step s l).exit = some r) : r ≠ 0 := by
  refine runUntil_exit cbs.step (· ≠ 0) s l r (fun t a r' hs h0 => ?_) h
  obtain ⟨q, hq⟩ : ∃ q : σ × Int, cbs.step t a = (q.1, if q.2 = 0 then none else some q.2) :=
    ⟨_, rfl⟩
  rw [hq] at hs
  by_cases h1 : q.2 = 0
  · rw [if_pos h1] at hs
    cases hs
  · rw [if_neg h1] at hs
    exact h1 ((Option.some.inj hs).trans h0)

theorem step_go (cbs : Callbacks σ) (s : σ) (v : Visit) (r : σ × Int) (h0 : r.2 = 0)
    (h : cbs.step s v = (r.1, if r.2 = 0 then none else some r.2)) :
    cbs.step s v = (r.1, none) := by
  rw [h, if_pos h0]

theorem step_stop (cbs : Callbacks σ) (s : σ) (v : Visit) (r : σ × Int) (h0 : r.2 ≠ 0)
    (h : cbs.step s v = (r.1, if r.2 = 0 then none else some r.2)) :
    cbs.step s v = (r.1, some r.2) := by
  rw [h, if_neg h0]

theorem dtParseProps_spec (mem : Mem) (cbs : Callbacks σ) (node : ℕ) (depth : Int)
    (ps : List PropRec) (off b : ℕ) (s : σ) (h : mem.IsProps ps (node + off) b) :
    ∃ off', dtParseProps mem cbs node depth ps.length off s
        = some (ParseCur.ofRun off' (runUntil cbs.step s (propVisits node depth ps))) ∧
      ((runUntil cbs.step s (propVisits node depth ps)).exit = none → node + off' = b) := by
  induction ps generalizing off s with
  | nil => exact ⟨off, rfl, fun _ => h.symm⟩
  | cons p ps ih =>
    obtain ⟨hk, ⟨w, hw, hl⟩, hr⟩ := h
    have hlow : w &&& 0xffffff = p.len := by
      rw [hl]
      exact Nat.and_two_pow_sub_one_eq_mod w 24
    have hval : node + off + sizeofProp = p.val := by rw [PropRec.val, hk]
    have hst : p.stop = node + (off + (sizeofProp + padded p.len)) := by
      rw [PropRec.stop, hk, Nat.add_assoc]
    rw [hst] at hr
    have hv : propVisits node depth (p :: ps)
      = .prop node depth p.key p.val p.len :: propVisits node depth ps := rfl
    rw [List.length_cons, dtParseProps, hw, Option.bind_some, hlow, hval, ← hk, hv]
    dsimp only
    by_cases h0 : (cbs.onProp s node depth p.key p.val p.len).2 = 0
    · have e := step_go cbs s (.prop node depth p.key p.val p.len) _ h0 rfl
      obtain ⟨off', he, hoff⟩ := ih _ (cbs.onProp s node depth p.key p.val p.len).1 hr
      rw [if_neg (fun h => h h0), he, runUntil_cons_go _ _ _ _ (by rw [e]), e]
      exact ⟨off', rfl, hoff⟩
    · have e := step_stop cbs s (.prop node depth p.key p.val p.len) _ h0 rfl
      rw [if_pos h0, runUntil_cons_stop _ _ _ _ _ (by rw [e]), e]
      exact ⟨_, rfl, fun h => by cases h⟩

/-- one node, when the child loop is known to be the run over the children -/
theorem dtParse_node (mem : Mem) (cbs : Callbacks σ) (fuel : ℕ) (n : NodeRec) (cs : Forest NodeRec)
    (a b d : ℕ) (s : σ) (h : mem.IsNode n cs a b)
    (hc : ∀ off s', mem.IsForest cs (a + off) b →
      (∀ v ∈ (runUntil cbs.step s' (visits (d + 1) cs)).seen,
        v ∈ (runUntil cbs.step s (visits d (.node n cs .nil))).seen) →
      ∃ off', dtParseChildren (fun x t => dtParse mem cbs fuel x (i32 (d + 1 : ℕ)) t) a cs.count off s'
          = some (ParseCur.ofRun off' (runUntil cbs.step s' (visits (d + 1) cs))) ∧
        ((runUntil cbs.step s' (visits (d + 1) cs)).exit = none → a + off' = b)) :
    dtParse mem cbs (fuel + 1) a d s
      = some (ParseOut.ofRun (b - a) (runUntil cbs.step s (visits d (.node n cs .nil)))) := by
  obtain ⟨ha, h1, h2, m₁, m₂, hp, hcs, hn⟩ := h
  obtain rfl : b = m₂ := hn
  rw [visits_node, visits_nil, List.append_nil] at hc ⊢
  have hv : nodeVisits d n ++ visits (d + 1) cs
      = .node a d :: (propVisits a d n.props ++ visits (d + 1) cs) := by rw [← ha]; rfl
  rw [hv] at hc ⊢
  have hge : (d : Int) ≥ 0 := Int.natCast_nonneg d
  rw [dtParse]
  by_cases h0 : (cbs.onNode s a d).2 = 0
  · have e := step_go cbs s (.node a d) _ h0 rfl
    rw [runUntil_cons_go _ _ _ _ (by rw [e]), e] at hc ⊢
    dsimp only at hc ⊢
    obtain ⟨off, hpe, hpo⟩ :=
      dtParseProps_spec mem cbs a d n.props sizeofNode m₁ (cbs.onNode s a d).1 hp
    rw [if_neg (fun h => h h0), if_pos (Or.inl hge), h1, Option.bind_some, hpe, Option.bind_some]
    cases hx : (runUntil cbs.step (cbs.onNode s a d).1 (propVisits a d n.props)).exit with
    | some r =>
      rw [ParseCur.ofRun_stop _ _ r hx, if_pos (exit_ne_zero cbs _ _ r hx),
        runUntil_append_stop _ _ _ _ r hx, ParseOut.ofRun_stop _ (Run.after [_] _) r hx]
      rfl
    | none =>
      rw [runUntil_append_go _ _ _ _ hx] at hc ⊢
      obtain ⟨off', hce, hco⟩ := hc off
        (runUntil cbs.step (cbs.onNode s a d).1 (propVisits a d n.props)).state
        (by rw [hpo hx]; exact hcs)
        (fun v hv => List.mem_append_right _ (List.mem_append_right _ hv))
      rw [ParseCur.ofRun_go _ _ hx, if_neg (fun h => h rfl), if_pos hge, h2, Option.bind_some,
        show ((d : Int) + 1) = ((d + 1 : ℕ) : Int) from (Nat.cast_succ d).symm, hce,
        Option.bind_some, runUntil_seen_all _ _ _ hx]
      cases hy : (runUntil cbs.step (runUntil cbs.step (cbs.onNode s a d).1
          (propVisits a d n.props)).state (visits (d + 1) cs)).exit with
      | some r =>
        rw [ParseCur.ofRun_stop _ _ r hy, if_pos (exit_ne_zero cbs _ _ r hy),
          ParseOut.ofRun_stop _ (Run.after [_] (Run.after _ _)) r hy]
        rfl
      | none =>
        have hb := hco hy
        rw [ParseCur.ofRun_go _ _ hy, if_neg (fun h => h rfl),
          ParseOut.ofRun_go _ (Run.after [_] (Run.after _ _)) hy,
          show off' = b - a by omega]
        rfl
  · have e := step_stop cbs s (.node a d) _ h0 rfl
    rw [if_pos h0, runUntil_cons_stop _ _ _ _ _ (by rw [e]), e]
    rfl

/-- **The child loop is the run of the callbacks** over the visits of the forest, as long as no
visit it reaches is on level `2^31`. -/
theorem dtParseChildren_spec (mem : Mem) (cbs : Callbacks σ) (f : Forest NodeRec)
    (fuel node off b d : ℕ) (s : σ) (h : mem.IsForest f (node + off) b) (hf : f.height ≤ fuel)
    (hd : ∀ v ∈ (runUntil cbs.step s (visits d f)).seen, v.depth < 2^31) :
    ∃ off', dtParseChildren (fun x t => dtParse mem cbs fuel x (i32 d) t) node f.count off s
        = some (ParseCur.ofRun off' (runUntil cbs.step s (visits d f))) ∧
      ((runUntil cbs.step s (visits d f)).exit = none → node + off' = b) := by
  induction f generalizing fuel node off b d s with
  | nil => exact ⟨off, rfl, fun _ => h.symm⟩
  | node n cs sb ihc ihs =>
    obtain ⟨ha, h1, h2, m₁, m₂, hp, hc, hs⟩ := h
    have hm : (Forest.node n cs sb).height = max (cs.height + 1) sb.height := rfl
    obtain ⟨fuel, rfl⟩ : ∃ k, fuel = k + 1 := ⟨fuel - 1, by omega⟩
    have hsplit : visits d (.node n cs sb) = visits d (.node n cs .nil) ++ visits d sb := by
      rw [visits_node, visits_node, visits_nil, List.append_nil, List.append_assoc]
    rw [hsplit] at hd ⊢
    have hd1 : ∀ v ∈ (runUntil cbs.step s (visits d (.node n cs .nil))).seen, v.depth < 2^31 :=
      fun v hv => hd v (runUntil_append_seen _ _ _ _ v hv)
    -- the node itself is reached, so its level fits an `int`
    have hlt : d < 2^31 := by
      have h0 : Visit.node n.addr d ∈ (runUntil cbs.step s (visits d (.node n cs .nil))).seen := by
        have e : visits d (.node n cs .nil) = .node n.addr d :: (propVisits n.addr d n.props
            ++ visits (d + 1) cs) := by
          rw [visits_node, visits_nil, List.append_nil]
          rfl
        rw [e]
        cases hst : (cbs.step s (.node n.addr d)).2 with
        | some r =>
          rw [runUntil_cons_stop _ _ _ _ r hst]
          exact List.mem_cons_self ..
        | none =>
          rw [runUntil_cons_go _ _ _ _ hst]
          exact List.mem_cons_self ..
      have := hd1 _ h0
      have e : (Visit.node n.addr d).depth = d := rfl
      omega
    have hcall := dtParse_node mem cbs fuel n cs (node + off) m₂ d s
      ⟨ha, h1, h2, m₁, m₂, hp, hc, rfl⟩
      (fun off' s' hcs hin => ihc fuel (node + off) off' m₂ (d + 1) s' hcs (by omega)
        (fun v hv => hd1 v (hin v hv)))
    rw [show (Forest.node n cs sb).count = sb.count + 1 from rfl, dtParseChildren, i32_small d hlt,
      hcall, Option.bind_some]
    cases hx : (runUntil cbs.step s (visits d (.node n cs .nil))).exit with
    | some r =>
      rw [runUntil_append_stop _ _ _ _ r hx, ParseOut.ofRun_stop _ _ r hx,
        if_pos (exit_ne_zero cbs _ _ r hx)]
      refine ⟨off, ?_, ?_⟩
      · rw [ParseCur.ofRun_stop _ _ r hx]
      · intro h
        rw [hx] at h
        cases h
    | none =>
      have hle := Mem.isForest_le mem cs m₁ m₂ hc
      have hp1 := (Mem.isProps_in mem n.props _ _ hp).1
      rw [runUntil_append_go _ _ _ _ hx] at hd ⊢
      obtain ⟨off', he, ho⟩ := ihs (fuel + 1) node (m₂ - node) b d
        (runUntil cbs.step s (visits d (.node n cs .nil))).state
        (by rw [show node + (m₂ - node) = m₂ by omega]; exact hs) (by omega)
        (fun v hv => hd v (List.mem_append_right _ hv))
      rw [i32_small d hlt] at he
      rw [ParseOut.ofRun_go _ _ hx, if_neg (fun h => h rfl), Option.getD_some,
        show off + (m₂ - (node + off)) = m₂ - node by omega, he, runUntil_seen_all _ _ _ hx]
      exact ⟨off', rfl, ho⟩

/-- **`dt_parse` on a node of the grammar** is the run of the callbacks over its visits. -/
theorem dtParse_spec (mem : Mem) (cbs : Callbacks σ) (n : NodeRec) (cs : Forest NodeRec)
    (fuel a b d : ℕ) (s : σ) (h : mem.IsNode n cs a b) (hf : cs.height < fuel)
    (hd : ∀ v ∈ (runUntil cbs.step s (visits d (.node n cs .nil))).seen, v.depth < 2^31) :
    dtParse mem cbs fuel a d s
      = some (ParseOut.ofRun (b - a) (runUntil cbs.step s (visits d (.node n cs .nil)))) := by
  obtain ⟨fuel, rfl⟩ : ∃ k, fuel = k + 1 := ⟨fuel - 1, by omega⟩
  exact dtParse_node mem cbs fuel n cs a b d s h (fun off s' hcs hin =>
    dtParseChildren_spec mem cbs cs fuel a off b (d + 1) s' hcs (by omega)
      (fun v hv => hd v (hin v hv)))

end

end AppleSilicon
