import AppleSilicon.Dt.Check
import AppleSilicon.Dt.DeepWalk

/-!
# `dt_check` guards `dt_parse`

What `dt_check` accepted can be walked by `dt_parse`, which checks nothing: with any callbacks the
walk ends, reads only the accepted bytes and hands out only accepted bytes; with callbacks that
never stop it makes the same walk and counts the same length.

This needs a tree whose deepest level is below `2^31`, so that `int depth` does not overflow; any
`size` up to `2^34` allows no other (`dtCheck_shallow`).
-/

namespace AppleSilicon

def Visit.toStep : Visit → Step
  | .node a _ => .node a
  | .prop _ _ key _ _ => .prop key

/-- `dt_check` and `dt_parse` walk a forest in the same order -/
theorem visits_steps (d : ℕ) (f : Forest NodeRec) :
    (visits d f).map Visit.toStep = steps f := by
  induction f generalizing d with
  | nil => rfl
  | node n cs sb ihc ihs =>
    have hp : (propVisits n.addr d n.props).map Visit.toStep
        = n.props.map (fun p => Step.prop p.key) := by
      unfold propVisits
      rw [List.map_map]
      rfl
    rw [visits_node, List.map_append, List.map_append, ihc, ihs]
    show .node n.addr :: ((propVisits n.addr d n.props).map Visit.toStep ++ _) = _
    rw [hp]
    rfl

/-- the key and the value of a visited property lie inside the bytes of the forest -/
theorem visits_inside (mem : Mem) (d : ℕ) (f : Forest NodeRec) (lo hi : ℕ)
    (h : mem.IsForest f lo hi) (a : ℕ) (e : Int) (key val len : ℕ)
    (hv : Visit.prop a e key val len ∈ visits d f) :
    lo ≤ key ∧ key + dtKeyLen ≤ hi ∧ lo ≤ val ∧ val + len ≤ hi := by
  obtain ⟨x, hx, _, hc⟩ := mem_visits d f _ hv
  rcases hc with hc | ⟨p, hp, hc⟩
  · cases hc
  · have hl : x.2 ∈ f.labels := by
      rw [← Forest.pre_map_snd d f]
      exact List.mem_map_of_mem hx
    obtain ⟨h1, h2, h3⟩ := (Mem.isForest_in mem f lo hi h).2 x.2 hl
    obtain ⟨h4, h5⟩ := h3 p hp
    have hval : p.val = p.key + sizeofProp := rfl
    have hst : p.stop = p.key + (sizeofProp + padded p.len) := rfl
    have hpad := le_padded p.len
    have hsz : sizeofProp = 36 := rfl
    have hkl : dtKeyLen = 32 := rfl
    injection hc with _ _ e1 e2 e3
    rw [e1, e2, e3]
    omega

/-- callbacks that always return 0 -/
def Callbacks.NeverStop {σ : Type*} (cbs : Callbacks σ) : Prop := ∀ s v, (cbs.step s v).2 = none

/-- a tree in at most `2^34` bytes has no level `2^31` -/
theorem dtCheck_shallow (mem : Mem) (base size : ℕ) (hs : size ≤ 2^34) (n : NodeRec)
    (cs : Forest NodeRec) (b : ℕ) (h : mem.IsNode n cs base b) (hb : b ≤ base + size) :
    cs.height < 2^31 := by
  have hh := (Mem.isForest_in mem _ base b h).1
  have hm : (Forest.node n cs .nil).height = max (cs.height + 1) 0 := rfl
  have hsz : sizeofNode = 8 := rfl
  rw [hm, hsz] at hh
  omega

/-- so what was accepted of that many bytes has none -/
theorem accepted_shallow (mem : Mem) (base size : ℕ) (out : CheckOut) (hs : size ≤ 2^34)
    (hr : mem.Readable base size) (hc : dtCheck mem base size = some out) (h0 : out.ret = 0)
    (n : NodeRec) (cs : Forest NodeRec) (b : ℕ) (h : mem.IsNode n cs base b) :
    cs.height < 2^31 := by
  obtain ⟨n', cs', b', hn, hb, _⟩ := dtCheck_node mem base size out hr hc h0
  obtain ⟨_, rfl⟩ := Mem.isForest_unique mem _ _ base b b' h hn rfl
  exact dtCheck_shallow mem base size hs n cs b h hb

/-- **What `dt_check` accepts, `dt_parse` can walk**, if no node is on level `2^31`.  With any
callbacks and client state the walk from `base` ends: it is the run of the callbacks over the tree
in the `off` accepted bytes, up to the callback that stops it; it reads only these bytes (the run on
the memory cut down to them is the same); the keys and values it hands out lie in them; and when no
callback stops it, it returns 0, stores `off` and has made the walk of `dt_check`. -/
theorem dtCheck_guards_dtParse {σ : Type*} (mem : Mem) (base size : ℕ) (out : CheckOut)
    (hr : mem.Readable base size) (hc : dtCheck mem base size = some out) (h0 : out.ret = 0)
    (hd : ∀ n cs b, mem.IsNode n cs base b → cs.height < 2^31)
    (cbs : Callbacks σ) (s : σ) :
    ∃ off n cs, out.offp = some off ∧ off ≤ size ∧ mem.IsNode n cs base (base + off) ∧
      ∃ fuel₀, ∀ fuel, fuel₀ ≤ fuel → ∃ res,
      dtParse mem cbs fuel base 0 s = some res ∧
      dtParse (mem.window base (base + off)) cbs fuel base 0 s = some res ∧
      res.log = (runUntil cbs.step s (visits 0 (.node n cs .nil))).seen ∧
      res.st = (runUntil cbs.step s (visits 0 (.node n cs .nil))).state ∧
      res.ret = (runUntil cbs.step s (visits 0 (.node n cs .nil))).exit.getD 0 ∧
      (∀ a d key val len, Visit.prop a d key val len ∈ res.log →
        base ≤ key ∧ key + dtKeyLen ≤ base + off ∧ base ≤ val ∧ val + len ≤ base + off) ∧
      (cbs.NeverStop → res.ret = 0 ∧ res.offp = some off ∧
        res.log.map Visit.toStep = out.walked) := by
  obtain ⟨n, cs, b, hn, hb, ho⟩ := dtCheck_node mem base size out hr hc h0
  have hle := Mem.isForest_le mem _ base b hn
  have hback : base + (b - base) = b := by omega
  have hw : (mem.window base (base + (b - base))).IsNode n cs base b :=
    Mem.isForest_window mem _ base b _ _ hn (le_refl base) (by omega)
  have hdep : ∀ v ∈ (runUntil cbs.step s (visits 0 (.node n cs .nil))).seen, v.depth < 2^31 := by
    intro v hv
    have h1 := visits_depth_lt 0 _ v (runUntil_mem cbs.step s _ v hv)
    have h2 := hd n cs b hn
    have hm : (Forest.node n cs .nil).height = max (cs.height + 1) 0 := rfl
    omega
  refine ⟨b - base, n, cs, ho, by omega, by rw [hback]; exact hn, cs.height + 1,
    fun fuel hf => ⟨_, dtParse_spec mem cbs n cs fuel base b 0 s hn (by omega) hdep,
    dtParse_spec _ cbs n cs fuel base b 0 s hw (by omega) hdep, rfl, rfl, rfl, ?_, fun hq => ?_⟩⟩
  · intro a d key val len hv
    have := visits_inside mem 0 _ base b hn a d key val len (runUntil_mem cbs.step s _ _ hv)
    omega
  · have hx := runUntil_exit_none cbs.step s (visits 0 (.node n cs .nil)) (fun t v _ => hq t v)
    have hs := dtCheck_complete mem n cs base b size hn hb
    rw [hc] at hs
    rw [ParseOut.ofRun_go _ _ hx, runUntil_seen_all _ _ _ hx, visits_steps,
      Option.some.inj hs]
    exact ⟨rfl, rfl, rfl⟩

/-- a callback that counts the nodes and stops at the one at 56 -/
def countToGrandchild : Callbacks ℕ := ⟨some fun s a _ => (s + 1, if a = 56 then 7 else 0), none⟩

/-- of the four nodes three are counted; then the walk stops, and the property it came to lies in
the accepted bytes -/
theorem familyMem_guarded : ∃ fuel₀, ∀ fuel, fuel₀ ≤ fuel → ∃ res,
    dtParse (familyMem.window 0 72) countToGrandchild fuel 0 0 0 = some res ∧ res.ret = 7 ∧
      res.st = 3 ∧ res.log = [.node 0 0, .prop 0 0 8 44 2, .node 48 1, .node 56 2] := by
  have hc : dtCheck familyMem 0 72 = some ⟨0, some 72,
      [.node 0, .prop 8, .node 48, .node 56, .node 64]⟩ := by decide +kernel
  obtain ⟨off, n, cs, ho, _, _, fuel₀, h⟩ := dtCheck_guards_dtParse familyMem 0 72 _
    familyMem_readable hc rfl (accepted_shallow familyMem 0 72 _ (by norm_num) familyMem_readable hc
      rfl) countToGrandchild 0
  obtain rfl : off = 72 := (Option.some.inj ho).symm
  refine ⟨fuel₀ + 3, ?_⟩
  intro fuel hf
  obtain ⟨res, hres, hw, _⟩ := h fuel (by omega)
  have hsmall : dtParse familyMem countToGrandchild 3 0 0 0 = some ⟨7, none, 3,
      [.node 0 0, .prop 0 0 8 44 2, .node 48 1, .node 56 2]⟩ := rfl
  have hsame := (dtParse_grows familyMem countToGrandchild 0 0 0).le 3 fuel _ hsmall (by omega)
  obtain rfl := Option.some.inj (hres.symm.trans hsame)
  exact ⟨_, hw, rfl, rfl, rfl⟩

/-- the chain of `2^31 + 2` nodes is accepted, but the walk of `dt_parse` stops short of its end
although no callback stops it -/
theorem deepMem_walk_short :
    (deepMem (2^31 + 2)).Readable (deepAt 0) (48 * (2^31 + 2)) ∧ 48 * (2^31 + 2) < 2^63 ∧
      (∃ w, dtCheck (deepMem (2^31 + 2)) (deepAt 0) (48 * (2^31 + 2))
        = some ⟨0, some (48 * (2^31 + 2)), w⟩) ∧
      ∀ fuel, 2^31 + 1 ≤ fuel → ∃ log,
        dtParse (deepMem (2^31 + 2)) (⟨none, none⟩ : Callbacks Unit) fuel (deepAt 0) 0 ()
          = some ⟨0, some (48 * 2^31), (), log⟩ := by
  have hc := dtCheck_complete _ _ _ (deepAt 0) (deepAt (2^31 + 2)) (48 * (2^31 + 2))
    (deepMem_isNode (2^31 + 1)) (by unfold deepAt; omega)
  rw [show deepAt (2^31 + 2) - deepAt 0 = 48 * (2^31 + 2) by unfold deepAt; omega] at hc
  refine ⟨deepMem_readable _, by omega, ⟨_, hc⟩, ?_⟩
  intro fuel hf
  exact deep_walk ⟨none, none⟩ () (2^31 - 1) 0 fuel (by omega) (by omega)
    (fun i d => ⟨rfl, fun _ => rfl⟩)

end AppleSilicon
