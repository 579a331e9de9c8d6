import AppleSilicon.Lib.Bytes
import AppleSilicon.Lib.Forest

/-!
# The flattened device tree: layout and grammar

A node of the Apple device tree is an 8-byte header (`uint32_t nprop`, `uint32_t nchld`), then
`nprop` properties, then `nchld` nodes.  A property is a 32-byte key, a 32-bit length word whose
low 24 bits are the length, and the value, padded up to a multiple of 4.

`mem.IsForest f a b` says that the bytes `[a, b)` are the nodes of the forest `f`, one after the
other; `mem.IsNode n cs a b` that they are ONE node.  The labels of the forest keep the addresses
(`NodeRec.addr`, `PropRec.key`), which is what the program hands out as `dt_node_t *`, `key`
and `val`.

* `isForest_unique`    the bytes determine the forest and where it ends;
* `isForest_in`        every node and every property lies inside `[a, b)`;
* `isForest_keyed`     the addresses tell the nodes apart;
* `isForest_node`      what the bytes of one node of the forest say;
* `isForest_window`    the grammar only looks at `[a, b)`.
-/

namespace AppleSilicon

def dtKeyLen : ℕ := 32
/-- `sizeof(dt_node_t)` -/
def sizeofNode : ℕ := 8
/-- `sizeof(dt_prop_t)` -/
def sizeofProp : ℕ := 36

/-- `(l + 0x3) & ~0x3` -/
def padded (l : ℕ) : ℕ := (l + 3) / 4 * 4

theorem le_padded (l : ℕ) : l ≤ padded l := by
  unfold padded
  omega

/-- one `dt_prop_t`: the address of its key and its 24-bit length -/
structure PropRec where
  key : ℕ
  len : ℕ
deriving DecidableEq

namespace PropRec

def val (p : PropRec) : ℕ := p.key + sizeofProp

def stop (p : PropRec) : ℕ := p.key + (sizeofProp + padded p.len)

end PropRec

/-- one `dt_node_t`: its address and its properties -/
structure NodeRec where
  addr : ℕ
  props : List PropRec
deriving DecidableEq

namespace Mem

def IsProps (mem : Mem) : List PropRec → ℕ → ℕ → Prop
  | [], a, b => b = a
  | p :: ps, a, b =>
    p.key = a ∧ (∃ w, mem.le32 (a + dtKeyLen) = some w ∧ p.len = w % 2^24) ∧
      mem.IsProps ps p.stop b

/-- the bytes `[a, b)` are the nodes of `f`, one after the other -/
def IsForest (mem : Mem) : Forest NodeRec → ℕ → ℕ → Prop
  | .nil, a, b => b = a
  | .node n cs sb, a, b =>
    n.addr = a ∧ mem.le32 a = some n.props.length ∧ mem.le32 (a + 4) = some cs.count ∧
      ∃ m₁ m₂, mem.IsProps n.props (a + sizeofNode) m₁ ∧ mem.IsForest cs m₁ m₂ ∧
        mem.IsForest sb m₂ b

/-- the bytes `[a, b)` are one well-formed node -/
def IsNode (mem : Mem) (n : NodeRec) (cs : Forest NodeRec) (a b : ℕ) : Prop :=
  mem.IsForest (.node n cs .nil) a b

/-! ## the bytes determine the forest -/

theorem isProps_unique (mem : Mem) (ps qs : List PropRec) (a b c : ℕ)
    (hp : mem.IsProps ps a b) (hq : mem.IsProps qs a c) (hl : ps.length = qs.length) :
    ps = qs ∧ b = c := by
  induction ps generalizing qs a with
  | nil =>
    cases qs with
    | nil => exact ⟨rfl, hp.trans hq.symm⟩
    | cons q qs => cases hl
  | cons p ps ih =>
    cases qs with
    | nil => cases hl
    | cons q qs =>
      obtain ⟨hpk, ⟨w, hw, hpl⟩, hpr⟩ := hp
      obtain ⟨hqk, ⟨w', hw', hql⟩, hqr⟩ := hq
      have e : p = q := by
        rw [hw] at hw'
        obtain rfl := Option.some.inj hw'
        cases p
        cases q
        rw [PropRec.mk.injEq]
        exact ⟨hpk.trans hqk.symm, hpl.trans hql.symm⟩
      subst e
      obtain ⟨e1, e2⟩ := ih qs p.stop hpr hqr (Nat.succ.inj hl)
      exact ⟨by rw [e1], e2⟩

theorem isForest_unique (mem : Mem) (f g : Forest NodeRec) (a b c : ℕ)
    (hf : mem.IsForest f a b) (hg : mem.IsForest g a c) (hn : f.count = g.count) :
    f = g ∧ b = c := by
  induction f generalizing g a b c with
  | nil =>
    cases g with
    | nil => exact ⟨rfl, hf.trans hg.symm⟩
    | node _ _ _ => cases hn
  | node n cs sb ihc ihs =>
    cases g with
    | nil => cases hn
    | node n' cs' sb' =>
      obtain ⟨ha, h1, h2, m₁, m₂, hp, hc, hs⟩ := hf
      obtain ⟨ha', h1', h2', m₁', m₂', hp', hc', hs'⟩ := hg
      rw [h1] at h1'
      rw [h2] at h2'
      obtain ⟨ep, em⟩ := isProps_unique mem _ _ _ _ _ hp hp' (Option.some.inj h1')
      subst em
      obtain ⟨ec, em⟩ := ihc cs' m₁ m₂ m₂' hc hc' (Option.some.inj h2')
      subst em
      obtain ⟨es, eb⟩ := ihs sb' m₂ b c hs hs' (Nat.succ.inj hn)
      refine ⟨?_, eb⟩
      have en : n = n' := by
        cases n
        cases n'
        rw [NodeRec.mk.injEq]
        exact ⟨ha.trans ha'.symm, ep⟩
      rw [en, ec, es]

/-! ## extents -/

theorem isProps_in (mem : Mem) (ps : List PropRec) (a b : ℕ) (h : mem.IsProps ps a b) :
    a ≤ b ∧ ∀ p ∈ ps, a ≤ p.key ∧ p.stop ≤ b := by
  induction ps generalizing a with
  | nil =>
    obtain rfl : b = a := h
    exact ⟨le_refl b, fun p hp => by cases hp⟩
  | cons p ps ih =>
    obtain ⟨hk, _, hr⟩ := h
    obtain ⟨h1, h2⟩ := ih p.stop hr
    have hs : p.stop = p.key + (sizeofProp + padded p.len) := rfl
    refine ⟨by omega, ?_⟩
    intro q hq
    rcases List.mem_cons.mp hq with rfl | hq
    · exact ⟨by omega, h1⟩
    · have := h2 q hq
      exact ⟨by omega, this.2⟩

/-- a length has 24 bits -/
theorem isProps_len_lt (mem : Mem) (ps : List PropRec) (a b : ℕ) (h : mem.IsProps ps a b)
    (p : PropRec) (hp : p ∈ ps) : p.len < 2^24 := by
  induction ps generalizing a with
  | nil => cases hp
  | cons q ps ih =>
    obtain ⟨_, ⟨w, _, hl⟩, hrest⟩ := h
    rcases List.mem_cons.mp hp with rfl | hp
    · rw [hl]
      exact Nat.mod_lt w (Nat.two_pow_pos 24)
    · exact ih q.stop hrest hp

/-- where a node of the forest and its properties may lie -/
def NodeIn (n : NodeRec) (a b : ℕ) : Prop :=
  a ≤ n.addr ∧ n.addr + sizeofNode ≤ b ∧ ∀ p ∈ n.props, n.addr + sizeofNode ≤ p.key ∧ p.stop ≤ b

theorem NodeIn.mono {n : NodeRec} {a b a' b' : ℕ} (h : NodeIn n a b) (ha : a' ≤ a) (hb : b ≤ b') :
    NodeIn n a' b' :=
  ⟨ha.trans h.1, h.2.1.trans hb, fun p hp => ⟨(h.2.2 p hp).1, (h.2.2 p hp).2.trans hb⟩⟩

theorem isForest_in (mem : Mem) (f : Forest NodeRec) (a b : ℕ) (h : mem.IsForest f a b) :
    a + sizeofNode * f.height ≤ b ∧ ∀ n ∈ f.labels, NodeIn n a b := by
  induction f generalizing a b with
  | nil =>
    obtain rfl : b = a := h
    exact ⟨le_refl b, fun n hn => by cases hn⟩
  | node n cs sb ihc ihs =>
    obtain ⟨ha, _, _, m₁, m₂, hp, hc, hs⟩ := h
    obtain ⟨hp1, hp2⟩ := isProps_in mem n.props _ _ hp
    obtain ⟨hc1, hc2⟩ := ihc m₁ m₂ hc
    obtain ⟨hs1, hs2⟩ := ihs m₂ b hs
    have hsz : sizeofNode = 8 := rfl
    have hm : (Forest.node n cs sb).height = max (cs.height + 1) sb.height := rfl
    have hle : a + sizeofNode * (Forest.node n cs sb).height ≤ b := by
      rw [hsz] at hp1 hc1 hs1 ⊢
      omega
    refine ⟨hle, ?_⟩
    intro x hx
    rcases List.mem_cons.mp hx with rfl | hx
    · refine ⟨by omega, by omega, ?_⟩
      intro p hpm
      have := hp2 p hpm
      exact ⟨by omega, by omega⟩
    · rcases List.mem_append.mp hx with hx | hx
      · exact (hc2 x hx).mono (by omega) (by omega)
      · exact (hs2 x hx).mono (by omega) (le_refl b)

theorem isForest_le (mem : Mem) (f : Forest NodeRec) (a b : ℕ) (h : mem.IsForest f a b) :
    a ≤ b := by
  have := (isForest_in mem f a b h).1
  omega

/-- the addresses of the nodes increase in pre-order -/
theorem isForest_sorted (mem : Mem) (f : Forest NodeRec) (a b : ℕ) (h : mem.IsForest f a b) :
    (f.labels.map NodeRec.addr).Pairwise (· < ·) := by
  induction f generalizing a b with
  | nil => exact List.Pairwise.nil
  | node n cs sb ihc ihs =>
    obtain ⟨ha, _, _, m₁, m₂, hp, hc, hs⟩ := h
    have hp1 := (isProps_in mem n.props _ _ hp).1
    have hc2 := (isForest_in mem cs m₁ m₂ hc).2
    have hs2 := (isForest_in mem sb m₂ b hs).2
    have hcl := isForest_le mem cs m₁ m₂ hc
    have hsz : sizeofNode = 8 := rfl
    show (n.addr :: ((cs.labels ++ sb.labels).map NodeRec.addr)).Pairwise (· < ·)
    rw [List.pairwise_cons, List.map_append, List.pairwise_append]
    refine ⟨?_, ihc m₁ m₂ hc, ihs m₂ b hs, ?_⟩
    · intro x hx
      rcases List.mem_append.mp hx with hx | hx
      · obtain ⟨m, hm, rfl⟩ := List.mem_map.mp hx
        have := (hc2 m hm).1
        omega
      · obtain ⟨m, hm, rfl⟩ := List.mem_map.mp hx
        have := (hs2 m hm).1
        omega
    · intro x hx y hy
      obtain ⟨m, hm, rfl⟩ := List.mem_map.mp hx
      obtain ⟨m', hm', rfl⟩ := List.mem_map.mp hy
      have h1 := (hc2 m hm).2.1
      have h2 := (hs2 m' hm').1
      omega

theorem isForest_keyed (mem : Mem) (f : Forest NodeRec) (a b : ℕ) (h : mem.IsForest f a b) :
    f.Keyed NodeRec.addr :=
  (isForest_sorted mem f a b h).imp (fun hxy => ne_of_lt hxy)

/-- what the bytes of one node of the forest say -/
theorem isForest_node (mem : Mem) (f : Forest NodeRec) (a b : ℕ) (h : mem.IsForest f a b)
    (n : NodeRec) (hn : n ∈ f.labels) :
    mem.le32 n.addr = some n.props.length ∧
      ∃ m, mem.IsProps n.props (n.addr + sizeofNode) m ∧ a ≤ n.addr ∧ m ≤ b := by
  induction f generalizing a b with
  | nil => cases hn
  | node x cs sb ihc ihs =>
    obtain ⟨ha, h1, _, m₁, m₂, hp, hc, hs⟩ := h
    have hp1 := (isProps_in mem x.props _ _ hp).1
    have hc1 := isForest_le mem cs m₁ m₂ hc
    have hs1 := isForest_le mem sb m₂ b hs
    rcases List.mem_cons.mp hn with rfl | hn
    · rw [ha]
      exact ⟨h1, m₁, hp, le_refl a, by omega⟩
    · rcases List.mem_append.mp hn with hn | hn
      · obtain ⟨h2, m, h3, h4, h5⟩ := ihc m₁ m₂ hc hn
        exact ⟨h2, m, h3, by omega, by omega⟩
      · obtain ⟨h2, m, h3, h4, h5⟩ := ihs m₂ b hs hn
        exact ⟨h2, m, h3, by omega, by omega⟩

/-- the bytes of a property of the forest can be read -/
theorem isForest_readable (mem : Mem) (f : Forest NodeRec) (a b : ℕ) (h : mem.IsForest f a b)
    (hr : mem.Readable a (b - a)) (n : NodeRec) (hn : n ∈ f.labels) (p : PropRec)
    (hp : p ∈ n.props) : mem.Readable p.key dtKeyLen ∧ mem.Readable p.val (padded p.len) := by
  obtain ⟨_, h2⟩ := isForest_in mem f a b h
  obtain ⟨h3, _, h4⟩ := h2 n hn
  obtain ⟨h5, h6⟩ := h4 p hp
  have hst : p.stop = p.key + (sizeofProp + padded p.len) := rfl
  have hval : p.val = p.key + sizeofProp := rfl
  have hsz : sizeofProp = 36 := rfl
  have hkl : dtKeyLen = 32 := rfl
  have hk := readable_sub mem a (b - a) (p.key - a) dtKeyLen hr (by omega)
  have hv := readable_sub mem a (b - a) (p.val - a) (padded p.len) hr (by omega)
  rw [show a + (p.key - a) = p.key by omega] at hk
  rw [show a + (p.val - a) = p.val by omega] at hv
  exact ⟨hk, hv⟩

/-! ## the grammar only looks at the bytes of the forest -/

theorem isProps_window (mem : Mem) (ps : List PropRec) (a b lo hi : ℕ)
    (h : mem.IsProps ps a b) (hlo : lo ≤ a) (hhi : b ≤ hi) :
    (mem.window lo hi).IsProps ps a b := by
  induction ps generalizing a with
  | nil => exact h
  | cons p ps ih =>
    obtain ⟨hk, hw, hr⟩ := h
    have hs : p.stop = p.key + (sizeofProp + padded p.len) := rfl
    have hb := (isProps_in mem ps _ _ hr).1
    have hsz : sizeofProp = 36 := rfl
    have hkl : dtKeyLen = 32 := rfl
    refine ⟨hk, ?_, ih p.stop hr (by omega)⟩
    rw [le32_window mem lo hi (a + dtKeyLen) (by omega) (by omega)]
    exact hw

theorem isForest_window (mem : Mem) (f : Forest NodeRec) (a b lo hi : ℕ)
    (h : mem.IsForest f a b) (hlo : lo ≤ a) (hhi : b ≤ hi) :
    (mem.window lo hi).IsForest f a b := by
  induction f generalizing a b with
  | nil => exact h
  | node n cs sb ihc ihs =>
    obtain ⟨ha, h1, h2, m₁, m₂, hp, hc, hs⟩ := h
    have hp1 := (isProps_in mem n.props _ _ hp).1
    have hc1 := isForest_le mem cs m₁ m₂ hc
    have hs1 := isForest_le mem sb m₂ b hs
    have hsz : sizeofNode = 8 := rfl
    refine ⟨ha, ?_, ?_, m₁, m₂, isProps_window mem _ _ _ _ _ hp (by omega) (by omega),
      ihc m₁ m₂ hc (by omega) (by omega), ihs m₂ b hs (by omega) hhi⟩
    · rw [le32_window mem lo hi a (by omega) (by omega)]
      exact h1
    · rw [le32_window mem lo hi (a + 4) (by omega) (by omega)]
      exact h2

end Mem

end AppleSilicon
