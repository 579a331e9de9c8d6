import AppleSilicon.Dt.Tree

/-!
# `dt_check`: the validator of the device tree

`dtCheck mem base size` follows `dt_check(mem, size, &off)` on the bytes from `base` on.  It reads
`mem` only through `Mem.le32`, which fails on an address that may not be read.  The recursion is on
fuel; `dtCheck` starts with enough of it (`dtCheck_total`).  Besides the C results the model keeps
`walked`: the nodes and properties whose header was read, in order.

Sizes and offsets are natural numbers: every sum the code forms is at most `size + 2^24 + 39`, far
from `2^64` for the sizes below `2^63` it is meant for.

* `dtCheck_total`      on readable bytes the run ends, and accepts only nodes of the grammar;
* `dtCheck_complete`   every node of the grammar that fits is accepted, with its length.
-/

namespace AppleSilicon

inductive Step where
  | node (addr : ℕ)
  | prop (addr : ℕ)
deriving DecidableEq

/-- where a loop of `dt_check` stands; `ret ≠ 0` is a `return ret` out of the function -/
structure CheckCur where
  ret : Int
  off : ℕ
  walked : List Step
deriving DecidableEq

/-- the return value, what was stored to `*offp` (if anything), and the walk -/
structure CheckOut where
  ret : Int
  offp : Option ℕ
  walked : List Step
deriving DecidableEq

def CheckCur.after (w : List Step) (c : CheckCur) : CheckCur := ⟨c.ret, c.off, w ++ c.walked⟩

/-- the property loop, with `n` iterations left -/
def dtCheckProps (mem : Mem) (base size : ℕ) : ℕ → ℕ → Option CheckCur
  | 0, off => some ⟨0, off, []⟩
  | n + 1, off =>
    if size < off + sizeofProp then some ⟨-1, off, []⟩
    else (mem.le32 (base + off + dtKeyLen)).bind fun len =>
      let l := len &&& 0xffffff
      let off' := off + (sizeofProp + padded l)
      if size < off' then some ⟨-1, off', [.prop (base + off)]⟩
      else (dtCheckProps mem base size n off').map (CheckCur.after [.prop (base + off)])

/-- the child loop, with `n` iterations left; `check` is the recursive call -/
def dtCheckChildren (check : ℕ → ℕ → Option CheckOut) (base size : ℕ) : ℕ → ℕ → Option CheckCur
  | 0, off => some ⟨0, off, []⟩
  | n + 1, off =>
    (check (base + off) (size - off)).bind fun c =>
      if c.ret ≠ 0 then some ⟨c.ret, off, c.walked⟩
      -- `add` starts at 0 and is what the call stored
      else (dtCheckChildren check base size n (off + c.offp.getD 0)).map (CheckCur.after c.walked)

def dtCheckFuel (mem : Mem) : ℕ → ℕ → ℕ → Option CheckOut
  | 0, _, _ => none
  | fuel + 1, base, size =>
    if size < sizeofNode then some ⟨-1, none, []⟩
    else (mem.le32 base).bind fun nprop =>
      (dtCheckProps mem base size nprop sizeofNode).bind fun p =>
        if p.ret ≠ 0 then some ⟨p.ret, none, .node base :: p.walked⟩
        else (mem.le32 (base + 4)).bind fun nchld =>
          (dtCheckChildren (dtCheckFuel mem fuel) base size nchld p.off).bind fun c =>
            if c.ret ≠ 0 then some ⟨c.ret, none, .node base :: (p.walked ++ c.walked)⟩
            else some ⟨0, some c.off, .node base :: (p.walked ++ c.walked)⟩

/-- `dt_check(mem, size, offp)`; every call recurses on a smaller size -/
def dtCheck (mem : Mem) (base size : ℕ) : Option CheckOut := dtCheckFuel mem (size + 1) base size

/-- the nodes and properties of a forest in the order `dt_check` walks them -/
def steps : Forest NodeRec → List Step
  | .nil => []
  | .node n cs sb =>
    .node n.addr :: (n.props.map (fun p => Step.prop p.key) ++ (steps cs ++ steps sb))

theorem failed_ne : (-1 : Int) ≠ 0 := by decide

theorem low24 (len : ℕ) : len &&& 0xffffff = len % 2^24 := Nat.and_two_pow_sub_one_eq_mod len 24

/-! ## one iteration of each loop -/

theorem dtCheckProps_short (mem : Mem) (base size n off : ℕ) (h : size < off + sizeofProp) :
    dtCheckProps mem base size (n + 1) off = some ⟨-1, off, []⟩ := by
  rw [dtCheckProps, if_pos h]

theorem dtCheckProps_long (mem : Mem) (base size n off w : ℕ) (h : ¬ size < off + sizeofProp)
    (hw : mem.le32 (base + off + dtKeyLen) = some w)
    (hl : size < off + (sizeofProp + padded (w % 2^24))) :
    dtCheckProps mem base size (n + 1) off
      = some ⟨-1, off + (sizeofProp + padded (w % 2^24)), [.prop (base + off)]⟩ := by
  rw [dtCheckProps, if_neg h, hw, Option.bind_some, low24, if_pos hl]

theorem dtCheckProps_step (mem : Mem) (base size n off w : ℕ)
    (hw : mem.le32 (base + off + dtKeyLen) = some w)
    (hl : ¬ size < off + (sizeofProp + padded (w % 2^24))) :
    dtCheckProps mem base size (n + 1) off
      = (dtCheckProps mem base size n (off + (sizeofProp + padded (w % 2^24)))).map
          (CheckCur.after [.prop (base + off)]) := by
  have h : ¬ size < off + sizeofProp := by omega
  rw [dtCheckProps, if_neg h, hw, Option.bind_some, low24, if_neg hl]

theorem dtCheckChildren_fail (check : ℕ → ℕ → Option CheckOut) (base size n off : ℕ) (c : CheckOut)
    (hc : check (base + off) (size - off) = some c) (hr : c.ret ≠ 0) :
    dtCheckChildren check base size (n + 1) off = some ⟨c.ret, off, c.walked⟩ := by
  rw [dtCheckChildren, hc, Option.bind_some, if_pos hr]

theorem dtCheckChildren_step (check : ℕ → ℕ → Option CheckOut) (base size n off : ℕ) (c : CheckOut)
    (hc : check (base + off) (size - off) = some c) (hr : c.ret = 0) :
    dtCheckChildren check base size (n + 1) off
      = (dtCheckChildren check base size n (off + c.offp.getD 0)).map
          (CheckCur.after c.walked) := by
  rw [dtCheckChildren, hc, Option.bind_some, if_neg (fun h => h hr)]

/-- a node whose properties and children both pass -/
theorem dtCheckFuel_ok (mem : Mem) (fuel base size nprop nchld : ℕ) (p c : CheckCur)
    (hs : ¬ size < sizeofNode) (h1 : mem.le32 base = some nprop)
    (hp : dtCheckProps mem base size nprop sizeofNode = some p) (hp0 : p.ret = 0)
    (h2 : mem.le32 (base + 4) = some nchld)
    (hc : dtCheckChildren (dtCheckFuel mem fuel) base size nchld p.off = some c)
    (hc0 : c.ret = 0) :
    dtCheckFuel mem (fuel + 1) base size
      = some ⟨0, some c.off, .node base :: (p.walked ++ c.walked)⟩ := by
  rw [dtCheckFuel, if_neg hs, h1, Option.bind_some, hp, Option.bind_some,
    if_neg (fun h => h hp0), h2, Option.bind_some, hc, Option.bind_some, if_neg (fun h => h hc0)]

/-! ## every node of the grammar that fits is accepted -/

theorem dtCheckProps_complete (mem : Mem) (base size : ℕ) (ps : List PropRec) (off b : ℕ)
    (h : mem.IsProps ps (base + off) b) (hb : b ≤ base + size) :
    dtCheckProps mem base size ps.length off
      = some ⟨0, b - base, ps.map (fun p => Step.prop p.key)⟩ := by
  induction ps generalizing off with
  | nil =>
    obtain rfl : b = base + off := h
    rw [Nat.add_sub_cancel_left]
    rfl
  | cons p ps ih =>
    obtain ⟨hk, ⟨w, hw, hl⟩, hr⟩ := h
    have hst : p.stop = base + (off + (sizeofProp + padded (w % 2^24))) := by
      rw [PropRec.stop, hk, hl, Nat.add_assoc]
    have hle := (Mem.isProps_in mem ps _ _ hr).1
    rw [hst] at hr hle
    rw [List.length_cons, dtCheckProps_step mem base size ps.length off w hw (by omega), ih _ hr,
      ← hk]
    rfl

/-- **Completeness**: the child loop passes over every forest that fits. -/
theorem dtCheckChildren_complete (mem : Mem) (f : Forest NodeRec) (fuel base size off b : ℕ)
    (h : mem.IsForest f (base + off) b) (hb : b ≤ base + size) (hf : f.height ≤ fuel) :
    dtCheckChildren (dtCheckFuel mem fuel) base size f.count off
      = some ⟨0, b - base, steps f⟩ := by
  induction f generalizing fuel base size off b with
  | nil =>
    obtain rfl : b = base + off := h
    rw [Nat.add_sub_cancel_left]
    rfl
  | node n cs sb ihc ihs =>
    obtain ⟨ha, h1, h2, m₁, m₂, hp, hc, hs⟩ := h
    have hp1 := (Mem.isProps_in mem n.props _ _ hp).1
    have hc1 := Mem.isForest_le mem cs m₁ m₂ hc
    have hs1 := Mem.isForest_le mem sb m₂ b hs
    have hm : (Forest.node n cs sb).height = max (cs.height + 1) sb.height := rfl
    have hsz : sizeofNode = 8 := rfl
    obtain ⟨fuel, rfl⟩ : ∃ k, fuel = k + 1 := ⟨fuel - 1, by omega⟩
    -- the call on the first node of the forest
    have ec := ihc fuel (base + off) (size - off) (m₁ - (base + off)) m₂
      (by rw [show base + off + (m₁ - (base + off)) = m₁ by omega]; exact hc)
      (by omega) (by omega)
    have e := dtCheckFuel_ok mem fuel (base + off) (size - off) _ _ _ _ (by omega) h1
      (dtCheckProps_complete mem (base + off) (size - off) n.props sizeofNode m₁ hp (by omega))
      rfl h2 ec rfl
    rw [show (Forest.node n cs sb).count = sb.count + 1 from rfl,
      dtCheckChildren_step _ base size sb.count off _ e rfl, Option.getD_some,
      show off + (m₂ - (base + off)) = m₂ - base by omega,
      ihs (fuel + 1) base size (m₂ - base) b
        (by rw [show base + (m₂ - base) = m₂ by omega]; exact hs) hb (by omega), ← ha]
    show some (CheckCur.mk 0 (b - base) (_ :: ((_ ++ _) ++ _))) = _
    rw [List.append_assoc]
    rfl

theorem dtCheckFuel_complete (mem : Mem) (n : NodeRec) (cs : Forest NodeRec) (fuel a b size : ℕ)
    (h : mem.IsNode n cs a b) (hb : b ≤ a + size) (hf : cs.height < fuel) :
    dtCheckFuel mem fuel a size = some ⟨0, some (b - a), steps (.node n cs .nil)⟩ := by
  have hs := Mem.isForest_le mem _ a b h
  obtain ⟨ha, h1, h2, m₁, m₂, hp, hc, hn⟩ := h
  obtain rfl : b = m₂ := hn
  have hp1 := (Mem.isProps_in mem n.props _ _ hp).1
  have hc1 := Mem.isForest_le mem cs m₁ b hc
  have hsz : sizeofNode = 8 := rfl
  obtain ⟨fuel, rfl⟩ : ∃ k, fuel = k + 1 := ⟨fuel - 1, by omega⟩
  have ec := dtCheckChildren_complete mem cs fuel a size (m₁ - a) b
    (by rw [show a + (m₁ - a) = m₁ by omega]; exact hc) hb (by omega)
  rw [dtCheckFuel_ok mem fuel a size _ _ _ _ (by omega) h1
    (dtCheckProps_complete mem a size n.props sizeofNode m₁ hp (by omega)) rfl h2 ec rfl, ← ha]
  show some (CheckOut.mk 0 (some (b - n.addr)) (_ :: (_ ++ _))) = _
  rw [show steps (.node n cs .nil)
    = .node n.addr :: (n.props.map (fun p => Step.prop p.key) ++ (steps cs ++ [])) from rfl,
    List.append_nil]

theorem dtCheck_complete (mem : Mem) (n : NodeRec) (cs : Forest NodeRec) (a b size : ℕ)
    (h : mem.IsNode n cs a b) (hb : b ≤ a + size) :
    dtCheck mem a size = some ⟨0, some (b - a), steps (.node n cs .nil)⟩ := by
  have hh := (Mem.isForest_in mem _ a b h).1
  have hm : (Forest.node n cs .nil).height = max (cs.height + 1) 0 := rfl
  have hsz : sizeofNode = 8 := rfl
  rw [hm, hsz] at hh
  exact dtCheckFuel_complete mem n cs (size + 1) a b size h hb (by omega)

/-! ## on readable bytes the run ends, and accepts only nodes of the grammar -/

theorem dtCheckProps_total (mem : Mem) (base size : ℕ) (hr : mem.Readable base size) (n off : ℕ)
    (ho : off ≤ size) :
    ∃ c, dtCheckProps mem base size n off = some c ∧ (c.ret = 0 → c.off ≤ size ∧
      ∃ ps : List PropRec, ps.length = n ∧ mem.IsProps ps (base + off) (base + c.off)) := by
  induction n generalizing off with
  | zero => exact ⟨_, rfl, fun _ => ⟨ho, [], rfl, rfl⟩⟩
  | succ n ih =>
    by_cases h : size < off + sizeofProp
    · exact ⟨_, dtCheckProps_short mem base size n off h, fun h0 => absurd h0 failed_ne⟩
    · have hsz : sizeofProp = 36 := rfl
      have hkl : dtKeyLen = 32 := rfl
      obtain ⟨w, hw⟩ := Mem.le32_readable mem (base + (off + dtKeyLen))
        (Mem.readable_sub mem base size (off + dtKeyLen) 4 hr (by omega))
      rw [← Nat.add_assoc] at hw
      by_cases hl : size < off + (sizeofProp + padded (w % 2^24))
      · exact ⟨_, dtCheckProps_long mem base size n off w h hw hl, fun h0 => absurd h0 failed_ne⟩
      · obtain ⟨c, hc, hok⟩ := ih (off + (sizeofProp + padded (w % 2^24))) (by omega)
        refine ⟨c.after [.prop (base + off)], ?_, ?_⟩
        · rw [dtCheckProps_step mem base size n off w hw hl, hc]
          rfl
        · intro h0
          obtain ⟨h1, ps, h2, h3⟩ := hok h0
          refine ⟨h1, ⟨base + off, w % 2^24⟩ :: ps, congrArg (· + 1) h2, rfl, ⟨w, hw, rfl⟩, ?_⟩
          rw [← Nat.add_assoc] at h3
          exact h3

/-- what a call of `dt_check` on `size` bytes at `a` does -/
def CheckOk (mem : Mem) (a size : ℕ) (o : Option CheckOut) : Prop :=
  ∃ out, o = some out ∧ (out.ret ≠ 0 → out.offp = none) ∧
    (out.ret = 0 → ∃ n cs b, mem.IsNode n cs a b ∧ b ≤ a + size ∧ out.offp = some (b - a))

theorem dtCheckChildren_total (mem : Mem) (check : ℕ → ℕ → Option CheckOut) (base size lo : ℕ)
    (hck : ∀ off, lo ≤ off → off ≤ size →
      CheckOk mem (base + off) (size - off) (check (base + off) (size - off)))
    (n off : ℕ) (hlo : lo ≤ off) (ho : off ≤ size) :
    ∃ c, dtCheckChildren check base size n off = some c ∧ (c.ret = 0 → c.off ≤ size ∧
      ∃ f : Forest NodeRec, f.count = n ∧ mem.IsForest f (base + off) (base + c.off)) := by
  induction n generalizing off with
  | zero => exact ⟨_, rfl, fun _ => ⟨ho, .nil, rfl, rfl⟩⟩
  | succ n ih =>
    obtain ⟨out, he, _, hok⟩ := hck off hlo ho
    by_cases h0 : out.ret = 0
    · obtain ⟨m, cs, b, hn, hb, ho'⟩ := hok h0
      have hle := Mem.isForest_le mem _ _ _ hn
      obtain ⟨c, hc, hcok⟩ := ih (b - base) (by omega) (by omega)
      refine ⟨c.after out.walked, ?_, ?_⟩
      · rw [dtCheckChildren_step check base size n off out he h0, ho', Option.getD_some,
          show off + (b - (base + off)) = b - base by omega, hc]
        rfl
      · intro hc0
        obtain ⟨h1, f, h2, h3⟩ := hcok hc0
        obtain ⟨ha, e1, e2, m₁, m₂, hp, hcs, hnil⟩ := hn
        obtain rfl : b = m₂ := hnil
        rw [show base + (b - base) = b by omega] at h3
        exact ⟨h1, .node m cs f, congrArg (· + 1) h2, ha, e1, e2, m₁, b, hp, hcs, h3⟩
    · exact ⟨_, dtCheckChildren_fail check base size n off out he h0, fun h => absurd h h0⟩

/-- **Soundness and termination**: on readable bytes the run ends, and what it accepts is a node
of the grammar with the length it reports. -/
theorem dtCheckFuel_total (mem : Mem) (fuel base size : ℕ) (hr : mem.Readable base size)
    (hf : size < fuel) : CheckOk mem base size (dtCheckFuel mem fuel base size) := by
  induction fuel generalizing base size with
  | zero => exact absurd hf (Nat.not_lt_zero size)
  | succ fuel ih =>
    by_cases hs : size < sizeofNode
    · refine ⟨_, by rw [dtCheckFuel, if_pos hs], fun _ => rfl,
        fun h => absurd h failed_ne⟩
    · have hsz : sizeofNode = 8 := rfl
      obtain ⟨nprop, h1⟩ := Mem.le32_readable mem base (Mem.readable_mono mem base size 4 hr (by omega))
      obtain ⟨nchld, h2⟩ := Mem.le32_readable mem (base + 4)
        (Mem.readable_sub mem base size 4 4 hr (by omega))
      obtain ⟨p, hp, hpok⟩ := dtCheckProps_total mem base size hr nprop sizeofNode (by omega)
      by_cases hp0 : p.ret = 0
      · obtain ⟨hpo, ps, hpl, hps⟩ := hpok hp0
        have hps1 := (Mem.isProps_in mem ps _ _ hps).1
        obtain ⟨c, hc, hcok⟩ := dtCheckChildren_total mem (dtCheckFuel mem fuel) base size
          sizeofNode (fun off hlo ho => ih (base + off) (size - off)
            (Mem.readable_sub mem base size off (size - off) hr (by omega)) (by omega))
          nchld p.off (by omega) hpo
        by_cases hc0 : c.ret = 0
        · obtain ⟨hco, cs, hcc, hcs⟩ := hcok hc0
          refine ⟨_, dtCheckFuel_ok mem fuel base size nprop nchld p c hs h1 hp hp0 h2 hc hc0,
            fun h => absurd rfl h, fun _ => ?_⟩
          refine ⟨⟨base, ps⟩, cs, base + c.off, ?_, by omega, by rw [Nat.add_sub_cancel_left]⟩
          refine ⟨rfl, ?_, ?_, base + p.off, base + c.off, hps, hcs, rfl⟩
          · rw [h1, ← hpl]
          · rw [h2, hcc]
        · refine ⟨⟨c.ret, none, .node base :: (p.walked ++ c.walked)⟩, ?_, fun _ => rfl,
            fun h => absurd h hc0⟩
          rw [dtCheckFuel, if_neg hs, h1, Option.bind_some, hp, Option.bind_some,
            if_neg (fun h => h hp0), h2, Option.bind_some, hc, Option.bind_some, if_pos hc0]
      · refine ⟨⟨p.ret, none, .node base :: p.walked⟩, ?_, fun _ => rfl, fun h => absurd h hp0⟩
        rw [dtCheckFuel, if_neg hs, h1, Option.bind_some, hp, Option.bind_some, if_pos hp0]

theorem dtCheck_total (mem : Mem) (base size : ℕ) (hr : mem.Readable base size) :
    CheckOk mem base size (dtCheck mem base size) :=
  dtCheckFuel_total mem (size + 1) base size hr (Nat.lt_succ_self size)

/-- what was accepted is a node -/
theorem dtCheck_node (mem : Mem) (base size : ℕ) (out : CheckOut) (hr : mem.Readable base size)
    (hc : dtCheck mem base size = some out) (h0 : out.ret = 0) :
    ∃ n cs b, mem.IsNode n cs base b ∧ b ≤ base + size ∧ out.offp = some (b - base) := by
  obtain ⟨out', e, _, hok⟩ := dtCheck_total mem base size hr
  rw [hc] at e
  obtain rfl := Option.some.inj e
  exact hok h0

/-- its bytes can be read -/
theorem dtCheck_readable (mem : Mem) (base size : ℕ) (out : CheckOut) (hr : mem.Readable base size)
    (hc : dtCheck mem base size = some out) (h0 : out.ret = 0) (n : NodeRec) (cs : Forest NodeRec)
    (b : ℕ) (hn : mem.IsNode n cs base b) : mem.Readable base (b - base) := by
  obtain ⟨n', cs', b', hn', hb, _⟩ := dtCheck_node mem base size out hr hc h0
  obtain ⟨_, rfl⟩ := Mem.isForest_unique mem _ _ _ _ _ hn hn' rfl
  exact Mem.readable_mono mem base size (b - base) hr (by omega)

end AppleSilicon
