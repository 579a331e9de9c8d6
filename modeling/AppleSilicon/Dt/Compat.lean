import AppleSilicon.Dt.Guard
import AppleSilicon.Dt.Reg

/-!
# `dt_prop` and the 32-bit entry points: `dt_check_32`, `dt_parse_32`, `dt_prop_32`

The legacy functions call the ones with `size_t` and cut what these store to 32 bits.  `dt_parse_32`
boxes the property callback of its client in an adapter.

* `dtProp_first`      `dt_prop` looks at one node alone and gives its first property with the key;
* `dtParse_congr`     callbacks that agree on 24-bit lengths make the same walk;
* `dtCheck32_agrees`, `dtParse32_agrees`   the 32-bit functions and the others;
* `compat_agrees`     all of them.
-/

namespace AppleSilicon

section
variable (lib : AsciiLib) (mem : Mem)

/-- `dt_prop(node, key, &len)` and what `len` holds afterwards -/
def dtPropLen (node : ℕ) (key : List UInt8) (len : ℕ) : Option (Option ℕ × ℕ) :=
  (dtProp lib mem node key).map fun v => (v.map Prod.fst, (v.map Prod.snd).getD len)

/-- `dt_prop_32(node, key, &len)`; what `len` held before is lost -/
def dtProp32 (node : ℕ) (key : List UInt8) : Option (Option ℕ × ℕ) :=
  (dtPropLen lib mem node key 0).map fun r => (r.1, r.2 % 2^32)

end

/-- `dt_check_32(mem, size, &off)`: the return value and what `off` holds -/
def dtCheck32 (mem : Mem) (base size : ℕ) : Option (Int × ℕ) :=
  (dtCheck mem base size).map fun out => (out.ret, out.offp.getD 0 % 2^32)

/-- the callbacks of `dt_parse_32`; the length is a `uint32_t` -/
structure Callbacks32 (σ : Type*) where
  node : Option (σ → ℕ → Int → σ × Int)
  prop : Option (σ → ℕ → Int → ℕ → ℕ → UInt32 → σ × Int)

/-- what the callbacks of `dt_parse_32` are given -/
def Visit.low32 : Visit → Visit
  | .node a d => .node a d
  | .prop a d key val len => .prop a d key val (len % 2^32)

structure ParseOut32 (σ : Type*) where
  ret : Int
  off : ℕ
  st : σ
  log : List Visit

section
variable {σ : Type*}

def dtParse32Cbp (cb : σ → ℕ → Int → ℕ → ℕ → UInt32 → σ × Int) :
    σ → ℕ → Int → ℕ → ℕ → ℕ → σ × Int :=
  fun s node depth key val len => cb s node depth key val (UInt32.ofNat len)

/-- `dt_parse_32(node, depth, &off, cb_node, _, cb_prop, _)` -/
def dtParse32 (mem : Mem) (cbs : Callbacks32 σ) (fuel node : ℕ) (depth : Int) (s : σ) :
    Option (ParseOut32 σ) :=
  (dtParse mem ⟨cbs.node, cbs.prop.map dtParse32Cbp⟩ fuel node depth s).map fun out =>
    ⟨out.ret, out.offp.getD 0 % 2^32, out.st, out.log.map Visit.low32⟩

/-- the same callbacks, one time for `uint32_t` and one time for `size_t` -/
structure Callbacks32.Same (cbs32 : Callbacks32 σ) (cbs : Callbacks σ) : Prop where
  node : cbs32.node = cbs.node
  prop : match cbs32.prop, cbs.prop with
    | none, none => True
    | some cb32, some cb => ∀ s node depth key val (len : UInt32),
        cb32 s node depth key val len = cb s node depth key val len.toNat
    | _, _ => False

/-! ## callbacks that agree on 24-bit lengths -/

/-- the same results for everything `dt_parse` can hand out -/
structure Callbacks.Agree (cbs cbs' : Callbacks σ) : Prop where
  node : ∀ s a d, cbs.onNode s a d = cbs'.onNode s a d
  prop : ∀ s a d key val len, len < 2^24 →
    cbs.onProp s a d key val len = cbs'.onProp s a d key val len
  some : cbs.prop.isSome = cbs'.prop.isSome

theorem low24_lt (len : ℕ) : len &&& 0xffffff < 2^24 := by
  rw [low24]
  exact Nat.mod_lt len (Nat.two_pow_pos 24)

theorem dtParseProps_congr (mem : Mem) (cbs cbs' : Callbacks σ) (h : cbs.Agree cbs') (node : ℕ)
    (depth : Int) (n off : ℕ) (s : σ) :
    dtParseProps mem cbs node depth n off s = dtParseProps mem cbs' node depth n off s := by
  induction n generalizing off s with
  | zero => rfl
  | succ n ih =>
    rw [dtParseProps, dtParseProps]
    refine Option.bind_congr fun len _ => ?_
    dsimp only
    rw [h.prop s node depth _ _ _ (low24_lt len)]
    by_cases hret : (cbs'.onProp s node depth (node + off) (node + off + sizeofProp)
        (len &&& 0xffffff)).2 ≠ 0
    · rw [if_pos hret, if_pos hret]
    · rw [if_neg hret, if_neg hret, ih]

/-- **`dt_parse` makes the same walk** with callbacks that agree on 24-bit lengths -/
theorem dtParse_congr (mem : Mem) (cbs cbs' : Callbacks σ) (h : cbs.Agree cbs') (fuel node : ℕ)
    (depth : Int) (s : σ) :
    dtParse mem cbs fuel node depth s = dtParse mem cbs' fuel node depth s := by
  induction fuel generalizing node depth s with
  | zero => rfl
  | succ fuel ih =>
    have hprops : dtParseProps mem cbs node depth = dtParseProps mem cbs' node depth :=
      funext fun n => funext fun off => funext fun s =>
          dtParseProps_congr mem cbs cbs' h node depth n off s
    have hrec : (fun a s => dtParse mem cbs fuel a (i32 (depth + 1)) s)
        = fun a s => dtParse mem cbs' fuel a (i32 (depth + 1)) s :=
      funext fun a => funext fun s => ih a _ s
    rw [dtParse, dtParse, h.node, h.some, hrec, hprops]

/-! ## what the callbacks are given -/

/-- a visit with a 24-bit length -/
def Visit.Low24 : Visit → Prop
  | .node _ _ => True
  | .prop _ _ _ _ len => len < 2^24

theorem Visit.low32_of_low24 (v : Visit) (h : v.Low24) : v.low32 = v := by
  cases v with
  | node a d => rfl
  | prop a d key val len =>
    have hlt : len < 2^24 := h
    show Visit.prop a d key val (len % 2^32) = _
    rw [Nat.mod_eq_of_lt (by omega)]

theorem dtParseProps_low24 (mem : Mem) (cbs : Callbacks σ) (node : ℕ) (depth : Int) (n off : ℕ)
    (s : σ) (c : ParseCur σ) (h : dtParseProps mem cbs node depth n off s = some c) :
    ∀ v ∈ c.log, v.Low24 := by
  induction n generalizing off s c with
  | zero =>
    rw [← Option.some.inj h]
    exact List.forall_mem_nil _
  | succ n ih =>
    obtain ⟨len, _, h⟩ := Option.bind_eq_some_iff.mp h
    have hlow : ∀ v ∈ [Visit.prop node depth (node + off) (node + off + sizeofProp)
        (len &&& 0xffffff)], v.Low24 := List.forall_mem_singleton.mpr (low24_lt len)
    dsimp only at h
    split at h
    · rw [← Option.some.inj h]
      exact hlow
    · obtain ⟨c', hc', rfl⟩ := Option.map_eq_some_iff.mp h
      exact List.forall_mem_append.mpr ⟨hlow, ih _ _ c' hc'⟩

theorem dtParseChildren_low24 (parse : ℕ → σ → Option (ParseOut σ)) (node n off : ℕ) (s : σ)
    (hparse : ∀ a s o, parse a s = some o → ∀ v ∈ o.log, v.Low24) (c : ParseCur σ)
    (h : dtParseChildren parse node n off s = some c) : ∀ v ∈ c.log, v.Low24 := by
  induction n generalizing off s c with
  | zero =>
    rw [← Option.some.inj h]
    exact List.forall_mem_nil _
  | succ n ih =>
    obtain ⟨o, ho, h⟩ := Option.bind_eq_some_iff.mp h
    split at h
    · rw [← Option.some.inj h]
      exact hparse _ _ o ho
    · obtain ⟨c', hc', rfl⟩ := Option.map_eq_some_iff.mp h
      exact List.forall_mem_append.mpr ⟨hparse _ _ o ho, ih _ _ c' hc'⟩

/-- every length that `dt_parse` hands out has 24 bits, and a call on a level from 0 on that
returns 0 stores an offset -/
theorem dtParse_out (mem : Mem) (cbs : Callbacks σ) (fuel node : ℕ) (depth : Int) (s : σ)
    (o : ParseOut σ) (h : dtParse mem cbs fuel node depth s = some o) :
    (∀ v ∈ o.log, v.Low24) ∧ (depth ≥ 0 → o.ret = 0 → ∃ off, o.offp = some off) := by
  induction fuel generalizing node depth s o with
  | zero => cases h
  | succ fuel ih =>
    have hself : ∀ v ∈ [Visit.node node depth], v.Low24 := List.forall_mem_singleton.mpr trivial
    rw [dtParse] at h
    by_cases hnode : (cbs.onNode s node depth).2 ≠ 0
    · rw [if_pos hnode] at h
      rw [← Option.some.inj h]
      exact ⟨hself, fun _ h0 => absurd h0 hnode⟩
    · rw [if_neg hnode] at h
      by_cases hprops : depth ≥ 0 ∨ cbs.prop.isSome
      · rw [if_pos hprops] at h
        obtain ⟨nprop, _, h⟩ := Option.bind_eq_some_iff.mp h
        obtain ⟨p, hp, h⟩ := Option.bind_eq_some_iff.mp h
        have hplog : ∀ v ∈ Visit.node node depth :: p.log, v.Low24 :=
          List.forall_mem_cons.mpr ⟨trivial, dtParseProps_low24 mem cbs _ _ _ _ _ p hp⟩
        by_cases hret : p.ret ≠ 0
        · rw [if_pos hret] at h
          rw [← Option.some.inj h]
          exact ⟨hplog, fun _ h0 => absurd h0 hret⟩
        · rw [if_neg hret] at h
          by_cases hd : depth ≥ 0
          · rw [if_pos hd] at h
            obtain ⟨nchld, _, h⟩ := Option.bind_eq_some_iff.mp h
            obtain ⟨c, hc, h⟩ := Option.bind_eq_some_iff.mp h
            have hclog := dtParseChildren_low24 _ _ _ _ _ (fun a s o ho => (ih a _ s o ho).1) c hc
            have hall := List.forall_mem_append.mpr ⟨hplog, hclog⟩
            by_cases hcret : c.ret ≠ 0
            · rw [if_pos hcret] at h
              rw [← Option.some.inj h]
              exact ⟨hall, fun _ h0 => absurd h0 hcret⟩
            · rw [if_neg hcret] at h
              rw [← Option.some.inj h]
              exact ⟨hall, fun _ _ => ⟨_, rfl⟩⟩
          · rw [if_neg hd] at h
            rw [← Option.some.inj h]
            exact ⟨hplog, fun h0 => absurd h0 hd⟩
      · rw [if_neg hprops] at h
        rw [← Option.some.inj h]
        exact ⟨hself, fun h0 => absurd (Or.inl h0) hprops⟩

/-! ## the 32-bit functions -/

theorem dtParse32Cbp_agree (cbs32 : Callbacks32 σ) (cbs : Callbacks σ) (h : cbs32.Same cbs) :
    (⟨cbs32.node, cbs32.prop.map dtParse32Cbp⟩ : Callbacks σ).Agree cbs := by
  obtain ⟨hnode, hprop⟩ := h
  obtain ⟨node32, prop32⟩ := cbs32
  obtain ⟨node, prop⟩ := cbs
  obtain rfl : node32 = node := hnode
  cases prop32 with
  | none =>
    cases prop with
    | none => exact ⟨fun _ _ _ => rfl, fun _ _ _ _ _ _ _ => rfl, rfl⟩
    | some cb => exact False.elim hprop
  | some cb32 =>
    cases prop with
    | none => exact False.elim hprop
    | some cb =>
      refine ⟨fun _ _ _ => rfl, fun s a d key val len hlen => ?_, rfl⟩
      show cb32 s a d key val (UInt32.ofNat len) = cb s a d key val len
      rw [hprop, UInt32.toNat_ofNat_of_lt' (show len < 2^32 by omega)]

/-- **`dt_parse_32` makes the walk of `dt_parse`** and stores the low 32 bits of its offset -/
theorem dtParse32_agrees (mem : Mem) (cbs32 : Callbacks32 σ) (cbs : Callbacks σ)
    (hsame : cbs32.Same cbs) (fuel node : ℕ) (s : σ) (r : ParseOut32 σ)
    (h : dtParse32 mem cbs32 fuel node 0 s = some r) (h0 : r.ret = 0) :
    ∃ out off, dtParse mem cbs fuel node 0 s = some out ∧ out.ret = r.ret ∧ out.st = r.st ∧
      out.log = r.log ∧ out.offp = some off ∧ r.off = off % 2^32 := by
  obtain ⟨out, ho, rfl⟩ := Option.map_eq_some_iff.mp h
  rw [dtParse_congr mem _ cbs (dtParse32Cbp_agree cbs32 cbs hsame)] at ho
  obtain ⟨hlog, hoff⟩ := dtParse_out mem cbs fuel node 0 s out ho
  obtain ⟨off, hoff⟩ := hoff (le_refl 0) h0
  refine ⟨out, off, ho, rfl, rfl, ?_, hoff, ?_⟩
  · show out.log = out.log.map Visit.low32
    rw [List.map_congr_left fun v hv => Visit.low32_of_low24 v (hlog v hv), List.map_id']
  · show out.offp.getD 0 % 2^32 = off % 2^32
    rw [hoff, Option.getD_some]

/-- the walk over an accepted blob ends inside it -/
theorem dtParse_accepted_off (mem : Mem) (cbs : Callbacks σ) (base size : ℕ) (chk : CheckOut)
    (hr : mem.Readable base size) (hc : dtCheck mem base size = some chk) (h0 : chk.ret = 0)
    (hsize : size < 2^32) (fuel : ℕ) (s : σ) (out : ParseOut σ) (off : ℕ)
    (h : dtParse mem cbs fuel base 0 s = some out) (hoff : out.offp = some off) : off ≤ size := by
  obtain ⟨n, cs, b, hn, hb, _⟩ := dtCheck_node mem base size chk hr hc h0
  have hshallow := dtCheck_shallow mem base size (by omega) n cs b hn hb
  have hwalk := dtParse_spec mem cbs n cs (cs.height + 1) base b 0 s hn (by omega) fun v hv => by
    have hd := visits_depth_lt 0 _ v (runUntil_mem cbs.step s _ v hv)
    have hm : (Forest.node n cs .nil).height = max (cs.height + 1) 0 := rfl
    omega
  have hgrows := dtParse_grows mem cbs base 0 s
  obtain rfl := (hgrows.returns fuel out h).unique (hgrows.returns _ _ hwalk)
  have he : (ParseOut.ofRun (b - base) (runUntil cbs.step s (visits 0 (.node n cs .nil)))).offp
      = some off := hoff
  rw [ParseOut.ofRun] at he
  dsimp only at he
  split at he
  · have := Option.some.inj he
    omega
  · cases he

end

/-- **`dt_check_32` is `dt_check`** on a blob below 4 GiB that it accepts -/
theorem dtCheck32_agrees (mem : Mem) (base size off : ℕ) (hr : mem.Readable base size)
    (hsize : size < 2^32) (h : dtCheck32 mem base size = some (0, off)) :
    ∃ out, dtCheck mem base size = some out ∧ out.ret = 0 ∧ out.offp = some off := by
  obtain ⟨out, ho, e⟩ := Option.map_eq_some_iff.mp h
  obtain ⟨h0, e⟩ := Prod.mk.inj e
  obtain ⟨n, cs, b, _, hb, hoff⟩ := dtCheck_node mem base size out hr ho h0
  rw [hoff, Option.getD_some, Nat.mod_eq_of_lt (by omega)] at e
  exact ⟨out, ho, h0, by rw [hoff, e]⟩

/-! ## `dt_prop` -/

theorem Mem.strN_window (mem : Mem) (lo hi a n : ℕ) (hlo : lo ≤ a) (hhi : a + n ≤ hi) :
    (mem.window lo hi).strN a n = mem.strN a n := by
  induction n generalizing a with
  | zero => rfl
  | succ n ih =>
    rw [Mem.strN, Mem.strN, Mem.window_in mem lo hi a hlo (by omega),
      ih (a + 1) (by omega) (by omega)]

/-- where the key field holds a string, `dt_prop_cb` compares it with the whole key -/
theorem hasKey_iff (mem : Mem) (p : PropRec) (key s : List UInt8) (hr : mem.Readable p.key dtKeyLen)
    (hs : IsStr (mem.at p.key) s) (hlen : s.length < dtKeyLen) (hkl : key.length < dtKeyLen) :
    p.hasKey mem key = true ↔ IsStr (mem.at p.key) key := by
  have hstr : ∀ t, IsStr (mem.at p.key) t → t.length < dtKeyLen → mem.strN p.key dtKeyLen = t := by
    intro t ht htl
    have hcut := ht.take dtKeyLen
    rw [List.take_of_length_le (le_of_lt htl)] at hcut
    exact isStrN_unique _ dtKeyLen _ _ (Mem.isStrN_strN mem p.key dtKeyLen hr) hcut
  rw [PropRec.hasKey, decide_eq_true_iff]
  constructor
  · intro h
    rw [← h, hstr s hs hlen]
    exact hs
  · intro h
    exact hstr key h hkl

/-- the keys of a node are strings that end in their 32 bytes -/
def NodeRec.KeysOk (mem : Mem) (q : NodeRec) : Prop :=
  ∀ p ∈ q.props, ∃ s, s.length < dtKeyLen ∧ IsStr (mem.at p.key) s

/-- the first property with the key, or that there is none -/
def NodeRec.First (mem : Mem) (q : NodeRec) (key : List UInt8) : Option PropRec → Prop
  | some p => ∃ pre post, q.props = pre ++ p :: post ∧ IsStr (mem.at p.key) key ∧
      ∀ r ∈ pre, ¬ IsStr (mem.at r.key) key
  | none => ∀ r ∈ q.props, ¬ IsStr (mem.at r.key) key

theorem find_first (mem : Mem) (q : NodeRec) (key : List UInt8) (hkl : key.length < dtKeyLen)
    (hkeys : q.KeysOk mem) (hr : ∀ p ∈ q.props, mem.Readable p.key dtKeyLen) :
    q.First mem key (q.find mem key) := by
  have hiff : ∀ r ∈ q.props, (r.hasKey mem key = true ↔ IsStr (mem.at r.key) key) := by
    intro r hm
    obtain ⟨s, hlen, hs⟩ := hkeys r hm
    exact hasKey_iff mem r key s (hr r hm) hs hlen hkl
  cases hf : q.find mem key with
  | none =>
    intro r hm h
    exact List.find?_eq_none.mp hf r hm ((hiff r hm).mpr h)
  | some p =>
    obtain ⟨hp, pre, post, e, hpre⟩ := List.find?_eq_some_iff_append.mp hf
    refine ⟨pre, post, e, (hiff p (NodeRec.find_mem hf)).mp hp, fun r hm h => ?_⟩
    have hin : r ∈ q.props := by
      rw [e]
      exact List.mem_append_left _ hm
    have := hpre r hm
    rw [(hiff r hin).mpr h] at this
    cases this

section
variable (lib : AsciiLib)

/-- **`dt_prop` and `dt_prop_32` at a node**: the walk visits the first properties of the node and
nothing else, and reads only the bytes of its header and its properties; the value and the length
are those of the first property with the key, and without one `dt_prop` leaves the length alone -/
structure PropLookup (mem : Mem) (q : NodeRec) (key : List UInt8) : Prop where
  visits : ∃ out seen, dtParse mem ⟨none, some (faulting (dtPropCb lib mem key))⟩ 1 q.addr (-1)
      (some ⟨none, 0⟩) = some out ∧
    seen <+: q.props ∧ out.log = .node q.addr (-1) :: propVisits q.addr (-1) seen
  reads : ∃ m, mem.IsProps q.props (q.addr + sizeofNode) m ∧
    dtProp lib (mem.window q.addr m) q.addr key = dtProp lib mem q.addr key
  first : ∃ found, q.First mem key found ∧ ∀ len,
    dtPropLen lib mem q.addr key len
      = some (found.map PropRec.val, (found.map PropRec.len).getD len) ∧
    dtProp32 lib mem q.addr key
      = some (found.map PropRec.val, (found.map PropRec.len).getD 0)

/-- the key of a property is inside the node -/
theorem key_in (mem : Mem) (q : NodeRec) (m : ℕ)
    (hp : mem.IsProps q.props (q.addr + sizeofNode) m) (p : PropRec) (hm : p ∈ q.props) :
    q.addr ≤ p.key ∧ p.key + dtKeyLen ≤ m := by
  obtain ⟨h2, h3⟩ := (Mem.isProps_in mem q.props _ m hp).2 p hm
  have hst : p.stop = p.key + (sizeofProp + padded p.len) := rfl
  have hsz : sizeofNode = 8 := rfl
  have hszp : sizeofProp = 36 := rfl
  have hkl : dtKeyLen = 32 := rfl
  omega

theorem key_readable (mem mem' : Mem) (q : NodeRec) (m : ℕ)
    (hp : mem.IsProps q.props (q.addr + sizeofNode) m)
    (hread : mem'.Readable q.addr (m - q.addr)) :
    ∀ p ∈ q.props, mem'.Readable p.key dtKeyLen := by
  intro p hm
  have hk := key_in mem q m hp p hm
  have := Mem.readable_sub mem' q.addr _ (p.key - q.addr) dtKeyLen hread (by omega)
  rw [show q.addr + (p.key - q.addr) = p.key by omega] at this
  exact this

section
variable (mem : Mem) (hl : lib.Documented) (q : NodeRec) (m : ℕ) (key : List UInt8)
  (hk : NoNul key) (hkl : key.length < dtKeyLen) (h1 : mem.le32 q.addr = some q.props.length)
  (hp : mem.IsProps q.props (q.addr + sizeofNode) m) (hread : mem.Readable q.addr (m - q.addr))
include hl hk hkl h1 hp hread

/-- **`dt_prop` reads only the node**: the rest of the memory may be missing -/
theorem dtProp_window :
    dtProp lib (mem.window q.addr m) q.addr key = dtProp lib mem q.addr key := by
  have hsz : sizeofNode = 8 := rfl
  have hle := (Mem.isProps_in mem q.props _ m hp).1
  have hwr := Mem.readable_window mem q.addr (m - q.addr) hread
  rw [show q.addr + (m - q.addr) = m by omega] at hwr
  have hw1 : (mem.window q.addr m).le32 q.addr = some q.props.length := by
    rw [Mem.le32_window mem q.addr m q.addr (le_refl _) (by omega)]
    exact h1
  have hfind : q.find (mem.window q.addr m) key = q.find mem key := by
    refine List.find?_congr fun p hm => ?_
    obtain ⟨h2, h3⟩ := key_in mem q m hp p hm
    rw [PropRec.hasKey, PropRec.hasKey, Mem.strN_window mem q.addr m p.key dtKeyLen h2 h3]
  rw [dtProp_spec lib mem hl key hk (le_of_lt hkl) q m h1 hp (key_readable mem mem q m hp hread),
    dtProp_spec lib _ hl key hk (le_of_lt hkl) q m hw1
      (Mem.isProps_window mem q.props _ m q.addr m hp (by omega) (le_refl m))
      (key_readable mem _ q m hp hwr), hfind]

theorem dtProp_first (hkeys : q.KeysOk mem) : PropLookup lib mem q key := by
  have hr := key_readable mem mem q m hp hread
  obtain ⟨out, hout, _, seen, hseen, hlog⟩ := dtProp_walk lib mem hl key hk q m h1 hp hr
  have hprop := dtProp_spec lib mem hl key hk (le_of_lt hkl) q m h1 hp hr
  refine ⟨⟨out, seen, hout, hseen, hlog⟩,
    ⟨m, hp, dtProp_window lib mem hl q m key hk hkl h1 hp hread⟩, q.find mem key,
    find_first mem q key hkl hkeys hr, fun len => ⟨?_, ?_⟩⟩
  · rw [dtPropLen, hprop]
    cases q.find mem key with
    | none => rfl
    | some p => rfl
  · rw [dtProp32, dtPropLen, hprop]
    cases hf : q.find mem key with
    | none => rfl
    | some p =>
      have hlen := Mem.isProps_len_lt mem q.props _ m hp p (NodeRec.find_mem hf)
      show some (some p.val, p.len % 2^32) = some (some p.val, p.len)
      rw [Nat.mod_eq_of_lt (by omega)]

end

end

/-! ## all of them -/

/-- **Lookup and the 32-bit entry points.**  In an accepted tree `dt_prop` and `dt_prop_32` give the
first property of the node with the key.  On a blob below 4 GiB that it accepts, `dt_check_32`
stores the offset of `dt_check`.  A walk of `dt_parse_32` from depth 0 that returns 0 is the walk of
`dt_parse`, and the offset is the same modulo `2^32`: it is the same if it is below 4 GiB, so on
every blob below 4 GiB that `dt_check` accepts. -/
theorem compat_agrees {σ : Type*} (lib : AsciiLib) (mem : Mem) (adt size : ℕ) (out : CheckOut)
    (n : NodeRec) (cs : Forest NodeRec) (b : ℕ) (hl : lib.Documented) (hr : mem.Readable adt size)
    (hc : dtCheck mem adt size = some out) (h0 : out.ret = 0) (hn : mem.IsNode n cs adt b)
    (hkeys : ∀ q ∈ (Forest.node n cs .nil).labels, q.KeysOk mem) :
    (∀ q ∈ (Forest.node n cs .nil).labels, ∀ key, NoNul key → key.length < dtKeyLen →
      PropLookup lib mem q key) ∧
    (∀ blob base len off, Mem.Readable blob base len → len < 2^32 →
      dtCheck32 blob base len = some (0, off) →
        ∃ chk, dtCheck blob base len = some chk ∧ chk.ret = 0 ∧ chk.offp = some off) ∧
    ∀ blob base fuel (cbs32 : Callbacks32 σ) (cbs : Callbacks σ) (s : σ) (r : ParseOut32 σ),
      cbs32.Same cbs → dtParse32 blob cbs32 fuel base 0 s = some r → r.ret = 0 →
        ∃ o off, dtParse blob cbs fuel base 0 s = some o ∧ o.ret = r.ret ∧ o.st = r.st ∧
          o.log = r.log ∧ o.offp = some off ∧ r.off = off % 2^32 ∧ (off < 2^32 → r.off = off) ∧
          ∀ len chk, Mem.Readable blob base len → len < 2^32 → dtCheck blob base len = some chk →
            chk.ret = 0 → r.off = off := by
  have hread := dtCheck_readable mem adt size out hr hc h0 n cs b hn
  refine ⟨fun q hq key hk hkl => ?_, fun blob base len off => dtCheck32_agrees blob base len off,
    fun blob base fuel cbs32 cbs s r hsame h hret => ?_⟩
  · obtain ⟨h1, m, h2, h3, h4⟩ := Mem.isForest_node mem _ adt b hn q hq
    have hm := (Mem.isProps_in mem q.props _ m h2).1
    have hsub := Mem.readable_sub mem adt _ (q.addr - adt) (m - q.addr) hread (by omega)
    rw [show adt + (q.addr - adt) = q.addr by omega] at hsub
    exact dtProp_first lib mem hl q m key hk hkl h1 h2 hsub (hkeys q hq)
  · obtain ⟨o, off, ho, h1, h2, h3, hoff, h4⟩ :=
      dtParse32_agrees blob cbs32 cbs hsame fuel base s r h hret
    refine ⟨o, off, ho, h1, h2, h3, hoff, h4, fun hlt => ?_, fun len chk hrd hlen hchk hok => ?_⟩
    · rw [h4, Nat.mod_eq_of_lt hlt]
    · have hle := dtParse_accepted_off blob cbs base len chk hrd hchk hok hlen fuel s o off ho hoff
      rw [h4, Nat.mod_eq_of_lt (by omega)]

theorem busMem_keys : ∀ q ∈ (Forest.node busRoot busForest .nil).labels, q.KeysOk busMem := by
  have h : ∀ q ∈ (Forest.node busRoot busForest .nil).labels, ∀ p ∈ q.props,
      (busMem.strN p.key dtKeyLen).length < dtKeyLen ∧
        IsStr (busMem.at p.key) (busMem.strN p.key dtKeyLen) := by
    unfold IsStr
    decide +kernel
  intro q hq p hp
  exact ⟨_, h q hq p hp⟩

/-- the `reg` of the device, and the check of the whole tree -/
theorem busDevice_compat : PropLookup asciiLib busMem busDevice regKey ∧
    ∃ chk, dtCheck busMem 0x800000000 280 = some chk ∧ chk.ret = 0 ∧ chk.offp = some 280 := by
  have hc := dtCheck_complete busMem _ _ 0x800000000 0x800000118 280 busMem_isNode (le_refl _)
  have h := @compat_agrees Unit asciiLib busMem 0x800000000 280 _ busRoot busForest 0x800000118
    asciiLib_documented busMem_readable hc rfl busMem_isNode busMem_keys
  refine ⟨h.1 busDevice (by decide) regKey (by decide) (by decide),
    h.2.1 busMem 0x800000000 280 280 busMem_readable (by decide) ?_⟩
  rw [dtCheck32, hc]
  rfl

/-- a node of 256 properties of `0xffffff` bytes; the value of the last one is behind the blob -/
def malformedSize : ℕ := 8 + 255 * 16777252 + 36

def malformedMem : Mem := fun x =>
  if 0x800000000 ≤ x ∧ x < 0x800000000 + malformedSize then
    let i := x - 0x800000000
    if i = 1 then some 1
    else if 8 ≤ i ∧ 32 ≤ (i - 8) % 16777252 ∧ (i - 8) % 16777252 < 35 then some 0xff
    else some 0
  else none

/-- the walk ends behind 4 GiB, and `dt_parse_32` stores the low 32 bits -/
theorem malformedMem_offset :
    malformedMem.Readable 0x800000000 malformedSize ∧ malformedSize < 2^32 ∧
      (dtParse32 malformedMem (⟨none, none⟩ : Callbacks32 Unit) 1 0x800000000 0 ()).map
        (fun r => (r.ret, r.off)) = some (0, 9224) ∧
      (dtParse malformedMem (⟨none, none⟩ : Callbacks Unit) 1 0x800000000 0 ()).map
        (fun o => (o.ret, o.offp)) = some (0, some (2^32 + 9224)) := by
  refine ⟨?_, by decide, by decide +kernel, by decide +kernel⟩
  intro i hi
  rw [malformedMem, if_pos ⟨by omega, by omega⟩]
  dsimp only
  split
  · exact ⟨_, rfl⟩
  · split
    · exact ⟨_, rfl⟩
    · exact ⟨_, rfl⟩

end AppleSilicon
