import AppleSilicon.Lib.Ascii
import AppleSilicon.Dt.Parse

/-!
# Lookups in the tree: `dt_find`, `dt_prop`, `dt_node_u32`, `get_cells`

A pointer that may be `NULL` is an `Option`.  A lookup reads the tree, so it fails (`none`) where
the C code would read outside the memory; `dt_node_u32` fails where it asserts.

* `dtFind_grows`     the fuel of `dt_find` does not matter where it suffices;
* `dtProp_spec`      `dt_prop` finds the first property with the key;
* `dtNodeU32_spec`   `dt_node_u32` reads the first word of its value;
* `getCells_spec`    `get_cells` puts the cells together, least significant first.
-/

namespace AppleSilicon

/-- a `cb_prop` that reads memory: where it fails, the client state is lost and the walk stops -/
def faulting {σ : Type*} (cb : σ → ℕ → Int → ℕ → ℕ → ℕ → Option (σ × Int)) :
    Option σ → ℕ → Int → ℕ → ℕ → ℕ → Option σ × Int :=
  fun s node depth key val len =>
    match s.bind (fun t => cb t node depth key val len) with
    | none => (none, 1)
    | some (t, r) => (some t, r)

/-- a `cb_node` that reads memory -/
def faultingNode {σ : Type*} (cb : σ → ℕ → Int → Option (σ × Int)) :
    Option σ → ℕ → Int → Option σ × Int :=
  fun s node depth =>
    match s.bind (fun t => cb t node depth) with
    | none => (none, 1)
    | some (t, r) => (some t, r)

theorem faulting_some {σ : Type*} (cb : σ → ℕ → Int → ℕ → ℕ → ℕ → Option (σ × Int)) (s t : σ)
    (r : Int) (node : ℕ) (depth : Int) (key val len : ℕ)
    (h : cb s node depth key val len = some (t, r)) :
    faulting cb (some s) node depth key val len = (some t, r) := by
  rw [faulting, Option.bind_some, h]

theorem faulting_step {σ : Type*} (nd : Option (Option σ → ℕ → Int → Option σ × Int))
    (cb : σ → ℕ → Int → ℕ → ℕ → ℕ → Option (σ × Int)) (s t : σ) (r : Int) (node : ℕ) (depth : Int)
    (key val len : ℕ) (h : cb s node depth key val len = some (t, r)) :
    (⟨nd, some (faulting cb)⟩ : Callbacks (Option σ)).step (some s) (.prop node depth key val len)
      = (some t, if r = 0 then none else some r) := by
  have hf := faulting_some cb s t r node depth key val len h
  show ((faulting cb (some s) node depth key val len).1,
    if (faulting cb (some s) node depth key val len).2 = 0 then none
    else some (faulting cb (some s) node depth key val len).2) = _
  rw [hf]

theorem faultingNode_step {σ : Type*}
    (pr : Option (Option σ → ℕ → Int → ℕ → ℕ → ℕ → Option σ × Int))
    (cb : σ → ℕ → Int → Option (σ × Int)) (s t : σ) (r : Int) (node : ℕ) (depth : Int)
    (h : cb s node depth = some (t, r)) :
    (⟨some (faultingNode cb), pr⟩ : Callbacks (Option σ)).step (some s) (.node node depth)
      = (some t, if r = 0 then none else some r) := by
  have hf : faultingNode cb (some s) node depth = (some t, r) := by
    rw [faultingNode, Option.bind_some, h]
  show ((faultingNode cb (some s) node depth).1,
    if (faultingNode cb (some s) node depth).2 = 0 then none
    else some (faultingNode cb (some s) node depth).2) = _
  rw [hf]

theorem faultingNode_fault {σ : Type*}
    (pr : Option (Option σ → ℕ → Int → ℕ → ℕ → ℕ → Option σ × Int))
    (cb : σ → ℕ → Int → Option (σ × Int)) (s : σ) (node : ℕ) (depth : Int)
    (h : cb s node depth = none) :
    (⟨some (faultingNode cb), pr⟩ : Callbacks (Option σ)).step (some s) (.node node depth)
      = (none, some 1) := by
  have hf : faultingNode cb (some s) node depth = (none, 1) := by
    rw [faultingNode, Option.bind_some, h]
  show ((faultingNode cb (some s) node depth).1,
    if (faultingNode cb (some s) node depth).2 = 0 then none
    else some (faultingNode cb (some s) node depth).2) = _
  rw [hf]
  rfl

/-- `dt_find_cb_t`; `name` is what is left of the path -/
structure FindArg where
  name : List UInt8
  node : Option ℕ
  matchdepth : Int
deriving DecidableEq

/-- the separator of a path, `/` -/
def slash : UInt8 := 0x2f

def ascii (s : List Char) : List UInt8 := s.map (fun c => UInt8.ofNat c.toNat)

def nameKey : List UInt8 := ascii ['n', 'a', 'm', 'e']

/-- `dt_prop_cb_t` -/
structure PropArg where
  val : Option ℕ
  len : ℕ
deriving DecidableEq

section
variable (lib : AsciiLib) (mem : Mem)

/-- the end of `dt_find_cb`: a simple name or the last segment of a path -/
def dtFindLeaf (arg : FindArg) (name : List UInt8) (node val len : ℕ) : Option (FindArg × Int) :=
  (lib.asciiStrnCmp name (mem.at val) len).map fun r =>
    if r = 0 ∧ lib.asciiStrLen name + 1 = len then ({ arg with node := some node }, 1)
    else (arg, 0)

def dtFindCb (arg : FindArg) (node : ℕ) (depth : Int) (key val len : ℕ) :
    Option (FindArg × Int) :=
  (lib.asciiStrCmp (mem.at key) nameKey).bind fun r =>
    if r ≠ 0 then some (arg, 0)
    else if arg.name.head? = some slash then
      if depth = 0 then some (arg, 0)
      -- inside the subtree of a node that did not match
      else if depth > arg.matchdepth then some (arg, 0)
      -- back out of the node that matched
      else if depth < arg.matchdepth then some (arg, -1)
      else
        let name := arg.name.tail
        match lib.asciiStrStr name [slash] with
        | some size =>
          (lib.asciiStrnCmp name (mem.at val) size).bind fun r =>
            if r = 0 ∧ size + 1 = len then
              (mem (val + size)).map fun c =>
                if c = 0 then (⟨name.drop size, arg.node, i32 (depth + 1)⟩, 0) else (arg, 0)
            else some (arg, 0)
        | none => dtFindLeaf lib mem arg name node val len
    else dtFindLeaf lib mem arg arg.name node val len

def findCbs : Callbacks (Option FindArg) := ⟨none, some (faulting (dtFindCb lib mem))⟩

/-- `dt_find(node, name)` -/
def dtFind (fuel node : ℕ) (name : List UInt8) : Option (Option ℕ) :=
  (dtParse mem (findCbs lib mem) fuel node 0 (some ⟨name, none, 1⟩)).bind fun out =>
    out.st.map FindArg.node

/-- more fuel does not change what `dt_find` finds -/
theorem dtFind_grows (node : ℕ) (name : List UInt8) :
    Grows (fun fuel => dtFind lib mem fuel node name) :=
  (dtParse_grows mem (findCbs lib mem) node 0 _).bind fun _ => grows_const _

def dtPropCb (key : List UInt8) (arg : PropArg) (_node : ℕ) (_depth : Int) (k val len : ℕ) :
    Option (PropArg × Int) :=
  (lib.asciiStrnCmp key (mem.at k) dtKeyLen).map fun r =>
    if r = 0 then (⟨some val, len⟩, 1) else (arg, 0)

/-- `dt_prop(node, key, &len)`: the value and its length, or `NULL`.  At depth -1 `dt_parse` makes
no recursive call. -/
def dtProp (node : ℕ) (key : List UInt8) : Option (Option (ℕ × ℕ)) :=
  (dtParse mem ⟨none, some (faulting (dtPropCb lib mem key))⟩ 1 node (-1) (some ⟨none, 0⟩)).bind
    fun out => out.st.map fun arg => arg.val.map fun v => (v, arg.len)

/-- `dt_node_u32`; `len` is 0 when the property is missing -/
def dtNodeU32 (node : Option ℕ) (prop : List UInt8) (idx : ℕ) : Option ℕ :=
  node.bind fun node => (dtProp lib mem node prop).bind fun v =>
    let len := (v.map Prod.snd).getD 0
    if len < (idx + 1) % 2^32 * 4 then none
    else v.bind fun p => mem.le32 (p.1 + 4 * idx)

/-- the loop of `get_cells`, with `n` iterations left -/
def getCellsLoop : ℕ → ℕ → ℕ → ℕ → Option (ℕ × ℕ)
  | 0, _, dst, src => some (dst, src)
  | n + 1, i, dst, src =>
    (mem.le32 src).bind fun w => getCellsLoop n (i + 1) (dst ||| w <<< (32 * i)) (src + 4)

/-- `get_cells(&dst, &src, cells)`: the number and the moved pointer.  It is only called for up to
two cells, so nothing is shifted out of the 64 bits. -/
def getCells (src cells : ℕ) : Option (ℕ × ℕ) := getCellsLoop mem cells 0 0 src

end

/-! ## what they find -/

namespace Mem

/-- the number held by `n` cells, least significant first -/
def cells (mem : Mem) : ℕ → ℕ → Option ℕ
  | _, 0 => some 0
  | a, n + 1 => (mem.le32 a).bind fun w => (mem.cells (a + 4) n).map fun v => w + 2^32 * v

theorem le32_lt (mem : Mem) (a w : ℕ) (h : mem.le32 a = some w) : w < 2^32 := by
  unfold le32 at h
  obtain ⟨b0, _, h⟩ := Option.bind_eq_some_iff.mp h
  obtain ⟨b1, _, h⟩ := Option.bind_eq_some_iff.mp h
  obtain ⟨b2, _, h⟩ := Option.bind_eq_some_iff.mp h
  obtain ⟨b3, _, h⟩ := Option.bind_eq_some_iff.mp h
  have h0 := b0.toNat_lt
  have h1 := b1.toNat_lt
  have h2 := b2.toNat_lt
  have h3 := b3.toNat_lt
  have := Option.some.inj h
  omega

theorem cells_readable (mem : Mem) (a n : ℕ) (h : mem.Readable a (4 * n)) :
    ∃ v, mem.cells a n = some v := by
  induction n generalizing a with
  | zero => exact ⟨0, rfl⟩
  | succ n ih =>
    obtain ⟨w, hw⟩ := le32_readable mem a (readable_mono mem a _ 4 h (by omega))
    obtain ⟨v, hv⟩ := ih (a + 4) (readable_sub mem a _ 4 _ h (by omega))
    rw [cells, hw, Option.bind_some, hv]
    exact ⟨_, rfl⟩

end Mem

theorem getCellsLoop_spec (mem : Mem) (n i dst src v : ℕ) (hd : dst < 2^(32 * i))
    (hv : mem.cells src n = some v) :
    getCellsLoop mem n i dst src = some (dst + 2^(32 * i) * v, src + 4 * n) := by
  induction n generalizing i dst src v with
  | zero =>
    obtain rfl := Option.some.inj hv
    rw [getCellsLoop, Nat.mul_zero, Nat.mul_zero, Nat.add_zero, Nat.add_zero]
  | succ n ih =>
    obtain ⟨w, hw, hv⟩ := Option.bind_eq_some_iff.mp hv
    obtain ⟨v', hv', rfl⟩ := Option.map_eq_some_iff.mp hv
    have hlt := Mem.le32_lt mem src w hw
    have hor : dst ||| w <<< (32 * i) = dst + 2^(32 * i) * w := by
      rw [Nat.or_comm, ← Nat.shiftLeft_add_eq_or_of_lt hd, Nat.shiftLeft_eq, Nat.add_comm,
        Nat.mul_comm]
    have hpow : 2^(32 * (i + 1)) = 2^(32 * i) * 2^32 := by
      rw [← Nat.pow_add, show 32 * (i + 1) = 32 * i + 32 by omega]
    have hd' : dst + 2^(32 * i) * w < 2^(32 * (i + 1)) := by
      have : 2^(32 * i) * (w + 1) ≤ 2^(32 * i) * 2^32 := Nat.mul_le_mul_left _ hlt
      rw [Nat.mul_add, Nat.mul_one] at this
      omega
    have hval : dst + 2^(32 * i) * w + 2^(32 * i) * 2^32 * v'
        = dst + 2^(32 * i) * (w + 2^32 * v') := by ring
    rw [getCellsLoop, hw, Option.bind_some, hor, ih (i + 1) _ (src + 4) v' hd' hv', hpow, hval,
      show src + 4 + 4 * n = src + 4 * (n + 1) by omega]

/-- **`get_cells` reads a number of 32-bit cells**, least significant first. -/
theorem getCells_spec (mem : Mem) (src n v : ℕ) (hv : mem.cells src n = some v) :
    getCells mem src n = some (v, src + 4 * n) := by
  rw [getCells, getCellsLoop_spec mem n 0 0 src v (Nat.two_pow_pos _) hv, Nat.mul_zero,
    Nat.pow_zero, Nat.one_mul, Nat.zero_add]

def PropRec.hasKey (mem : Mem) (key : List UInt8) (p : PropRec) : Bool :=
  decide (mem.strN p.key dtKeyLen = key)

/-- the first property of the node with the key -/
def NodeRec.find (mem : Mem) (n : NodeRec) (key : List UInt8) : Option PropRec :=
  n.props.find? (PropRec.hasKey mem key)

theorem NodeRec.find_mem {mem : Mem} {n : NodeRec} {key : List UInt8} {p : PropRec}
    (h : n.find mem key = some p) : p ∈ n.props :=
  List.mem_of_find?_eq_some h

section
variable (lib : AsciiLib) (mem : Mem)

theorem dtPropCb_step (hl : lib.Documented) (key : List UInt8) (hk : NoNul key) (p : PropRec)
    (hr : mem.Readable p.key dtKeyLen) (node : ℕ) (depth : Int) (arg : PropArg) :
    (⟨none, some (faulting (dtPropCb lib mem key))⟩ : Callbacks (Option PropArg)).step (some arg)
        (.prop node depth p.key p.val p.len)
      = if p.hasKey mem (key.take dtKeyLen) then (some ⟨some p.val, p.len⟩, some 1)
        else (some arg, none) := by
  obtain ⟨r, hr, hiff⟩ :=
    hl.strnCmp key (mem.at p.key) dtKeyLen _ hk (Mem.isStrN_strN mem p.key dtKeyLen hr)
  have hcb : dtPropCb lib mem key arg node depth p.key p.val p.len
      = some (if r = 0 then (⟨some p.val, p.len⟩, 1) else (arg, 0)) := by
    rw [dtPropCb, hr]
    rfl
  by_cases h0 : r = 0
  · have hkey : p.hasKey mem (key.take dtKeyLen) = true := decide_eq_true (hiff.mp h0).symm
    rw [if_pos h0] at hcb
    rw [faulting_step none _ _ _ _ _ _ _ _ _ hcb, hkey]
    rfl
  · have hkey : p.hasKey mem (key.take dtKeyLen) = false :=
      decide_eq_false (fun e => h0 (hiff.mpr e.symm))
    rw [if_neg h0] at hcb
    rw [faulting_step none _ _ _ _ _ _ _ _ _ hcb, hkey]
    rfl

/-- the run of `dt_prop_cb` over the properties of a node is the search for the key -/
theorem dtPropCb_run (hl : lib.Documented) (key : List UInt8) (hk : NoNul key) (node : ℕ)
    (depth : Int) (ps : List PropRec) (hr : ∀ p ∈ ps, mem.Readable p.key dtKeyLen) (arg : PropArg) :
    (runUntil (⟨none, some (faulting (dtPropCb lib mem key))⟩ : Callbacks (Option PropArg)).step
        (some arg) (propVisits node depth ps)).state
      = some (((ps.find? (PropRec.hasKey mem (key.take dtKeyLen))).map
          (fun p => ⟨some p.val, p.len⟩)).getD arg) := by
  induction ps with
  | nil => rfl
  | cons p ps ih =>
    have hs := dtPropCb_step lib mem hl key hk p (hr p (List.mem_cons_self ..)) node depth arg
    rw [show propVisits node depth (p :: ps)
      = .prop node depth p.key p.val p.len :: propVisits node depth ps from rfl]
    cases h : p.hasKey mem (key.take dtKeyLen) with
    | true =>
      rw [h, if_pos rfl] at hs
      rw [runUntil_cons_stop _ _ _ _ 1 (by rw [hs]), hs, List.find?_cons_of_pos h]
      rfl
    | false =>
      rw [h, if_neg Bool.false_ne_true] at hs
      rw [runUntil_cons_go _ _ _ _ (by rw [hs]), hs,
        List.find?_cons_of_neg (by rw [h]; exact Bool.false_ne_true)]
      exact ih (fun q hq => hr q (List.mem_cons_of_mem _ hq))

/-- the walk of `dt_prop`: it searches the properties of the node, and visits nothing but some of
the first of them -/
theorem dtProp_walk (hl : lib.Documented) (key : List UInt8) (hk : NoNul key) (n : NodeRec) (m : ℕ)
    (h1 : mem.le32 n.addr = some n.props.length)
    (hp : mem.IsProps n.props (n.addr + sizeofNode) m)
    (hr : ∀ p ∈ n.props, mem.Readable p.key dtKeyLen) :
    ∃ out, dtParse mem ⟨none, some (faulting (dtPropCb lib mem key))⟩ 1 n.addr (-1)
        (some ⟨none, 0⟩) = some out ∧
      out.st = some (((n.find mem (key.take dtKeyLen)).map
        (fun p => ⟨some p.val, p.len⟩)).getD ⟨none, 0⟩) ∧
      ∃ seen, seen <+: n.props ∧ out.log = .node n.addr (-1) :: propVisits n.addr (-1) seen := by
  obtain ⟨cbs, hcbs⟩ : ∃ cbs : Callbacks (Option PropArg),
    cbs = ⟨none, some (faulting (dtPropCb lib mem key))⟩ := ⟨_, rfl⟩
  have hnode : cbs.onNode (some ⟨none, 0⟩) n.addr (-1) = (some ⟨none, 0⟩, 0) := by rw [hcbs]; rfl
  have hprop : (-1 : Int) ≥ 0 ∨ cbs.prop.isSome = true := Or.inr (by rw [hcbs]; rfl)
  have hrun := dtPropCb_run lib mem hl key hk n.addr (-1) n.props hr ⟨none, 0⟩
  rw [← hcbs] at hrun ⊢
  obtain ⟨off, he, _⟩ :=
    dtParseProps_spec mem cbs n.addr (-1) n.props sizeofNode m (some ⟨none, 0⟩) hp
  obtain ⟨run, hdef⟩ : ∃ run, run = runUntil cbs.step (some ⟨none, 0⟩)
    (propVisits n.addr (-1) n.props) := ⟨_, rfl⟩
  rw [← hdef] at hrun he
  have hout : ∃ o, dtParse mem cbs 1 n.addr (-1) (some ⟨none, 0⟩)
      = some ⟨(ParseCur.ofRun off run).ret, o, run.state, .node n.addr (-1) :: run.seen⟩ := by
    rw [dtParse, hnode, if_neg (fun h => h rfl), if_pos hprop, h1, Option.bind_some, he,
      Option.bind_some]
    by_cases h0 : (ParseCur.ofRun off run).ret = 0
    · rw [if_neg (fun h => h h0), if_neg (by decide), h0]
      exact ⟨_, rfl⟩
    · rw [if_pos h0]
      exact ⟨_, rfl⟩
  obtain ⟨o, hout⟩ := hout
  have hseen : run.seen <+: propVisits n.addr (-1) n.props := by
    rw [hdef]
    exact runUntil_seen cbs.step _ _
  obtain ⟨seen, hs, e⟩ := List.prefix_map_iff.mp hseen
  exact ⟨_, hout, hrun, seen, hs, congrArg _ e⟩

/-- `dt_prop` compares no more than the 32 characters of a key -/
theorem dtProp_take (hl : lib.Documented) (key : List UInt8) (hk : NoNul key) (n : NodeRec) (m : ℕ)
    (h1 : mem.le32 n.addr = some n.props.length)
    (hp : mem.IsProps n.props (n.addr + sizeofNode) m)
    (hr : ∀ p ∈ n.props, mem.Readable p.key dtKeyLen) :
    dtProp lib mem n.addr key
      = some ((n.find mem (key.take dtKeyLen)).map (fun p => (p.val, p.len))) := by
  obtain ⟨out, hout, hst, _⟩ := dtProp_walk lib mem hl key hk n m h1 hp hr
  rw [dtProp, hout, Option.bind_some, hst]
  cases n.find mem (key.take dtKeyLen) with
  | none => rfl
  | some p => rfl

/-- **`dt_prop` finds the first property with the key.** -/
theorem dtProp_spec (hl : lib.Documented) (key : List UInt8) (hk : NoNul key)
    (hkl : key.length ≤ dtKeyLen) (n : NodeRec) (m : ℕ)
    (h1 : mem.le32 n.addr = some n.props.length)
    (hp : mem.IsProps n.props (n.addr + sizeofNode) m)
    (hr : ∀ p ∈ n.props, mem.Readable p.key dtKeyLen) :
    dtProp lib mem n.addr key = some ((n.find mem key).map (fun p => (p.val, p.len))) := by
  rw [dtProp_take lib mem hl key hk n m h1 hp hr, List.take_of_length_le hkl]

/-- **`dt_node_u32`** of a property of at least four bytes. -/
theorem dtNodeU32_spec (hl : lib.Documented) (key : List UInt8) (hk : NoNul key)
    (hkl : key.length ≤ dtKeyLen) (n : NodeRec) (m : ℕ)
    (h1 : mem.le32 n.addr = some n.props.length)
    (hp : mem.IsProps n.props (n.addr + sizeofNode) m)
    (hr : ∀ p ∈ n.props, mem.Readable p.key dtKeyLen) (p : PropRec)
    (hf : n.find mem key = some p) (hlen : 4 ≤ p.len) :
    dtNodeU32 lib mem (some n.addr) key 0 = mem.le32 p.val := by
  rw [dtNodeU32, Option.bind_some, dtProp_spec lib mem hl key hk hkl n m h1 hp hr, hf]
  show (if p.len < 4 then none else mem.le32 (p.val + 4 * 0)) = _
  rw [if_neg (by omega), Nat.mul_zero, Nat.add_zero]

end

end AppleSilicon
