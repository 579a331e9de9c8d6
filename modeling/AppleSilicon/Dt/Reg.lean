import AppleSilicon.Dt.Parent

/-!
# `dt_node_reg`: the CPU address of a device register

The address in a `reg` entry is a bus address.  `dt_node_reg` takes it up the tree, one bus at a
time, through the `ranges` of the ancestors.  `dtNodeReg` follows the code; what it should compute
is said on the list of the ancestors: `usedBuses` are the ancestors it goes through, each with its
parent, and `busAddr` translates the address by the first window of each that contains it.

* `dtRanges_spec`    the loop over the entries of one `ranges` is the search for that window;
* `dtRegLoop_spec`   the loop over the ancestors carries the right cell counts;
* `dtNodeReg_spec`   the whole function.
-/

namespace AppleSilicon

def addressCellsKey : List UInt8 :=
  ascii ['#', 'a', 'd', 'd', 'r', 'e', 's', 's', '-', 'c', 'e', 'l', 'l', 's']

def sizeCellsKey : List UInt8 := ascii ['#', 's', 'i', 'z', 'e', '-', 'c', 'e', 'l', 'l', 's']

def regKey : List UInt8 := ascii ['r', 'e', 'g']

def rangesKey : List UInt8 := ascii ['r', 'a', 'n', 'g', 'e', 's']

/-- the return value and what was stored to `*paddr` and `*psize` (if anything) -/
structure RegOut where
  ret : Int
  paddr : Option ℕ
  psize : Option ℕ
deriving DecidableEq

def RegOut.refused : RegOut := ⟨1, none, none⟩

/-- the `range_cnt` loop: one `ranges` with `n` entries left -/
def dtRanges (mem : Mem) (a_cells pa_cells s_cells size : ℕ) : ℕ → ℕ → ℕ → Option ℕ
  | 0, _, addr => some addr
  | n + 1, ranges, addr =>
    (getCells mem ranges a_cells).bind fun (c_addr, ranges) =>
      (getCells mem ranges pa_cells).bind fun (p_addr, ranges) =>
        (getCells mem ranges s_cells).bind fun (c_size, ranges) =>
          if addr ≥ c_addr ∧ (addr + size) % 2^64 ≤ (c_addr + c_size) % 2^64 then
            some ((addr - c_addr + p_addr) % 2^64)
          else dtRanges mem a_cells pa_cells s_cells size n ranges addr

section
variable (lib : AsciiLib) (stray : Int → Option ℕ) (mem : Mem) (fuel adt : ℕ)

/-- the `while (parent)` loop -/
def dtRegLoop : ℕ → Option ℕ → ℕ → ℕ → ℕ → ℕ → Option RegOut
  | 0, _, _, _, _, _ => none
  | _ + 1, none, _, _, addr, size => some ⟨0, some addr, some size⟩
  | k + 1, some cur, a_cells, s_cells, addr, size =>
    (dtNodeParent stray mem fuel adt cur).bind fun arg =>
      (dtProp lib mem cur rangesKey).bind fun r =>
        match r with
        | none => some ⟨0, some addr, some size⟩
        | some (ranges, ranges_len) =>
          (dtNodeU32 lib mem arg.parent addressCellsKey 0).bind fun pa_cells =>
            if pa_cells < 1 ∨ pa_cells > 2 ∨ s_cells > 2 then some .refused
            else
              let range_cnt := ranges_len / (4 * (pa_cells + a_cells + s_cells))
              (dtRanges mem a_cells pa_cells s_cells size range_cnt ranges addr).bind fun addr =>
                (dtNodeU32 lib mem arg.parent sizeCellsKey 0).bind fun s_cells =>
                  dtRegLoop k arg.parent pa_cells s_cells addr size

/-- `dt_node_reg(node, idx, &addr, &size)`; `idx` and the products with it are `uint32_t` -/
def dtNodeReg (node idx : ℕ) : Option RegOut :=
  (dtNodeParent stray mem fuel adt node).bind fun arg =>
    (dtNodeU32 lib mem arg.parent addressCellsKey 0).bind fun a_cells =>
      (dtNodeU32 lib mem arg.parent sizeCellsKey 0).bind fun s_cells =>
        if a_cells < 1 ∨ a_cells > 2 ∨ s_cells > 2 then some .refused
        else (dtProp lib mem node regKey).bind fun r =>
          match r with
          | none => some .refused
          | some (reg, reg_len) =>
            if reg_len = 0 then some .refused
            else if reg_len < (idx + 1) * (a_cells + s_cells) * 4 % 2^32 then some .refused
            else
              let reg := reg + 4 * (idx * (a_cells + s_cells) % 2^32)
              (getCells mem reg a_cells).bind fun (addr, reg) =>
                (getCells mem reg s_cells).bind fun (size, _) =>
                  dtRegLoop lib stray mem fuel adt fuel arg.parent a_cells s_cells addr size

end

/-! ## what it should compute -/

/-- one entry of a `ranges`: a window of the bus and the address of it on the bus above -/
structure Window where
  child : ℕ
  parent : ℕ
  size : ℕ
deriving DecidableEq

namespace Window

def Contains (w : Window) (addr size : ℕ) : Prop := w.child ≤ addr ∧ addr + size ≤ w.child + w.size

instance (w : Window) (addr size : ℕ) : Decidable (w.Contains addr size) :=
  inferInstanceAs (Decidable (_ ∧ _))

/-- through the first window that contains the range; unchanged when none does -/
def translate (ws : List Window) (addr size : ℕ) : ℕ :=
  match ws.find? (fun w => decide (w.Contains addr size)) with
  | none => addr
  | some w => addr - w.child + w.parent

theorem translate_in (w : Window) (ws : List Window) (addr size : ℕ) (h : w.Contains addr size) :
    translate (w :: ws) addr size = addr - w.child + w.parent := by
  have hd : decide (w.Contains addr size) = true := decide_eq_true h
  rw [translate, List.find?_cons, hd]

theorem translate_out (w : Window) (ws : List Window) (addr size : ℕ)
    (h : ¬ w.Contains addr size) : translate (w :: ws) addr size = translate ws addr size := by
  have hd : decide (w.Contains addr size) = false := decide_eq_false h
  rw [translate, List.find?_cons, hd, translate]

/-- no sum formed on the way to that window reaches `2^64` -/
def NoWrap (addr size : ℕ) : List Window → Prop
  | [] => True
  | w :: ws =>
    (w.child ≤ addr → addr + size < 2^64 ∧ w.child + w.size < 2^64) ∧
      (w.Contains addr size → addr - w.child + w.parent < 2^64) ∧
      (¬ w.Contains addr size → NoWrap addr size ws)

end Window

/-- the first word of a property -/
def NodeRec.u32 (mem : Mem) (n : NodeRec) (key : List UInt8) : ℕ :=
  ((n.find mem key).bind fun p => mem.le32 p.val).getD 0

/-- `#address-cells` and `#size-cells` are 4-byte properties -/
def NodeRec.HasCells (mem : Mem) (n : NodeRec) : Prop :=
  (∃ p, n.find mem addressCellsKey = some p ∧ p.len = 4) ∧
    ∃ p, n.find mem sizeCellsKey = some p ∧ p.len = 4

section
variable (mem : Mem)

def NodeRec.addressCells (n : NodeRec) : ℕ := n.u32 mem addressCellsKey

def NodeRec.sizeCells (n : NodeRec) : ℕ := n.u32 mem sizeCellsKey

/-- the number in `n` cells at `a` -/
def cellsAt (a n : ℕ) : ℕ := (mem.cells a n).getD 0

/-- `n` entries of a `ranges` at `a` -/
def windowsAt (ac pc sc : ℕ) : ℕ → ℕ → List Window
  | _, 0 => []
  | a, n + 1 =>
    ⟨cellsAt mem a ac, cellsAt mem (a + 4 * ac) pc, cellsAt mem (a + 4 * ac + 4 * pc) sc⟩ ::
      windowsAt ac pc sc (a + 4 * ac + 4 * pc + 4 * sc) n

/-- a bus that is gone through, and its parent -/
structure Bus where
  node : NodeRec
  parent : NodeRec
deriving DecidableEq

namespace Bus

/-- the cell counts of the bus and of the bus above are in range -/
def CellsOk (b : Bus) : Prop :=
  1 ≤ b.parent.addressCells mem ∧ b.parent.addressCells mem ≤ 2 ∧ b.node.sizeCells mem ≤ 2

instance (b : Bus) : Decidable (b.CellsOk mem) := inferInstanceAs (Decidable (_ ∧ _ ∧ _))

/-- the windows of its `ranges` -/
def windows (b : Bus) : List Window :=
  match b.node.find mem rangesKey with
  | none => []
  | some p =>
    windowsAt mem (b.node.addressCells mem) (b.parent.addressCells mem) (b.node.sizeCells mem) p.val
      (p.len / (4 * (b.parent.addressCells mem + b.node.addressCells mem + b.node.sizeCells mem)))

end Bus

/-- the ancestors up to the first one without `ranges` -/
def usedBuses : List NodeRec → List Bus
  | n :: p :: rest => if (n.find mem rangesKey).isSome then ⟨n, p⟩ :: usedBuses (p :: rest) else []
  | _ => []

def busAddr (size : ℕ) : List Bus → ℕ → ℕ
  | [], addr => addr
  | b :: bs, addr => busAddr size bs (Window.translate (b.windows mem) addr size)

/-- no sum formed on the way up reaches `2^64` -/
def BusNoWrap (size : ℕ) : List Bus → ℕ → Prop
  | [], _ => True
  | b :: bs, addr => b.CellsOk mem →
    Window.NoWrap addr size (b.windows mem) ∧
      BusNoWrap size bs (Window.translate (b.windows mem) addr size)

/-- `reg` of `q`, a child of `p`, has an entry `idx` that can be decoded -/
def RegOk (q p : NodeRec) (idx : ℕ) : Prop :=
  1 ≤ p.addressCells mem ∧ p.addressCells mem ≤ 2 ∧ p.sizeCells mem ≤ 2 ∧
    ∃ r, q.find mem regKey = some r ∧ (idx + 1) * (p.addressCells mem + p.sizeCells mem) * 4 ≤ r.len

/-- where entry `idx` of `reg` is -/
def regEntry (q p : NodeRec) (idx : ℕ) : ℕ :=
  ((q.find mem regKey).map PropRec.val).getD 0
    + 4 * (idx * (p.addressCells mem + p.sizeCells mem))

def regAddr (q p : NodeRec) (idx : ℕ) : ℕ := cellsAt mem (regEntry mem q p idx) (p.addressCells mem)

def regSize (q p : NodeRec) (idx : ℕ) : ℕ :=
  cellsAt mem (regEntry mem q p idx + 4 * p.addressCells mem) (p.sizeCells mem)

end

/-! ## one `ranges` -/

theorem cellsAt_spec (mem : Mem) (a n : ℕ) (h : mem.Readable a (4 * n)) :
    getCells mem a n = some (cellsAt mem a n, a + 4 * n) := by
  obtain ⟨v, hv⟩ := Mem.cells_readable mem a n h
  rw [getCells_spec mem a n v hv, cellsAt, hv]
  rfl

/-- **The loop over the entries of one `ranges`** is the search for the first window that contains
the range. -/
theorem dtRanges_spec (mem : Mem) (ac pc sc size n a addr : ℕ)
    (hr : mem.Readable a (4 * (pc + ac + sc) * n))
    (hw : Window.NoWrap addr size (windowsAt mem ac pc sc a n)) :
    dtRanges mem ac pc sc size n a addr
      = some (Window.translate (windowsAt mem ac pc sc a n) addr size) := by
  induction n generalizing a with
  | zero => rfl
  | succ n ih =>
    have hlen : 4 * (pc + ac + sc) * (n + 1) = 4 * (pc + ac + sc) * n + (4 * ac + 4 * pc + 4 * sc) := by
      ring
    rw [hlen] at hr
    have h1 := Mem.readable_mono mem a _ (4 * ac) hr (by omega)
    have h2 := Mem.readable_sub mem a _ (4 * ac) (4 * pc) hr (by omega)
    have h3 := Mem.readable_sub mem a _ (4 * ac + 4 * pc) (4 * sc) hr (by omega)
    have h4 := Mem.readable_sub mem a _ (4 * ac + 4 * pc + 4 * sc) (4 * (pc + ac + sc) * n) hr
      (by omega)
    rw [← Nat.add_assoc] at h3
    rw [← Nat.add_assoc, ← Nat.add_assoc] at h4
    obtain ⟨w, hwd⟩ : ∃ w : Window, w = ⟨cellsAt mem a ac, cellsAt mem (a + 4 * ac) pc,
      cellsAt mem (a + 4 * ac + 4 * pc) sc⟩ := ⟨_, rfl⟩
    have hcons : windowsAt mem ac pc sc a (n + 1)
        = w :: windowsAt mem ac pc sc (a + 4 * ac + 4 * pc + 4 * sc) n := by rw [hwd]; rfl
    rw [hcons] at hw ⊢
    obtain ⟨hsum, hin, hout⟩ := hw
    have hstep : dtRanges mem ac pc sc size (n + 1) a addr
        = if addr ≥ w.child ∧ (addr + size) % 2^64 ≤ (w.child + w.size) % 2^64 then
            some ((addr - w.child + w.parent) % 2^64)
          else dtRanges mem ac pc sc size n (a + 4 * ac + 4 * pc + 4 * sc) addr := by
      rw [dtRanges, cellsAt_spec mem a ac h1, Option.bind_some]
      dsimp only
      rw [cellsAt_spec mem _ pc h2, Option.bind_some]
      dsimp only
      rw [cellsAt_spec mem _ sc h3, Option.bind_some, hwd]
    -- without a wrap the comparison of the code is the containment
    have hiff : (addr ≥ w.child ∧ (addr + size) % 2^64 ≤ (w.child + w.size) % 2^64) ↔
        w.Contains addr size := by
      unfold Window.Contains
      constructor
      · rintro ⟨h5, h6⟩
        obtain ⟨h7, h8⟩ := hsum h5
        rw [Nat.mod_eq_of_lt h7, Nat.mod_eq_of_lt h8] at h6
        exact ⟨h5, h6⟩
      · rintro ⟨h5, h6⟩
        obtain ⟨h7, h8⟩ := hsum h5
        rw [Nat.mod_eq_of_lt h7, Nat.mod_eq_of_lt h8]
        exact ⟨h5, h6⟩
    rw [hstep]
    by_cases hc : w.Contains addr size
    · rw [if_pos (hiff.mpr hc), Window.translate_in w _ addr size hc, Nat.mod_eq_of_lt (hin hc)]
    · rw [if_neg (fun h => hc (hiff.mp h)), ih _ h4 (hout hc), Window.translate_out w _ addr size hc]

/-! ## the ancestors -/

/-- a tree the function can be used on: accepted, of depth at most 7, no `ranges` at the root, and
cell counts at every node that has a child -/
structure RegTree (lib : AsciiLib) (mem : Mem) (n : NodeRec) (cs : Forest NodeRec) (adt b : ℕ) :
    Prop where
  doc : lib.Documented
  node : mem.IsNode n cs adt b
  read : mem.Readable adt (b - adt)
  shallow : cs.height ≤ 7
  root : n.find mem rangesKey = none
  cells : ∀ p q, (Forest.node n cs .nil).ChildOf p q → p.HasCells mem

section
variable (lib : AsciiLib) (stray : Int → Option ℕ) (mem : Mem) (n : NodeRec) (cs : Forest NodeRec)
variable (adt b : ℕ)

theorem regTree_prop (h : RegTree lib mem n cs adt b) (q : NodeRec)
    (hq : q ∈ (Forest.node n cs .nil).labels) (key : List UInt8) (hk : NoNul key)
    (hkl : key.length ≤ dtKeyLen) :
    dtProp lib mem q.addr key = some ((q.find mem key).map (fun p => (p.val, p.len))) := by
  obtain ⟨h1, m, h2, _, _⟩ := Mem.isForest_node mem _ adt b h.node q hq
  exact dtProp_spec lib mem h.doc key hk hkl q m h1 h2
    (fun p hp => (Mem.isForest_readable mem _ adt b h.node h.read q hq p hp).1)

theorem regTree_u32 (h : RegTree lib mem n cs adt b) (q : NodeRec)
    (hq : q ∈ (Forest.node n cs .nil).labels) (key : List UInt8) (hk : NoNul key)
    (hkl : key.length ≤ dtKeyLen) (hp : ∃ p, q.find mem key = some p ∧ p.len = 4) :
    dtNodeU32 lib mem (some q.addr) key 0 = some (q.u32 mem key) := by
  obtain ⟨h1, m, h2, _, _⟩ := Mem.isForest_node mem _ adt b h.node q hq
  obtain ⟨p, hf, hlen⟩ := hp
  have hread := Mem.isForest_readable mem _ adt b h.node h.read q hq p (NodeRec.find_mem hf)
  obtain ⟨w, hw⟩ := Mem.le32_readable mem p.val
    (Mem.readable_mono mem p.val _ 4 hread.2 (by have := le_padded p.len; omega))
  rw [dtNodeU32_spec lib mem h.doc key hk hkl q m h1 h2
    (fun p hp => (Mem.isForest_readable mem _ adt b h.node h.read q hq p hp).1) p hf (by omega),
    NodeRec.u32, hf, Option.bind_some, hw, Option.getD_some]

theorem regTree_parent (h : RegTree lib mem n cs adt b) (fuel : ℕ) (hf : cs.height < fuel)
    (q p : NodeRec) (t : List NodeRec)
    (hq : (Forest.node n cs .nil).chainOf NodeRec.addr q.addr = some (q :: p :: t)) :
    ∃ arg, dtNodeParent stray mem fuel adt q.addr = some arg ∧ arg.parent = some p.addr := by
  obtain ⟨arg, h1, h2, _⟩ := dtNodeParent_found stray mem n cs fuel adt b h.node hf q p t hq
    (fun y hy => by
      have hd := (Forest.pre_depth 0 _ y ((List.takeWhile_prefix _).subset hy)).2
      have hm : (Forest.node n cs .nil).height = max (cs.height + 1) 0 := rfl
      have := h.shallow
      omega)
  exact ⟨arg, h1, h2⟩

theorem regTree_cells (h : RegTree lib mem n cs adt b) (q p : NodeRec) (t : List NodeRec)
    (hq : (Forest.node n cs .nil).chainOf NodeRec.addr q.addr = some (q :: p :: t)) :
    p ∈ (Forest.node n cs .nil).labels ∧
      dtNodeU32 lib mem (some p.addr) addressCellsKey 0 = some (p.addressCells mem) ∧
      dtNodeU32 lib mem (some p.addr) sizeCellsKey 0 = some (p.sizeCells mem) := by
  have hk := Mem.isForest_keyed mem _ adt b h.node
  have hc : (Forest.node n cs .nil).ChildOf p q :=
    (Forest.childOf_iff NodeRec.addr _ hk q p).mpr ⟨t, hq⟩
  have hm := (Forest.childOf_mem _ p q hc).1
  obtain ⟨ha, hs⟩ := h.cells p q hc
  exact ⟨hm, regTree_u32 lib mem n cs adt b h p hm addressCellsKey (by decide) (by decide) ha,
    regTree_u32 lib mem n cs adt b h p hm sizeCellsKey (by decide) (by decide) hs⟩

/-- **The loop over the ancestors**: entered at a bus with the bus's own cell counts, it goes
through the used buses, or refuses when one of them has cell counts out of range. -/
theorem dtRegLoop_spec (h : RegTree lib mem n cs adt b) (fuel : ℕ) (hf : cs.height < fuel)
    (rest : List NodeRec) (cur : NodeRec) (k addr size : ℕ) (hk : rest.length < k)
    (hc : (Forest.node n cs .nil).chainOf NodeRec.addr cur.addr = some (cur :: rest))
    (hw : BusNoWrap mem size (usedBuses mem (cur :: rest)) addr) :
    dtRegLoop lib stray mem fuel adt k (some cur.addr) (cur.addressCells mem) (cur.sizeCells mem)
        addr size
      = some (if ∀ u ∈ usedBuses mem (cur :: rest), u.CellsOk mem then
          ⟨0, some (busAddr mem size (usedBuses mem (cur :: rest)) addr), some size⟩
        else .refused) := by
  have hkeyed := Mem.isForest_keyed mem _ adt b h.node
  have hcm : cur ∈ (Forest.node n cs .nil).labels :=
    (Forest.chain_mem _ _ _ hc).1 cur (List.mem_cons_self ..)
  have hprop := regTree_prop lib mem n cs adt b h cur hcm rangesKey (by decide) (by decide)
  induction rest generalizing cur k addr with
  | nil =>
    obtain ⟨k, rfl⟩ : ∃ j, k = j + 1 := ⟨k - 1, by omega⟩
    -- the root: `path[-1]` is read, but not used
    have hr : cur = n :=
      List.mem_singleton.mp ((Forest.chainOf_root NodeRec.addr _ hkeyed cur [] hc).mpr rfl)
    obtain ⟨arg, ha, _⟩ := dtNodeParent_root stray mem n cs fuel adt b h.node hf
    have hadt : cur.addr = adt := by rw [hr]; exact h.node.1
    rw [hr, h.root, ← hr] at hprop
    rw [dtRegLoop, hprop, hadt, ha, Option.bind_some, Option.bind_some]
    rfl
  | cons p rest ih =>
    obtain ⟨k, rfl⟩ : ∃ j, k = j + 1 := ⟨k - 1, by omega⟩
    obtain ⟨arg, ha, hp⟩ := regTree_parent lib stray mem n cs adt b h fuel hf cur p rest hc
    obtain ⟨hpm, hpa, hps⟩ := regTree_cells lib mem n cs adt b h cur p rest hc
    rw [dtRegLoop, ha, Option.bind_some, hprop, Option.bind_some, hp]
    cases hrg : cur.find mem rangesKey with
    | none =>
      have hu : usedBuses mem (cur :: p :: rest) = [] := by
        rw [usedBuses, hrg]
        rfl
      rw [hu]
      rfl
    | some r =>
      have hu : usedBuses mem (cur :: p :: rest) = ⟨cur, p⟩ :: usedBuses mem (p :: rest) := by
        rw [usedBuses, hrg]
        rfl
      rw [hu] at hw ⊢
      dsimp only [Option.map_some]
      rw [hpa, Option.bind_some]
      by_cases hok : (⟨cur, p⟩ : Bus).CellsOk mem
      · obtain ⟨hw1, hw2⟩ := hw hok
        obtain ⟨ho1, ho2, ho3⟩ := hok
        have hnot : ¬ (p.addressCells mem < 1 ∨ p.addressCells mem > 2 ∨ cur.sizeCells mem > 2) := by
          dsimp only at ho1 ho2 ho3
          omega
        have hwin : (⟨cur, p⟩ : Bus).windows mem = windowsAt mem (cur.addressCells mem)
            (p.addressCells mem) (cur.sizeCells mem) r.val
            (r.len / (4 * (p.addressCells mem + cur.addressCells mem + cur.sizeCells mem))) := by
          rw [Bus.windows, hrg]
        have hread := (Mem.isForest_readable mem _ adt b h.node h.read cur hcm r
          (NodeRec.find_mem hrg)).2
        have hlen := Nat.mul_div_le r.len
          (4 * (p.addressCells mem + cur.addressCells mem + cur.sizeCells mem))
        have hpad := le_padded r.len
        rw [hwin] at hw1
        rw [if_neg hnot, dtRanges_spec mem _ _ _ size _ r.val addr
          (Mem.readable_mono mem r.val _ _ hread (by omega)) hw1, Option.bind_some, hps,
          Option.bind_some, ← hwin]
        rw [ih p k (Window.translate ((⟨cur, p⟩ : Bus).windows mem) addr size)
          (Nat.lt_of_succ_lt_succ hk) (Forest.chain_parent NodeRec.addr _ hkeyed _ cur p rest hc)
          hw2 hpm (regTree_prop lib mem n cs adt b h p hpm rangesKey (by decide) (by decide))]
        by_cases hall : ∀ u ∈ usedBuses mem (p :: rest), u.CellsOk mem
        · rw [if_pos hall, if_pos (List.forall_mem_cons.mpr ⟨⟨ho1, ho2, ho3⟩, hall⟩)]
          rfl
        · rw [if_neg hall, if_neg (fun h => hall (List.forall_mem_cons.mp h).2)]
      · have hbad : p.addressCells mem < 1 ∨ p.addressCells mem > 2 ∨ cur.sizeCells mem > 2 := by
          by_contra hn
          refine hok ⟨?_, ?_, ?_⟩ <;> dsimp only <;> omega
        rw [if_pos hbad, if_neg (fun h => hok (List.forall_mem_cons.mp h).1)]

section
variable (h : RegTree lib mem n cs adt b) (fuel : ℕ) (hf : cs.height < fuel)
  (q p : NodeRec) (t : List NodeRec)
  (hq : (Forest.node n cs .nil).chainOf NodeRec.addr q.addr = some (q :: p :: t)) (idx : ℕ)
include h hf hq

/-- the function once the cell counts and the `reg` are there -/
theorem dtNodeReg_start :
    dtNodeReg lib stray mem fuel adt q.addr idx
      = if p.addressCells mem < 1 ∨ p.addressCells mem > 2 ∨ p.sizeCells mem > 2 then
          some .refused
        else match (q.find mem regKey).map (fun r => (r.val, r.len)) with
          | none => some .refused
          | some (reg, reg_len) =>
            if reg_len = 0 then some .refused
            else if reg_len < (idx + 1) * (p.addressCells mem + p.sizeCells mem) * 4 % 2^32 then
              some .refused
            else
              let reg := reg + 4 * (idx * (p.addressCells mem + p.sizeCells mem) % 2^32)
              (getCells mem reg (p.addressCells mem)).bind fun (addr, reg) =>
                (getCells mem reg (p.sizeCells mem)).bind fun (size, _) =>
                  dtRegLoop lib stray mem fuel adt fuel (some p.addr) (p.addressCells mem)
                    (p.sizeCells mem) addr size := by
  have hqm : q ∈ (Forest.node n cs .nil).labels :=
    (Forest.chain_mem _ _ _ hq).1 q (List.mem_cons_self ..)
  have hprop := regTree_prop lib mem n cs adt b h q hqm regKey (by decide) (by decide)
  obtain ⟨arg, ha, hp⟩ := regTree_parent lib stray mem n cs adt b h fuel hf q p t hq
  obtain ⟨_, hpa, hps⟩ := regTree_cells lib mem n cs adt b h q p t hq
  rw [dtNodeReg, ha, Option.bind_some, hp, hpa, Option.bind_some, hps, Option.bind_some, hprop,
    Option.bind_some]

/-- an entry that is not there -/
theorem dtNodeReg_refused
    (hidx : (idx + 1) * (p.addressCells mem + p.sizeCells mem) * 4 < 2^32)
    (hno : ¬ RegOk mem q p idx) : dtNodeReg lib stray mem fuel adt q.addr idx = some .refused := by
  rw [dtNodeReg_start lib stray mem n cs adt b h fuel hf q p t hq idx, Nat.mod_eq_of_lt hidx]
  by_cases hbad : p.addressCells mem < 1 ∨ p.addressCells mem > 2 ∨ p.sizeCells mem > 2
  · rw [if_pos hbad]
  · rw [if_neg hbad]
    cases hr : q.find mem regKey with
    | none => rfl
    | some r =>
      dsimp only [Option.map_some]
      by_cases h0 : r.len = 0
      · rw [if_pos h0]
      · by_cases hl : r.len < (idx + 1) * (p.addressCells mem + p.sizeCells mem) * 4
        · rw [if_neg h0, if_pos hl]
        · exact absurd ⟨by omega, by omega, by omega, r, hr, by omega⟩ hno

/-- an entry that is there is read, and the loop over the ancestors is entered with it -/
theorem dtNodeReg_entry
    (hidx : (idx + 1) * (p.addressCells mem + p.sizeCells mem) * 4 < 2^32)
    (hok : RegOk mem q p idx) :
    dtNodeReg lib stray mem fuel adt q.addr idx
      = dtRegLoop lib stray mem fuel adt fuel (some p.addr) (p.addressCells mem) (p.sizeCells mem)
          (regAddr mem q p idx) (regSize mem q p idx) := by
  have hqm : q ∈ (Forest.node n cs .nil).labels :=
    (Forest.chain_mem _ _ _ hq).1 q (List.mem_cons_self ..)
  rw [dtNodeReg_start lib stray mem n cs adt b h fuel hf q p t hq idx, Nat.mod_eq_of_lt hidx]
  have hmul : (idx + 1) * (p.addressCells mem + p.sizeCells mem)
      = idx * (p.addressCells mem + p.sizeCells mem)
        + (p.addressCells mem + p.sizeCells mem) := by ring
  obtain ⟨h1, h2, h3, r, hr, hlen⟩ := hok
  have hread := (Mem.isForest_readable mem _ adt b h.node h.read q hqm r (NodeRec.find_mem hr)).2
  have hpad := le_padded r.len
  have hent : regEntry mem q p idx
      = r.val + 4 * (idx * (p.addressCells mem + p.sizeCells mem)) := by
    rw [regEntry, hr]
    rfl
  rw [if_neg (by omega), hr]
  dsimp only [Option.map_some]
  rw [if_neg (by omega), if_neg (by omega), Nat.mod_eq_of_lt (by omega), ← hent,
    cellsAt_spec mem _ _ (by
      rw [hent]
      exact Mem.readable_sub mem r.val _ _ _ hread (by omega)), Option.bind_some]
  dsimp only
  rw [cellsAt_spec mem _ _ (by
      rw [hent, Nat.add_assoc]
      exact Mem.readable_sub mem r.val _ _ _ hread (by omega)), Option.bind_some]
  rfl

/-- the whole function on a tree it can be used on -/
theorem dtNodeReg_run
    (hidx : (idx + 1) * (p.addressCells mem + p.sizeCells mem) * 4 < 2^32)
    (hw : BusNoWrap mem (regSize mem q p idx) (usedBuses mem (p :: t)) (regAddr mem q p idx))
    (hok : RegOk mem q p idx) :
    dtNodeReg lib stray mem fuel adt q.addr idx
      = some (if ∀ u ∈ usedBuses mem (p :: t), u.CellsOk mem then
          ⟨0, some (busAddr mem (regSize mem q p idx) (usedBuses mem (p :: t))
            (regAddr mem q p idx)), some (regSize mem q p idx)⟩
        else .refused) := by
  have hkeyed := Mem.isForest_keyed mem _ adt b h.node
  have hlen := Forest.chain_length _ _ _ hq
  have hm : (Forest.node n cs .nil).height = max (cs.height + 1) 0 := rfl
  rw [List.length_cons, List.length_cons] at hlen
  rw [dtNodeReg_entry lib stray mem n cs adt b h fuel hf q p t hq idx hidx hok]
  exact dtRegLoop_spec lib stray mem n cs adt b h fuel hf t p fuel _ _ (by omega)
    (Forest.chain_parent NodeRec.addr _ hkeyed _ q p t hq) hw

end

end

/-- **`dt_node_reg` computes the CPU address.**  On every tree `dt_check` accepts whose deepest
node is on level 7 at most, whose root has no `ranges` and whose inner nodes carry 4-byte cell
counts, for every node `q` other than the root, with parent `p` and further ancestors `t`, and
every index: it returns 0 exactly when entry `idx` of `reg` is there and all cell counts used are
in range; the address it stores is then the one of the entry, translated through the used buses;
and when it returns non-zero it stores nothing.  What `dt_node_parent` gives for the root (`stray`)
does not matter. -/
theorem dtNodeReg_spec (lib : AsciiLib) (stray : Int → Option ℕ) (mem : Mem) (adt size : ℕ)
    (out : CheckOut) (n : NodeRec) (cs : Forest NodeRec) (b : ℕ) (hl : lib.Documented)
    (hr : mem.Readable adt size) (hc : dtCheck mem adt size = some out) (h0 : out.ret = 0)
    (hn : mem.IsNode n cs adt b) (hd : cs.height ≤ 7) (hroot : n.find mem rangesKey = none)
    (hcells : ∀ p q, (Forest.node n cs .nil).ChildOf p q → p.HasCells mem)
    (q : NodeRec) (hq : q ∈ (Forest.node n cs .nil).labels) (hne : q.addr ≠ adt) :
    ∃ p t, (Forest.node n cs .nil).chainOf NodeRec.addr q.addr = some (q :: p :: t) ∧
      ∀ idx, (idx + 1) * (p.addressCells mem + p.sizeCells mem) * 4 < 2^32 →
        (RegOk mem q p idx →
          BusNoWrap mem (regSize mem q p idx) (usedBuses mem (p :: t)) (regAddr mem q p idx)) →
        ∃ fuel₀, ∀ fuel, fuel₀ ≤ fuel → ∃ res,
          dtNodeReg lib stray mem fuel adt q.addr idx = some res ∧
          (res.ret = 0 ↔ RegOk mem q p idx ∧ ∀ u ∈ usedBuses mem (p :: t), u.CellsOk mem) ∧
          (res.ret = 0 →
            res.paddr = some (busAddr mem (regSize mem q p idx) (usedBuses mem (p :: t))
              (regAddr mem q p idx)) ∧
            res.psize = some (regSize mem q p idx)) ∧
          (res.ret ≠ 0 → res.paddr = none ∧ res.psize = none) := by
  have htree : RegTree lib mem n cs adt b :=
    ⟨hl, hn, dtCheck_readable mem adt size out hr hc h0 n cs b hn, hd, hroot, hcells⟩
  have hkeyed := Mem.isForest_keyed mem _ adt b hn
  obtain ⟨l, hl'⟩ := Forest.chainOf_self NodeRec.addr _ hkeyed q hq
  cases l with
  | nil =>
    have hroot' := (Forest.chainOf_root NodeRec.addr _ hkeyed q [] hl').mpr rfl
    refine absurd ?_ hne
    rw [List.mem_singleton.mp hroot']
    exact hn.1
  | cons p t =>
    refine ⟨p, t, hl', fun idx hidx hw => ⟨cs.height + 1, fun fuel hf => ?_⟩⟩
    by_cases hreg : RegOk mem q p idx
    · have h := dtNodeReg_run lib stray mem n cs adt b htree fuel (by omega) q p t hl' idx hidx
        (hw hreg) hreg
      by_cases hall : ∀ u ∈ usedBuses mem (p :: t), u.CellsOk mem
      · rw [if_pos hall] at h
        exact ⟨_, h, ⟨fun _ => ⟨hreg, hall⟩, fun _ => rfl⟩, fun _ => ⟨rfl, rfl⟩,
          fun h => absurd rfl h⟩
      · rw [if_neg hall] at h
        exact ⟨_, h, ⟨fun h => absurd h (by decide), fun h => absurd h.2 hall⟩,
          fun h => absurd h (by decide), fun _ => ⟨rfl, rfl⟩⟩
    · exact ⟨_, dtNodeReg_refused lib stray mem n cs adt b htree fuel (by omega) q p t hl' idx hidx
        hreg, ⟨fun h => absurd h (by decide), fun h => absurd h.1 hreg⟩,
        fun h => absurd h (by decide), fun _ => ⟨rfl, rfl⟩⟩

/-! ## a bus and a device on it -/

def wordBytes (w : ℕ) : List UInt8 := [w, w / 2^8, w / 2^16, w / 2^24].map UInt8.ofNat

/-- a property whose value is a list of words -/
def propBytes (key : List UInt8) (ws : List ℕ) : List UInt8 :=
  key ++ List.replicate (dtKeyLen - key.length) 0 ++ wordBytes (4 * ws.length) ++ ws.flatMap wordBytes

/-- the root, a bus with one window, and a device at `0x4000` on it -/
def busBytes : List UInt8 :=
  wordBytes 2 ++ wordBytes 1 ++ propBytes addressCellsKey [2] ++ propBytes sizeCellsKey [2] ++
  wordBytes 3 ++ wordBytes 1 ++ propBytes addressCellsKey [1] ++ propBytes sizeCellsKey [1] ++
    propBytes rangesKey [0, 0x10000000, 0x2, 0x1000000] ++
  wordBytes 1 ++ wordBytes 0 ++ propBytes regKey [0x4000, 0x100]

def busMem : Mem := fun x =>
  if 0x800000000 ≤ x then busBytes[x - 0x800000000]? else none

def busRoot : NodeRec := ⟨0x800000000, [⟨0x800000008, 4⟩, ⟨0x800000030, 4⟩]⟩

def busNode : NodeRec :=
  ⟨0x800000058, [⟨0x800000060, 4⟩, ⟨0x800000088, 4⟩, ⟨0x8000000b0, 16⟩]⟩

def busDevice : NodeRec := ⟨0x8000000e4, [⟨0x8000000ec, 8⟩]⟩

def busForest : Forest NodeRec := .node busNode (.node busDevice .nil .nil) .nil

theorem busMem_readable : busMem.Readable 0x800000000 280 := by
  intro i hi
  have hl : busBytes.length = 280 := by decide +kernel
  unfold busMem
  rw [if_pos (by omega), show 0x800000000 + i - 0x800000000 = i by omega,
    List.getElem?_eq_getElem (by omega)]
  exact ⟨_, rfl⟩

theorem busMem_isNode : busMem.IsNode busRoot busForest 0x800000000 0x800000118 := by
  refine ⟨rfl, by decide +kernel, by decide +kernel, 0x800000058, 0x800000118, ?_, ?_, rfl⟩
  · exact ⟨rfl, ⟨4, by decide +kernel, rfl⟩, rfl, ⟨4, by decide +kernel, rfl⟩, rfl⟩
  · refine ⟨rfl, by decide +kernel, by decide +kernel, 0x8000000e4, 0x800000118, ?_, ?_, rfl⟩
    · exact ⟨rfl, ⟨4, by decide +kernel, rfl⟩, rfl, ⟨4, by decide +kernel, rfl⟩, rfl,
        ⟨16, by decide +kernel, rfl⟩, rfl⟩
    · exact ⟨rfl, by decide +kernel, by decide +kernel, 0x800000118, 0x800000118,
        ⟨rfl, ⟨8, by decide +kernel, rfl⟩, rfl⟩, rfl, rfl⟩

theorem busMem_cells (p q : NodeRec) (h : (Forest.node busRoot busForest .nil).ChildOf p q) :
    p.HasCells busMem := by
  rcases h with ⟨rfl, _⟩ | (⟨rfl, _⟩ | (⟨rfl, h⟩ | h | h) | h) | h
  · exact ⟨⟨⟨0x800000008, 4⟩, by decide +kernel, rfl⟩, ⟨0x800000030, 4⟩, by decide +kernel, rfl⟩
  · exact ⟨⟨⟨0x800000060, 4⟩, by decide +kernel, rfl⟩, ⟨0x800000088, 4⟩, by decide +kernel, rfl⟩
  · cases h
  · exact False.elim h
  · exact False.elim h
  · exact False.elim h
  · exact False.elim h

/-- the register of the device, seen by the CPU -/
theorem busDevice_reg : ∃ fuel₀, ∀ fuel, fuel₀ ≤ fuel →
    dtNodeReg asciiLib (fun _ => none) busMem fuel 0x800000000 0x8000000e4 0
      = some ⟨0, some 0x210004000, some 0x100⟩ := by
  have hc := dtCheck_complete busMem _ _ 0x800000000 0x800000118 280 busMem_isNode (le_refl _)
  obtain ⟨p, t, hpt, h⟩ := dtNodeReg_spec asciiLib (fun _ => none) busMem 0x800000000 280 _ busRoot
    busForest 0x800000118 asciiLib_documented busMem_readable hc rfl busMem_isNode (by decide)
    (by decide +kernel) busMem_cells busDevice (by decide) (by decide)
  have e : (Forest.node busRoot busForest .nil).chainOf NodeRec.addr busDevice.addr
      = some [busDevice, busNode, busRoot] := by decide
  rw [e] at hpt
  obtain ⟨rfl, rfl⟩ := List.cons.inj (List.cons.inj (Option.some.inj hpt)).2
  have hused : usedBuses busMem [busNode, busRoot] = [⟨busNode, busRoot⟩] := by decide +kernel
  have hok : RegOk busMem busDevice busNode 0 :=
    ⟨by decide +kernel, by decide +kernel, by decide +kernel, ⟨0x8000000ec, 8⟩, by decide +kernel,
      by decide +kernel⟩
  have hwin : (⟨busNode, busRoot⟩ : Bus).windows busMem = [⟨0, 0x210000000, 0x1000000⟩] := by
    decide +kernel
  have haddr : regAddr busMem busDevice busNode 0 = 0x4000 := by decide +kernel
  have hsize : regSize busMem busDevice busNode 0 = 0x100 := by decide +kernel
  have h0 := h 0
  rw [hused, haddr, hsize] at h0
  obtain ⟨fuel₀, h0⟩ := h0 (by decide +kernel) (fun _ _ => by
    rw [hwin]
    exact ⟨⟨fun _ => ⟨by decide, by decide⟩, fun _ => by decide, fun _ => trivial⟩, trivial⟩)
  refine ⟨fuel₀, ?_⟩
  intro fuel hf
  obtain ⟨res, h1, h2, h3, _⟩ := h0 fuel hf
  have hret : res.ret = 0 := h2.mpr ⟨hok, by decide +kernel⟩
  obtain ⟨h4, h5⟩ := h3 hret
  have hout : busAddr busMem 0x100 [⟨busNode, busRoot⟩] 0x4000 = 0x210004000 := by decide +kernel
  rw [hout] at h4
  rw [show (0x8000000e4 : ℕ) = busDevice.addr from rfl, h1,
    show res = ⟨res.ret, res.paddr, res.psize⟩ from rfl, hret, h4, h5]

end AppleSilicon
