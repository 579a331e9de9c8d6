import AppleSilicon.Lib.Logged
import AppleSilicon.Dt.Reg

/-!
# Where the readers of the tree read: `dt_node_u32`, `dt_node_u64`, `dt_node_reg`

The readers with a log of what they read.  Each unit that is read is logged with the value of the
property that was looked up; so is each entry of a `reg` that is taken, and each entry of a `ranges`
that is tested.  A failing `ASSERT` stops the reader.

The bounds are products of 32-bit numbers, and the containment is tested on sums of 64-bit ones.
Where a product or one of the two sums wraps, the test is another one than it says.

* `dtNodeU32Log_result`, `dtNodeReg_logged`   the readers without the log;
* `dtNodeUnit_right`      a unit of a property is read inside it, except for the last index of all;
* `window_test_iff`       the containment test is right unless one sum alone wraps and turns it;
* `readers_right_iff`     the readers on an accepted tree.
-/

namespace AppleSilicon

/-- `val` and `len` are the value of the property that was looked up (0 and 0 for `NULL`) -/
inductive ReadEvent where
  /-- `size` bytes at `addr` -/
  | unit (val len addr size : ℕ)
  /-- entry `idx` of a `reg`, of `cells` cells -/
  | entry (idx cells len : ℕ)
  /-- an entry of a `ranges`, and whether it is applied -/
  | test (addr size : ℕ) (w : Window) (applied : Bool)
deriving DecidableEq

def ReadEvent.Right : ReadEvent → Prop
  | .unit val len addr size => val ≤ addr ∧ addr + size ≤ val + len
  | .entry idx cells len => (idx + 1) * cells * 4 ≤ len
  | .test addr size w applied => applied = true ↔ w.Contains addr size

instance : DecidablePred ReadEvent.Right
  | .unit _ _ _ _ => inferInstanceAs (Decidable (_ ∧ _))
  | .entry _ _ _ => inferInstanceAs (Decidable (_ ≤ _))
  | .test _ _ _ _ => inferInstanceAs (Decidable (_ ↔ _))

open Logged

section
variable (lib : AsciiLib) (mem : Mem)

/-- unit `idx` of a property, in an array of units of `width` bytes -/
def dtNodeUnit (width : ℕ) (read : ℕ → Option ℕ) (node : Option ℕ) (prop : List UInt8) (idx : ℕ) :
    Logged ReadEvent ℕ :=
  (ofOption node).bind fun node => (ofOption (dtProp lib mem node prop)).bind fun v =>
    let len := (v.map Prod.snd).getD 0
    let val := (v.map Prod.fst).getD 0
    if len < (idx + 1) % 2^32 * width then stop
    else (note (.unit val len (val + width * idx) width)).bind fun _ =>
      ofOption (v.bind fun p => read (p.1 + width * idx))

def dtNodeU32Log : Option ℕ → List UInt8 → ℕ → Logged ReadEvent ℕ := dtNodeUnit lib mem 4 mem.le32

/-- `dt_node_u64` -/
def dtNodeU64Log : Option ℕ → List UInt8 → ℕ → Logged ReadEvent ℕ :=
  dtNodeUnit lib mem 8 fun a => mem.cells a 2

/-- the loop of `get_cells`, with `n` iterations left -/
def getCellsLoopLog (val len : ℕ) : ℕ → ℕ → ℕ → ℕ → Logged ReadEvent (ℕ × ℕ)
  | 0, _, dst, src => Logged.pure (dst, src)
  | n + 1, i, dst, src =>
    (note (.unit val len src 4)).bind fun _ =>
      (ofOption (mem.le32 src)).bind fun w =>
        getCellsLoopLog val len n (i + 1) (dst ||| w <<< (32 * i)) (src + 4)

def getCellsLog (val len src cells : ℕ) : Logged ReadEvent (ℕ × ℕ) :=
  getCellsLoopLog mem val len cells 0 0 src

/-- the test of an entry of a `ranges` -/
def windowTest (w : Window) (addr size : ℕ) : Bool :=
  decide (addr ≥ w.child ∧ (addr + size) % 2^64 ≤ (w.child + w.size) % 2^64)

/-- the `range_cnt` loop: one `ranges` with `n` entries left -/
def dtRangesLog (val len a_cells pa_cells s_cells size : ℕ) : ℕ → ℕ → ℕ → Logged ReadEvent ℕ
  | 0, _, addr => Logged.pure addr
  | n + 1, ranges, addr =>
    (getCellsLog mem val len ranges a_cells).bind fun (c_addr, ranges) =>
      (getCellsLog mem val len ranges pa_cells).bind fun (p_addr, ranges) =>
        (getCellsLog mem val len ranges s_cells).bind fun (c_size, ranges) =>
          let w : Window := ⟨c_addr, p_addr, c_size⟩
          (note (.test addr size w (windowTest w addr size))).bind fun _ =>
            if windowTest w addr size then Logged.pure ((addr - c_addr + p_addr) % 2^64)
            else dtRangesLog val len a_cells pa_cells s_cells size n ranges addr

variable (stray : Int → Option ℕ) (fuel adt : ℕ)

/-- the `while (parent)` loop -/
def dtRegLoopLog : ℕ → Option ℕ → ℕ → ℕ → ℕ → ℕ → Logged ReadEvent RegOut
  | 0, _, _, _, _, _ => stop
  | _ + 1, none, _, _, addr, size => Logged.pure ⟨0, some addr, some size⟩
  | k + 1, some cur, a_cells, s_cells, addr, size =>
    (ofOption (dtNodeParent stray mem fuel adt cur)).bind fun arg =>
      (ofOption (dtProp lib mem cur rangesKey)).bind fun r =>
        match r with
        | none => Logged.pure ⟨0, some addr, some size⟩
        | some (ranges, ranges_len) =>
          (dtNodeU32Log lib mem arg.parent addressCellsKey 0).bind fun pa_cells =>
            if pa_cells < 1 ∨ pa_cells > 2 ∨ s_cells > 2 then Logged.pure .refused
            else
              let range_cnt := ranges_len / (4 * (pa_cells + a_cells + s_cells))
              (dtRangesLog mem ranges ranges_len a_cells pa_cells s_cells size range_cnt ranges
                addr).bind fun addr =>
                  (dtNodeU32Log lib mem arg.parent sizeCellsKey 0).bind fun s_cells =>
                    dtRegLoopLog k arg.parent pa_cells s_cells addr size

def dtNodeRegLog (node idx : ℕ) : Logged ReadEvent RegOut :=
  (ofOption (dtNodeParent stray mem fuel adt node)).bind fun arg =>
    (dtNodeU32Log lib mem arg.parent addressCellsKey 0).bind fun a_cells =>
      (dtNodeU32Log lib mem arg.parent sizeCellsKey 0).bind fun s_cells =>
        if a_cells < 1 ∨ a_cells > 2 ∨ s_cells > 2 then Logged.pure .refused
        else (ofOption (dtProp lib mem node regKey)).bind fun r =>
          match r with
          | none => Logged.pure .refused
          | some (val, reg_len) =>
            if reg_len = 0 then Logged.pure .refused
            else if reg_len < (idx + 1) * (a_cells + s_cells) * 4 % 2^32 then Logged.pure .refused
            else
              let reg := val + 4 * (idx * (a_cells + s_cells) % 2^32)
              (note (.entry idx (a_cells + s_cells) reg_len)).bind fun _ =>
                (getCellsLog mem val reg_len reg a_cells).bind fun (addr, reg) =>
                  (getCellsLog mem val reg_len reg s_cells).bind fun (size, _) =>
                    dtRegLoopLog lib mem stray fuel adt fuel arg.parent a_cells s_cells addr size

/-! ## the readers without the log -/

theorem dtNodeU32Log_result (node : Option ℕ) (prop : List UInt8) (idx : ℕ) :
    (dtNodeU32Log lib mem node prop idx).result = dtNodeU32 lib mem node prop idx := by
  rw [dtNodeU32Log, dtNodeUnit, bind_result, dtNodeU32]
  refine Option.bind_congr fun node _ => ?_
  rw [bind_result]
  refine Option.bind_congr fun v _ => ?_
  dsimp only
  split
  · rfl
  · rfl

theorem getCellsLoopLog_result (val len n i dst src : ℕ) :
    (getCellsLoopLog mem val len n i dst src).result = getCellsLoop mem n i dst src := by
  induction n generalizing i dst src with
  | zero => rfl
  | succ n ih =>
    rw [getCellsLoopLog, note_bind, getCellsLoop]
    show ((ofOption (mem.le32 src)).bind _).result = _
    rw [bind_result]
    exact Option.bind_congr fun w _ => ih _ _ _

theorem getCellsLog_result (val len src cells : ℕ) :
    (getCellsLog mem val len src cells).result = getCells mem src cells :=
  getCellsLoopLog_result mem val len cells 0 0 src

theorem dtRangesLog_result (val len ac pc sc size n a addr : ℕ) :
    (dtRangesLog mem val len ac pc sc size n a addr).result
      = dtRanges mem ac pc sc size n a addr := by
  induction n generalizing a addr with
  | zero => rfl
  | succ n ih =>
    rw [dtRangesLog, dtRanges, bind_result, getCellsLog_result]
    refine Option.bind_congr fun c _ => ?_
    rw [bind_result, getCellsLog_result]
    refine Option.bind_congr fun p _ => ?_
    rw [bind_result, getCellsLog_result]
    refine Option.bind_congr fun s _ => ?_
    dsimp only
    rw [note_bind]
    cases h : windowTest ⟨c.1, p.1, s.1⟩ addr size with
    | true =>
      rw [if_pos rfl, if_pos (of_decide_eq_true h)]
      rfl
    | false =>
      rw [if_neg Bool.false_ne_true, if_neg (of_decide_eq_false h)]
      exact ih s.2 addr

theorem dtRegLoopLog_result (k : ℕ) (cur : Option ℕ) (ac sc addr size : ℕ) :
    (dtRegLoopLog lib mem stray fuel adt k cur ac sc addr size).result
      = dtRegLoop lib stray mem fuel adt k cur ac sc addr size := by
  induction k generalizing cur ac sc addr with
  | zero => rfl
  | succ k ih =>
    cases cur with
    | none => rfl
    | some cur =>
      rw [dtRegLoopLog, dtRegLoop, bind_result]
      refine Option.bind_congr fun arg _ => ?_
      rw [bind_result]
      refine Option.bind_congr fun r _ => ?_
      cases r with
      | none => rfl
      | some r =>
        dsimp only
        rw [bind_result, dtNodeU32Log_result]
        refine Option.bind_congr fun pa _ => ?_
        split
        · rfl
        · rw [bind_result, dtRangesLog_result]
          refine Option.bind_congr fun addr' _ => ?_
          rw [bind_result, dtNodeU32Log_result]
          exact Option.bind_congr fun s _ => ih _ _ _ _

/-- **`dt_node_reg` is what it is without the log** -/
theorem dtNodeReg_logged (node idx : ℕ) :
    (dtNodeRegLog lib mem stray fuel adt node idx).result
      = dtNodeReg lib stray mem fuel adt node idx := by
  rw [dtNodeRegLog, dtNodeReg, bind_result]
  refine Option.bind_congr fun arg _ => ?_
  rw [bind_result, dtNodeU32Log_result]
  refine Option.bind_congr fun ac _ => ?_
  rw [bind_result, dtNodeU32Log_result]
  refine Option.bind_congr fun sc _ => ?_
  split
  · rfl
  · rw [bind_result]
    refine Option.bind_congr fun r _ => ?_
    cases r with
    | none => rfl
    | some r =>
      dsimp only
      split
      · rfl
      · split
        · rfl
        · rw [note_bind]
          dsimp only
          rw [bind_result, getCellsLog_result]
          refine Option.bind_congr fun a _ => ?_
          rw [bind_result, getCellsLog_result]
          exact Option.bind_congr fun s _ => dtRegLoopLog_result lib mem stray fuel adt _ _ _ _ _ _

end

/-! ## a unit of a property -/

/-- the index plus one is a `uint32_t`; for the last index of all it is 0, and the check passes -/
theorem dtNodeUnit_right (lib : AsciiLib) (mem : Mem) (width : ℕ) (hw : 0 < width)
    (read : ℕ → Option ℕ) (node idx : ℕ) (prop : List UInt8) (v : Option (ℕ × ℕ))
    (hidx : idx < 2^32) (hv : dtProp lib mem node prop = some v)
    (hlen : ∀ p len, v = some (p, len) → len < 2^24) :
    (dtNodeUnit lib mem width read (some node) prop idx).All ReadEvent.Right ↔ idx ≠ 2^32 - 1 := by
  obtain ⟨val, hval⟩ : ∃ val, val = (v.map Prod.fst).getD 0 := ⟨_, rfl⟩
  obtain ⟨len, hl⟩ : ∃ len, len = (v.map Prod.snd).getD 0 := ⟨_, rfl⟩
  have hlt : len < 2^24 := by
    cases v with
    | none =>
      rw [hl]
      exact Nat.two_pow_pos 24
    | some p =>
      rw [hl]
      exact hlen p.1 p.2 rfl
  rw [dtNodeUnit, ofOption_bind _ _ node rfl, ofOption_bind _ _ v hv]
  dsimp only
  rw [← hval, ← hl]
  by_cases hlast : idx = 2^32 - 1
  · have hmul : idx ≤ width * idx := Nat.le_mul_of_pos_left idx hw
    rw [if_neg (by rw [hlast]; omega), note_bind_all]
    constructor
    · intro h
      have := h.1.2
      omega
    · intro h
      exact absurd hlast h
  · refine ⟨fun _ => hlast, fun _ => ?_⟩
    rw [Nat.mod_eq_of_lt (by omega)]
    by_cases hshort : len < (idx + 1) * width
    · rw [if_pos hshort]
      exact all_silent _ _ rfl
    · rw [if_neg hshort, note_bind_all]
      have hmul : (idx + 1) * width = width * idx + width := by ring
      exact ⟨⟨by omega, by omega⟩, all_silent _ _ rfl⟩

/-- the first unit is read inside the property, if at all -/
theorem dtNodeU32Log_first (lib : AsciiLib) (mem : Mem) (node : Option ℕ) (prop : List UInt8) :
    (dtNodeU32Log lib mem node prop 0).All ReadEvent.Right := by
  rw [dtNodeU32Log, dtNodeUnit, ofOption_bind_all]
  intro node _
  rw [ofOption_bind_all]
  intro v _
  dsimp only
  split
  · exact all_silent _ _ rfl
  · rw [note_bind_all]
    exact ⟨⟨by omega, by omega⟩, all_silent _ _ rfl⟩

/-! ## cells -/

namespace Mem

theorem cells_lt (mem : Mem) (a n v : ℕ) (h : mem.cells a n = some v) : v < 2^(32 * n) := by
  induction n generalizing a v with
  | zero =>
    rw [← Option.some.inj h]
    exact Nat.two_pow_pos _
  | succ n ih =>
    obtain ⟨w, hw, h⟩ := Option.bind_eq_some_iff.mp h
    obtain ⟨v', hv', rfl⟩ := Option.map_eq_some_iff.mp h
    have hlow := le32_lt mem a w hw
    have hhigh := ih (a + 4) v' hv'
    have hpow : 2^(32 * (n + 1)) = 2^32 * 2^(32 * n) := by
      rw [← Nat.pow_add, show 32 * (n + 1) = 32 + 32 * n by omega]
    rw [hpow]
    have : 2^32 * (v' + 1) ≤ 2^32 * 2^(32 * n) := Nat.mul_le_mul_left _ hhigh
    omega

theorem cells_lt_word (mem : Mem) (a n v : ℕ) (hn : n ≤ 2) (h : mem.cells a n = some v) :
    v < 2^64 :=
  lt_of_lt_of_le (cells_lt mem a n v h) (Nat.pow_le_pow_right (by omega) (by omega))

end Mem

theorem getCellsLoop_none (mem : Mem) (n i dst src : ℕ) (h : mem.cells src n = none) :
    getCellsLoop mem n i dst src = none := by
  induction n generalizing i dst src with
  | zero => cases h
  | succ n ih =>
    rw [Mem.cells] at h
    rw [getCellsLoop]
    cases hw : mem.le32 src with
    | none => rfl
    | some w =>
      rw [hw, Option.bind_some, Option.map_eq_none_iff] at h
      exact ih _ _ _ h

theorem getCells_eq (mem : Mem) (src n : ℕ) :
    getCells mem src n = (mem.cells src n).map fun v => (v, src + 4 * n) := by
  cases h : mem.cells src n with
  | none => exact getCellsLoop_none mem n 0 0 src h
  | some v => exact getCells_spec mem src n v h

theorem getCellsLoopLog_right (mem : Mem) (val len n i dst src : ℕ) (h1 : val ≤ src)
    (h2 : src + 4 * n ≤ val + len) :
    (getCellsLoopLog mem val len n i dst src).All ReadEvent.Right := by
  induction n generalizing i dst src with
  | zero => exact all_silent _ _ rfl
  | succ n ih =>
    rw [getCellsLoopLog, note_bind_all]
    refine ⟨⟨h1, by omega⟩, ?_⟩
    rw [ofOption_bind_all]
    intro w _
    exact ih (i + 1) _ (src + 4) (by omega) (by omega)

theorem getCellsLog_right (mem : Mem) (val len src n : ℕ) (h1 : val ≤ src)
    (h2 : src + 4 * n ≤ val + len) : (getCellsLog mem val len src n).All ReadEvent.Right :=
  getCellsLoopLog_right mem val len n 0 0 src h1 h2

variable {α : Type*} in
/-- a computation that first gets cells inside the property -/
theorem getCellsLog_bind (mem : Mem) (val len src n : ℕ) (f : ℕ × ℕ → Logged ReadEvent α)
    (h1 : val ≤ src) (h2 : src + 4 * n ≤ val + len) :
    ((getCellsLog mem val len src n).bind f).All ReadEvent.Right ↔
      ∀ v, mem.cells src n = some v → (f (v, src + 4 * n)).All ReadEvent.Right := by
  rw [bind_all, getCellsLog_result, getCells_eq]
  constructor
  · intro h v hv
    exact h.2 _ (by rw [hv]; rfl)
  · intro h
    refine ⟨getCellsLog_right mem val len src n h1 h2, ?_⟩
    intro r hr
    obtain ⟨v, hv, rfl⟩ := Option.map_eq_some_iff.mp hr
    exact h v hv

/-! ## the entries of one `ranges` -/

/-- one of the two sums alone reaches `2^64`, and that turns the comparison of them -/
def Window.Turned (w : Window) (addr size : ℕ) : Prop :=
  w.child ≤ addr ∧
    (2^64 ≤ addr + size ∧ w.child + w.size < 2^64 ∧ addr + size - 2^64 ≤ w.child + w.size ∨
      addr + size < 2^64 ∧ 2^64 ≤ w.child + w.size ∧ w.child + w.size - 2^64 < addr + size)

instance (w : Window) (addr size : ℕ) : Decidable (w.Turned addr size) :=
  inferInstanceAs (Decidable (_ ∧ (_ ∨ _)))

/-- **the containment test** of 64-bit numbers -/
theorem window_test_iff (w : Window) (addr size : ℕ) (hc : w.child < 2^64) (hs : w.size < 2^64)
    (ha : addr < 2^64) (hsz : size < 2^64) :
    (windowTest w addr size = true ↔ w.Contains addr size) ↔ ¬ w.Turned addr size := by
  rw [windowTest, decide_eq_true_iff, Window.Contains, Window.Turned]
  omega

/-- the entry at `a`, if it can be read -/
def windowAt (mem : Mem) (ac pc sc a : ℕ) : Option Window :=
  (mem.cells a ac).bind fun c => (mem.cells (a + 4 * ac) pc).bind fun p =>
    (mem.cells (a + 4 * ac + 4 * pc) sc).map fun s => ⟨c, p, s⟩

section
variable (mem : Mem) (ac pc sc size : ℕ)

/-- no test of `n` entries at `a` is turned, up to the one that contains the range -/
def RangesExact : ℕ → ℕ → ℕ → Prop
  | 0, _, _ => True
  | n + 1, a, addr => ∀ w, windowAt mem ac pc sc a = some w →
      ¬ w.Turned addr size ∧
        (¬ w.Contains addr size → RangesExact n (a + 4 * ac + 4 * pc + 4 * sc) addr)

/-- the address behind `n` entries at `a`, translated by the first that contains the range -/
def rangesAddr : ℕ → ℕ → ℕ → Option ℕ
  | 0, _, addr => some addr
  | n + 1, a, addr => (windowAt mem ac pc sc a).bind fun w =>
      if w.Contains addr size then some ((addr - w.child + w.parent) % 2^64)
      else rangesAddr n (a + 4 * ac + 4 * pc + 4 * sc) addr

/-- one entry inside the property is read as a window, tested, and the loop goes on behind it -/
theorem dtRangesLog_entry (val len n a addr : ℕ) (h1 : val ≤ a)
    (h2 : a + 4 * ac + 4 * pc + 4 * sc ≤ val + len) :
    (dtRangesLog mem val len ac pc sc size (n + 1) a addr).All ReadEvent.Right ↔
      ∀ w, windowAt mem ac pc sc a = some w →
        (windowTest w addr size = true ↔ w.Contains addr size) ∧
          (windowTest w addr size = false →
            (dtRangesLog mem val len ac pc sc size n (a + 4 * ac + 4 * pc + 4 * sc)
              addr).All ReadEvent.Right) := by
  rw [dtRangesLog, getCellsLog_bind mem val len a ac _ h1 (by omega)]
  have hrest : ∀ w : Window, ((note (.test addr size w (windowTest w addr size))).bind fun _ =>
      if windowTest w addr size then Logged.pure ((addr - w.child + w.parent) % 2^64)
      else dtRangesLog mem val len ac pc sc size n (a + 4 * ac + 4 * pc + 4 * sc)
        addr).All ReadEvent.Right ↔
      (windowTest w addr size = true ↔ w.Contains addr size) ∧
          (windowTest w addr size = false →
            (dtRangesLog mem val len ac pc sc size n (a + 4 * ac + 4 * pc + 4 * sc)
              addr).All ReadEvent.Right) := by
    intro w
    rw [note_bind_all]
    cases windowTest w addr size with
    | true => exact and_congr Iff.rfl ⟨fun _ h => (by cases h), fun _ => all_silent _ _ rfl⟩
    | false => exact and_congr Iff.rfl ⟨fun h _ => h, fun h => h rfl⟩
  constructor
  · intro h w hw
    obtain ⟨c, hc, hw⟩ := Option.bind_eq_some_iff.mp hw
    obtain ⟨p, hp, hw⟩ := Option.bind_eq_some_iff.mp hw
    obtain ⟨s, hs, rfl⟩ := Option.map_eq_some_iff.mp hw
    have hp' := (getCellsLog_bind mem val len _ pc _ (by omega) (by omega)).mp (h c hc) p hp
    exact (hrest ⟨c, p, s⟩).mp
      ((getCellsLog_bind mem val len _ sc _ (by omega) (by omega)).mp hp' s hs)
  · intro h c hc
    refine (getCellsLog_bind mem val len _ pc _ (by omega) (by omega)).mpr fun p hp => ?_
    refine (getCellsLog_bind mem val len _ sc _ (by omega) (by omega)).mpr fun s hs => ?_
    exact (hrest ⟨c, p, s⟩).mpr (h ⟨c, p, s⟩ (by rw [windowAt, hc, Option.bind_some, hp,
      Option.bind_some, hs, Option.map_some]))

/-- the address the loop leaves with comes from the entry that passes the test -/
theorem dtRanges_entry (n a addr : ℕ) :
    dtRanges mem ac pc sc size (n + 1) a addr
      = (windowAt mem ac pc sc a).bind fun w =>
          if windowTest w addr size then some ((addr - w.child + w.parent) % 2^64)
          else dtRanges mem ac pc sc size n (a + 4 * ac + 4 * pc + 4 * sc) addr := by
  rw [dtRanges, getCells_eq, windowAt]
  cases mem.cells a ac with
  | none => rfl
  | some c =>
    rw [Option.map_some, Option.bind_some, Option.bind_some]
    dsimp only
    rw [getCells_eq]
    cases mem.cells (a + 4 * ac) pc with
    | none => rfl
    | some p =>
      rw [Option.map_some, Option.bind_some, Option.bind_some]
      dsimp only
      rw [getCells_eq]
      cases mem.cells (a + 4 * ac + 4 * pc) sc with
      | none => rfl
      | some s =>
        rw [Option.map_some, Option.map_some, Option.bind_some, Option.bind_some]
        dsimp only
        rw [windowTest]
        exact (if_congr decide_eq_true_iff rfl rfl).symm

theorem windowAt_lt (a : ℕ) (w : Window) (hac : ac ≤ 2) (hsc : sc ≤ 2)
    (h : windowAt mem ac pc sc a = some w) : w.child < 2^64 ∧ w.size < 2^64 := by
  obtain ⟨c, hc, h⟩ := Option.bind_eq_some_iff.mp h
  obtain ⟨p, _, h⟩ := Option.bind_eq_some_iff.mp h
  obtain ⟨s, hs, rfl⟩ := Option.map_eq_some_iff.mp h
  exact ⟨Mem.cells_lt_word mem a ac c hac hc, Mem.cells_lt_word mem _ sc s hsc hs⟩

/-- **the loop over the entries of one `ranges`** reads inside it, and applies the entry it should,
exactly when no test is turned -/
theorem dtRangesLog_right (hac : ac ≤ 2) (hsc : sc ≤ 2) (val len n a addr : ℕ)
    (hsz : size < 2^64) (ha : addr < 2^64) (h1 : val ≤ a)
    (h2 : a + (4 * ac + 4 * pc + 4 * sc) * n ≤ val + len) :
    (dtRangesLog mem val len ac pc sc size n a addr).All ReadEvent.Right ↔
      RangesExact mem ac pc sc size n a addr := by
  induction n generalizing a with
  | zero => exact ⟨fun _ => trivial, fun _ => all_silent _ _ rfl⟩
  | succ n ih =>
    rw [Nat.mul_succ] at h2
    rw [dtRangesLog_entry mem ac pc sc size val len n a addr h1 (by omega), RangesExact]
    refine forall_congr' fun w => imp_congr_right fun hw => ?_
    obtain ⟨hc, hs⟩ := windowAt_lt mem ac pc sc a w hac hsc hw
    rw [window_test_iff w addr size hc hs ha hsz]
    refine and_congr_right fun hexact => ?_
    have htest := (window_test_iff w addr size hc hs ha hsz).mpr hexact
    rw [← ih (a + 4 * ac + 4 * pc + 4 * sc) (by omega) (by omega), ← htest, Bool.not_eq_true]

/-- **the address** is then the translated one -/
theorem dtRanges_exact (hac : ac ≤ 2) (hsc : sc ≤ 2) (n a addr : ℕ)
    (hsz : size < 2^64) (ha : addr < 2^64) (h : RangesExact mem ac pc sc size n a addr) :
    dtRanges mem ac pc sc size n a addr = rangesAddr mem ac pc sc size n a addr := by
  induction n generalizing a with
  | zero => rfl
  | succ n ih =>
    rw [dtRanges_entry, rangesAddr]
    refine Option.bind_congr fun w hw => ?_
    obtain ⟨hc, hs⟩ := windowAt_lt mem ac pc sc a w hac hsc hw
    obtain ⟨hexact, hrest⟩ := h w hw
    have htest := (window_test_iff w addr size hc hs ha hsz).mpr hexact
    by_cases hin : w.Contains addr size
    · rw [if_pos (htest.mpr hin), if_pos hin]
    · rw [if_neg (fun h => hin (htest.mp h)), if_neg hin, ih _ (hrest hin)]

theorem rangesAddr_lt (n a addr addr' : ℕ) (ha : addr < 2^64)
    (h : rangesAddr mem ac pc sc size n a addr = some addr') : addr' < 2^64 := by
  induction n generalizing a with
  | zero =>
    rw [← Option.some.inj h]
    exact ha
  | succ n ih =>
    obtain ⟨w, _, h⟩ := Option.bind_eq_some_iff.mp h
    by_cases hin : w.Contains addr size
    · rw [if_pos hin] at h
      rw [← Option.some.inj h]
      exact Nat.mod_lt _ (Nat.two_pow_pos 64)
    · rw [if_neg hin] at h
      exact ih _ h

end

/-! ## the way up -/

section
variable (lib : AsciiLib) (stray : Int → Option ℕ) (mem : Mem) (fuel adt : ℕ)

/-- no test of a `ranges` on the way up from `cur` is turned -/
def ClimbExact : ℕ → Option ℕ → ℕ → ℕ → ℕ → ℕ → Prop
  | 0, _, _, _, _, _ => True
  | _ + 1, none, _, _, _, _ => True
  | k + 1, some cur, ac, sc, addr, size => ∀ arg v len pa,
      dtNodeParent stray mem fuel adt cur = some arg →
      dtProp lib mem cur rangesKey = some (some (v, len)) →
      dtNodeU32 lib mem arg.parent addressCellsKey 0 = some pa → ¬ (pa < 1 ∨ pa > 2 ∨ sc > 2) →
        RangesExact mem ac pa sc size (len / (4 * (pa + ac + sc))) v addr ∧
          ∀ addr' sc',
            rangesAddr mem ac pa sc size (len / (4 * (pa + ac + sc))) v addr = some addr' →
            dtNodeU32 lib mem arg.parent sizeCellsKey 0 = some sc' →
              ClimbExact k arg.parent pa sc' addr' size

/-- entry `idx` of the `reg` of a node: its bounds do not wrap where they are checked, and no test
on the way up is turned -/
def RegExact (node idx : ℕ) : Prop := ∀ arg ac sc v len,
  dtNodeParent stray mem fuel adt node = some arg →
  dtNodeU32 lib mem arg.parent addressCellsKey 0 = some ac →
  dtNodeU32 lib mem arg.parent sizeCellsKey 0 = some sc → ¬ (ac < 1 ∨ ac > 2 ∨ sc > 2) →
  dtProp lib mem node regKey = some (some (v, len)) → len ≠ 0 →
  (idx + 1) * (ac + sc) * 4 % 2^32 ≤ len →
    (idx + 1) * (ac + sc) * 4 < 2^32 ∧ ∀ addr size,
      mem.cells (v + 4 * (idx * (ac + sc))) ac = some addr →
      mem.cells (v + 4 * (idx * (ac + sc)) + 4 * ac) sc = some size →
        ClimbExact lib stray mem fuel adt fuel arg.parent ac sc addr size

/-- one turn of the loop over the ancestors, at a node with a `ranges` -/
theorem rangesTurn_right (k ac sc addr size : ℕ) (hac : ac ≤ 2) (ha : addr < 2^64)
    (hsz : size < 2^64)
    (hrest : ∀ cur ac sc addr, ac ≤ 2 → addr < 2^64 →
      ((dtRegLoopLog lib mem stray fuel adt k cur ac sc addr size).All ReadEvent.Right ↔
        ClimbExact lib stray mem fuel adt k cur ac sc addr size))
    (arg : ParentArg) (v len : ℕ) :
    ((dtNodeU32Log lib mem arg.parent addressCellsKey 0).bind fun pa =>
      if pa < 1 ∨ pa > 2 ∨ sc > 2 then Logged.pure .refused
      else
        (dtRangesLog mem v len ac pa sc size (len / (4 * (pa + ac + sc))) v addr).bind
          fun addr => (dtNodeU32Log lib mem arg.parent sizeCellsKey 0).bind fun sc =>
            dtRegLoopLog lib mem stray fuel adt k arg.parent pa sc addr size).All
              ReadEvent.Right ↔
    ∀ pa, dtNodeU32 lib mem arg.parent addressCellsKey 0 = some pa →
      ¬ (pa < 1 ∨ pa > 2 ∨ sc > 2) →
      RangesExact mem ac pa sc size (len / (4 * (pa + ac + sc))) v addr ∧
        ∀ addr' sc',
          rangesAddr mem ac pa sc size (len / (4 * (pa + ac + sc))) v addr = some addr' →
          dtNodeU32 lib mem arg.parent sizeCellsKey 0 = some sc' →
            ClimbExact lib stray mem fuel adt k arg.parent pa sc' addr' size := by
  rw [bind_all, dtNodeU32Log_result]
  refine Iff.trans ⟨fun h => h.2, fun h => ⟨dtNodeU32Log_first lib mem _ _, h⟩⟩ ?_
  refine forall_congr' fun pa => imp_congr_right fun hpa => ?_
  by_cases hbad : pa < 1 ∨ pa > 2 ∨ sc > 2
  · rw [if_pos hbad]
    exact ⟨fun _ h => absurd hbad h, fun _ => all_silent _ _ rfl⟩
  · rw [if_neg hbad]
    have hle := Nat.mul_div_le len (4 * (pa + ac + sc))
    rw [show 4 * (pa + ac + sc) = 4 * ac + 4 * pa + 4 * sc by ring] at hle
    have hranges := dtRangesLog_right mem ac pa sc size hac (by omega) v len
      (len / (4 * (pa + ac + sc))) v addr hsz ha (le_refl v)
      (by rw [show 4 * (pa + ac + sc) = 4 * ac + 4 * pa + 4 * sc by ring]; omega)
    rw [bind_all, hranges, dtRangesLog_result]
    refine Iff.trans (and_congr_right fun hexact => ?_) ⟨fun h _ => h, fun h => h hbad⟩
    rw [dtRanges_exact mem ac pa sc size hac (by omega) _ v addr hsz ha hexact]
    refine forall_congr' fun addr' => ?_
    rw [bind_all, dtNodeU32Log_result]
    constructor
    · intro h sc' haddr hsc
      exact (hrest arg.parent pa sc' addr' (by omega)
        (rangesAddr_lt mem ac pa sc size _ v addr addr' ha haddr)).mp ((h haddr).2 sc' hsc)
    · intro h haddr
      refine ⟨dtNodeU32Log_first lib mem _ _, fun sc' hsc => ?_⟩
      exact (hrest arg.parent pa sc' addr' (by omega)
        (rangesAddr_lt mem ac pa sc size _ v addr addr' ha haddr)).mpr (h sc' haddr hsc)

/-- **the loop over the ancestors** -/
theorem dtRegLoopLog_right (k : ℕ) (cur : Option ℕ) (ac sc addr size : ℕ) (hac : ac ≤ 2)
    (ha : addr < 2^64) (hsz : size < 2^64) :
    (dtRegLoopLog lib mem stray fuel adt k cur ac sc addr size).All ReadEvent.Right ↔
      ClimbExact lib stray mem fuel adt k cur ac sc addr size := by
  induction k generalizing cur ac sc addr with
  | zero => exact ⟨fun _ => trivial, fun _ => all_silent _ _ rfl⟩
  | succ k ih =>
    cases cur with
    | none => exact ⟨fun _ => trivial, fun _ => all_silent _ _ rfl⟩
    | some cur =>
      have hturn := rangesTurn_right lib stray mem fuel adt k ac sc addr size hac ha hsz ih
      rw [dtRegLoopLog, ofOption_bind_all, ClimbExact]
      constructor
      · intro h arg v len pa harg hr
        have hr' := (ofOption_bind_all _ _ _).mp (h arg harg) _ hr
        exact (hturn arg v len).mp hr' pa
      · intro h arg harg
        refine (ofOption_bind_all _ _ _).mpr fun r hr => ?_
        cases r with
        | none => exact all_silent _ _ rfl
        | some r => exact (hturn arg r.1 r.2).mpr fun pa => h arg r.1 r.2 pa harg hr

/-- entry `idx` of a `reg` of `len` bytes at `v`, once the check of its bounds has passed -/
theorem regEntry_right (arg : ParentArg) (ac sc v len idx : ℕ) (hac : ac ≤ 2) (hsc : sc ≤ 2)
    (hlen : len < 2^32) (hcheck : (idx + 1) * (ac + sc) * 4 % 2^32 ≤ len) :
    ((note (.entry idx (ac + sc) len)).bind fun _ =>
      (getCellsLog mem v len (v + 4 * (idx * (ac + sc) % 2^32)) ac).bind fun (addr, reg) =>
        (getCellsLog mem v len reg sc).bind fun (size, _) =>
          dtRegLoopLog lib mem stray fuel adt fuel arg.parent ac sc addr size).All
            ReadEvent.Right ↔
      (idx + 1) * (ac + sc) * 4 < 2^32 ∧ ∀ addr size,
        mem.cells (v + 4 * (idx * (ac + sc))) ac = some addr →
        mem.cells (v + 4 * (idx * (ac + sc)) + 4 * ac) sc = some size →
          ClimbExact lib stray mem fuel adt fuel arg.parent ac sc addr size := by
  rw [note_bind_all]
  have hfits : ReadEvent.Right (.entry idx (ac + sc) len) ↔ (idx + 1) * (ac + sc) * 4 < 2^32 := by
    show (idx + 1) * (ac + sc) * 4 ≤ len ↔ _
    constructor
    · intro h
      omega
    · intro h
      rw [Nat.mod_eq_of_lt h] at hcheck
      exact hcheck
  rw [hfits]
  refine and_congr_right fun hlt => ?_
  rw [Nat.mod_eq_of_lt hlt] at hcheck
  have hmul : (idx + 1) * (ac + sc) * 4 = 4 * (idx * (ac + sc)) + 4 * ac + 4 * sc := by ring
  rw [Nat.mod_eq_of_lt (show idx * (ac + sc) < 2^32 by omega),
    getCellsLog_bind mem v len _ ac _ (by omega) (by omega)]
  constructor
  · intro h addr size haddr hsize
    exact (dtRegLoopLog_right lib stray mem fuel adt fuel arg.parent ac sc addr size hac
      (Mem.cells_lt_word mem _ ac addr hac haddr) (Mem.cells_lt_word mem _ sc size hsc hsize)).mp
      ((getCellsLog_bind mem v len _ sc _ (by omega) (by omega)).mp (h addr haddr) size hsize)
  · intro h addr haddr
    refine (getCellsLog_bind mem v len _ sc _ (by omega) (by omega)).mpr fun size hsize => ?_
    exact (dtRegLoopLog_right lib stray mem fuel adt fuel arg.parent ac sc addr size hac
      (Mem.cells_lt_word mem _ ac addr hac haddr) (Mem.cells_lt_word mem _ sc size hsc hsize)).mpr
      (h addr size haddr hsize)

section
variable (node idx : ℕ)
  (hlen : ∀ v len, dtProp lib mem node regKey = some (some (v, len)) → len < 2^32)
include hlen

/-- the lookup of `reg`, behind the checks of the cell counts -/
theorem regValue_right (arg : ParentArg) (ac sc : ℕ) (hcells : ¬ (ac < 1 ∨ ac > 2 ∨ sc > 2)) :
    ((ofOption (dtProp lib mem node regKey)).bind fun r =>
      match r with
      | none => Logged.pure .refused
      | some (val, reg_len) =>
        if reg_len = 0 then Logged.pure .refused
        else if reg_len < (idx + 1) * (ac + sc) * 4 % 2^32 then Logged.pure .refused
        else
          (note (.entry idx (ac + sc) reg_len)).bind fun _ =>
            (getCellsLog mem val reg_len (val + 4 * (idx * (ac + sc) % 2^32)) ac).bind
              fun (addr, reg) => (getCellsLog mem val reg_len reg sc).bind fun (size, _) =>
                dtRegLoopLog lib mem stray fuel adt fuel arg.parent ac sc addr size).All
                  ReadEvent.Right ↔
      ∀ v len, dtProp lib mem node regKey = some (some (v, len)) → len ≠ 0 →
        (idx + 1) * (ac + sc) * 4 % 2^32 ≤ len →
          (idx + 1) * (ac + sc) * 4 < 2^32 ∧ ∀ addr size,
            mem.cells (v + 4 * (idx * (ac + sc))) ac = some addr →
            mem.cells (v + 4 * (idx * (ac + sc)) + 4 * ac) sc = some size →
              ClimbExact lib stray mem fuel adt fuel arg.parent ac sc addr size := by
  rw [ofOption_bind_all]
  constructor
  · intro h v len hp h0 hcheck
    have hr := h _ hp
    dsimp only at hr
    rw [if_neg h0, if_neg (by omega)] at hr
    exact (regEntry_right lib stray mem fuel adt arg ac sc v len idx (by omega) (by omega)
      (hlen v len hp) hcheck).mp hr
  · intro h r hp
    cases r with
    | none => exact all_silent _ _ rfl
    | some r =>
      dsimp only
      by_cases h0 : r.2 = 0
      · rw [if_pos h0]
        exact all_silent _ _ rfl
      · rw [if_neg h0]
        by_cases hcheck : r.2 < (idx + 1) * (ac + sc) * 4 % 2^32
        · rw [if_pos hcheck]
          exact all_silent _ _ rfl
        · rw [if_neg hcheck]
          exact (regEntry_right lib stray mem fuel adt arg ac sc r.1 r.2 idx (by omega)
            (by omega) (hlen r.1 r.2 hp) (by omega)).mpr (h r.1 r.2 hp h0 (by omega))

/-- the whole of `dt_node_reg`, on a node whose `reg` has a 32-bit length -/
theorem dtNodeRegLog_right :
    (dtNodeRegLog lib mem stray fuel adt node idx).All ReadEvent.Right ↔
      RegExact lib stray mem fuel adt node idx := by
  have hreg := regValue_right lib stray mem fuel adt node idx hlen
  rw [dtNodeRegLog, ofOption_bind_all, RegExact]
  constructor
  · intro h arg ac sc v len harg hac hsc hcells
    have ha := ((bind_all _ _ _).mp (h arg harg)).2 ac (by rw [dtNodeU32Log_result]; exact hac)
    have hs := ((bind_all _ _ _).mp ha).2 sc (by rw [dtNodeU32Log_result]; exact hsc)
    rw [if_neg hcells] at hs
    exact (hreg arg ac sc hcells).mp hs v len
  · intro h arg harg
    refine (bind_all _ _ _).mpr ⟨dtNodeU32Log_first lib mem _ _, fun ac hac => ?_⟩
    refine (bind_all _ _ _).mpr ⟨dtNodeU32Log_first lib mem _ _, fun sc hsc => ?_⟩
    rw [dtNodeU32Log_result] at hac hsc
    by_cases hcells : ac < 1 ∨ ac > 2 ∨ sc > 2
    · rw [if_pos hcells]
      exact all_silent _ _ rfl
    · rw [if_neg hcells]
      exact (hreg arg ac sc hcells).mpr fun v len => h arg ac sc v len harg hac hsc hcells

end

end

/-! ## on an accepted tree -/

/-- a lookup in an accepted tree: it does not fault, and the length has 24 bits -/
theorem accepted_lookup (lib : AsciiLib) (mem : Mem) (adt size : ℕ) (out : CheckOut) (n : NodeRec)
    (cs : Forest NodeRec) (b : ℕ) (hl : lib.Documented) (hr : mem.Readable adt size)
    (hc : dtCheck mem adt size = some out) (h0 : out.ret = 0) (hn : mem.IsNode n cs adt b)
    (q : NodeRec) (hq : q ∈ (Forest.node n cs .nil).labels) (key : List UInt8) (hk : NoNul key) :
    ∃ v, dtProp lib mem q.addr key = some v ∧ ∀ p len, v = some (p, len) → len < 2^24 := by
  have hread := dtCheck_readable mem adt size out hr hc h0 n cs b hn
  obtain ⟨h1, m, h2, _, _⟩ := Mem.isForest_node mem _ adt b hn q hq
  refine ⟨_, dtProp_take lib mem hl key hk q m h1 h2 (fun p hp =>
    (Mem.isForest_readable mem _ adt b hn hread q hq p hp).1), ?_⟩
  intro p len hp
  obtain ⟨r, hf, hr⟩ := Option.map_eq_some_iff.mp hp
  cases hr
  exact Mem.isProps_len_lt mem q.props _ m h2 r (NodeRec.find_mem hf)

/-- **Where the readers read**, in an accepted tree: `dt_node_u32` and `dt_node_u64` stay inside the
property for every index but the last, where the index plus one is 0; `dt_node_reg` does, and
decides containment, exactly when the bounds of the entry and the tests on the way up do not
wrap. -/
theorem readers_right_iff (lib : AsciiLib) (mem : Mem) (adt size : ℕ) (out : CheckOut) (n : NodeRec)
    (cs : Forest NodeRec) (b : ℕ) (hl : lib.Documented) (hr : mem.Readable adt size)
    (hc : dtCheck mem adt size = some out) (h0 : out.ret = 0) (hn : mem.IsNode n cs adt b)
    (q : NodeRec) (hq : q ∈ (Forest.node n cs .nil).labels) (idx : ℕ) (hidx : idx < 2^32) :
    (∀ key, NoNul key →
      ((dtNodeU32Log lib mem (some q.addr) key idx).All ReadEvent.Right ↔ idx ≠ 2^32 - 1)) ∧
    (∀ key, NoNul key →
      ((dtNodeU64Log lib mem (some q.addr) key idx).All ReadEvent.Right ↔ idx ≠ 2^32 - 1)) ∧
    ∀ stray fuel, (dtNodeRegLog lib mem stray fuel adt q.addr idx).All ReadEvent.Right ↔
      RegExact lib stray mem fuel adt q.addr idx := by
  have hlookup := accepted_lookup lib mem adt size out n cs b hl hr hc h0 hn q hq
  refine ⟨fun key hk => ?_, fun key hk => ?_, fun stray fuel => ?_⟩
  · obtain ⟨v, hv, hlen⟩ := hlookup key hk
    exact dtNodeUnit_right lib mem 4 (by decide) _ q.addr idx key v hidx hv hlen
  · obtain ⟨v, hv, hlen⟩ := hlookup key hk
    exact dtNodeUnit_right lib mem 8 (by decide) _ q.addr idx key v hidx hv hlen
  · obtain ⟨v, hv, hlen⟩ := hlookup regKey (by decide)
    refine dtNodeRegLog_right lib stray mem fuel adt q.addr idx fun p len hp => ?_
    have := hlen p len (Option.some.inj (hv.symm.trans hp))
    omega

/-- the first word and the first entry of the `reg` of the device -/
theorem busDevice_reads :
    (dtNodeU32Log asciiLib busMem (some busDevice.addr) regKey 0).All ReadEvent.Right ∧
      RegExact asciiLib (fun _ => none) busMem 4 0x800000000 busDevice.addr 0 := by
  have hc := dtCheck_complete busMem _ _ 0x800000000 0x800000118 280 busMem_isNode (le_refl _)
  obtain ⟨h32, _, hreg⟩ := readers_right_iff asciiLib busMem 0x800000000 280 _ busRoot busForest
    0x800000118 asciiLib_documented busMem_readable hc rfl busMem_isNode busDevice (by decide) 0
    (by decide)
  exact ⟨(h32 regKey (by decide)).mpr (by decide),
    (hreg (fun _ => none) 4).mp (by decide +kernel)⟩

/-- word `0xffffffff` of the `reg`, and entry `0x1fffffff`, whose end is a multiple of `2^32` -/
theorem busDevice_reads_outside :
    busMem.Readable 0x800000000 280 ∧
      (dtCheck busMem 0x800000000 280).map CheckOut.ret = some 0 ∧
      busMem.IsNode busRoot busForest 0x800000000 0x800000118 ∧
      busDevice ∈ (Forest.node busRoot busForest .nil).labels ∧
      ¬ (dtNodeU32Log asciiLib busMem (some busDevice.addr) regKey 0xffffffff).All ReadEvent.Right ∧
      ¬ (dtNodeU64Log asciiLib busMem (some busDevice.addr) regKey 0xffffffff).All ReadEvent.Right ∧
      ¬ (dtNodeRegLog asciiLib busMem (fun _ => none) 4 0x800000000 busDevice.addr
          0x1fffffff).All ReadEvent.Right := by
  have hc := dtCheck_complete busMem _ _ 0x800000000 0x800000118 280 busMem_isNode (le_refl _)
  refine ⟨busMem_readable, by rw [hc]; rfl, busMem_isNode, by decide, by decide +kernel,
    by decide +kernel, by decide +kernel⟩

end AppleSilicon
