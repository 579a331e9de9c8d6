import AppleSilicon.Dt.Find
import AppleSilicon.Hob.Partition

/-!
# The carveouts of the CPUs, family by family

Both loops look the node of each CPU up and ask for a reservation of what its `cpm-impl-reg` says.
The T810X loop leaves out a CPU without a node and one whose property is missing or short; the
T602X loop hands a `NULL` node to `dt_node_prop`, reads through a `NULL` property and past a short
one.  Two things they share: the size goes through a `UINT32` parameter, and the 14 characters for
the path hold four digits of the number of a CPU.

`CpuCarveout` is what the tree says of a CPU, from the results of `dt_get` and `dt_prop`;
`treeCarveout` is the same from the nodes of the tree.

* `returns_carveouts_iff`     a loop returns if each turn of it does;
* `t810x_carveout_iff`        a turn of the T810X loop finds what the tree says;
* `CpuCarveout.unique`        it says one thing of a CPU;
* `treeCarveout_spec`         the tree says what its nodes say;
* `carveouts_tolerant_iff`    when both loops make the requests the tree asks for.
-/

namespace AppleSilicon

def cpusName : List UInt8 := ascii ['c', 'p', 'u', 's']

/-- the name of the node of CPU `i` -/
def cpuName (i : ℕ) : List UInt8 := ascii (['c', 'p', 'u'] ++ decimal i)

/-- the path of the node, whole -/
def cpuPath (i : ℕ) : List UInt8 := pathName [cpusName, cpuName i]

section
variable (lib : AsciiLib) (mem : Mem) (pcd : Pcds)

/-- what the tree says of the CPU whose node has the path: there is a carveout if the node is there
and its property has 16 bytes, which are the base and the size -/
inductive CpuCarveout (path : List UInt8) : Option (UInt64 × UInt64) → Prop
  | absent : Returns (fun fuel => dtGet lib mem fuel pcd path) none → CpuCarveout path none
  | missing (node : ℕ) : Returns (fun fuel => dtGet lib mem fuel pcd path) (some node) →
      dtProp lib mem node cpmImplReg = some none → CpuCarveout path none
  | short (node val len : ℕ) : Returns (fun fuel => dtGet lib mem fuel pcd path) (some node) →
      dtProp lib mem node cpmImplReg = some (some (val, len)) → len < 16 → CpuCarveout path none
  | found (node val len : ℕ) (base size : UInt64) :
      Returns (fun fuel => dtGet lib mem fuel pcd path) (some node) →
      dtProp lib mem node cpmImplReg = some (some (val, len)) → 16 ≤ len →
      mem.cells val 2 = some base.toNat → mem.cells (val + 8) 2 = some size.toNat →
      CpuCarveout path (some (base, size))

end

/-- what `ReserveMemoryRegion` is given for a carveout -/
def requested (carveout : UInt64 × UInt64) : UInt64 × UInt64 :=
  ((carveoutRequest carveout).base, (carveoutRequest carveout).size.toUInt64)

/-- **both loops return**, and the requests they make are what the tree says of the CPUs, one for
each with a carveout and none for another -/
def CarveoutsTolerant (lib : AsciiLib) (mem : Mem) (pcd : Pcds) : Prop :=
  ∃ said : ℕ → Option (UInt64 × UInt64),
    (∀ i < pcd.coreCount.toNat, CpuCarveout lib mem pcd (cpuPath i) (said i)) ∧
    ∀ family : Family, ∃ cs, Returns (fun fuel => family.carveouts lib mem fuel pcd) cs ∧
      cs.map requested = (List.range pcd.coreCount.toNat).filterMap said

/-! ## words -/

theorem wordPair_toNat (low high : ℕ) (hl : low < 2^32) (hh : high < 2^32) :
    (UInt64.ofNat high <<< 32 ||| UInt64.ofNat low).toNat = low + 2^32 * high := by
  have h1 : (UInt64.ofNat high).toNat = high := UInt64.toNat_ofNat_of_lt' (show _ < 2^64 by omega)
  have h2 : (UInt64.ofNat low).toNat = low := UInt64.toNat_ofNat_of_lt' (show _ < 2^64 by omega)
  have h3 : (32 : UInt64).toNat % 64 = 32 := by decide
  rw [UInt64.toNat_or, UInt64.toNat_shiftLeft, h1, h2, h3,
    shiftLeft_mod_or low high 32 64 hl (by omega)]

theorem cells_two (mem : Mem) (a : ℕ) (v : UInt64) : mem.cells a 2 = some v.toNat ↔
    ∃ low high, mem.le32 a = some low ∧ mem.le32 (a + 4) = some high ∧
      UInt64.ofNat high <<< 32 ||| UInt64.ofNat low = v := by
  have hcells : mem.cells a 2 = (mem.le32 a).bind fun low => (mem.le32 (a + 4)).map fun high =>
      low + 2^32 * high := by
    show (mem.le32 a).bind (fun low => ((mem.le32 (a + 4)).bind fun high =>
      some (high + 2^32 * 0)).map fun v => low + 2^32 * v) = _
    cases mem.le32 a with
    | none => rfl
    | some low =>
      cases mem.le32 (a + 4) with
      | none => rfl
      | some high => rfl
  rw [hcells]
  constructor
  · intro h
    obtain ⟨low, hlow, h⟩ := Option.bind_eq_some_iff.mp h
    obtain ⟨high, hhigh, h⟩ := Option.map_eq_some_iff.mp h
    refine ⟨low, high, hlow, hhigh, ?_⟩
    apply UInt64.toNat_inj.mp
    rw [wordPair_toNat low high (mem.le32_lt a low hlow) (mem.le32_lt _ high hhigh), h]
  · intro h
    obtain ⟨low, high, hlow, hhigh, rfl⟩ := h
    rw [hlow, hhigh, wordPair_toNat low high (mem.le32_lt a low hlow) (mem.le32_lt _ high hhigh)]
    rfl

/-- the four words are two numbers of 64 bits -/
theorem carveoutWords_iff (mem : Mem) (val : ℕ) (base size : UInt64) :
    carveoutWords mem val = some (base, size) ↔
      mem.cells val 2 = some base.toNat ∧ mem.cells (val + 8) 2 = some size.toNat := by
  rw [cells_two, cells_two, carveoutWords]
  constructor
  · intro h
    obtain ⟨c0, h0, h⟩ := Option.bind_eq_some_iff.mp h
    obtain ⟨c1, h1, h⟩ := Option.bind_eq_some_iff.mp h
    obtain ⟨c2, h2, h⟩ := Option.bind_eq_some_iff.mp h
    obtain ⟨c3, h3, h⟩ := Option.map_eq_some_iff.mp h
    obtain ⟨hb, hs⟩ := Prod.mk.inj h
    exact ⟨⟨c0, c1, h0, h1, hb⟩, c2, c3, h2, h3, hs⟩
  · intro h
    obtain ⟨⟨c0, c1, h0, h1, rfl⟩, c2, c3, h2, h3, rfl⟩ := h
    rw [h0, Option.bind_some, h1, Option.bind_some, h2, Option.bind_some, h3]
    rfl

theorem carveoutWords_readable (mem : Mem) (val : ℕ) (h : mem.Readable val 16) :
    ∃ w, carveoutWords mem val = some w := by
  have hword : ∀ k, k + 4 ≤ 16 → ∃ w, mem.le32 (val + k) = some w :=
    fun k hk => mem.le32_readable _ (mem.readable_sub val 16 k 4 h hk)
  obtain ⟨c0, h0⟩ := hword 0 (by omega)
  obtain ⟨c1, h1⟩ := hword 4 (by omega)
  obtain ⟨c2, h2⟩ := hword 8 (by omega)
  obtain ⟨c3, h3⟩ := hword 12 (by omega)
  rw [Nat.add_zero] at h0
  rw [carveoutWords, h0, Option.bind_some, h1, Option.bind_some, h2, Option.bind_some, h3]
  exact ⟨_, rfl⟩

/-! ## a turn -/

section
variable (lib : AsciiLib) (mem : Mem) (pcd : Pcds)

theorem dtGet_grows (path : List UInt8) : Grows (fun fuel => dtGet lib mem fuel pcd path) :=
  dtFind_grows lib mem pcd.adtPointer.toNat path

theorem family_carveout_grows (family : Family) (i : ℕ) :
    Grows (fun fuel => family.carveout lib mem fuel pcd i) := by
  cases family with
  | t810x => exact (dtGet_grows lib mem pcd (cpuNodeName i)).bind fun _ => grows_const _
  | t602x => exact (dtGet_grows lib mem pcd (cpuNodeName i)).bind fun _ => grows_const _

/-- a turn of the T810X loop finds what the tree says -/
theorem t810x_carveout_iff (i : ℕ) (c : Option (UInt64 × UInt64)) :
    Returns (fun fuel => T810x.carveout lib mem fuel pcd i) c ↔
      CpuCarveout lib mem pcd (cpuNodeName i) c := by
  refine ((dtGet_grows lib mem pcd (cpuNodeName i)).returns_bind_iff _ c).trans ?_
  constructor
  · intro h
    obtain ⟨cpuNode, hnode, h⟩ := h
    cases cpuNode with
    | none =>
      obtain rfl := Option.some.inj h
      exact .absent hnode
    | some node =>
      obtain ⟨carveout, hprop, h⟩ := Option.bind_eq_some_iff.mp h
      cases carveout with
      | none =>
        obtain rfl := Option.some.inj h
        exact .missing node hnode hprop
      | some p =>
        obtain ⟨val, len⟩ := p
        dsimp only at h
        by_cases hlen : len < 4 * 4
        · rw [if_pos hlen] at h
          obtain rfl := Option.some.inj h
          exact .short node val len hnode hprop hlen
        · rw [if_neg hlen] at h
          obtain ⟨⟨base, size⟩, hw, rfl⟩ := Option.map_eq_some_iff.mp h
          obtain ⟨hb, hs⟩ := (carveoutWords_iff mem val base size).mp hw
          exact .found node val len base size hnode hprop (Nat.le_of_not_lt hlen) hb hs
  · intro h
    cases h with
    | absent hnode => exact ⟨none, hnode, rfl⟩
    | missing node hnode hprop =>
      refine ⟨some node, hnode, ?_⟩
      show (dtProp lib mem node cpmImplReg).bind _ = _
      rw [hprop]
      rfl
    | short node val len hnode hprop hlen =>
      refine ⟨some node, hnode, ?_⟩
      show (dtProp lib mem node cpmImplReg).bind _ = _
      rw [hprop, Option.bind_some]
      exact if_pos hlen
    | found node val len base size hnode hprop hlen hb hs =>
      refine ⟨some node, hnode, ?_⟩
      show (dtProp lib mem node cpmImplReg).bind _ = _
      rw [hprop, Option.bind_some]
      dsimp only
      rw [if_neg (Nat.not_lt_of_le hlen), (carveoutWords_iff mem val base size).mpr ⟨hb, hs⟩]
      rfl

/-- the tree says one thing of a CPU -/
theorem CpuCarveout.unique {path : List UInt8} {c c' : Option (UInt64 × UInt64)}
    (h : CpuCarveout lib mem pcd path c) (h' : CpuCarveout lib mem pcd path c') : c = c' := by
  have hread : ∀ {c}, CpuCarveout lib mem pcd path c →
      ∃ cpuNode, Returns (fun fuel => dtGet lib mem fuel pcd path) cpuNode ∧
        (cpuNode = none ∧ c = none ∨ ∃ node, cpuNode = some node ∧
          ∃ p, dtProp lib mem node cpmImplReg = some p ∧
            p.bind (fun p => if p.2 < 16 then none else carveoutWords mem p.1) = c) := by
    intro c h
    cases h with
    | absent hnode => exact ⟨none, hnode, .inl ⟨rfl, rfl⟩⟩
    | missing node hnode hprop => exact ⟨some node, hnode, .inr ⟨node, rfl, none, hprop, rfl⟩⟩
    | short node val len hnode hprop hlen =>
      exact ⟨some node, hnode, .inr ⟨node, rfl, some (val, len), hprop, if_pos hlen⟩⟩
    | found node val len base size hnode hprop hlen hb hs =>
      refine ⟨some node, hnode, .inr ⟨node, rfl, some (val, len), hprop, ?_⟩⟩
      rw [Option.bind_some, if_neg (Nat.not_lt_of_le hlen)]
      exact (carveoutWords_iff mem val base size).mpr ⟨hb, hs⟩
  obtain ⟨cpuNode, hnode, hc⟩ := hread h
  obtain ⟨cpuNode', hnode', hc'⟩ := hread h'
  obtain rfl := hnode.unique hnode'
  obtain ⟨rfl, rfl⟩ | ⟨node, rfl, p, hp, rfl⟩ := hc
  · obtain ⟨_, rfl⟩ | ⟨_, hn, _⟩ := hc'
    · rfl
    · cases hn
  · obtain ⟨hn, _⟩ | ⟨node', hn, p', hp', rfl⟩ := hc'
    · cases hn
    · obtain rfl := Option.some.inj hn
      obtain rfl := Option.some.inj (hp.symm.trans hp')
      rfl

/-- a turn of the T602X loop returns with a carveout, if at all -/
theorem t602x_carveout_some (fuel i : ℕ) (c : Option (UInt64 × UInt64))
    (h : T602x.carveout lib mem fuel pcd i = some c) : ∃ w, c = some w := by
  obtain ⟨_, _, h⟩ := Option.bind_eq_some_iff.mp h
  obtain ⟨_, _, h⟩ := Option.bind_eq_some_iff.mp h
  obtain ⟨_, _, h⟩ := Option.bind_eq_some_iff.mp h
  obtain ⟨_, _, h⟩ := Option.bind_eq_some_iff.mp h
  obtain ⟨w, _, rfl⟩ := Option.map_eq_some_iff.mp h
  exact ⟨w, rfl⟩

/-- where the tree says that there is one, it finds that -/
theorem t602x_carveout_found (i : ℕ) (w : UInt64 × UInt64)
    (h : CpuCarveout lib mem pcd (cpuNodeName i) (some w)) :
    Returns (fun fuel => T602x.carveout lib mem fuel pcd i) (some w) := by
  cases h with
  | found node val len base size hnode hprop _ hb hs =>
    refine ((dtGet_grows lib mem pcd (cpuNodeName i)).returns_bind_iff _ _).mpr
      ⟨some node, hnode, ?_⟩
    show (dtProp lib mem node cpmImplReg).bind _ = _
    rw [hprop, Option.bind_some, Option.bind_some,
      (carveoutWords_iff mem val base size).mpr ⟨hb, hs⟩]
    rfl

end

/-! ## a loop -/

theorem carveouts_eq_some_iff (carveout : ℕ → Option (Option (UInt64 × UInt64))) (n i : ℕ)
    (cs : List (UInt64 × UInt64)) : carveouts carveout n i = some cs ↔
      (∀ j ∈ List.range' i n, ∃ c, carveout j = some c) ∧
        cs = (List.range' i n).filterMap fun j => (carveout j).join := by
  induction n generalizing i cs with
  | zero =>
    rw [carveouts]
    constructor
    · intro h
      exact ⟨fun _ hj => absurd hj List.not_mem_nil, (Option.some.inj h).symm⟩
    · intro h
      rw [h.2]
      rfl
  | succ n ih =>
    rw [carveouts, List.range'_succ]
    constructor
    · intro h
      obtain ⟨c, hc, h⟩ := Option.bind_eq_some_iff.mp h
      obtain ⟨cs', hcs', rfl⟩ := Option.map_eq_some_iff.mp h
      obtain ⟨hall, rfl⟩ := (ih (i + 1) cs').mp hcs'
      refine ⟨List.forall_mem_cons.mpr ⟨⟨c, hc⟩, hall⟩, ?_⟩
      rw [List.filterMap_cons, hc]
      cases c with
      | none => rfl
      | some w => rfl
    · intro h
      obtain ⟨hall, rfl⟩ := h
      obtain ⟨⟨c, hc⟩, hall⟩ := List.forall_mem_cons.mp hall
      rw [hc, Option.bind_some, (ih (i + 1) _).mpr ⟨hall, rfl⟩, List.filterMap_cons, hc]
      cases c with
      | none => rfl
      | some w => rfl

/-- **a loop returns** if each turn of it does, and with what the turns find -/
theorem returns_carveouts_iff (carveout : ℕ → ℕ → Option (Option (UInt64 × UInt64)))
    (hgrows : ∀ i, Grows (fun fuel => carveout fuel i)) (n : ℕ) (cs : List (UInt64 × UInt64)) :
    Returns (fun fuel => carveouts (carveout fuel) n 0) cs ↔
      ∃ found : ℕ → Option (UInt64 × UInt64),
        (∀ i < n, Returns (fun fuel => carveout fuel i) (found i)) ∧
        cs = (List.range n).filterMap found := by
  rw [List.range_eq_range']
  constructor
  · intro h
    obtain ⟨fuel, h⟩ := h
    obtain ⟨hall, hcs⟩ := (carveouts_eq_some_iff (carveout fuel) n 0 cs).mp (h fuel (le_refl fuel))
    refine ⟨fun j => (carveout fuel j).join, fun i hi => ?_, hcs⟩
    obtain ⟨c, hc⟩ := hall i (by rw [List.mem_range'_1]; omega)
    show Returns _ (carveout fuel i).join
    rw [hc]
    exact (hgrows i).returns fuel c hc
  · intro h
    obtain ⟨found, hfound, rfl⟩ := h
    obtain ⟨fuel₀, hfuel⟩ := returns_forall (List.range' 0 n) (fun i fuel => carveout fuel i) found
      (fun i hi => hfound i (by rw [List.mem_range'_1] at hi; omega))
    refine ⟨fuel₀, fun fuel hle => (carveouts_eq_some_iff (carveout fuel) n 0 _).mpr ⟨?_, ?_⟩⟩
    · intro j hj
      exact ⟨found j, hfuel fuel hle j hj⟩
    · apply List.filterMap_congr
      intro j hj
      show found j = (carveout fuel j).join
      rw [hfuel fuel hle j hj]
      rfl

/-! ## both loops -/

/-- a list from which nothing is left out -/
theorem filterMap_full {α β : Type*} (f : α → Option β) (l : List α)
    (h : (l.filterMap f).length = l.length) : (l.filterMap f).map some = l.map f := by
  have hall := List.filterMap_length_eq_length.mp h
  rw [List.map_filterMap]
  clear h
  induction l with
  | nil => rfl
  | cons a l ih =>
    obtain ⟨b, hb⟩ := Option.isSome_iff_exists.mp (hall a (List.mem_cons_self ..))
    rw [List.filterMap_cons, hb, List.map_cons, hb,
      ← ih fun c hc => hall c (List.mem_cons_of_mem a hc)]
    rfl

theorem filterMap_full_eq {α β : Type*} (f g : α → Option β) (l : List α)
    (hf : (l.filterMap f).length = l.length) (h : l.filterMap f = l.filterMap g) :
    ∀ a ∈ l, f a = g a := by
  have hg : (l.filterMap g).length = l.length := by rw [← h, hf]
  apply List.map_inj_left.mp
  rw [← filterMap_full f l hf, ← filterMap_full g l hg, h]

section
variable (lib : AsciiLib) (mem : Mem) (pcd : Pcds)

theorem family_carveouts_iff (family : Family) (cs : List (UInt64 × UInt64)) :
    Returns (fun fuel => family.carveouts lib mem fuel pcd) cs ↔
      ∃ found : ℕ → Option (UInt64 × UInt64),
        (∀ i < pcd.coreCount.toNat,
          Returns (fun fuel => family.carveout lib mem fuel pcd i) (found i)) ∧
        cs = (List.range pcd.coreCount.toNat).filterMap found :=
  returns_carveouts_iff (fun fuel i => family.carveout lib mem fuel pcd i)
    (family_carveout_grows lib mem pcd family) pcd.coreCount.toNat cs

/-- the request for what the loops find under the name of a CPU is the carveout of the CPU -/
def CarveoutFound (i : ℕ) : Prop :=
  ∃ w, CpuCarveout lib mem pcd (cpuNodeName i) (some w) ∧
    CpuCarveout lib mem pcd (cpuPath i) (some (requested w))

/-- the T602X loop leaves no CPU out, so none may be without a carveout -/
theorem tolerant_found (h : CarveoutsTolerant lib mem pcd) (i : ℕ)
    (hi : i < pcd.coreCount.toNat) : CarveoutFound lib mem pcd i := by
  obtain ⟨said, hsaid, hfamily⟩ := h
  obtain ⟨cs, hcs, heq⟩ := hfamily .t602x
  obtain ⟨found, hfound, rfl⟩ := (family_carveouts_iff lib mem pcd .t602x cs).mp hcs
  have hfull : ((List.range pcd.coreCount.toNat).filterMap found).length
      = (List.range pcd.coreCount.toNat).length := by
    apply List.filterMap_length_eq_length.mpr
    intro j hj
    obtain ⟨fuel, hf⟩ := hfound j (List.mem_range.mp hj)
    obtain ⟨w, hw⟩ := t602x_carveout_some lib mem pcd fuel j _ (hf fuel (le_refl fuel))
    rw [hw]
    rfl
  have hsaidFull : ((List.range pcd.coreCount.toNat).filterMap said).length
      = (List.range pcd.coreCount.toNat).length := by
    rw [← heq, List.length_map, hfull]
  -- then the T810X loop leaves none out either
  obtain ⟨cs', hcs', heq'⟩ := hfamily .t810x
  obtain ⟨found', hfound', rfl⟩ := (family_carveouts_iff lib mem pcd .t810x cs').mp hcs'
  rw [List.map_filterMap] at heq'
  have hi' := List.mem_range.mpr hi
  have hturn := filterMap_full_eq said _ _ hsaidFull heq'.symm i hi'
  have hs := hsaid i hi
  rw [hturn] at hs
  have hc := (t810x_carveout_iff lib mem pcd i _).mp (hfound' i hi)
  have hsome := List.filterMap_length_eq_length.mp hsaidFull i hi'
  rw [hturn, Option.isSome_map] at hsome
  obtain ⟨w, hw⟩ := Option.isSome_iff_exists.mp hsome
  rw [hw] at hs hc
  exact ⟨w, hc, hs⟩

theorem tolerant_of_found (h : ∀ i < pcd.coreCount.toNat, CarveoutFound lib mem pcd i) :
    CarveoutsTolerant lib mem pcd := by
  have hex : ∃ found : ℕ → UInt64 × UInt64, ∀ i < pcd.coreCount.toNat,
      CpuCarveout lib mem pcd (cpuNodeName i) (some (found i)) ∧
        CpuCarveout lib mem pcd (cpuPath i) (some (requested (found i))) := by
    have hall : ∀ i, ∃ w, i < pcd.coreCount.toNat →
        CpuCarveout lib mem pcd (cpuNodeName i) (some w) ∧
          CpuCarveout lib mem pcd (cpuPath i) (some (requested w)) := by
      intro i
      by_cases hi : i < pcd.coreCount.toNat
      · obtain ⟨w, hw⟩ := h i hi
        exact ⟨w, fun _ => hw⟩
      · exact ⟨(0, 0), fun hlt => absurd hlt hi⟩
    choose found hfound using hall
    exact ⟨found, hfound⟩
  obtain ⟨found, hfound⟩ := hex
  refine ⟨fun i => some (requested (found i)), fun i hi => (hfound i hi).2, fun family => ?_⟩
  refine ⟨(List.range pcd.coreCount.toNat).filterMap fun i => some (found i), ?_, ?_⟩
  · apply (family_carveouts_iff lib mem pcd family _).mpr
    refine ⟨fun i => some (found i), fun i hi => ?_, rfl⟩
    cases family with
    | t810x => exact (t810x_carveout_iff lib mem pcd i _).mpr (hfound i hi).1
    | t602x => exact t602x_carveout_found lib mem pcd i _ (hfound i hi).1
  · rw [List.map_filterMap]
    rfl

end

/-! ## the nodes of the tree -/

theorem char_byte (c : Char) (hlo : 47 < c.toNat) (hhi : c.toNat < 256) :
    UInt8.ofNat c.toNat ≠ slash ∧ UInt8.ofNat c.toNat ≠ 0 := by
  have hbyte : (UInt8.ofNat c.toNat).toNat = c.toNat := Nat.mod_eq_of_lt hhi
  have hslash : slash.toNat = 47 := rfl
  have hzero : (0 : UInt8).toNat = 0 := rfl
  constructor
  · intro he
    rw [he] at hbyte
    omega
  · intro he
    rw [he] at hbyte
    omega

theorem decimal_nat (i : ℕ) : decimal i = Nat.toDigits 10 i :=
  if_neg (not_lt_of_ge (Int.natCast_nonneg i))

theorem cpuName_pathComp (i : ℕ) : PathComp (cpuName i) := by
  have hbytes : ∀ b ∈ cpuName i, b ≠ slash ∧ b ≠ 0 := by
    intro b hb
    obtain ⟨c, hc, rfl⟩ := List.mem_map.mp hb
    rw [decimal_nat, List.mem_append] at hc
    cases hc with
    | inl hc =>
      have hfixed : c = 'c' ∨ c = 'p' ∨ c = 'u' := by simpa using hc
      obtain rfl | rfl | rfl := hfixed
      · exact char_byte 'c' (by decide) (by decide)
      · exact char_byte 'p' (by decide) (by decide)
      · exact char_byte 'u' (by decide) (by decide)
    | inr hc =>
      have hdigit := Nat.isDigit_of_mem_toDigits (by omega) (le_refl 10) hc
      obtain ⟨hlo, hhi⟩ := Char.isDigit_iff_toNat.mp hdigit
      have hlo' : 48 ≤ c.toNat := hlo
      have hhi' : c.toNat ≤ 57 := hhi
      exact char_byte c (by omega) (by omega)
  exact ⟨fun hs => (hbytes slash hs).1 rfl, fun b hb => (hbytes b hb).2⟩

theorem cpuNodeName_eq (i : ℕ) (hi : i < 10000) : cpuNodeName i = cpuPath i := by
  have hsmall : i < 2^31 := by omega
  have hlen : (Nat.toDigits 10 i).length ≤ 4 :=
    (Nat.length_toDigits_le_iff (by omega) (by omega)).mpr hi
  have hpath : cpuPath i
      = ascii (['/', 'c', 'p', 'u', 's', '/', 'c', 'p', 'u'] ++ Nat.toDigits 10 i) := by
    rw [cpuPath, cpuName, decimal_nat, ascii, ascii, List.map_append, List.map_append]
    show slash :: (cpusName ++ (slash :: (_ ++ []))) = _
    rw [List.append_nil]
    rfl
  rw [hpath, cpuNodeName, i32_small i hsmall, decimal_nat]
  apply List.take_of_length_le
  rw [ascii, List.length_map, List.length_append]
  show 9 + _ ≤ 13
  omega

theorem resolve_mem (mem : Mem) (comps : List (List UInt8)) (f : Forest NodeRec) (q : NodeRec)
    (h : resolve mem comps f = some q) : q ∈ f.labels := by
  have hfirst : ∀ (c : List UInt8) (f : Forest NodeRec) (n : NodeRec) (kids : Forest NodeRec),
      firstNamed mem c f = some (n, kids) → n ∈ f.labels ∧ ∀ x ∈ kids.labels, x ∈ f.labels := by
    intro c f
    induction f with
    | nil =>
      intro n kids h
      cases h
    | node x cs sb _ ihs =>
      intro n kids h
      rw [firstNamed] at h
      by_cases hx : x.name mem = c
      · rw [if_pos hx] at h
        obtain ⟨rfl, rfl⟩ := Prod.mk.inj (Option.some.inj h)
        exact ⟨List.mem_cons_self .., fun y hy =>
          List.mem_cons_of_mem _ (List.mem_append_left _ hy)⟩
      · rw [if_neg hx] at h
        obtain ⟨h1, h2⟩ := ihs n kids h
        exact ⟨List.mem_cons_of_mem _ (List.mem_append_right _ h1), fun y hy =>
          List.mem_cons_of_mem _ (List.mem_append_right _ (h2 y hy))⟩
  induction comps generalizing f with
  | nil => cases h
  | cons c rest ih =>
    obtain ⟨⟨n, kids⟩, hn, h⟩ := Option.bind_eq_some_iff.mp h
    obtain ⟨h1, h2⟩ := hfirst c f n kids hn
    dsimp only at h
    by_cases hrest : rest = []
    · rw [if_pos hrest] at h
      obtain rfl := Option.some.inj h
      exact h1
    · rw [if_neg hrest] at h
      exact h2 q (ih kids h)

/-- what the nodes below the root say of the CPU with the name -/
def treeCarveout (mem : Mem) (cs : Forest NodeRec) (name : List UInt8) :
    Option (UInt64 × UInt64) :=
  (resolve mem [cpusName, name] cs).bind fun n => (n.find mem cpmImplReg).bind fun p =>
    if p.len < 16 then none else carveoutWords mem p.val

theorem treeCarveout_spec (lib : AsciiLib) (mem : Mem) (pcd : Pcds) (size : ℕ) (out : CheckOut)
    (n : NodeRec) (cs : Forest NodeRec) (b : ℕ) (hl : lib.Documented)
    (hr : mem.Readable pcd.adtPointer.toNat size)
    (hc : dtCheck mem pcd.adtPointer.toNat size = some out) (h0 : out.ret = 0)
    (hn : mem.IsNode n cs pcd.adtPointer.toNat b)
    (hnamed : ∀ q ∈ (Forest.node n cs .nil).labels, q.Named mem) (hd : cs.height < 2^31) (i : ℕ) :
    CpuCarveout lib mem pcd (cpuPath i) (treeCarveout mem cs (cpuName i)) := by
  have hs := searchable_accepted mem _ size out n cs b hr hc h0 hn hnamed
  have hget : Returns (fun fuel => dtGet lib mem fuel pcd (cpuPath i))
      ((resolve mem [cpusName, cpuName i] cs).map NodeRec.addr) :=
    ⟨cs.height + 1, fun fuel hle =>
      dtFind_path lib mem _ n cs b fuel hl hn hs hd hle _ (List.cons_ne_nil _ _)
        (List.forall_mem_cons.mpr ⟨by decide, List.forall_mem_singleton.mpr (cpuName_pathComp i)⟩)⟩
  have hread := dtCheck_readable mem _ size out hr hc h0 n cs b hn
  rw [treeCarveout]
  cases hq : resolve mem [cpusName, cpuName i] cs with
  | none =>
    rw [hq] at hget
    exact .absent hget
  | some q =>
    rw [hq] at hget
    have hmem : q ∈ (Forest.node n cs .nil).labels :=
      List.mem_cons_of_mem _ (List.mem_append_left _ (resolve_mem mem _ cs q hq))
    obtain ⟨h1, m, hp, _, _⟩ := Mem.isForest_node mem _ _ b hn q hmem
    have hrp := Mem.isForest_readable mem _ _ b hn hread q hmem
    have hprop := dtProp_spec lib mem hl cpmImplReg (by decide) (by decide) q m h1 hp
      fun p hp => (hrp p hp).1
    rw [Option.bind_some]
    cases hf : q.find mem cpmImplReg with
    | none =>
      rw [hf] at hprop
      exact .missing q.addr hget hprop
    | some p =>
      rw [hf] at hprop
      rw [Option.bind_some]
      by_cases hlen : p.len < 16
      · rw [if_pos hlen]
        exact .short q.addr p.val p.len hget hprop hlen
      · rw [if_neg hlen]
        have hval := (hrp p (NodeRec.find_mem hf)).2
        have hpad := le_padded p.len
        obtain ⟨⟨base, size⟩, hw⟩ := carveoutWords_readable mem p.val
          (Mem.readable_mono mem _ _ 16 hval (by omega))
        obtain ⟨hb, hs⟩ := (carveoutWords_iff mem p.val base size).mp hw
        rw [hw]
        exact .found q.addr p.val p.len base size hget hprop (Nat.le_of_not_lt hlen) hb hs

/-- **both loops make the requests the tree asks for exactly when** every CPU has a carveout, which
the cut path leads to, too, and whose size has 32 bits.  The T810X loop needs less: on a tree with
names, whose CPUs have four digits, it returns, and with what the nodes say. -/
theorem carveouts_tolerant_iff (lib : AsciiLib) (mem : Mem) (pcd : Pcds) (size : ℕ)
    (out : CheckOut) (hl : lib.Documented) (hr : mem.Readable pcd.adtPointer.toNat size)
    (hc : dtCheck mem pcd.adtPointer.toNat size = some out) (h0 : out.ret = 0) :
    (CarveoutsTolerant lib mem pcd ↔
      ∀ i < pcd.coreCount.toNat, CarveoutFound lib mem pcd i) ∧
    ∀ n cs b, mem.IsNode n cs pcd.adtPointer.toNat b →
      (∀ q ∈ (Forest.node n cs .nil).labels, q.Named mem) → cs.height < 2^31 →
      (∀ i, CpuCarveout lib mem pcd (cpuPath i) (treeCarveout mem cs (cpuName i))) ∧
      (pcd.coreCount.toNat ≤ 10000 → Returns (fun fuel => Family.t810x.carveouts lib mem fuel pcd)
        ((List.range pcd.coreCount.toNat).filterMap fun i => treeCarveout mem cs (cpuName i))) := by
  refine ⟨⟨tolerant_found lib mem pcd, tolerant_of_found lib mem pcd⟩, ?_⟩
  intro n cs b hn hnamed hd
  have hspec := treeCarveout_spec lib mem pcd size out n cs b hl hr hc h0 hn hnamed hd
  refine ⟨hspec, fun hcount => ?_⟩
  apply (family_carveouts_iff lib mem pcd .t810x _).mpr
  refine ⟨fun i => treeCarveout mem cs (cpuName i), fun i hi => ?_, rfl⟩
  have hi := (t810x_carveout_iff lib mem pcd i (treeCarveout mem cs (cpuName i))).mpr (by
    rw [cpuNodeName_eq i (by omega)]
    exact hspec i)
  exact hi

/-! ## a tree with one CPU -/

theorem cpuMem_readable : cpuMem.Readable 0x800000000 204 := by
  intro i hi
  have hl : cpuBytes.length = 204 := by decide +kernel
  unfold cpuMem
  rw [if_pos (by omega), show 0x800000000 + i - 0x800000000 = i by omega,
    List.getElem?_eq_getElem (by omega)]
  exact ⟨_, rfl⟩

theorem cpuMem_accepted : ∃ out, dtCheck cpuMem 0x800000000 204 = some out ∧ out.ret = 0 :=
  Option.map_eq_some_iff.mp (by decide +kernel :
    (dtCheck cpuMem 0x800000000 204).map CheckOut.ret = some 0)

/-- CPU 0 has a carveout -/
theorem cpuMem_cpu0 (pcd : Pcds) (hadt : pcd.adtPointer = 0x800000000) :
    CpuCarveout asciiLib cpuMem pcd (cpuPath 0) (some (0x900000000, 0x4000)) := by
  have hget : Returns (fun fuel => dtGet asciiLib cpuMem fuel pcd (cpuPath 0))
      (some 0x800000064) := by
    apply (dtGet_grows asciiLib cpuMem pcd (cpuPath 0)).returns 4
    rw [dtGet, hadt]
    decide +kernel
  exact .found 0x800000064 0x8000000bc 16 0x900000000 0x4000 hget (by decide +kernel) (le_refl 16)
    (by decide +kernel) (by decide +kernel)

/-- CPU 1 is not in the tree -/
theorem cpuMem_cpu1 (pcd : Pcds) (hadt : pcd.adtPointer = 0x800000000) :
    Returns (fun fuel => dtGet asciiLib cpuMem fuel pcd (cpuPath 1)) none := by
  apply (dtGet_grows asciiLib cpuMem pcd (cpuPath 1)).returns 4
  rw [dtGet, hadt]
  decide +kernel

def oneCpuPcds : Pcds := { examplePcds with coreCount := 1 }

theorem oneCpuPcds_tolerant : CarveoutsTolerant asciiLib cpuMem oneCpuPcds := by
  obtain ⟨out, hc, h0⟩ := cpuMem_accepted
  have h := carveouts_tolerant_iff asciiLib cpuMem oneCpuPcds 204 out asciiLib_documented
    cpuMem_readable hc h0
  apply h.1.mpr
  intro i hi
  have hone : i < 1 := hi
  obtain rfl : i = 0 := by omega
  have hcpu := cpuMem_cpu0 oneCpuPcds rfl
  exact ⟨(0x900000000, 0x4000), by rw [cpuNodeName_eq 0 (by omega)]; exact hcpu, hcpu⟩

/-- with a second CPU that the tree does not have, the T810X loop makes the one request, and the
T602X loop does not return -/
theorem missingCpu_faults :
    (∃ out, dtCheck cpuMem 0x800000000 204 = some out ∧ out.ret = 0) ∧
    Family.t810x.carveouts asciiLib cpuMem 4 examplePcds = some [(0x900000000, 0x4000)] ∧
    (∀ cs, ¬ Returns (fun fuel => Family.t602x.carveouts asciiLib cpuMem fuel examplePcds) cs) ∧
    ¬ CarveoutsTolerant asciiLib cpuMem examplePcds := by
  have hnone : ∀ cs,
      ¬ Returns (fun fuel => Family.t602x.carveouts asciiLib cpuMem fuel examplePcds) cs := by
    intro cs hcs
    obtain ⟨found, hfound, _⟩ := (family_carveouts_iff asciiLib cpuMem examplePcds .t602x cs).mp hcs
    obtain ⟨fuel, hturn, hget⟩ := (hfound 1 (by decide)).both (cpuMem_cpu1 examplePcds rfl)
    rw [← cpuNodeName_eq 1 (by omega)] at hget
    change T602x.carveout asciiLib cpuMem fuel examplePcds 1 = _ at hturn
    rw [T602x.carveout, hget] at hturn
    cases hturn
  refine ⟨cpuMem_accepted, examplePcds_carveouts, hnone, fun h => ?_⟩
  obtain ⟨_, _, hfamily⟩ := h
  obtain ⟨cs, hcs, _⟩ := hfamily .t602x
  exact hnone cs hcs

end AppleSilicon
