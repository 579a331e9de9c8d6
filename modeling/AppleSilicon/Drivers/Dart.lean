import AppleSilicon.Drivers.Bringup
import AppleSilicon.Hob.Partition

/-!
# `AppleDartIoMmuDxe`

Each Type-C port has two DARTs, entries 0 and 1 of the `reg` of its node.  A first loop looks the
nodes and addresses up into two arrays, a second one sets the DARTs up for bypass; both go on after
a failed lookup.

* `dartLookupLoop_found`   what the arrays hold after the first loop;
* `dartSetupLoop_uses`     which DARTs the second loop drives, and where;
* `dart_right_iff`         when every base of a run was given by the tree;
* `drivers_right_iff`      the same of all four drivers.
-/

namespace AppleSilicon

/-- `DartNode` and `DartReg` -/
structure DartSlots where
  dartNode : ℕ → Option ℕ
  dartReg : ℕ → UInt64

namespace DartSlots

def setNode (s : DartSlots) (i : ℕ) (node : Option ℕ) : DartSlots :=
  { s with dartNode := Function.update s.dartNode i node }

/-- `dt_node_reg(.., &DartReg[k], NULL)` -/
def setReg (s : DartSlots) (k : ℕ) (out : RegOut) : DartSlots :=
  { s with dartReg := Function.update s.dartReg k (out.stored (s.dartReg k)) }

end DartSlots

/-- the loop over the nodes, with `n` turns left -/
def dartLookupLoop (t : Adt) : ℕ → ℕ → ℕ → DartSlots → Option (DartSlots × List DriverEvent)
  | 0, _, _, s => some (s, [])
  | n + 1, i, dartIndex, s =>
    (t.get (dartNodeName i)).bind fun node =>
      match node with
      | none => dartLookupLoop t n (i + 1) (dartIndex + 2) (s.setNode i none)
      | some node =>
        (t.reg node 0).bind fun r0 => (t.reg node 1).bind fun r1 =>
          (dartLookupLoop t n (i + 1) (dartIndex + 2)
            (((s.setNode i (some node)).setReg dartIndex r0).setReg (dartIndex + 1) r1)).map
              fun out => (out.1, .nodeReg node 0 r0 :: .nodeReg node 1 r1 :: out.2)

/-- the fields of `APPLE_DART_INFO` that say where the registers are -/
structure DartInfo where
  nsid : ℕ
  nttbr : ℕ
  tcrBase : ℕ
  tcrBypass : UInt32
  ttbrBase : ℕ
deriving DecidableEq, Repr

/-- what the hardware of a DART answers -/
structure DartHw where
  params2 : ℕ → UInt32
  params4 : ℕ → UInt32
  /-- how often the busy bit is read -/
  polls : ℕ → ℕ

def dartInfoT8110 (params4 : UInt32) : DartInfo := ⟨(params4 &&& 0x1ff).toNat, 1, 0x1000, 0x6, 0x1400⟩

def dartInfoT8020 : DartInfo := ⟨16, 4, 0x100, 0x1100, 0x200⟩

namespace DartInfo

/-- `DART_TCR` of every stream -/
def writeTcrs (d : DartInfo) (value : UInt32) : List BaseUse :=
  (List.range d.nsid).map fun sid => .mmioWrite32 (UInt64.ofNat (d.tcrBase + 4 * sid)) value

/-- `DART_TTBR` of every stream -/
def clearTtbrs (d : DartInfo) : List BaseUse :=
  (List.range d.nsid).flatMap fun sid => (List.range d.nttbr).map fun i =>
    .mmioWrite32 (UInt64.ofNat (d.ttbrBase + 4 * d.nttbr * sid + 4 * i)) 0

end DartInfo

/-- `AppleDartT8110TlbFlush`; the flush command is also the offset it is written to -/
def appleDartT8110TlbFlush (polls : ℕ) : List BaseUse :=
  .mmioWrite32 0x100 0x100 :: List.replicate polls (.mmioRead32 0x80)

/-- `AppleDartT8020TlbFlush` -/
def appleDartT8020TlbFlush (polls : ℕ) : List BaseUse :=
  .mmioWrite32 0x34 0xffff :: .mmioWrite32 0x20 0x100000 :: List.replicate polls (.mmioRead32 0x20)

/-- how a DART is set up -/
def dartSetup (t8110 : Bool) (hw : DartHw) (k : ℕ) : List BaseUse :=
  let dartInfo := if t8110 then dartInfoT8110 (hw.params4 k) else dartInfoT8020
  (if t8110 then [.mmioRead32 0xc] else []) ++ dartInfo.writeTcrs 0 ++ dartInfo.clearTtbrs ++
    (if t8110 then appleDartT8110TlbFlush (hw.polls k) else appleDartT8020TlbFlush (hw.polls k)) ++
    .mmioRead32 0x4 :: if hw.params2 k &&& 1 ≠ 0 then dartInfo.writeTcrs dartInfo.tcrBypass else []

/-- the comparisons with `compatible`: is it a T8110 DART -/
def Adt.isT8110Dart (t : Adt) (node : ℕ) : Option Bool :=
  (t.strCmpProp node compatibleKey (ascii ['d', 'a', 'r', 't', ',', 't', '8', '1', '1', '0'])).bind
    fun r =>
      if r = 0 then some true
      else (t.strCmpProp node compatibleKey
        (ascii ['d', 'a', 'r', 't', ',', 't', '6', '0', '0', '0'])).map fun _ => false

/-- the loop over the DARTs, with `n` turns left -/
def dartSetupLoop (t : Adt) (hw : DartHw) (s : DartSlots) : ℕ → ℕ → Option (List DriverEvent)
  | 0, _ => some []
  | n + 1, k =>
    if k = 0 ∨ k = 1 ∨ k = 4 ∨ k = 5 then dartSetupLoop t hw s n (k + 1)
    else
      match s.dartNode (k / 2) with
      | none => dartSetupLoop t hw s n (k + 1)
      | some node =>
        (t.isT8110Dart node).bind fun t8110 =>
          (dartSetupLoop t hw s n (k + 1)).map fun log =>
            (dartSetup t8110 hw k).map (.use (.dart k) (s.dartReg k)) ++ log

/-- `AppleDartIoMmuDxeInitialize`; `uninitialized` is what the arrays hold at first -/
def appleDartIoMmuDxeInitialize (t : Adt) (midr pcdAppleNumDwc3Controllers : UInt32) (hw : DartHw)
    (uninitialized : DartSlots) : Option (List DriverEvent) :=
  if isAppleSoc midr = false then (debugAssert t.pcd false).map fun _ => []
  else
    (dartLookupLoop t pcdAppleNumDwc3Controllers.toNat 0 0 uninitialized).bind fun out =>
      (dartSetupLoop t hw out.1 (pcdAppleNumDwc3Controllers * 2).toNat 0).map fun log => out.2 ++ log

/-! ## the first loop -/

/-- node `j` was looked up: its slot holds it, and where there is one, both calls returned, are in
the log, and left what they wrote in the slots of its two DARTs -/
def DartFound (t : Adt) (out : DartSlots × List DriverEvent) (j : ℕ) : Prop :=
  t.get (dartNodeName j) = some (out.1.dartNode j) ∧ ∀ node, out.1.dartNode j = some node →
    ∃ r0 r1, t.reg node 0 = some r0 ∧ t.reg node 1 = some r1 ∧
      (r0.ret = 0 → r0.paddr.map UInt64.ofNat = some (out.1.dartReg (2 * j))) ∧
      (r1.ret = 0 → r1.paddr.map UInt64.ofNat = some (out.1.dartReg (2 * j + 1))) ∧
      .nodeReg node 0 r0 ∈ out.2 ∧ .nodeReg node 1 r1 ∈ out.2

/-- a node that has no slot filled for it -/
theorem dartFound_absent (t : Adt) (out : DartSlots × List DriverEvent) (j : ℕ)
    (hget : t.get (dartNodeName j) = some none) (hslot : out.1.dartNode j = none) :
    DartFound t out j := by
  refine ⟨by rw [hget, hslot], ?_⟩
  intro node hnode
  rw [hslot] at hnode
  cases hnode

/-- a node that is there, and what its two calls left in the slots of its DARTs -/
theorem dartFound_turn (t : Adt) (j node : ℕ) (r0 r1 : RegOut) (old0 old1 : UInt64)
    (out : DartSlots × List DriverEvent) (hget : t.get (dartNodeName j) = some (some node))
    (hr0 : t.reg node 0 = some r0) (hr1 : t.reg node 1 = some r1)
    (hslot : out.1.dartNode j = some node) (hreg0 : out.1.dartReg (2 * j) = r0.stored old0)
    (hreg1 : out.1.dartReg (2 * j + 1) = r1.stored old1) :
    DartFound t (out.1, .nodeReg node 0 r0 :: .nodeReg node 1 r1 :: out.2) j := by
  refine ⟨by rw [hget, hslot], ?_⟩
  intro node' hnode'
  obtain rfl := Option.some.inj (hslot.symm.trans hnode')
  refine ⟨r0, r1, hr0, hr1, ?_, ?_, by simp, by simp⟩
  · intro h0
    rw [hreg0]
    exact reg_stored t node 0 r0 _ hr0 h0
  · intro h0
    rw [hreg1]
    exact reg_stored t node 1 r1 _ hr1 h0

theorem DartFound.mono {t : Adt} {out : DartSlots × List DriverEvent} {j : ℕ}
    (h : DartFound t out j) (log : List DriverEvent) (hsub : ∀ e ∈ out.2, e ∈ log) :
    DartFound t (out.1, log) j := by
  refine ⟨h.1, ?_⟩
  intro node hnode
  obtain ⟨r0, r1, e0, e1, s0, s1, m0, m1⟩ := h.2 node hnode
  exact ⟨r0, r1, e0, e1, s0, s1, hsub _ m0, hsub _ m1⟩

/-- **the first loop** finds every node in turn and leaves the slots before alone -/
theorem dartLookupLoop_found (t : Adt) (n i : ℕ) (s : DartSlots)
    (out : DartSlots × List DriverEvent) (h : dartLookupLoop t n i (2 * i) s = some out) :
    (∀ j, i ≤ j → j < i + n → DartFound t out j) ∧
    (∀ j, j < i → out.1.dartNode j = s.dartNode j) ∧
    (∀ k, k < 2 * i → out.1.dartReg k = s.dartReg k) ∧
    ∀ device base how, .use device base how ∉ out.2 := by
  induction n generalizing i s out with
  | zero =>
    obtain rfl := Option.some.inj h
    exact ⟨fun j h1 h2 => by omega, fun _ _ => rfl, fun _ _ => rfl, fun _ _ _ => List.not_mem_nil⟩
  | succ n ih =>
    obtain ⟨node, hget, h⟩ := Option.bind_eq_some_iff.mp h
    have hidx : 2 * i + 2 = 2 * (i + 1) := by ring
    cases node with
    | none =>
      dsimp only at h
      rw [hidx] at h
      obtain ⟨h1, h2, h3, h4⟩ := ih (i + 1) (s.setNode i none) out h
      refine ⟨?_, ?_, fun k hk => h3 k (by omega), h4⟩
      · intro j hj1 hj2
        by_cases he : j = i
        · rw [he]
          refine dartFound_absent t out i hget ?_
          rw [h2 i (by omega)]
          exact Function.update_self ..
        · exact h1 j (by omega) (by omega)
      · intro j hj
        rw [h2 j (by omega)]
        exact Function.update_of_ne (by omega) ..
    | some node =>
      obtain ⟨r0, hr0, h⟩ := Option.bind_eq_some_iff.mp h
      obtain ⟨r1, hr1, h⟩ := Option.bind_eq_some_iff.mp h
      obtain ⟨rest, hrest, rfl⟩ := Option.map_eq_some_iff.mp h
      rw [hidx] at hrest
      obtain ⟨h1, h2, h3, h4⟩ := ih (i + 1) _ rest hrest
      have hreg0 : rest.1.dartReg (2 * i) = r0.stored (s.dartReg (2 * i)) := by
        rw [h3 (2 * i) (by omega)]
        exact (Function.update_of_ne (by omega) ..).trans (Function.update_self ..)
      have hreg1 : rest.1.dartReg (2 * i + 1) = r1.stored (s.dartReg (2 * i + 1)) := by
        rw [h3 (2 * i + 1) (by omega)]
        refine (Function.update_self ..).trans ?_
        exact congrArg r1.stored (Function.update_of_ne (by omega) ..)
      refine ⟨?_, ?_, ?_, ?_⟩
      · intro j hj1 hj2
        by_cases he : j = i
        · rw [he]
          refine dartFound_turn t i node r0 r1 _ _ rest hget hr0 hr1 ?_ hreg0 hreg1
          rw [h2 i (by omega)]
          exact Function.update_self ..
        · exact (h1 j (by omega) (by omega)).mono _ fun e he => by simp [he]
      · intro j hj
        rw [h2 j (by omega)]
        exact Function.update_of_ne (by omega) ..
      · intro k hk
        rw [h3 k (by omega)]
        exact (Function.update_of_ne (by omega) ..).trans (Function.update_of_ne (by omega) ..)
      · intro device base how hmem
        rcases List.mem_cons.mp hmem with he | hmem
        · cases he
        · rcases List.mem_cons.mp hmem with he | hmem
          · cases he
          · exact h4 device base how hmem

/-- node `j` is absent, or both calls for it return -/
def DartReturns (t : Adt) (j : ℕ) : Prop :=
  t.get (dartNodeName j) = some none ∨ ∃ node r0 r1, t.get (dartNodeName j) = some (some node) ∧
    t.reg node 0 = some r0 ∧ t.reg node 1 = some r1

theorem dartLookupLoop_returns (t : Adt) (n i dartIndex : ℕ) (s : DartSlots)
    (h : ∀ j, i ≤ j → j < i + n → DartReturns t j) :
    ∃ out, dartLookupLoop t n i dartIndex s = some out := by
  induction n generalizing i dartIndex s with
  | zero => exact ⟨_, rfl⟩
  | succ n ih =>
    have hrest : ∀ j, i + 1 ≤ j → j < i + 1 + n → DartReturns t j :=
      fun j h1 h2 => h j (by omega) (by omega)
    rw [dartLookupLoop]
    rcases h i (le_refl i) (by omega) with hget | ⟨node, r0, r1, hget, hr0, hr1⟩
    · rw [hget]
      exact ih (i + 1) (dartIndex + 2) _ hrest
    · obtain ⟨out, hout⟩ := ih (i + 1) (dartIndex + 2)
        (((s.setNode i (some node)).setReg dartIndex r0).setReg (dartIndex + 1) r1) hrest
      refine ⟨(out.1, .nodeReg node 0 r0 :: .nodeReg node 1 r1 :: out.2), ?_⟩
      rw [hget, Option.bind_some]
      dsimp only
      rw [hr0, Option.bind_some, hr1, Option.bind_some, hout]
      rfl

/-! ## the second loop -/

theorem dfuPort_false_iff (k : ℕ) :
    (Device.dart k).dfuPort = false ↔ ¬ (k = 0 ∨ k = 1 ∨ k = 4 ∨ k = 5) := decide_eq_false_iff_not

/-- the setup of a DART always reads `DART_PARAMS2` -/
theorem dartSetup_params2 (t8110 : Bool) (hw : DartHw) (k : ℕ) :
    .mmioRead32 0x4 ∈ dartSetup t8110 hw k :=
  List.mem_append_right _ (List.mem_cons_self ..)

/-- **the second loop** drives DARTs of no DFU port that have a node, at the address in their slot -/
theorem dartSetupLoop_mem (t : Adt) (hw : DartHw) (s : DartSlots) (n i : ℕ)
    (log : List DriverEvent) (h : dartSetupLoop t hw s n i = some log) (device : Device)
    (base : UInt64) (how : BaseUse) (hmem : .use device base how ∈ log) :
    ∃ k node, device = .dart k ∧ k < i + n ∧ (Device.dart k).dfuPort = false ∧
      s.dartNode (k / 2) = some node ∧ base = s.dartReg k := by
  induction n generalizing i log with
  | zero =>
    obtain rfl := Option.some.inj h
    cases hmem
  | succ n ih =>
    have hlater : ∀ log, dartSetupLoop t hw s n (i + 1) = some log → .use device base how ∈ log →
        ∃ k node, device = .dart k ∧ k < i + (n + 1) ∧ (Device.dart k).dfuPort = false ∧
          s.dartNode (k / 2) = some node ∧ base = s.dartReg k := by
      intro log hlog hm
      obtain ⟨k, node, hd, hk, hrest⟩ := ih (i + 1) log hlog hm
      exact ⟨k, node, hd, by omega, hrest⟩
    rw [dartSetupLoop] at h
    by_cases hskip : i = 0 ∨ i = 1 ∨ i = 4 ∨ i = 5
    · rw [if_pos hskip] at h
      exact hlater log h hmem
    · rw [if_neg hskip] at h
      cases hnode : s.dartNode (i / 2) with
      | none =>
        rw [hnode] at h
        exact hlater log h hmem
      | some node =>
        rw [hnode] at h
        obtain ⟨t8110, _, h⟩ := Option.bind_eq_some_iff.mp h
        obtain ⟨rest, hrest, rfl⟩ := Option.map_eq_some_iff.mp h
        rcases List.mem_append.mp hmem with hm | hm
        · obtain ⟨how', _, he⟩ := List.mem_map.mp hm
          obtain ⟨rfl, rfl, _⟩ := DriverEvent.use.inj he
          exact ⟨i, node, rfl, by omega, (dfuPort_false_iff i).mpr hskip, hnode, rfl⟩
        · exact hlater rest hrest hm

/-- where `compatible` can be compared, the second loop returns -/
theorem dartSetupLoop_returns (t : Adt) (hw : DartHw) (s : DartSlots) (n i : ℕ)
    (h : ∀ k, i ≤ k → k < i + n → (Device.dart k).dfuPort = false → ∀ node,
      s.dartNode (k / 2) = some node → ∃ t8110, t.isT8110Dart node = some t8110) :
    ∃ log, dartSetupLoop t hw s n i = some log := by
  induction n generalizing i with
  | zero => exact ⟨[], rfl⟩
  | succ n ih =>
    obtain ⟨log, hlog⟩ := ih (i + 1) fun k h1 h2 => h k (by omega) (by omega)
    rw [dartSetupLoop]
    by_cases hskip : i = 0 ∨ i = 1 ∨ i = 4 ∨ i = 5
    · rw [if_pos hskip]
      exact ⟨log, hlog⟩
    · rw [if_neg hskip]
      cases hnode : s.dartNode (i / 2) with
      | none => exact ⟨log, hlog⟩
      | some node =>
        obtain ⟨t8110, hkind⟩ := h i (le_refl i) (by omega) ((dfuPort_false_iff i).mpr hskip) node
          hnode
        dsimp only
        rw [hkind, Option.bind_some, hlog]
        exact ⟨_, rfl⟩

/-- a run of the second loop compares `compatible` of, and drives, every DART of no DFU port that
has a node -/
theorem dartSetupLoop_uses (t : Adt) (hw : DartHw) (s : DartSlots) (n i : ℕ)
    (log : List DriverEvent) (h : dartSetupLoop t hw s n i = some log) (k : ℕ) (h1 : i ≤ k)
    (h2 : k < i + n) (hdfu : (Device.dart k).dfuPort = false) (node : ℕ)
    (hnode : s.dartNode (k / 2) = some node) :
    (∃ t8110, t.isT8110Dart node = some t8110) ∧ ∃ base how, .use (.dart k) base how ∈ log := by
  induction n generalizing i log with
  | zero => omega
  | succ n ih =>
    rw [dartSetupLoop] at h
    by_cases hskip : i = 0 ∨ i = 1 ∨ i = 4 ∨ i = 5
    · rw [if_pos hskip] at h
      have hne : i ≠ k := by
        intro he
        rw [he] at hskip
        exact (dfuPort_false_iff k).mp hdfu hskip
      exact ih (i + 1) log h (by omega) (by omega)
    · rw [if_neg hskip] at h
      cases hi : s.dartNode (i / 2) with
      | none =>
        rw [hi] at h
        have hne : i ≠ k := by
          intro he
          rw [he, hnode] at hi
          cases hi
        exact ih (i + 1) log h (by omega) (by omega)
      | some node' =>
        rw [hi] at h
        obtain ⟨t8110, hkind, h⟩ := Option.bind_eq_some_iff.mp h
        obtain ⟨rest, hrest, rfl⟩ := Option.map_eq_some_iff.mp h
        by_cases he : i = k
        · subst he
          obtain rfl := Option.some.inj (hi.symm.trans hnode)
          exact ⟨⟨t8110, hkind⟩, _, _, List.mem_append_left _
            (List.mem_map_of_mem (dartSetup_params2 t8110 hw i))⟩
        · obtain ⟨hcmp, base, how, hmem⟩ := ih (i + 1) rest hrest (by omega) (by omega)
          exact ⟨hcmp, base, how, List.mem_append_right _ hmem⟩

/-! ## the driver -/

/-- every node is absent or both calls for it return; and every DART that is driven is absent, or
found and has a `compatible` -/
structure DartLookups (t : Adt) (num : UInt32) : Prop where
  returns : ∀ j, j < num.toNat → DartReturns t j
  driven : ∀ k, k < (num * 2).toNat → (Device.dart k).dfuPort = false →
    Absent t (.dart k) ∨ LookupOk t (.dart k) ∧ ∃ node t8110,
      (Device.dart k).node t = some (some node) ∧ t.isT8110Dart node = some t8110

/-- the lookups are in order, or the SoC is not Apple's and the ASSERT does not stop the driver -/
def DartReady (t : Adt) (midr num : UInt32) : Prop :=
  if isAppleSoc midr then DartLookups t num else t.pcd.debugAssertEnabled = false

/-- the driver drives no DART of a DFU port -/
theorem dart_no_dfu (t : Adt) (midr num : UInt32) (hw : DartHw) (uninitialized : DartSlots)
    (log : List DriverEvent)
    (h : appleDartIoMmuDxeInitialize t midr num hw uninitialized = some log) (device : Device)
    (base : UInt64) (how : BaseUse) (hmem : .use device base how ∈ log) :
    device.dfuPort = false := by
  unfold appleDartIoMmuDxeInitialize at h
  by_cases hsoc : isAppleSoc midr = false
  · rw [if_pos hsoc] at h
    obtain ⟨_, _, rfl⟩ := Option.map_eq_some_iff.mp h
    cases hmem
  · rw [if_neg hsoc] at h
    obtain ⟨out, hout, h⟩ := Option.bind_eq_some_iff.mp h
    obtain ⟨uses, huses, rfl⟩ := Option.map_eq_some_iff.mp h
    obtain ⟨_, _, _, hnone⟩ := dartLookupLoop_found t _ 0 uninitialized out hout
    rcases List.mem_append.mp hmem with hm | hm
    · exact absurd hm (hnone device base how)
    · obtain ⟨k, _, rfl, _, hdfu, _⟩ :=
        dartSetupLoop_mem t hw out.1 _ 0 uses huses device base how hm
      exact hdfu

theorem half_lt (num : UInt32) (k : ℕ) (h : k < (num * 2).toNat) : k / 2 < num.toNat := by
  have hle : (num * 2).toNat ≤ num.toNat * 2 := by
    rw [UInt32.toNat_mul]
    exact Nat.mod_le _ _
  omega

/-- what the first loop left in the slot of a DART -/
theorem DartFound.slot {t : Adt} {out : DartSlots × List DriverEvent} {k node : ℕ}
    (h : DartFound t out (k / 2)) (hnode : out.1.dartNode (k / 2) = some node) :
    ∃ r, t.reg node (k % 2) = some r ∧
      (r.ret = 0 → r.paddr.map UInt64.ofNat = some (out.1.dartReg k)) ∧
      .nodeReg node (k % 2) r ∈ out.2 := by
  obtain ⟨r0, r1, e0, e1, s0, s1, m0, m1⟩ := h.2 node hnode
  rcases Nat.mod_two_eq_zero_or_one k with hk | hk
  · rw [show 2 * (k / 2) = k by omega] at s0
    rw [hk]
    exact ⟨r0, e0, s0, m0⟩
  · rw [show 2 * (k / 2) + 1 = k by omega] at s1
    rw [hk]
    exact ⟨r1, e1, s1, m1⟩

section
variable (t : Adt) (num : UInt32) (hw : DartHw) (uninitialized : DartSlots)

/-- what a run that drives right says of the lookups -/
theorem dartLookups_of_run (out : DartSlots × List DriverEvent) (uses : List DriverEvent)
    (hout : dartLookupLoop t num.toNat 0 0 uninitialized = some out)
    (huses : dartSetupLoop t hw out.1 (num * 2).toNat 0 = some uses)
    (hgiven : ∀ device base how, .use device base how ∈ out.2 ++ uses →
      BaseGiven t (out.2 ++ uses) device base) : DartLookups t num := by
  obtain ⟨hfound, _⟩ := dartLookupLoop_found t _ 0 uninitialized out hout
  refine ⟨?_, ?_⟩
  · intro j hj
    obtain ⟨hget, hreg⟩ := hfound j (Nat.zero_le j) (by omega)
    cases hslot : out.1.dartNode j with
    | none =>
      rw [hslot] at hget
      exact .inl hget
    | some node =>
      obtain ⟨r0, r1, e0, e1, _⟩ := hreg node hslot
      rw [hslot] at hget
      exact .inr ⟨node, r0, r1, hget, e0, e1⟩
  · intro k hk hdfu
    have hhalf := half_lt num k hk
    obtain ⟨hget, _⟩ := hfound (k / 2) (Nat.zero_le _) (by omega)
    cases hslot : out.1.dartNode (k / 2) with
    | none =>
      rw [hslot] at hget
      exact .inl hget
    | some node =>
      obtain ⟨⟨t8110, hkind⟩, base, how, hmem⟩ := dartSetupLoop_uses t hw out.1 _ 0 uses huses k
        (Nat.zero_le k) (by omega) hdfu node hslot
      rw [hslot] at hget
      exact .inr ⟨(hgiven _ base how (List.mem_append_right _ hmem)).lookupOk, node, t8110, hget,
        hkind⟩

/-- a DART that the second loop drives, where the lookups succeed: its base was given -/
theorem DartLookups.baseGiven (h : DartLookups t num) (out : DartSlots × List DriverEvent)
    (uses : List DriverEvent) (k node : ℕ) (hk : k < (num * 2).toNat)
    (hdfu : (Device.dart k).dfuPort = false) (hfound : DartFound t out (k / 2))
    (hslot : out.1.dartNode (k / 2) = some node) :
    BaseGiven t (out.2 ++ uses) (.dart k) (out.1.dartReg k) := by
  have hn : (Device.dart k).node t = some (some node) := hfound.1.trans (congrArg some hslot)
  rcases h.driven k hk hdfu with habs | ⟨⟨node', r', hnode', hreg', h0⟩, _⟩
  · cases habs.symm.trans hn
  · obtain rfl := Option.some.inj (Option.some.inj (hnode'.symm.trans hn))
    obtain ⟨r, hreg, hstored, hin⟩ := hfound.slot hslot
    have hreg'' : t.reg node' (k % 2) = some r' := hreg'
    obtain rfl := Option.some.inj (hreg''.symm.trans hreg)
    exact ⟨hdfu, node', r', hn, hreg, h0, hstored h0, List.mem_append_left _ hin⟩

/-- on a SoC that is not Apple's the driver touches nothing, if its ASSERT lets it return -/
theorem dart_otherSoc_iff (midr : UInt32) (hsoc : isAppleSoc midr = false) :
    DrivenRight t (appleDartIoMmuDxeInitialize t midr num hw uninitialized) ↔
      t.pcd.debugAssertEnabled = false := by
  rw [appleDartIoMmuDxeInitialize, if_pos hsoc, debugAssert]
  cases hassert : t.pcd.debugAssertEnabled with
  | false => exact ⟨fun _ => rfl, fun _ => drivenRight_nil t⟩
  | true =>
    refine ⟨fun h => ?_, fun h => by cases h⟩
    obtain ⟨log, hlog, _⟩ := h
    cases hlog

/-- on Apple's it drives right exactly when its lookups succeed -/
theorem dart_appleSoc_iff (midr : UInt32) (hsoc : isAppleSoc midr = true) :
    DrivenRight t (appleDartIoMmuDxeInitialize t midr num hw uninitialized) ↔
      DartLookups t num := by
  rw [appleDartIoMmuDxeInitialize, if_neg (by rw [hsoc]; decide)]
  constructor
  · intro h
    obtain ⟨log, hlog, hgiven⟩ := h
    obtain ⟨out, hout, hlog⟩ := Option.bind_eq_some_iff.mp hlog
    obtain ⟨uses, huses, rfl⟩ := Option.map_eq_some_iff.mp hlog
    exact dartLookups_of_run t num hw uninitialized out uses hout huses hgiven
  · intro h
    obtain ⟨out, hout⟩ := dartLookupLoop_returns t num.toNat 0 0 uninitialized
      fun j _ hj => h.returns j (by omega)
    obtain ⟨hfound, _, _, hnone⟩ := dartLookupLoop_found t _ 0 uninitialized out hout
    have hfoundOf : ∀ k, k < (num * 2).toNat → DartFound t out (k / 2) := by
      intro k hk
      have hhalf := half_lt num k hk
      exact hfound (k / 2) (Nat.zero_le _) (by omega)
    obtain ⟨uses, huses⟩ := dartSetupLoop_returns t hw out.1 (num * 2).toNat 0 (by
      intro k _ hk hdfu node hnode
      rw [Nat.zero_add] at hk
      have hn := (hfoundOf k hk).1
      rw [hnode] at hn
      rcases h.driven k hk hdfu with habs | ⟨_, node', t8110, hnode', hkind⟩
      · cases habs.symm.trans hn
      · obtain rfl := Option.some.inj (Option.some.inj (hnode'.symm.trans hn))
        exact ⟨t8110, hkind⟩)
    refine ⟨out.2 ++ uses, by rw [hout, Option.bind_some, huses]; rfl, ?_⟩
    intro device base how hmem
    rcases List.mem_append.mp hmem with hm | hm
    · exact absurd hm (hnone device base how)
    · obtain ⟨k, node, rfl, hk, hdfu, hslot, rfl⟩ :=
        dartSetupLoop_mem t hw out.1 _ 0 uses huses device base how hm
      rw [Nat.zero_add] at hk
      exact h.baseGiven t num out uses k node hk hdfu (hfoundOf k hk) hslot

/-- **the DART driver** drives right exactly when it is ready -/
theorem dart_right_iff (midr : UInt32) :
    DrivenRight t (appleDartIoMmuDxeInitialize t midr num hw uninitialized) ↔
      DartReady t midr num := by
  unfold DartReady
  cases hsoc : isAppleSoc midr with
  | false =>
    rw [if_neg Bool.false_ne_true]
    exact dart_otherSoc_iff t num hw uninitialized midr hsoc
  | true =>
    rw [if_pos rfl]
    exact dart_appleSoc_iff t num hw uninitialized midr hsoc

end

/-! ## all four -/

/-- **no device is driven through an address that the tree did not give** exactly when the lookups
of every device that a driver wants succeed or find no node; and no device of a DFU port is driven
in any case -/
theorem drivers_right_iff (t : Adt) (midr num : UInt32) (hw : DartHw) (dartUninitialized : DartSlots)
    (dwc3Uninitialized gpioUninitialized aicV2Base : UInt64) (services : GpioServices) :
    (DrivenRight t (appleDartIoMmuDxeInitialize t midr num hw dartUninitialized) ↔
      DartReady t midr num) ∧
    (DrivenRight t (appleUsbTypeCBringupDxeBringupCallback t num dwc3Uninitialized) ↔
      BringupLookups t num) ∧
    (DrivenRight t (appleEmbeddedGpioControllerDxeInitialize t services gpioUninitialized) ↔
      GpioLookups t services) ∧
    (DrivenRight t (interruptDxeInitialize t midr aicV2Base) ↔ AicLookups t midr) ∧
    ∀ log, appleDartIoMmuDxeInitialize t midr num hw dartUninitialized = some log ∨
        appleUsbTypeCBringupDxeBringupCallback t num dwc3Uninitialized = some log →
      ∀ device base how, .use device base how ∈ log → device.dfuPort = false := by
  refine ⟨dart_right_iff t num hw dartUninitialized midr,
    bringup_right_iff t num dwc3Uninitialized, gpio_right_iff t services gpioUninitialized,
    aic_right_iff t midr aicV2Base, ?_⟩
  intro log hlog device base how hmem
  cases hlog with
  | inl h => exact dart_no_dfu t midr num hw dartUninitialized log h device base how hmem
  | inr h => exact bringupLoop_mem t _ 0 dwc3Uninitialized log h device base how hmem

/-! ## two trees -/

/-- a property whose value is a string -/
def stringPropBytes (key : List UInt8) (value : List Char) : List UInt8 :=
  let value := ascii value ++ [0]
  key ++ List.replicate (dtKeyLen - key.length) 0 ++ wordBytes value.length ++ value ++
    List.replicate ((4 - value.length % 4) % 4) 0

/-- the root of both, with two cells for addresses and sizes and `n` children -/
def rootBytes (n : ℕ) : List UInt8 :=
  wordBytes 2 ++ wordBytes n ++ propBytes addressCellsKey [2] ++ propBytes sizeCellsKey [2]

/-- one device for each driver, on the second Type-C port -/
def driverBytes : List UInt8 :=
  rootBytes 4 ++
  wordBytes 3 ++ wordBytes 0 ++ namePropBytes ['d', 'a', 'r', 't', '-', 'u', 's', 'b', '1'] ++
    stringPropBytes compatibleKey ['d', 'a', 'r', 't', ',', 't', '8', '0', '2', '0'] ++
    propBytes regKey [0x2f00000, 0x5, 0x4000, 0x0, 0x2f80000, 0x5, 0x4000, 0x0] ++
  wordBytes 2 ++ wordBytes 0 ++ namePropBytes ['u', 's', 'b', '-', 'd', 'r', 'd', '1'] ++
    propBytes regKey [0x2280000, 0x5, 0x100000, 0x0] ++
  wordBytes 3 ++ wordBytes 0 ++ namePropBytes ['g', 'p', 'i', 'o'] ++
    propBytes gpioPinsKey [212] ++ propBytes regKey [0x3c100000, 0x2, 0x100000, 0x0] ++
  wordBytes 4 ++ wordBytes 0 ++ namePropBytes ['a', 'i', 'c'] ++
    stringPropBytes compatibleKey ['a', 'i', 'c', ',', '2'] ++
    propBytes aicIackOffsetKey [0xc000] ++ propBytes regKey [0x8e100000, 0x2, 0x184000, 0x0]

/-- a DWC3 controller whose node has no `reg` -/
def noRegBytes : List UInt8 :=
  rootBytes 1 ++
  wordBytes 1 ++ wordBytes 0 ++ namePropBytes ['u', 's', 'b', '-', 'd', 'r', 'd', '1']

/-- the lookups in the tree of these bytes -/
def exampleAdt (bytes : List UInt8) : Adt where
  lib := asciiLib
  stray := fun _ => none
  mem := fun x => if 0x800000000 ≤ x then bytes[x - 0x800000000]? else none
  fuel := 3
  pcd := examplePcds

def exampleMidr : UInt32 := 0x611f0220

def exampleGpioServices : GpioServices := ⟨.notFound, exampleMidr, true⟩

/-- DARTs with a bypass mode -/
def exampleDartHw : DartHw := ⟨fun _ => 1, fun _ => 0, fun _ => 1⟩

/-- in the tree with all lookups in order, all four drivers drive right -/
theorem driverBytes_driven :
    DrivenRight (exampleAdt driverBytes) (appleDartIoMmuDxeInitialize (exampleAdt driverBytes)
      exampleMidr 2 exampleDartHw ⟨fun _ => none, fun _ => 0⟩) ∧
    DrivenRight (exampleAdt driverBytes)
      (appleUsbTypeCBringupDxeBringupCallback (exampleAdt driverBytes) 2 0xdeadbeef) ∧
    DrivenRight (exampleAdt driverBytes) (appleEmbeddedGpioControllerDxeInitialize
      (exampleAdt driverBytes) exampleGpioServices 0xdeadbeef) ∧
    DrivenRight (exampleAdt driverBytes)
      (interruptDxeInitialize (exampleAdt driverBytes) exampleMidr 0) := by
  obtain ⟨hdart, husb, hgpio, haic, _⟩ := drivers_right_iff (exampleAdt driverBytes) exampleMidr 2
    exampleDartHw ⟨fun _ => none, fun _ => 0⟩ 0xdeadbeef 0xdeadbeef 0 exampleGpioServices
  have hok : ∀ device node out, device.node (exampleAdt driverBytes) = some (some node) →
      (exampleAdt driverBytes).reg node device.index = some out → out.ret = 0 →
      LookupOk (exampleAdt driverBytes) device :=
    fun device node out h1 h2 h3 => ⟨node, out, h1, h2, h3⟩
  -- the lookups in the tree, each once
  have hdart0 : (exampleAdt driverBytes).get (dartNodeName 0) = some none := by decide +kernel
  have hdart1 : (exampleAdt driverBytes).get (dartNodeName 1) = some (some 0x800000058) := by
    decide +kernel
  have hreg0 : (exampleAdt driverBytes).reg 0x800000058 0 =
      some ⟨0, some 0x502f00000, some 0x4000⟩ := by decide +kernel
  have hreg1 : (exampleAdt driverBytes).reg 0x800000058 1 =
      some ⟨0, some 0x502f80000, some 0x4000⟩ := by decide +kernel
  have ht8110 : (exampleAdt driverBytes).isT8110Dart 0x800000058 = some false := by decide +kernel
  have hgpioNode : (exampleAdt driverBytes).pinCtrlApNode = some (some 0x800000170) := by
    decide +kernel
  have haicNode : (exampleAdt driverBytes).interruptControllerNode = some (some 0x800000200) := by
    decide +kernel
  have hready : DartLookups (exampleAdt driverBytes) 2 → DartReady (exampleAdt driverBytes)
      exampleMidr 2 := id
  refine ⟨hdart.mpr (hready ⟨?_, ?_⟩), husb.mpr ?_, hgpio.mpr ?_, haic.mpr ?_⟩
  · intro j hj
    have hj : j < 2 := hj
    interval_cases j
    · exact .inl hdart0
    · exact .inr ⟨0x800000058, _, _, hdart1, hreg0, hreg1⟩
  · intro k hk hdfu
    have hk : k < 4 := hk
    interval_cases k
    · cases hdfu
    · cases hdfu
    · exact .inr ⟨hok (.dart 2) 0x800000058 _ hdart1 hreg0 rfl, 0x800000058, false, hdart1, ht8110⟩
    · exact .inr ⟨hok (.dart 3) 0x800000058 _ hdart1 hreg1 rfl, 0x800000058, false, hdart1, ht8110⟩
  · intro i hi hdfu
    have hi : i < 2 := hi
    interval_cases i
    · cases hdfu
    · exact .inr (hok (.dwc3 1) 0x800000104 ⟨0, some 0x502280000, some 0x100000⟩ (by decide +kernel)
        (by decide +kernel) rfl)
  · exact fun _ => .inr ⟨0x800000170, hgpioNode, ⟨212, by decide +kernel⟩, fun _ =>
      hok .gpio 0x800000170 ⟨0, some 0x23c100000, some 0x100000⟩ hgpioNode (by decide +kernel) rfl⟩
  · exact fun _ => ⟨0x800000200, .version2, haicNode, by decide +kernel,
      fun _ => ⟨0xc000, by decide +kernel⟩, hok .aic 0x800000200
        ⟨0, some 0x28e100000, some 0x184000⟩ haicNode (by decide +kernel) rfl⟩

/-- the node of the controller is there, its `reg` is not: `dt_node_reg` returns 1, and the
controller is driven at whatever the variable held -/
theorem noReg_driven :
    (dtCheck (exampleAdt noRegBytes).mem 0x800000000 noRegBytes.length).map CheckOut.ret = some 0 ∧
    appleUsbTypeCBringupDxeBringupCallback (exampleAdt noRegBytes) 2 0xdeadbeef
      = some [.nodeReg 0x800000058 0 .refused,
          .use (.dwc3 1) 0xdeadbeef .initializeUsbController,
          .use (.dwc3 1) 0xdeadbeef (.registerMmioDevice 0x100000)] ∧
    ¬ DrivenRight (exampleAdt noRegBytes)
      (appleUsbTypeCBringupDxeBringupCallback (exampleAdt noRegBytes) 2 0xdeadbeef) := by
  have hrun : appleUsbTypeCBringupDxeBringupCallback (exampleAdt noRegBytes) 2 0xdeadbeef
      = some [.nodeReg 0x800000058 0 .refused,
          .use (.dwc3 1) 0xdeadbeef .initializeUsbController,
          .use (.dwc3 1) 0xdeadbeef (.registerMmioDevice 0x100000)] := by decide +kernel
  refine ⟨by decide +kernel, hrun, ?_⟩
  intro h
  obtain ⟨log, hlog, hgiven⟩ := h
  obtain rfl := Option.some.inj (hlog.symm.trans hrun)
  obtain ⟨_, node, out, _, _, h0, _, hmem⟩ :=
    hgiven (.dwc3 1) 0xdeadbeef .initializeUsbController (by simp)
  simp only [List.mem_cons, DriverEvent.nodeReg.injEq, reduceCtorEq, List.not_mem_nil, or_false]
    at hmem
  rw [hmem.2.2] at h0
  cases h0

end AppleSilicon
