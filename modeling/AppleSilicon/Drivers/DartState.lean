import AppleSilicon.Drivers.Dart
import AppleSilicon.Lib.Store

/-!
# The registers of a DART after its bring-up

A DART is meant to end with its translation tables cleared, its TLB flushed and its streams
bypassed, and with nothing else changed (`DartBroughtUp`).

* `dartSetupLoop_accesses`   what the driver does to one DART;
* `t8020_broughtUp`          a T8020 DART is brought up right;
* `t8110_flush_misplaced`    a T8110 DART never is: its flush command goes to its error register;
* `t8110_ranges_apart_iff`   and its tables overlap when it has more than 256 streams;
* `dart_broughtUp_iff`       so a run of the driver brings up right the T8020 DARTs.
-/

namespace AppleSilicon

/-! ## the intended state -/

namespace DartInfo

def tcr (d : DartInfo) (sid : ℕ) : UInt64 := UInt64.ofNat (d.tcrBase + 4 * sid)

def ttbr (d : DartInfo) (sid i : ℕ) : UInt64 :=
  UInt64.ofNat (d.ttbrBase + 4 * d.nttbr * sid + 4 * i)

def tcrWrites (d : DartInfo) (value : UInt32) : List (UInt64 × UInt32) :=
  (List.range d.nsid).map fun sid => (d.tcr sid, value)

def ttbrWrites (d : DartInfo) : List (UInt64 × UInt32) :=
  (List.range d.nsid).flatMap fun sid => (List.range d.nttbr).map fun i => (d.ttbr sid i, 0)

def RangesApart (d : DartInfo) : Prop :=
  ∀ sid sid' i, sid < d.nsid → sid' < d.nsid → i < d.nttbr → d.tcr sid ≠ d.ttbr sid' i

end DartInfo

def dartInfo (t8110 : Bool) (params4 : UInt32) : DartInfo :=
  if t8110 then dartInfoT8110 params4 else dartInfoT8020

/-- `DART_T8110_TLB_CMD` and `DART_T8020_TLB_CMD` -/
def dartTlbCmd (t8110 : Bool) : UInt64 := if t8110 then 0x80 else 0x20

/-- `DART_T8110_TLB_CMD_FLUSH_ALL` and `DART_T8020_TLB_CMD_FLUSH` -/
def dartTlbCmdFlush (t8110 : Bool) : UInt32 := if t8110 then 0x100 else 0x100000

/-- the write of the stream mask that comes before a flush -/
def dartSidMaskWrites (t8110 : Bool) : List (UInt64 × UInt32) :=
  if t8110 then [] else [(0x34, 0xffff)]

/-- **the intended state** of a DART, told by the writes to it: the tables are cleared, the TLB is
flushed by one command, and the streams are bypassed where that is supported -/
structure DartBroughtUp (t8110 : Bool) (params4 : UInt32) (bypass : Bool)
    (ws : List (UInt64 × UInt32)) : Prop where
  writes : ws = (dartInfo t8110 params4).tcrWrites 0 ++ (dartInfo t8110 params4).ttbrWrites ++
    dartSidMaskWrites t8110 ++ [(dartTlbCmd t8110, dartTlbCmdFlush t8110)] ++
    if bypass then (dartInfo t8110 params4).tcrWrites (dartInfo t8110 params4).tcrBypass else []
  ttbr : ∀ m sid i, sid < (dartInfo t8110 params4).nsid → i < (dartInfo t8110 params4).nttbr →
    applyWrites m ws ((dartInfo t8110 params4).ttbr sid i) = 0
  tcr : ∀ m sid, sid < (dartInfo t8110 params4).nsid →
    applyWrites m ws ((dartInfo t8110 params4).tcr sid)
      = if bypass then (dartInfo t8110 params4).tcrBypass else 0
  apart : (dartInfo t8110 params4).RangesApart
  frame : ∀ m a, (∀ sid, sid < (dartInfo t8110 params4).nsid →
      (dartInfo t8110 params4).tcr sid ≠ a) →
    (∀ sid i, sid < (dartInfo t8110 params4).nsid → i < (dartInfo t8110 params4).nttbr →
      (dartInfo t8110 params4).ttbr sid i ≠ a) →
    dartTlbCmd t8110 ≠ a → (∀ w ∈ dartSidMaskWrites t8110, w.1 ≠ a) → applyWrites m ws a = m a

/-! ## what the driver does to one DART -/

def BaseUse.write? : BaseUse → Option (UInt64 × UInt32)
  | .mmioWrite32 offset value => some (offset, value)
  | _ => none

def registerWrites (uses : List BaseUse) : List (UInt64 × UInt32) := uses.filterMap BaseUse.write?

/-- what an event does to DART `k` -/
def DriverEvent.dartAccess? (k : ℕ) : DriverEvent → Option (UInt64 × BaseUse)
  | .use (.dart j) base how => if j = k then some (base, how) else none
  | _ => none

/-- what a run does to DART `k`, in order -/
def dartAccesses (k : ℕ) (log : List DriverEvent) : List (UInt64 × BaseUse) :=
  log.filterMap (DriverEvent.dartAccess? k)

theorem dartAccesses_append (k : ℕ) (log log' : List DriverEvent) :
    dartAccesses k (log ++ log') = dartAccesses k log ++ dartAccesses k log' :=
  List.filterMap_append ..

theorem dartAccesses_nil (k : ℕ) (log : List DriverEvent)
    (h : ∀ device base how, .use device base how ∉ log) : dartAccesses k log = [] := by
  refine List.filterMap_eq_nil_iff.mpr ?_
  intro e he
  cases e with
  | nodeReg node idx out => rfl
  | use device base how => exact absurd he (h device base how)

theorem dartAccesses_own (k : ℕ) (base : UInt64) (uses : List BaseUse) :
    dartAccesses k (uses.map (.use (.dart k) base)) = uses.map fun how => (base, how) := by
  induction uses with
  | nil => rfl
  | cons how uses ih =>
    rw [List.map_cons, List.map_cons, ← ih]
    exact List.filterMap_cons_some (if_pos rfl)

theorem dartAccesses_other (k j : ℕ) (hne : j ≠ k) (base : UInt64) (uses : List BaseUse) :
    dartAccesses k (uses.map (.use (.dart j) base)) = [] := by
  refine List.filterMap_eq_nil_iff.mpr ?_
  intro e he
  obtain ⟨how, _, rfl⟩ := List.mem_map.mp he
  exact if_neg hne

/-- the second loop does nothing to the DARTs before the one it is at -/
theorem dartSetupLoop_before (t : Adt) (hw : DartHw) (s : DartSlots) (n i : ℕ)
    (log : List DriverEvent) (h : dartSetupLoop t hw s n i = some log) (k : ℕ) (hk : k < i) :
    dartAccesses k log = [] := by
  induction n generalizing i log with
  | zero =>
    obtain rfl := Option.some.inj h
    rfl
  | succ n ih =>
    rw [dartSetupLoop] at h
    by_cases hskip : i = 0 ∨ i = 1 ∨ i = 4 ∨ i = 5
    · rw [if_pos hskip] at h
      exact ih (i + 1) log h (by omega)
    · rw [if_neg hskip] at h
      cases hi : s.dartNode (i / 2) with
      | none =>
        rw [hi] at h
        exact ih (i + 1) log h (by omega)
      | some node =>
        rw [hi] at h
        obtain ⟨t8110, _, h⟩ := Option.bind_eq_some_iff.mp h
        obtain ⟨rest, hrest, rfl⟩ := Option.map_eq_some_iff.mp h
        rw [dartAccesses_append, dartAccesses_other k i (by omega),
          ih (i + 1) rest hrest (by omega)]
        rfl

/-- **what the second loop does** to a DART that it drives: its setup, at the address in its slot -/
theorem dartSetupLoop_accesses (t : Adt) (hw : DartHw) (s : DartSlots) (n i : ℕ)
    (log : List DriverEvent) (h : dartSetupLoop t hw s n i = some log) (k : ℕ) (h1 : i ≤ k)
    (h2 : k < i + n) (hdfu : (Device.dart k).dfuPort = false) (node : ℕ)
    (hnode : s.dartNode (k / 2) = some node) :
    ∃ t8110, t.isT8110Dart node = some t8110 ∧
      dartAccesses k log = (dartSetup t8110 hw k).map fun how => (s.dartReg k, how) := by
  induction n generalizing i log with
  | zero => omega
  | succ n ih =>
    rw [dartSetupLoop] at h
    by_cases hskip : i = 0 ∨ i = 1 ∨ i = 4 ∨ i = 5
    · rw [if_pos hskip] at h
      have hne : i ≠ k := by
        intro he
        rw [he] at hskip
        exact (dfuPort_false_iff k).mp hdfu hskip
      exact ih (i + 1) log h (by omega) (by omega)
    · rw [if_neg hskip] at h
      cases hi : s.dartNode (i / 2) with
      | none =>
        rw [hi] at h
        have hne : i ≠ k := by
          intro he
          rw [he, hnode] at hi
          cases hi
        exact ih (i + 1) log h (by omega) (by omega)
      | some node' =>
        rw [hi] at h
        obtain ⟨t8110, hkind, h⟩ := Option.bind_eq_some_iff.mp h
        obtain ⟨rest, hrest, rfl⟩ := Option.map_eq_some_iff.mp h
        by_cases he : i = k
        · subst he
          obtain rfl := Option.some.inj (hi.symm.trans hnode)
          refine ⟨t8110, hkind, ?_⟩
          rw [dartAccesses_append, dartAccesses_own,
            dartSetupLoop_before t hw s n (i + 1) rest hrest i (by omega), List.append_nil]
        · obtain ⟨t8110', hkind', hacc⟩ := ih (i + 1) rest hrest (by omega) (by omega)
          refine ⟨t8110', hkind', ?_⟩
          rw [dartAccesses_append, dartAccesses_other k i he, hacc]
          rfl

/-! ## the writes of a setup -/

theorem registerWrites_append (uses uses' : List BaseUse) :
    registerWrites (uses ++ uses') = registerWrites uses ++ registerWrites uses' :=
  List.filterMap_append ..

theorem registerWrites_tcrs (d : DartInfo) (value : UInt32) :
    registerWrites (d.writeTcrs value) = d.tcrWrites value := by
  rw [registerWrites, DartInfo.writeTcrs, List.filterMap_map, DartInfo.tcrWrites]
  exact congrFun List.filterMap_eq_map _

theorem registerWrites_ttbrs (d : DartInfo) : registerWrites d.clearTtbrs = d.ttbrWrites := by
  rw [registerWrites, DartInfo.clearTtbrs, List.filterMap_flatMap, DartInfo.ttbrWrites]
  refine congrArg (fun f => List.flatMap f (List.range d.nsid)) ?_
  funext sid
  rw [List.filterMap_map]
  exact congrFun List.filterMap_eq_map _

theorem registerWrites_polls (n : ℕ) (offset : UInt64) :
    registerWrites (List.replicate n (.mmioRead32 offset)) = [] :=
  List.filterMap_eq_nil_iff.mpr fun _ h => by rw [List.eq_of_mem_replicate h]; rfl

def dartFlushWrites (t8110 : Bool) : List (UInt64 × UInt32) :=
  if t8110 then [(0x100, 0x100)] else [(0x34, 0xffff), (0x20, 0x100000)]

theorem registerWrites_flush (t8110 : Bool) (polls : ℕ) :
    registerWrites (if t8110 then appleDartT8110TlbFlush polls else appleDartT8020TlbFlush polls)
      = dartFlushWrites t8110 := by
  cases t8110 with
  | true => exact congrArg ((0x100, 0x100) :: ·) (registerWrites_polls polls 0x80)
  | false =>
    exact congrArg (fun ws => (0x34, 0xffff) :: (0x20, 0x100000) :: ws)
      (registerWrites_polls polls 0x20)

/-! ## the two generations -/

theorem ofNat_ne (a b : ℕ) (ha : a < 2^64) (hb : b < 2^64) (h : a ≠ b) :
    UInt64.ofNat a ≠ UInt64.ofNat b := by
  intro he
  have hn := congrArg UInt64.toNat he
  rw [UInt64.toNat_ofNat_of_lt' ha, UInt64.toNat_ofNat_of_lt' hb] at hn
  exact h hn

theorem mem_tcrWrites (d : DartInfo) (value : UInt32) (w : UInt64 × UInt32) :
    w ∈ d.tcrWrites value ↔ ∃ sid, sid < d.nsid ∧ w = (d.tcr sid, value) := by
  simp only [DartInfo.tcrWrites, List.mem_map, List.mem_range, eq_comm]

theorem mem_ttbrWrites (d : DartInfo) (w : UInt64 × UInt32) :
    w ∈ d.ttbrWrites ↔ ∃ sid i, sid < d.nsid ∧ i < d.nttbr ∧ w = (d.ttbr sid i, 0) := by
  simp only [DartInfo.ttbrWrites, List.mem_flatMap, List.mem_map, List.mem_range]
  constructor
  · intro h
    obtain ⟨sid, hs, i, hi, rfl⟩ := h
    exact ⟨sid, i, hs, hi, rfl⟩
  · intro h
    obtain ⟨sid, i, hs, hi, rfl⟩ := h
    exact ⟨sid, hs, i, hi, rfl⟩

/-- the ranges of a T8110 DART meet from the 257th stream on -/
theorem t8110_ranges_apart_iff (params4 : UInt32) :
    (dartInfoT8110 params4).RangesApart ↔ (params4 &&& 0x1ff).toNat ≤ 256 := by
  have hn : (params4 &&& 0x1ff).toNat ≤ 511 := by
    rw [UInt32.toNat_and]
    exact Nat.and_le_right
  constructor
  · intro h
    by_contra hlt
    exact h 256 0 0 (by show 256 < (params4 &&& 0x1ff).toNat; omega)
      (by show 0 < (params4 &&& 0x1ff).toNat; omega) (by show 0 < 1; omega) rfl
  · intro hle sid sid' i hs hs' hi
    have hs : sid < (params4 &&& 0x1ff).toNat := hs
    have hs' : sid' < (params4 &&& 0x1ff).toNat := hs'
    have hi : i < 1 := hi
    exact ofNat_ne (0x1000 + 4 * sid) (0x1400 + 4 * 1 * sid' + 4 * i) (by omega) (by omega)
      (by omega)

theorem t8020_ranges_apart : dartInfoT8020.RangesApart := by
  intro sid sid' i hs hs' hi
  have hs : sid < 16 := hs
  have hs' : sid' < 16 := hs'
  have hi : i < 4 := hi
  exact ofNat_ne (0x100 + 4 * sid) (0x200 + 4 * 4 * sid' + 4 * i) (by omega) (by omega) (by omega)

section
variable (d : DartInfo) (flush : List (UInt64 × UInt32)) (bypass : Bool)

/-- the writes of a bring-up around its flush -/
def DartInfo.bringupWrites : List (UInt64 × UInt32) :=
  d.tcrWrites 0 ++ d.ttbrWrites ++ flush ++ if bypass then d.tcrWrites d.tcrBypass else []

theorem bringupWrites_cases (w : UInt64 × UInt32) (h : w ∈ d.bringupWrites flush bypass) :
    (∃ sid, sid < d.nsid ∧ w.1 = d.tcr sid) ∨
    (∃ sid i, sid < d.nsid ∧ i < d.nttbr ∧ w = (d.ttbr sid i, 0)) ∨ w ∈ flush := by
  have htcr : ∀ value, w ∈ d.tcrWrites value → ∃ sid, sid < d.nsid ∧ w.1 = d.tcr sid := by
    intro value hw
    obtain ⟨sid, hs, rfl⟩ := (mem_tcrWrites d value w).mp hw
    exact ⟨sid, hs, rfl⟩
  rcases List.mem_append.mp h with h | h
  · rcases List.mem_append.mp h with h | h
    · rcases List.mem_append.mp h with h | h
      · exact .inl (htcr 0 h)
      · exact .inr (.inl ((mem_ttbrWrites d w).mp h))
    · exact .inr (.inr h)
  · cases bypass with
    | true => exact .inl (htcr _ h)
    | false => cases h

/-- where the ranges stay clear of each other and of the flush, every `DART_TTBR` ends 0 -/
theorem bringupWrites_ttbr (hapart : d.RangesApart) (m : UInt64 → UInt32) (sid i : ℕ)
    (hs : sid < d.nsid) (hi : i < d.nttbr) (hflush : ∀ w ∈ flush, w.1 ≠ d.ttbr sid i) :
    applyWrites m (d.bringupWrites flush bypass) (d.ttbr sid i) = 0 := by
  refine applyWrites_const m _ _ 0 ?_ ⟨(d.ttbr sid i, 0), ?_, rfl⟩
  · intro w hw he
    rcases bringupWrites_cases d flush bypass w hw with ⟨sid', hs', h⟩ | ⟨_, _, _, _, rfl⟩ | h
    · exact absurd (h.symm.trans he) (hapart sid' sid i hs' hs hi)
    · rfl
    · exact absurd he (hflush w h)
  · exact List.mem_append_left _ (List.mem_append_left _ (List.mem_append_right _
      ((mem_ttbrWrites d _).mpr ⟨sid, i, hs, hi, rfl⟩)))

theorem tcrWrites_last (m : UInt64 → UInt32) (value : UInt32) (sid : ℕ) (hs : sid < d.nsid) :
    applyWrites m (d.tcrWrites value) (d.tcr sid) = value := by
  refine applyWrites_const m _ _ value ?_ ⟨_, (mem_tcrWrites _ _ _).mpr ⟨sid, hs, rfl⟩, rfl⟩
  intro w hw _
  obtain ⟨_, _, rfl⟩ := (mem_tcrWrites _ _ _).mp hw
  rfl

/-- and every `DART_TCR` the bypass, or 0 -/
theorem bringupWrites_tcr (hapart : d.RangesApart) (m : UInt64 → UInt32) (sid : ℕ)
    (hs : sid < d.nsid) (hflush : ∀ w ∈ flush, w.1 ≠ d.tcr sid) :
    applyWrites m (d.bringupWrites flush bypass) (d.tcr sid)
      = if bypass then d.tcrBypass else 0 := by
  rw [DartInfo.bringupWrites, applyWrites_append]
  cases bypass with
  | true => exact tcrWrites_last d _ d.tcrBypass sid hs
  | false =>
    show applyWrites m (d.tcrWrites 0 ++ d.ttbrWrites ++ flush) (d.tcr sid) = 0
    rw [List.append_assoc, applyWrites_append, applyWrites_untouched]
    · exact tcrWrites_last d m 0 sid hs
    · intro w hw
      rcases List.mem_append.mp hw with hw | hw
      · obtain ⟨sid', i, hs', hi, rfl⟩ := (mem_ttbrWrites d w).mp hw
        exact (hapart sid sid' i hs hs' hi).symm
      · exact hflush w hw

end

theorem registerWrites_dartSetup (t8110 : Bool) (hw : DartHw) (k : ℕ) :
    registerWrites (dartSetup t8110 hw k) = (dartInfo t8110 (hw.params4 k)).bringupWrites
      (dartFlushWrites t8110) (hw.params2 k &&& 1 ≠ 0) := by
  have hread : registerWrites (if t8110 then [.mmioRead32 0xc] else []) = [] := by
    cases t8110 <;> rfl
  have hbypass : ∀ uses, registerWrites (.mmioRead32 0x4 :: uses) = registerWrites uses :=
    fun uses => List.filterMap_cons_none rfl
  rw [dartSetup, registerWrites_append, registerWrites_append, registerWrites_append,
    registerWrites_append, hread, hbypass, registerWrites_tcrs, registerWrites_ttbrs,
    registerWrites_flush, List.nil_append, DartInfo.bringupWrites]
  by_cases hb : hw.params2 k &&& 1 ≠ 0
  · rw [if_pos hb, decide_eq_true hb, registerWrites_tcrs]
    rfl
  · rw [if_neg hb, decide_eq_false hb]
    rfl

/-- **a T8020 DART** is brought up right -/
theorem t8020_broughtUp (params4 : UInt32) (bypass : Bool) :
    DartBroughtUp false params4 bypass
      (dartInfoT8020.bringupWrites (dartFlushWrites false) bypass) := by
  have hflush : ∀ a, 0x100 ≤ a → a < 2^64 → ∀ w ∈ dartFlushWrites false, w.1 ≠ UInt64.ofNat a := by
    intro a h1 h2 w hw
    rcases List.mem_cons.mp hw with rfl | hw
    · exact ofNat_ne 0x34 a (by omega) h2 (by omega)
    · rw [List.mem_singleton.mp hw]
      exact ofNat_ne 0x20 a (by omega) h2 (by omega)
  refine ⟨?_, ?_, ?_, t8020_ranges_apart, ?_⟩
  · rw [List.append_assoc _ (dartSidMaskWrites false)]
    rfl
  · intro m sid i hs hi
    have hs' : sid < 16 := hs
    have hi' : i < 4 := hi
    exact bringupWrites_ttbr dartInfoT8020 _ bypass t8020_ranges_apart m sid i hs hi
      (hflush (0x200 + 4 * 4 * sid + 4 * i) (by omega) (by omega))
  · intro m sid hs
    have hs' : sid < 16 := hs
    exact bringupWrites_tcr dartInfoT8020 _ bypass t8020_ranges_apart m sid hs
      (hflush (0x100 + 4 * sid) (by omega) (by omega))
  · intro m a htcr httbr hcmd hmask
    refine applyWrites_untouched m _ a ?_
    intro w hw
    rcases bringupWrites_cases dartInfoT8020 _ bypass w hw with ⟨sid, hs, h⟩ | ⟨sid, i, hs, hi, rfl⟩
      | hw
    · rw [h]
      exact htcr sid hs
    · exact httbr sid i hs hi
    · rcases List.mem_cons.mp hw with rfl | hw
      · exact hmask _ (List.mem_singleton_self _)
      · rw [List.mem_singleton.mp hw]
        exact hcmd

/-- the flush command of **a T8110 DART** is not written to its command register -/
theorem t8110_flush_misplaced (params4 : UInt32) (bypass : Bool) :
    ¬ DartBroughtUp true params4 bypass
      ((dartInfoT8110 params4).bringupWrites (dartFlushWrites true) bypass) := by
  intro h
  have hw := h.writes
  rw [DartInfo.bringupWrites, List.append_assoc, List.append_assoc _ (dartSidMaskWrites true),
    List.append_assoc _ (dartSidMaskWrites true ++ _)] at hw
  have htail := List.append_cancel_left hw
  have hhead : ((0x100, 0x100) : UInt64 × UInt32) = (0x80, 0x100) := (List.cons.inj htail).1
  exact absurd hhead (by decide)

/-! ## a run of the driver -/

/-- the driver brings DART `k` up right: everything it does to it is done at the address that the
tree gives, and leaves it in the intended state -/
def DartRight (t : Adt) (hw : DartHw) (k : ℕ) (log : List DriverEvent) : Prop :=
  ∃ node t8110 base, (Device.dart k).node t = some (some node) ∧
    t.isT8110Dart node = some t8110 ∧ BaseGiven t log (.dart k) base ∧
    (∀ access ∈ dartAccesses k log, access.1 = base) ∧
    DartBroughtUp t8110 (hw.params4 k) (hw.params2 k &&& 1 ≠ 0)
      (registerWrites ((dartAccesses k log).map Prod.snd))

theorem dart_run_accesses (t : Adt) (midr num : UInt32) (hw : DartHw) (uninitialized : DartSlots)
    (log : List DriverEvent)
    (h : appleDartIoMmuDxeInitialize t midr num hw uninitialized = some log)
    (hsoc : isAppleSoc midr = true) (k : ℕ) (hk : k < (num * 2).toNat)
    (hdfu : (Device.dart k).dfuPort = false) (hok : LookupOk t (.dart k)) :
    ∃ node t8110 base, (Device.dart k).node t = some (some node) ∧
      t.isT8110Dart node = some t8110 ∧ BaseGiven t log (.dart k) base ∧
      dartAccesses k log = (dartSetup t8110 hw k).map fun how => (base, how) := by
  rw [appleDartIoMmuDxeInitialize, if_neg (by rw [hsoc]; decide)] at h
  obtain ⟨out, hout, h⟩ := Option.bind_eq_some_iff.mp h
  obtain ⟨uses, huses, rfl⟩ := Option.map_eq_some_iff.mp h
  obtain ⟨hfound, _, _, hnone⟩ := dartLookupLoop_found t _ 0 uninitialized out hout
  have hslots := hfound (k / 2) (Nat.zero_le _) (by have := half_lt num k hk; omega)
  obtain ⟨node, r', hnode, hreg', h0⟩ := hok
  have hslot : out.1.dartNode (k / 2) = some node := Option.some.inj (hslots.1.symm.trans hnode)
  obtain ⟨r, hreg, hstored, hmem⟩ := DartFound.slot hslots hslot
  have hreg'' : t.reg node (k % 2) = some r' := hreg'
  obtain rfl := Option.some.inj (hreg''.symm.trans hreg)
  obtain ⟨t8110, hkind, hacc⟩ := dartSetupLoop_accesses t hw out.1 _ 0 uses huses k (Nat.zero_le k)
    (by omega) hdfu node hslot
  refine ⟨node, t8110, out.1.dartReg k, hnode, hkind,
    ⟨hdfu, node, r', hnode, hreg', h0, hstored h0, List.mem_append_left _ hmem⟩, ?_⟩
  rw [dartAccesses_append, dartAccesses_nil k out.2 hnone, hacc]
  rfl

/-- **the driver brings a DART up right exactly when it is no T8110 DART** -/
theorem dart_broughtUp_iff (t : Adt) (midr num : UInt32) (hw : DartHw) (uninitialized : DartSlots)
    (log : List DriverEvent)
    (h : appleDartIoMmuDxeInitialize t midr num hw uninitialized = some log)
    (hsoc : isAppleSoc midr = true) (k : ℕ) (hk : k < (num * 2).toNat)
    (hdfu : (Device.dart k).dfuPort = false) (hok : LookupOk t (.dart k)) :
    DartRight t hw k log ↔
      ∃ node, (Device.dart k).node t = some (some node) ∧ t.isT8110Dart node = some false := by
  obtain ⟨node, t8110, base, hnode, hkind, hgiven, hacc⟩ :=
    dart_run_accesses t midr num hw uninitialized log h hsoc k hk hdfu hok
  have hwrites : registerWrites ((dartAccesses k log).map Prod.snd)
      = (dartInfo t8110 (hw.params4 k)).bringupWrites (dartFlushWrites t8110)
        (hw.params2 k &&& 1 ≠ 0) := by
    rw [hacc, List.map_map, ← registerWrites_dartSetup]
    exact congrArg registerWrites (List.map_id _)
  have hbase : ∀ access ∈ dartAccesses k log, access.1 = base := by
    intro access hmem
    rw [hacc] at hmem
    obtain ⟨how, _, rfl⟩ := List.mem_map.mp hmem
    rfl
  constructor
  · intro hright
    obtain ⟨node', t8110', base', hnode', hkind', _, _, hup⟩ := hright
    obtain rfl := Option.some.inj (Option.some.inj (hnode'.symm.trans hnode))
    obtain rfl := Option.some.inj (hkind'.symm.trans hkind)
    rw [hwrites] at hup
    cases t8110' with
    | false => exact ⟨node', hnode, hkind⟩
    | true => exact absurd hup (t8110_flush_misplaced _ _)
  · intro hfalse
    obtain ⟨node', hnode', hkind'⟩ := hfalse
    obtain rfl := Option.some.inj (Option.some.inj (hnode'.symm.trans hnode))
    obtain rfl := Option.some.inj (hkind'.symm.trans hkind)
    refine ⟨node', false, base, hnode, hkind, hgiven, hbase, ?_⟩
    rw [hwrites]
    exact t8020_broughtUp (hw.params4 k) _

/-- a tree with the DARTs of the second Type-C port alone -/
def dartBytes (compatible : List Char) : List UInt8 :=
  rootBytes 1 ++
  wordBytes 3 ++ wordBytes 0 ++ namePropBytes ['d', 'a', 'r', 't', '-', 'u', 's', 'b', '1'] ++
    stringPropBytes compatibleKey compatible ++
    propBytes regKey [0x2f00000, 0x5, 0x4000, 0x0, 0x2f80000, 0x5, 0x4000, 0x0]

def t8020Adt : Adt := exampleAdt (dartBytes ['d', 'a', 'r', 't', ',', 't', '8', '0', '2', '0'])

def t8110Adt : Adt := exampleAdt (dartBytes ['d', 'a', 'r', 't', ',', 't', '8', '1', '1', '0'])

def exampleDartHw2 : DartHw := ⟨fun _ => 1, fun _ => 2, fun _ => 1⟩

theorem t8020Adt_broughtUp :
    ∃ log, appleDartIoMmuDxeInitialize t8020Adt exampleMidr 2 exampleDartHw2
        ⟨fun _ => none, fun _ => 0⟩ = some log ∧ DartRight t8020Adt exampleDartHw2 2 log := by
  have hrun : (appleDartIoMmuDxeInitialize t8020Adt exampleMidr 2 exampleDartHw2
      ⟨fun _ => none, fun _ => 0⟩).isSome = true := by decide +kernel
  obtain ⟨log, hlog⟩ := Option.isSome_iff_exists.mp hrun
  have hnode : t8020Adt.get (dartNodeName 1) = some (some 0x800000058) := by decide +kernel
  have hreg : t8020Adt.reg 0x800000058 0 = some ⟨0, some 0x502f00000, some 0x4000⟩ := by
    decide +kernel
  exact ⟨log, hlog, (dart_broughtUp_iff t8020Adt exampleMidr 2 exampleDartHw2
    ⟨fun _ => none, fun _ => 0⟩ log hlog (by decide) 2 (by decide) (by decide)
    ⟨0x800000058, _, hnode, hreg, rfl⟩).mpr ⟨0x800000058, hnode, by decide +kernel⟩⟩

/-- the command that should flush the TLB is written to `DART_T8110_ERROR` -/
theorem t8110Adt_not_broughtUp :
    (appleDartIoMmuDxeInitialize t8110Adt exampleMidr 2 exampleDartHw2
      ⟨fun _ => none, fun _ => 0⟩).map
        (fun log => registerWrites ((dartAccesses 2 log).map Prod.snd))
      = some [(0x1000, 0), (0x1004, 0), (0x1400, 0), (0x1404, 0), (0x100, 0x100), (0x1000, 6),
          (0x1004, 6)] ∧
    LookupOk t8110Adt (.dart 2) ∧
    ∀ log, appleDartIoMmuDxeInitialize t8110Adt exampleMidr 2 exampleDartHw2
        ⟨fun _ => none, fun _ => 0⟩ = some log → ¬ DartRight t8110Adt exampleDartHw2 2 log := by
  have hwrites : (appleDartIoMmuDxeInitialize t8110Adt exampleMidr 2 exampleDartHw2
      ⟨fun _ => none, fun _ => 0⟩).map
        (fun log => registerWrites ((dartAccesses 2 log).map Prod.snd))
      = some [(0x1000, 0), (0x1004, 0), (0x1400, 0), (0x1404, 0), (0x100, 0x100), (0x1000, 6),
          (0x1004, 6)] := by decide +kernel
  have hnode : t8110Adt.get (dartNodeName 1) = some (some 0x800000058) := by decide +kernel
  have hreg : t8110Adt.reg 0x800000058 0 = some ⟨0, some 0x502f00000, some 0x4000⟩ := by
    decide +kernel
  have hkind : t8110Adt.isT8110Dart 0x800000058 = some true := by decide +kernel
  refine ⟨hwrites, ⟨0x800000058, _, hnode, hreg, rfl⟩, ?_⟩
  intro log hlog hright
  rw [hlog] at hwrites
  obtain ⟨node, t8110, base, hnode', hkind', _, _, hup⟩ := hright
  obtain rfl := Option.some.inj (Option.some.inj (hnode'.symm.trans hnode))
  obtain rfl := Option.some.inj (hkind'.symm.trans hkind)
  have hintended := (Option.some.inj hwrites).symm.trans hup.writes
  exact absurd hintended (by decide)

end AppleSilicon
