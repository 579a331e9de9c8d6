import AppleSilicon.Aic.Handler
import AppleSilicon.Lib.LogRun

/-!
# `RegisterInterruptSource`

The table of handlers is allocated with `NumIrqs` entries, and a source is checked against
`MaxIrqs`.  So a source between the two passes the check, and its entry lies outside the table.

`none` is an access outside the table.

* `registerInterruptSource_inside`    what a call on an entry of the table does;
* `registration_sound_iff`            for which calls the registration is a sound state machine.
-/

namespace AppleSilicon

/-- the statuses of the interrupt protocol -/
inductive AicStatus where
  | success
  | unsupported
  | invalidParameter
  | alreadyStarted
deriving DecidableEq, Repr

section
variable (H : Type*) (aic : AicV2)

/-- the common body of `AppleAicV2MaskInterrupt` and `AppleAicV2UnmaskInterrupt` -/
def appleAicV2Call (c : AicCall) : AicStatus × List (AicAction H) :=
  if c.source ≥ aic.info.maxIrqs.toUInt64 then (.unsupported, [.assertFalse])
  else (.success, (c.writes aic).map .mmioWrite)

def appleAicV2MaskInterrupt (source : UInt64) : AicStatus × List (AicAction H) :=
  appleAicV2Call H aic ⟨source, true⟩

def appleAicV2UnmaskInterrupt (source : UInt64) : AicStatus × List (AicAction H) :=
  appleAicV2Call H aic ⟨source, false⟩

/-- `AllocateZeroPool (sizeof (HARDWARE_INTERRUPT_HANDLER) * NumIrqs)` -/
def HandlerTable.zero : HandlerTable H aic where
  entries := List.replicate aic.info.numIrqs.toNat none
  length_eq := List.length_replicate

end

/-- a call of `RegisterInterruptSource`; `none` is the `NULL` handler -/
structure RegisterCall (H : Type*) where
  source : UInt64
  handler : Option H
deriving DecidableEq, Repr

section
variable {H : Type*} {aic : AicV2}

def HandlerTable.set (table : HandlerTable H aic) (n : ℕ) (h : Option H) : HandlerTable H aic where
  entries := table.entries.set n h
  length_eq := by rw [List.length_set, table.length_eq]

/-- what a call did: the status it returned, the table before and after it, the calls of
`EnableInterruptSource` and `DisableInterruptSource`, and what these did -/
structure Registered (H : Type*) (aic : AicV2) where
  call : RegisterCall H
  status : AicStatus
  before : HandlerTable H aic
  after : HandlerTable H aic
  requests : List AicCall
  actions : List (AicAction H)

/-- `RegisterInterruptSource` -/
def registerInterruptSource (table : HandlerTable H aic) (c : RegisterCall H) :
    Option (Registered H aic) :=
  if c.source ≥ aic.info.maxIrqs.toUInt64 then
    some ⟨c, .unsupported, table, table, [], [.assertFalse]⟩
  else (table.entries[c.source.toNat]?).map fun entry =>
    if c.handler.isNone ∧ entry.isNone then ⟨c, .invalidParameter, table, table, [], []⟩
    else if c.handler.isSome ∧ entry.isSome then ⟨c, .alreadyStarted, table, table, [], []⟩
    else
      let request : AicCall := ⟨c.source, c.handler.isNone⟩
      let result := if c.handler.isNone then appleAicV2MaskInterrupt H aic c.source
        else appleAicV2UnmaskInterrupt H aic c.source
      ⟨c, result.1, table, table.set c.source.toNat c.handler, [request], result.2⟩

/-- a call as a step of a run -/
def registerStep (table : HandlerTable H aic) (c : RegisterCall H) :
    Option (HandlerTable H aic × List (Registered H aic)) :=
  (registerInterruptSource table c).map fun r => (r.after, [r])

/-! ## a sound registration -/

/-- a call that succeeds changes the entry of its source and no other, and asks once for the source
to be enabled, or disabled; a call that fails changes nothing -/
structure Registered.Sound (r : Registered H aic) : Prop where
  success : r.status = .success →
    (∀ n, r.after.entries[n]? = if n = r.call.source.toNat then some r.call.handler
      else r.before.entries[n]?) ∧
    r.before.entries[r.call.source.toNat]? ≠ some r.call.handler ∧
    r.requests = [⟨r.call.source, r.call.handler.isNone⟩] ∧
    AicAction.mmioWrites r.actions
      = (⟨r.call.source, r.call.handler.isNone⟩ : AicCall).writes aic
  error : r.status ≠ .success → r.after = r.before ∧ r.requests = [] ∧
    AicAction.mmioWrites r.actions = []

/-- the source and the handler of a call that succeeded -/
def Registered.stored? (r : Registered H aic) : Option (ℕ × Option H) :=
  if r.status = .success then some (r.call.source.toNat, r.call.handler) else none

/-- the calls stay inside the table, each is sound, and in the end a source has the handler that
the last call that succeeded for it gave, if that gave one -/
def RegistrationSound (H : Type*) (aic : AicV2) (calls : List (RegisterCall H)) : Prop :=
  ∃ table log, runLog registerStep (HandlerTable.zero H aic) calls = some (table, log) ∧
    (∀ r ∈ log, r.Sound) ∧
    ∀ n h, table.entries[n]? = some (some h) ↔ lastWrite Registered.stored? log n = some (some h)

/-- the source lies inside the table, or is turned down -/
def RegisterCall.InTable (aic : AicV2) (c : RegisterCall H) : Prop :=
  c.source.toNat < aic.info.numIrqs.toNat ∨ aic.maxIrqs ≤ c.source.toNat

/-! ## one call -/

theorem set_getElem (table : HandlerTable H aic) (n : ℕ) (h : Option H) (entry : Option H)
    (hentry : table.entries[n]? = some entry) (m : ℕ) :
    (table.set n h).entries[m]? = if m = n then some h else table.entries[m]? := by
  have hlt := (List.getElem?_eq_some_iff.mp hentry).1
  rw [HandlerTable.set, List.getElem?_set]
  by_cases hm : m = n
  · subst hm
    simp [hlt]
  · rw [if_neg (Ne.symm hm), if_neg hm]

theorem mmioWrites_map (ws : List MmioWrite) :
    AicAction.mmioWrites (ws.map (AicAction.mmioWrite : MmioWrite → AicAction H)) = ws := by
  rw [AicAction.mmioWrites, List.filterMap_map]
  exact List.filterMap_some

theorem ge_maxIrqs_iff (source : UInt64) :
    source ≥ aic.info.maxIrqs.toUInt64 ↔ aic.maxIrqs ≤ source.toNat := by
  rw [ge_iff_le, UInt64.le_iff_toNat_le, UInt32.toNat_toUInt64]
  rfl

theorem registerInterruptSource_unsupported (table : HandlerTable H aic) (c : RegisterCall H)
    (hs : aic.maxIrqs ≤ c.source.toNat) :
    registerInterruptSource table c
      = some ⟨c, .unsupported, table, table, [], [.assertFalse]⟩ := by
  rw [registerInterruptSource, if_pos ((ge_maxIrqs_iff c.source).mpr hs)]

/-- a call for a source below `MaxIrqs`, by its entry -/
theorem registerInterruptSource_lt (table : HandlerTable H aic) (c : RegisterCall H)
    (hs : ¬ aic.maxIrqs ≤ c.source.toNat) :
    registerInterruptSource table c = (table.entries[c.source.toNat]?).map fun entry =>
      if c.handler.isNone ∧ entry.isNone then ⟨c, .invalidParameter, table, table, [], []⟩
      else if c.handler.isSome ∧ entry.isSome then ⟨c, .alreadyStarted, table, table, [], []⟩
      else ⟨c, .success, table, table.set c.source.toNat c.handler,
        [⟨c.source, c.handler.isNone⟩],
        ((⟨c.source, c.handler.isNone⟩ : AicCall).writes aic).map .mmioWrite⟩ := by
  have hge : ¬ c.source ≥ aic.info.maxIrqs.toUInt64 :=
    fun h => hs ((ge_maxIrqs_iff c.source).mp h)
  rw [registerInterruptSource, if_neg hge]
  simp only [appleAicV2MaskInterrupt, appleAicV2UnmaskInterrupt, appleAicV2Call, if_neg hge]
  cases c.handler <;> simp

/-- a call leaves the table iff its source is below `MaxIrqs` and has no entry -/
theorem registerInterruptSource_inside (table : HandlerTable H aic) (c : RegisterCall H) :
    (∃ r, registerInterruptSource table c = some r) ↔ c.InTable aic := by
  unfold RegisterCall.InTable
  by_cases hs : aic.maxIrqs ≤ c.source.toNat
  · rw [registerInterruptSource_unsupported table c hs]
    simp [hs]
  · rw [registerInterruptSource_lt table c hs, ← table.length_eq]
    simp only [Option.map_eq_some_iff, hs, or_false]
    constructor
    · intro h
      obtain ⟨_, _, hentry, _⟩ := h
      exact (List.getElem?_eq_some_iff.mp hentry).1
    · intro h
      exact ⟨_, _, List.getElem?_eq_getElem h, rfl⟩

/-- what a call that stays inside the table does: it fails and changes nothing, or there is one of
the entry and the handler and not the other, and it stores the handler -/
theorem registerInterruptSource_cases (table : HandlerTable H aic) (c : RegisterCall H)
    (r : Registered H aic) (h : registerInterruptSource table c = some r) :
    r.call = c ∧ r.before = table ∧
      ((r.status ≠ .success ∧ r.after = table ∧ r.requests = [] ∧
          AicAction.mmioWrites r.actions = []) ∨
        (r.status = .success ∧ r.after = table.set c.source.toNat c.handler ∧
          r.requests = [⟨c.source, c.handler.isNone⟩] ∧
          AicAction.mmioWrites r.actions
            = (⟨c.source, c.handler.isNone⟩ : AicCall).writes aic ∧
          ∃ entry, table.entries[c.source.toNat]? = some entry ∧ entry ≠ c.handler)) := by
  by_cases hs : aic.maxIrqs ≤ c.source.toNat
  · rw [registerInterruptSource_unsupported table c hs] at h
    cases h
    exact ⟨rfl, rfl, .inl ⟨nofun, rfl, rfl, rfl⟩⟩
  · rw [registerInterruptSource_lt table c hs] at h
    obtain ⟨entry, hentry, hr⟩ := Option.map_eq_some_iff.mp h
    by_cases h1 : c.handler.isNone ∧ entry.isNone
    · rw [if_pos h1] at hr
      subst hr
      exact ⟨rfl, rfl, .inl ⟨nofun, rfl, rfl, rfl⟩⟩
    · rw [if_neg h1] at hr
      by_cases h2 : c.handler.isSome ∧ entry.isSome
      · rw [if_pos h2] at hr
        subst hr
        exact ⟨rfl, rfl, .inl ⟨nofun, rfl, rfl, rfl⟩⟩
      · rw [if_neg h2] at hr
        subst hr
        refine ⟨rfl, rfl, .inr ⟨rfl, rfl, rfl, mmioWrites_map _, entry, hentry, ?_⟩⟩
        intro hsame
        subst hsame
        cases hh : c.handler with
        | none => exact h1 (by simp [hh])
        | some _ => exact h2 (by simp [hh])

/-- **one call** is sound if it stays inside the table -/
theorem registerInterruptSource_sound (table : HandlerTable H aic) (c : RegisterCall H)
    (r : Registered H aic) (h : registerInterruptSource table c = some r) : r.Sound := by
  obtain ⟨hc, hb, hcases⟩ := registerInterruptSource_cases table c r h
  rw [← hb, ← hc] at hcases
  cases hcases with
  | inl hfail => exact ⟨fun hs => absurd hs hfail.1, fun _ => hfail.2⟩
  | inr hstore =>
    obtain ⟨hs, hafter, hreq, hacts, entry, hentry, hne⟩ := hstore
    refine ⟨fun _ => ⟨?_, ?_, hreq, hacts⟩, fun hn => absurd hs hn⟩
    · rw [hafter]
      exact set_getElem r.before _ _ entry hentry
    · rw [hentry]
      exact fun he => hne (Option.some.inj he)

/-! ## any calls -/

/-- what a call stores in the table -/
def HandlerTable.store (table : HandlerTable H aic) (r : Registered H aic) : HandlerTable H aic :=
  match r.stored? with
  | some p => table.set p.1 p.2
  | none => table

theorem registerStep_store (table : HandlerTable H aic) (c : RegisterCall H)
    (table' : HandlerTable H aic) (log : List (Registered H aic))
    (h : registerStep table c = some (table', log)) :
    table' = log.foldl HandlerTable.store table := by
  obtain ⟨r, hr, he⟩ := Option.map_eq_some_iff.mp h
  obtain ⟨hc, hb, hcases⟩ := registerInterruptSource_cases table c r hr
  cases he
  rw [List.foldl_cons, List.foldl_nil, HandlerTable.store, Registered.stored?]
  cases hcases with
  | inl hfail =>
    rw [if_neg hfail.1]
    exact hfail.2.1
  | inr hstore =>
    rw [if_pos hstore.1, hc]
    exact hstore.2.1

theorem registerStep_sound (table : HandlerTable H aic) (c : RegisterCall H) :
    (∃ table' log, registerStep table c = some (table', log) ∧ ∀ r ∈ log, r.Sound) ↔
      c.InTable aic := by
  rw [← registerInterruptSource_inside table c]
  constructor
  · intro h
    obtain ⟨_, _, h, _⟩ := h
    obtain ⟨r, hr, _⟩ := Option.map_eq_some_iff.mp h
    exact ⟨r, hr⟩
  · intro h
    obtain ⟨r, hr⟩ := h
    refine ⟨r.after, [r], by rw [registerStep, hr]; rfl, ?_⟩
    intro r' hr'
    obtain rfl := List.mem_singleton.mp hr'
    exact registerInterruptSource_sound table c r' hr

/-- the handler of a source -/
def HandlerTable.handler (table : HandlerTable H aic) (n : ℕ) : Option H := table.entries[n]?.join

theorem handler_eq_some (table : HandlerTable H aic) (n : ℕ) (h : H) :
    table.handler n = some h ↔ table.entries[n]? = some (some h) := by
  rw [HandlerTable.handler, Option.join_eq_some_iff]

theorem handler_zero (n : ℕ) : (HandlerTable.zero H aic).handler n = none := by
  rw [HandlerTable.handler, HandlerTable.zero, List.getElem?_replicate]
  split <;> rfl

theorem handler_store (table : HandlerTable H aic) (r : Registered H aic) (hr : r.Sound) (n : ℕ) :
    (table.store r).handler n
      = (r.stored?.bind fun p => if p.1 = n then some p.2 else none).getD (table.handler n) := by
  rw [HandlerTable.store, Registered.stored?]
  by_cases hs : r.status = .success
  · have hafter := (hr.success hs).1 r.call.source.toNat
    rw [if_pos rfl] at hafter
    have hlt := (List.getElem?_eq_some_iff.mp hafter).1
    rw [r.after.length_eq, ← table.length_eq] at hlt
    rw [if_pos hs, Option.bind_some, HandlerTable.handler,
      set_getElem table _ _ _ (List.getElem?_eq_getElem hlt)]
    by_cases hn : n = r.call.source.toNat
    · rw [if_pos hn, if_pos hn.symm]
      rfl
    · rw [if_neg hn, if_neg (Ne.symm hn)]
      rfl
  · rw [if_neg hs]
    rfl

/-- in the end the last call that stored something for a source tells its handler -/
theorem handler_of_log (calls : List (RegisterCall H)) (table : HandlerTable H aic)
    (log : List (Registered H aic))
    (hrun : runLog registerStep (HandlerTable.zero H aic) calls = some (table, log))
    (hsound : ∀ r ∈ log, r.Sound) (n : ℕ) :
    table.handler n = (lastWrite Registered.stored? log n).join := by
  rw [runLog_replay registerStep HandlerTable.store registerStep_store _ table calls log hrun,
    run_eq_lastWrite Registered.stored? HandlerTable.store HandlerTable.handler log
      (fun t r hr => handler_store t r (hsound r hr)) _ n, handler_zero]
  cases lastWrite Registered.stored? log n <;> rfl

end

/-- **the registration is a sound state machine** exactly for the calls whose source lies inside
the table or is turned down: a source from `NumIrqs` up to `MaxIrqs` passes the check and has no
entry -/
theorem registration_sound_iff (H : Type*) (aic : AicV2) (calls : List (RegisterCall H)) :
    RegistrationSound H aic calls ↔ ∀ c ∈ calls, c.InTable aic := by
  have hall := runLog_all_iff (@registerStep H aic) Registered.Sound (fun _ => ()) (fun _ _ => ())
    (fun _ c => c.InTable aic) (fun _ _ _ _ _ => rfl) registerStep_sound (HandlerTable.zero H aic)
    calls
  rw [← runOk_forall (fun _ _ => ()) (fun c : RegisterCall H => c.InTable aic) (), ← hall]
  constructor
  · intro h
    obtain ⟨table, log, hrun, hsound, _⟩ := h
    exact ⟨table, log, hrun, hsound⟩
  · intro h
    obtain ⟨table, log, hrun, hsound⟩ := h
    refine ⟨table, log, hrun, hsound, ?_⟩
    intro n h
    rw [← handler_eq_some, handler_of_log calls table log hrun hsound n, Option.join_eq_some_iff]

/-- the example has 896 entries and takes sources below 1024 -/
theorem source900_outside :
    exampleAic.info.numIrqs = 896 ∧ exampleAic.maxIrqs = 1024 ∧
    registerInterruptSource (HandlerTable.zero ℕ exampleAic) ⟨900, some 7⟩ = none ∧
    ¬ RegistrationSound ℕ exampleAic [⟨900, some 7⟩] := by
  have hnone : registerInterruptSource (HandlerTable.zero ℕ exampleAic) ⟨900, some 7⟩ = none := by
    decide +kernel
  refine ⟨by decide +kernel, by decide +kernel, hnone, ?_⟩
  intro h
  obtain ⟨table, log, hrun, _⟩ := h
  rw [runLog, registerStep, hnone] at hrun
  cases hrun

end AppleSilicon
