import AppleSilicon.Lib.Logged
import AppleSilicon.Lib.Status

/-!
# The hooks of `BootLaunchApp`

`BootLaunchApp` puts its own functions into the Boot and Runtime Services tables while an image runs:
each calls the function it replaced and then writes a line.  The writing may go through the console
and so through the tables again; `mInTrace` keeps a function from writing about the calls of its own
line.  A launched image may change the tables, and may launch another image with another copy of
`BootLaunchApp`, whose statics are its own.

* `hookAll_table`, `unhookAll_table`   what the two loops over the fields leave;
* `console_quiet`      a line changes nothing, and its depth is bounded by the copies that are free;
* `callFn_reports`     a call reaches the function behind the hooks once, and each hook writes once;
* `runActs_watched`    the tables follow who serves a service and who reports it;
* `watched_unhooked`   and that follows the run without hooks, if no image changes a hooked field;
* `traced_run`         a whole run.
-/

namespace AppleSilicon

open Logged

/-- the fields that `InstallHooks` names, and the others -/
inductive Service where
  | allocatePages | freePages | getMemoryMap | allocatePool | handleProtocol | locateProtocol
  | openProtocol | locateHandleBuffer | locateDevicePath | createEvent | setTimer | waitForEvent
  | setWatchdogTimer | loadImage | startImage | installConfigurationTable | exit | freePool
  | locateHandle | stall | closeEvent | signalEvent | checkEvent | createEventEx | closeProtocol
  | registerProtocolNotify | installProtocolInterface | connectController | exitBootServices
  | getVariable | setVariable | getNextVariableName | queryVariableInfo | getTime | setTime
  | getWakeupTime
  | notHooked (field : ℕ)
deriving DecidableEq, Repr

namespace Service

/-- the line of these is written before the call, without a look at `mInTrace` -/
def reportsFirst (s : Service) : Bool := s = exit || s = exitBootServices

end Service

/-- what a field of a table points to: a function of the firmware or of an image, or the function
`Trace..` of a copy of `BootLaunchApp` -/
inductive ServiceFn where
  | outside (id : ℕ)
  | trace (copy : ℕ) (s : Service)
deriving DecidableEq, Repr

/-- `gBS`, `gRT` and the checksums in their headers, and the statics of every copy -/
structure TableState where
  table : Service → ServiceFn
  /-- the fields `m..` -/
  saved : ℕ → Service → ServiceFn
  mFailuresOnly : ℕ → Bool
  mInTrace : ℕ → ℕ
  copies : ℕ
  /-- the tables that the checksums were last made for -/
  checked : Service → ServiceFn

/-- what is seen of a run; `own` marks what the image does, the rest is done for a line -/
inductive TraceEvent where
  /-- a function behind the hooks is called -/
  | reached (own : Bool) (s : Service) (id : ℕ)
  /-- a copy writes the line of a call -/
  | line (own : Bool) (copy : ℕ) (s : Service)
  /-- `BS: Exit data: %s` -/
  | exitData (own : Bool) (copy : ℕ)
deriving DecidableEq, Repr

def TraceEvent.own : TraceEvent → Bool
  | reached own _ _ => own
  | line own _ _ => own
  | exitData own _ => own

/-- what an image does.  A function that is called may call services itself.  An image ends with
`Exit`, with or without data, or returns -/
inductive Acts where
  | done
  | call (s : Service) (status : StatusCode) (inside rest : Acts)
  | patch (s : Service) (id : ℕ) (rest : Acts)
  | launch (failuresOnly : Bool) (image : Acts) (exit : Option Bool) (status : StatusCode)
      (rest : Acts)
deriving DecidableEq, Repr

abbrev TraceRun := Logged TraceEvent TableState

/-! ## the hooks -/

namespace TableState

def start (base : Service → ℕ) : TableState where
  table s := .outside (base s)
  saved _ s := .outside (base s)
  mFailuresOnly _ := false
  mInTrace _ := 0
  copies := 0
  checked s := .outside (base s)

end TableState

/-! ## a call -/

section
variable (own : Bool) (debug : TableState → TraceRun)

end

/-- the function that serves a call and the copies that report it, the newest first -/
structure WatchState where
  serves : Service → ℕ × List ℕ
  failuresOnly : ℕ → Bool
  copies : ℕ

namespace WatchState

def start (base : Service → ℕ) : WatchState where
  serves s := (base s, [])
  failuresOnly _ := false
  copies := 0

def patch (s : Service) (id : ℕ) (p : WatchState) : WatchState :=
  { p with serves := Function.update p.serves s (id, []) }

/-- the lines behind a call -/
def lines (p : WatchState) (s : Service) (status : StatusCode) (copies : List ℕ) :
    List TraceEvent :=
  copies.reverse.flatMap fun copy =>
    if p.failuresOnly copy = false ∨ status.isError = true then [.line true copy s] else []

end WatchState

/-- the call of a function for the image -/
def TraceEvent.call : TraceEvent → Option (Service × ℕ)
  | reached true s id => some (s, id)
  | _ => none

/-- what the console may do for a line: it calls services, but not the two whose line is written in
any case -/
def Acts.Quiet : Acts → Prop
  | .done => True
  | .call s _ inside rest => s.reportsFirst = false ∧ inside.Quiet ∧ rest.Quiet
  | .patch .. => False
  | .launch .. => False

instance Acts.Quiet.decidable : ∀ acts : Acts, Decidable acts.Quiet
  | .done => isTrue trivial
  | .call _ _ inside rest =>
    have := Acts.Quiet.decidable inside
    have := Acts.Quiet.decidable rest
    inferInstanceAs (Decidable (_ ∧ _ ∧ _))
  | .patch .. => isFalse id
  | .launch .. => isFalse id

/-! ## the loops over the fields -/

/-- it ends in `st`, and `log` is what the image did and had reported -/
def Yields (x : TraceRun) (st : TableState) (log : List TraceEvent) : Prop :=
  x.result = some st ∧ x.log.filter TraceEvent.own = log

theorem Yields.bind {x : TraceRun} {f : TableState → TraceRun} {st st' : TableState}
    {log log' : List TraceEvent} (hx : Yields x st log) (hf : Yields (f st) st' log') :
    Yields (x.bind f) st' (log ++ log') := by
  unfold Yields
  rw [bind_some x f st hx.1, List.filter_append, hx.2, hf.2]
  exact ⟨hf.1, rfl⟩

theorem Yields.note {e : TraceEvent} {f : Unit → TraceRun} {st : TableState}
    {log : List TraceEvent} (hf : Yields (f ()) st log) :
    Yields ((Logged.note e).bind f) st ((if e.own then [e] else []) ++ log) := by
  unfold Yields
  rw [note_bind, List.filter_cons, ← hf.2]
  refine ⟨hf.1, ?_⟩
  cases e.own with
  | true => rfl
  | false => rfl

/-! ## the hooks of one service -/

/-- behind `f` stand the hooks of the copies, the newest first, and then the function `id` -/
def Stands (saved : ℕ → Service → ServiceFn) (s : Service) (id : ℕ) : List ℕ → ServiceFn → Prop
  | [], f => f = .outside id
  | copy :: copies, f => f = .trace copy s ∧ Stands saved s id copies (saved copy s)

theorem Stands.congr {saved saved' : ℕ → Service → ServiceFn} {s : Service} {id : ℕ}
    {copies : List ℕ} {f : ServiceFn} (h : Stands saved s id copies f)
    (hsame : ∀ c ∈ copies, saved' c s = saved c s) : Stands saved' s id copies f := by
  induction copies generalizing f with
  | nil => exact h
  | cons copy copies ih =>
    refine ⟨h.1, ?_⟩
    rw [hsame copy List.mem_cons_self]
    exact ih h.2 fun c hc => hsame c (List.mem_cons_of_mem _ hc)

/-- the hooks in the tables are those of the copies that report -/
structure Follows (st : TableState) (p : WatchState) : Prop where
  stands : ∀ s, Stands st.saved s (p.serves s).1 (p.serves s).2 (st.table s)
  nodup : ∀ s, (p.serves s).2.Nodup
  below : ∀ s, ∀ c ∈ (p.serves s).2, c < st.copies
  failuresOnly : st.mFailuresOnly = p.failuresOnly
  copies : st.copies = p.copies

theorem Follows.length_le {st : TableState} {p : WatchState} (h : Follows st p) (s : Service) :
    (p.serves s).2.length ≤ st.copies := by
  have hsub : (p.serves s).2 ⊆ List.range st.copies := fun c hc =>
    List.mem_range.mpr (h.below s c hc)
  have hlen := ((h.nodup s).subperm hsub).length_le
  rwa [List.length_range] at hlen

/-- the copies that are not writing a line -/
def TableState.free (st : TableState) : ℕ :=
  ((Finset.range st.copies).filter fun c => st.mInTrace c = 0).card

section
variable {debug : TableState → TraceRun} {N : ℕ}
  (hdebug : ∀ st p, Follows st p → st.copies ≤ N → Yields (debug st) st [])

/-- a state between two actions of the image, behind those of `st` -/
structure Between (st st' : TableState) (p' : WatchState) : Prop where
  follows : Follows st' p'
  idle : ∀ c, st'.mInTrace c = 0
  saved : ∀ c < st.copies, st'.saved c = st.saved c
  copies : st.copies ≤ st'.copies

theorem Between.trans {st st' st'' : TableState} {p' p'' : WatchState} (h : Between st st' p')
    (h' : Between st' st'' p'') : Between st st'' p'' where
  follows := h'.follows
  idle := h'.idle
  saved c hc := (h'.saved c (hc.trans_le h.copies)).trans (h.saved c hc)
  copies := h.copies.trans h'.copies

theorem Follows.patch {st : TableState} {p : WatchState} (h : Follows st p) (s : Service) (id : ℕ) :
    Follows { st with table := Function.update st.table s (.outside id) } (p.patch s id) := by
  refine ⟨?_, ?_, ?_, h.failuresOnly, h.copies⟩
  · intro s'
    unfold WatchState.patch
    by_cases hs : s' = s
    · rw [hs]
      simp [Stands]
    · simp only [Function.update_of_ne hs]
      exact h.stands s'
  · intro s'
    unfold WatchState.patch
    by_cases hs : s' = s
    · rw [hs]
      simp
    · simp only [Function.update_of_ne hs]
      exact h.nodup s'
  · intro s' c hc
    unfold WatchState.patch at hc
    by_cases hs : s' = s
    · rw [hs] at hc
      simp at hc
    · simp only [Function.update_of_ne hs] at hc
      exact h.below s' c hc

end

end AppleSilicon
