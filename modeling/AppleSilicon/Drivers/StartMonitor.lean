import AppleSilicon.Drivers.WindowsAutoBoot
import AppleSilicon.Lib.Monitor

/-!
# What the starts of Windows look like

`StartsRight` says what is right about the log of the callbacks.  The monitor is `mWindowsStarted`
as it is meant: an attempt is made of one handle at a time, a failure makes way for the next one, and
a start that returns without an error is the last.

* `busy_attempted`         when the flag is to be set;
* `loading_lastAttempt`    a start is of the handle that was checked last;
* `running_returns`        a start returns before the next one;
* `startsRight_of_monitor` a log that the monitor allows is right.
-/

namespace AppleSilicon

/-! ## what the logs look like -/

namespace BootEvent

/-- a callback that finds `mWindowsStarted` set, or no handle -/
def passes : BootEvent → Bool
  | skipped _ => true
  | leaves => true
  | exhausted => true
  | _ => false

@[simp] theorem passes_skipped (handle : EfiHandle) : (skipped handle).passes = true := rfl
@[simp] theorem passes_leaves : leaves.passes = true := rfl
@[simp] theorem passes_exhausted : exhausted.passes = true := rfl

def attempts : BootEvent → Bool
  | attempt _ _ _ => true
  | _ => false

/-- an attempt ends with an error -/
def fails : BootEvent → Bool
  | failed _ _ => true
  | startReturned _ status => status.isError
  | _ => false

theorem passes_attempts (e : BootEvent) (h : e.passes = true) : e.attempts = false := by
  cases e <;> first | rfl | cases h

theorem passes_fails (e : BootEvent) (h : e.passes = true) : e.fails = false := by
  cases e <;> first | rfl | cases h

end BootEvent

/-- an attempt has not failed -/
def Attempted (log : List BootEvent) : Prop :=
  SetLast (fun e => e.attempts = true) (fun e => e.fails = true) log

/-- Windows is started at most once at a time and only once, and a failure ends nothing but the
attempt -/
structure StartsRight (log : List BootEvent) : Prop where
  /-- between two starts the first one returns, with an error -/
  serial : ∀ a handle image b handle' image' c,
    log = a ++ BootEvent.startImage handle image ::
        (b ++ BootEvent.startImage handle' image' :: c) →
      ∃ status, BootEvent.startReturned handle status ∈ b ∧ status.isError = true
  /-- no start behind one that returned without an error -/
  once : ∀ a handle status b handle' image' c,
    log = a ++ BootEvent.startReturned handle status ::
        (b ++ BootEvent.startImage handle' image' :: c) →
      status.isError = true
  /-- the load options are cleared, and the last attempt is of the handle, with an internal medium
  and a volume that opened the loader -/
  eligible : ∀ a handle image b, log = a ++ BootEvent.startImage handle image :: b →
    image.cleared = true ∧
      ∃ a₁ media opened a₂, a = a₁ ++ BootEvent.attempt handle media opened :: a₂ ∧
        media.internal = true ∧ opened.isError = false ∧ ∀ e ∈ a₂, e.attempts = false
  /-- a handle is skipped, or the handles that are left, only when an attempt has not failed -/
  skips : ∀ a e b, log = a ++ e :: b →
    (∃ handle, e = BootEvent.skipped handle) ∨ e = BootEvent.leaves → Attempted a
  /-- a handle that is checked is turned down for a reason, or attempted -/
  checks : ∀ a handle e b, log = a ++ BootEvent.checked handle :: e :: b →
    (∃ refusal, e = BootEvent.rejected handle refusal ∧ refusal.right = true) ∨
      ∃ media opened, e = BootEvent.attempt handle media opened
  /-- an attempt comes to the start, but for an error before it -/
  attempts : ∀ a handle media opened b e c,
    log = a ++ BootEvent.attempt handle media opened :: (b ++ e :: c) →
      (∀ x ∈ b, x.passes = true) →
        e.passes = true ∨ (∃ image, e = BootEvent.startImage handle image) ∨
          ∃ status, e = BootEvent.failed handle status ∧ status.isError = true
  /-- after a failure the callback checks its next handle, if it has one -/
  goesOn : ∀ a e e' b, log = a ++ e :: e' :: b → e.fails = true →
    (∃ handle, e' = BootEvent.checked handle) ∨ e' = BootEvent.exhausted

/-! ## the monitor -/

/-- what `mWindowsStarted` stands for -/
inductive BootPhase where
  | idle
  | checking (handle : EfiHandle)
  | loading (handle : EfiHandle)
  | running (handle : EfiHandle)
  | done
deriving DecidableEq, Repr

namespace BootPhase

/-- `mWindowsStarted` is set -/
def busy : BootPhase → Bool
  | idle => false
  | checking _ => false
  | loading _ => true
  | running _ => true
  | done => true

def next : BootPhase → BootEvent → Option BootPhase
  | idle, event =>
    match event with
    | .checked handle => some (checking handle)
    | .exhausted => some idle
    | _ => none
  | checking handle, event =>
    match event with
    | .rejected handle' refusal =>
      if handle' = handle ∧ refusal.right = true then some idle else none
    | .attempt handle' media opened =>
      if handle' = handle ∧ media.internal = true ∧ opened.isError = false then
        some (loading handle)
      else none
    | _ => none
  | loading handle, event =>
    match event with
    | .failed handle' status =>
      if handle' = handle ∧ status.isError = true then some idle else none
    | .startImage handle' image =>
      if handle' = handle ∧ image.cleared = true then some (running handle) else none
    | event => if event.passes then some (loading handle) else none
  | running handle, event =>
    match event with
    | .startReturned handle' status =>
      if handle' = handle then some (if status.isError then idle else done) else none
    | event => if event.passes then some (running handle) else none
  | done, event => if event.passes then some done else none

theorem next_rejected (handle : EfiHandle) (refusal : Refusal) (h : refusal.right = true) :
    (checking handle).next (.rejected handle refusal) = some idle :=
  if_pos ⟨rfl, h⟩

theorem next_attempt (handle : EfiHandle) (media : Media) (opened : StatusCode)
    (hmedia : media.internal = true) (hopened : opened.isError = false) :
    (checking handle).next (.attempt handle media opened) = some (loading handle) :=
  if_pos ⟨rfl, hmedia, hopened⟩

theorem next_failed (handle : EfiHandle) (status : StatusCode) (h : status.isError = true) :
    (loading handle).next (.failed handle status) = some idle :=
  if_pos ⟨rfl, h⟩

theorem next_startImage (handle : EfiHandle) (image : LoadedImage) (h : image.cleared = true) :
    (loading handle).next (.startImage handle image) = some (running handle) :=
  if_pos ⟨rfl, h⟩

theorem next_startReturned (handle : EfiHandle) (status : StatusCode) :
    (running handle).next (.startReturned handle status) =
      some (if status.isError then idle else done) :=
  if_pos rfl

/-- an entry of a callback that runs inside another, or after Windows was started -/
theorem next_passes (phase : BootPhase) (event : BootEvent) (hphase : phase.busy = true)
    (hevent : event.passes = true) : phase.next event = some phase := by
  cases phase with
  | idle => cases hphase
  | checking handle => cases hphase
  | loading handle => cases event <;> first | rfl | cases hevent
  | running handle => cases event <;> first | rfl | cases hevent
  | done => cases event <;> first | rfl | cases hevent

/-! what each phase allows -/

theorem idle_next (event : BootEvent) (phase : BootPhase) (h : idle.next event = some phase) :
    (∃ handle, event = .checked handle ∧ phase = checking handle) ∨
      event = .exhausted ∧ phase = idle := by
  cases event with
  | checked handle =>
    cases h
    exact Or.inl ⟨handle, rfl, rfl⟩
  | exhausted =>
    cases h
    exact Or.inr ⟨rfl, rfl⟩
  | _ => cases h

theorem checking_next (handle : EfiHandle) (event : BootEvent) (phase : BootPhase)
    (h : (checking handle).next event = some phase) :
    (∃ refusal, event = .rejected handle refusal ∧ refusal.right = true ∧ phase = idle) ∨
      ∃ media opened, event = .attempt handle media opened ∧ media.internal = true ∧
        opened.isError = false ∧ phase = loading handle := by
  cases event with
  | rejected handle' refusal =>
    obtain ⟨⟨rfl, hright⟩, hphase⟩ := Option.ite_none_right_eq_some.mp h
    cases hphase
    exact Or.inl ⟨refusal, rfl, hright, rfl⟩
  | attempt handle' media opened =>
    obtain ⟨⟨rfl, hmedia, hopened⟩, hphase⟩ := Option.ite_none_right_eq_some.mp h
    cases hphase
    exact Or.inr ⟨media, opened, rfl, hmedia, hopened, rfl⟩
  | _ => cases h

theorem loading_next (handle : EfiHandle) (event : BootEvent) (phase : BootPhase)
    (h : (loading handle).next event = some phase) :
    (event.passes = true ∧ phase = loading handle) ∨
      (∃ status, event = .failed handle status ∧ status.isError = true ∧ phase = idle) ∨
        ∃ image, event = .startImage handle image ∧ image.cleared = true ∧
          phase = running handle := by
  cases event with
  | failed handle' status =>
    obtain ⟨⟨rfl, herror⟩, hphase⟩ := Option.ite_none_right_eq_some.mp h
    cases hphase
    exact Or.inr (Or.inl ⟨status, rfl, herror, rfl⟩)
  | startImage handle' image =>
    obtain ⟨⟨rfl, hcleared⟩, hphase⟩ := Option.ite_none_right_eq_some.mp h
    cases hphase
    exact Or.inr (Or.inr ⟨image, rfl, hcleared, rfl⟩)
  | skipped handle' =>
    cases h
    exact Or.inl ⟨rfl, rfl⟩
  | leaves =>
    cases h
    exact Or.inl ⟨rfl, rfl⟩
  | exhausted =>
    cases h
    exact Or.inl ⟨rfl, rfl⟩
  | _ => cases h

theorem running_next (handle : EfiHandle) (event : BootEvent) (phase : BootPhase)
    (h : (running handle).next event = some phase) :
    (event.passes = true ∧ phase = running handle) ∨
      ∃ status, event = .startReturned handle status ∧
        phase = if status.isError then idle else done := by
  cases event with
  | startReturned handle' status =>
    obtain ⟨rfl, hphase⟩ := Option.ite_none_right_eq_some.mp h
    cases hphase
    exact Or.inr ⟨status, rfl, rfl⟩
  | skipped handle' =>
    cases h
    exact Or.inl ⟨rfl, rfl⟩
  | leaves =>
    cases h
    exact Or.inl ⟨rfl, rfl⟩
  | exhausted =>
    cases h
    exact Or.inl ⟨rfl, rfl⟩
  | _ => cases h

theorem done_next (event : BootEvent) (phase : BootPhase) (h : done.next event = some phase) :
    event.passes = true ∧ phase = done := by
  cases event with
  | skipped handle' =>
    cases h
    exact ⟨rfl, rfl⟩
  | leaves =>
    cases h
    exact ⟨rfl, rfl⟩
  | exhausted =>
    cases h
    exact ⟨rfl, rfl⟩
  | _ => cases h

end BootPhase

/-! ## what the monitor allows -/

/-- an entry that leaves an attempt in progress, or Windows started -/
theorem next_busy (phase phase' : BootPhase) (e : BootEvent) (h : phase.next e = some phase')
    (hbusy : phase'.busy = true) : e.attempts = true ∨ phase.busy = true ∧ e.fails = false := by
  cases phase with
  | idle =>
    obtain ⟨handle, rfl, rfl⟩ | ⟨rfl, rfl⟩ := BootPhase.idle_next e phase' h
    · cases hbusy
    · cases hbusy
  | checking handle =>
    obtain ⟨refusal, rfl, _, rfl⟩ | ⟨media, opened, rfl, _⟩ :=
      BootPhase.checking_next handle e phase' h
    · cases hbusy
    · exact Or.inl rfl
  | loading handle =>
    obtain ⟨hpasses, rfl⟩ | ⟨status, rfl, _, rfl⟩ | ⟨image, rfl, _⟩ :=
      BootPhase.loading_next handle e phase' h
    · exact Or.inr ⟨rfl, BootEvent.passes_fails e hpasses⟩
    · cases hbusy
    · exact Or.inr ⟨rfl, rfl⟩
  | running handle =>
    obtain ⟨hpasses, rfl⟩ | ⟨status, rfl, rfl⟩ := BootPhase.running_next handle e phase' h
    · exact Or.inr ⟨rfl, BootEvent.passes_fails e hpasses⟩
    · split_ifs at hbusy with herror
      · cases hbusy
      · refine Or.inr ⟨rfl, ?_⟩
        show status.isError = false
        exact Bool.eq_false_iff.mpr herror
  | done =>
    obtain ⟨hpasses, _⟩ := BootPhase.done_next e phase' h
    exact Or.inr ⟨rfl, BootEvent.passes_fails e hpasses⟩

/-- **`mWindowsStarted` is set** only when an attempt has not failed -/
theorem busy_attempted (phase : BootPhase) (log : List BootEvent)
    (h : monitor BootPhase.next .idle log = some phase) (hbusy : phase.busy = true) :
    Attempted log := by
  refine monitor_invariant BootPhase.next (fun q past => q.busy = true → Attempted past) ?_ .idle
    phase [] log ?_ h hbusy
  · intro q past e q' hinv hnext hq'
    obtain hattempts | ⟨hq, hfails⟩ := next_busy q q' e hnext hq'
    · refine ⟨past, e, [], rfl, hattempts, ?_⟩
      intro y hy
      cases hy
    · refine (hinv hq).append [e] ?_
      intro y hy
      rw [List.mem_singleton.mp hy, hfails]
      exact Bool.false_ne_true
  · intro hidle
    cases hidle

/-- the last attempt is of the handle, and it was checked -/
def LastAttempt (log : List BootEvent) (handle : EfiHandle) : Prop :=
  ∃ a media opened b, log = a ++ BootEvent.attempt handle media opened :: b ∧
    media.internal = true ∧ opened.isError = false ∧ ∀ e ∈ b, e.attempts = false

theorem loading_lastAttempt (handle : EfiHandle) (log : List BootEvent)
    (h : monitor BootPhase.next .idle log = some (.loading handle)) : LastAttempt log handle := by
  refine monitor_invariant BootPhase.next
    (fun q past => ∀ handle, q = .loading handle → LastAttempt past handle) ?_ .idle
    (.loading handle) [] log ?_ h handle rfl
  · intro q past e q' hinv hnext handle' hq'
    rw [hq'] at hnext
    cases q with
    | idle =>
      obtain ⟨_, _, hphase⟩ | ⟨_, hphase⟩ := BootPhase.idle_next e _ hnext
      · cases hphase
      · cases hphase
    | checking handle =>
      obtain ⟨_, _, _, hphase⟩ | ⟨media, opened, rfl, hmedia, hopened, hphase⟩ :=
        BootPhase.checking_next handle e _ hnext
      · cases hphase
      · cases hphase
        refine ⟨past, media, opened, [], rfl, hmedia, hopened, ?_⟩
        intro e he
        cases he
    | loading handle =>
      obtain ⟨hpasses, hphase⟩ | ⟨_, _, _, hphase⟩ | ⟨_, _, _, hphase⟩ :=
        BootPhase.loading_next handle e _ hnext
      · cases hphase
        obtain ⟨a, media, opened, b, rfl, hmedia, hopened, hb⟩ := hinv handle' rfl
        refine ⟨a, media, opened, b ++ [e], by simp, hmedia, hopened, ?_⟩
        intro x hx
        cases List.mem_append.mp hx with
        | inl hx => exact hb x hx
        | inr hx =>
          rw [List.mem_singleton.mp hx]
          exact BootEvent.passes_attempts e hpasses
      · cases hphase
      · cases hphase
    | running handle =>
      obtain ⟨_, hphase⟩ | ⟨status, _, hphase⟩ := BootPhase.running_next handle e _ hnext
      · cases hphase
      · split_ifs at hphase
    | done =>
      obtain ⟨_, hphase⟩ := BootPhase.done_next e _ hnext
      cases hphase
  · intro handle hidle
    cases hidle

/-- a start is allowed only once its handle is loading -/
theorem startImage_loading (phase phase' : BootPhase) (handle : EfiHandle) (image : LoadedImage)
    (h : phase.next (.startImage handle image) = some phase') :
    phase = .loading handle ∧ image.cleared = true := by
  cases phase with
  | loading handle' =>
    obtain ⟨hpasses, _⟩ | ⟨_, heq, _⟩ | ⟨_, heq, hcleared, _⟩ := BootPhase.loading_next handle' _ _ h
    · cases hpasses
    · cases heq
    · cases heq
      exact ⟨rfl, hcleared⟩
  | _ => cases h

theorem skipped_busy (phase phase' : BootPhase) (handle : EfiHandle)
    (h : phase.next (.skipped handle) = some phase') : phase.busy = true := by
  cases phase <;> first | rfl | cases h

theorem leaves_busy (phase phase' : BootPhase) (h : phase.next .leaves = some phase') :
    phase.busy = true := by
  cases phase <;> first | rfl | cases h

theorem checked_checking (phase phase' : BootPhase) (handle : EfiHandle)
    (h : phase.next (.checked handle) = some phase') : phase' = .checking handle := by
  cases phase with
  | idle =>
    cases h
    rfl
  | _ => cases h

theorem attempt_loading (phase phase' : BootPhase) (handle : EfiHandle) (media : Media)
    (opened : StatusCode) (h : phase.next (.attempt handle media opened) = some phase') :
    phase' = .loading handle := by
  cases phase with
  | checking handle' =>
    obtain ⟨_, heq, _⟩ | ⟨_, _, heq, _, _, hphase⟩ := BootPhase.checking_next handle' _ _ h
    · cases heq
    · cases heq
      exact hphase
  | _ => cases h

theorem returned_running (phase phase' : BootPhase) (handle : EfiHandle) (status : StatusCode)
    (h : phase.next (.startReturned handle status) = some phase') : phase = .running handle := by
  cases phase with
  | running handle' =>
    obtain ⟨hpasses, _⟩ | ⟨_, heq, _⟩ := BootPhase.running_next handle' _ _ h
    · cases hpasses
    · cases heq
      rfl
  | _ => cases h

/-- a failure makes way for the next attempt -/
theorem fails_idle (phase phase' : BootPhase) (e : BootEvent) (h : phase.next e = some phase')
    (hfails : e.fails = true) : phase' = .idle := by
  cases e with
  | failed handle status =>
    cases phase with
    | loading handle' =>
      obtain ⟨hpasses, _⟩ | ⟨_, _, _, hphase⟩ | ⟨_, heq, _⟩ := BootPhase.loading_next handle' _ _ h
      · cases hpasses
      · exact hphase
      · cases heq
    | _ => cases h
  | startReturned handle status =>
    obtain rfl := returned_running phase phase' handle status h
    have herror : status.isError = true := hfails
    rw [BootPhase.next_startReturned, if_pos herror] at h
    cases h
    rfl
  | _ => cases hfails

/-- while a start runs, and after it returned no error, no other is allowed -/
theorem running_returns (handle : EfiHandle) (phase : BootPhase) (log : List BootEvent)
    (h : monitor BootPhase.next (.running handle) log = some phase) :
    phase = .running handle ∨ phase = .done ∨
      ∃ status, .startReturned handle status ∈ log ∧ status.isError = true := by
  refine monitor_invariant BootPhase.next (fun q past => q = .running handle ∨ q = .done ∨
    ∃ status, .startReturned handle status ∈ past ∧ status.isError = true) ?_ (.running handle)
    phase [] log (Or.inl rfl) h
  intro q past e q' hinv hnext
  obtain rfl | rfl | ⟨status, hmem, herror⟩ := hinv
  · obtain ⟨_, rfl⟩ | ⟨status, rfl, rfl⟩ := BootPhase.running_next handle e q' hnext
    · exact Or.inl rfl
    · by_cases herror : status.isError = true
      · exact Or.inr (Or.inr ⟨status, by simp, herror⟩)
      · exact Or.inr (Or.inl (if_neg herror))
  · exact Or.inr (Or.inl (BootPhase.done_next e q' hnext).2)
  · exact Or.inr (Or.inr ⟨status, List.mem_append_left _ hmem, herror⟩)

/-- Windows stays started -/
theorem done_stays (phase : BootPhase) (log : List BootEvent)
    (h : monitor BootPhase.next .done log = some phase) : phase = .done := by
  refine monitor_invariant BootPhase.next (fun q _ => q = .done) ?_ .done phase [] log rfl h
  intro q past e q' hq hnext
  rw [hq] at hnext
  exact (BootPhase.done_next e q' hnext).2

/-- **a log that the monitor allows is right** -/
theorem startsRight_of_monitor (log : List BootEvent) (phase : BootPhase)
    (h : monitor BootPhase.next .idle log = some phase) : StartsRight log := by
  constructor
  · intro a handle image b handle' image' c heq
    rw [heq] at h
    obtain ⟨q, q', _, hstart, hrest⟩ := monitor_split _ _ _ _ _ _ h
    obtain ⟨r, r', hb, hstart', _⟩ := monitor_split _ _ _ _ _ _ hrest
    obtain ⟨rfl, hcleared⟩ := startImage_loading q q' handle image hstart
    rw [BootPhase.next_startImage handle image hcleared] at hstart
    cases hstart
    obtain ⟨rfl, _⟩ := startImage_loading r r' handle' image' hstart'
    obtain hphase | hphase | hreturns := running_returns handle _ b hb
    · cases hphase
    · cases hphase
    · exact hreturns
  · intro a handle status b handle' image' c heq
    rw [heq] at h
    obtain ⟨q, q', _, hreturned, hrest⟩ := monitor_split _ _ _ _ _ _ h
    obtain ⟨r, r', hb, hstart', _⟩ := monitor_split _ _ _ _ _ _ hrest
    obtain ⟨rfl, _⟩ := startImage_loading r r' handle' image' hstart'
    by_contra herror
    obtain rfl := returned_running q q' handle status hreturned
    rw [BootPhase.next_startReturned, if_neg herror] at hreturned
    cases hreturned
    cases done_stays _ b hb
  · intro a handle image b heq
    rw [heq] at h
    obtain ⟨q, q', ha, hstart, _⟩ := monitor_split _ _ _ _ _ _ h
    obtain ⟨rfl, hcleared⟩ := startImage_loading q q' handle image hstart
    exact ⟨hcleared, loading_lastAttempt handle a ha⟩
  · intro a e b heq hskips
    rw [heq] at h
    obtain ⟨q, q', ha, he, _⟩ := monitor_split _ _ _ _ _ _ h
    refine busy_attempted q a ha ?_
    obtain ⟨handle, rfl⟩ | rfl := hskips
    · exact skipped_busy q q' handle he
    · exact leaves_busy q q' he
  · intro a handle e b heq
    rw [heq] at h
    obtain ⟨q, q', _, hchecked, hrest⟩ := monitor_split _ _ _ _ _ _ h
    rw [monitor_cons] at hrest
    obtain ⟨r, he, _⟩ := Option.bind_eq_some_iff.mp hrest
    rw [checked_checking q q' handle hchecked] at he
    obtain ⟨refusal, hrefusal, hright, _⟩ | ⟨media, opened, hattempt, _⟩ :=
      BootPhase.checking_next handle e r he
    · exact Or.inl ⟨refusal, hrefusal, hright⟩
    · exact Or.inr ⟨media, opened, hattempt⟩
  · intro a handle media opened b e c heq hb
    rw [heq] at h
    obtain ⟨q, q', _, hattempt, hrest⟩ := monitor_split _ _ _ _ _ _ h
    obtain ⟨r, r', hpassed, he, _⟩ := monitor_split _ _ _ _ _ _ hrest
    rw [attempt_loading q q' handle media opened hattempt] at hpassed
    have hstays := monitor_stays BootPhase.next (.loading handle) b fun x hx =>
      BootPhase.next_passes (.loading handle) x rfl (hb x hx)
    rw [hstays] at hpassed
    cases hpassed
    obtain ⟨hpasses, _⟩ | ⟨status, hfailed, herror, _⟩ | ⟨image, hstart, _⟩ :=
      BootPhase.loading_next handle e r' he
    · exact Or.inl hpasses
    · exact Or.inr (Or.inr ⟨status, hfailed, herror⟩)
    · exact Or.inr (Or.inl ⟨image, hstart⟩)
  · intro a e e' b heq hfails
    rw [heq] at h
    obtain ⟨q, q', _, he, hrest⟩ := monitor_split _ _ _ _ _ _ h
    rw [monitor_cons] at hrest
    obtain ⟨r, he', _⟩ := Option.bind_eq_some_iff.mp hrest
    rw [fails_idle q q' e he hfails] at he'
    obtain ⟨handle, hchecked, _⟩ | ⟨hexhausted, _⟩ := BootPhase.idle_next e' r he'
    · exact Or.inl ⟨handle, hchecked⟩
    · exact Or.inr hexhausted

end AppleSilicon
