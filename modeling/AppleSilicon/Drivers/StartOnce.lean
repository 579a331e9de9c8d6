import AppleSilicon.Drivers.StartMonitor

/-!
# The starts of Windows in a run

The log of every step of the callbacks is one that the monitor allows, and its phase is the one that
the outermost callback has made: a callback that runs inside another finds `mWindowsStarted` set.

* `advance_main`, `advance_nested`   a step of the outermost callback, and of one inside it;
* `step_agrees`                      a step moves the monitor to the phase that the callbacks made;
* `run_startsRight`                  what follows for every run.
-/

namespace AppleSilicon

/-! ## a step -/

/-- the phase that a callback has made -/
def Point.phase : Point → Option BootPhase
  | loop _ => none
  | check _ handle _ => some (.checking handle)
  | start _ handle .startImage => some (.running handle)
  | start _ handle _ => some (.loading handle)

/-- the phase, where the outermost callback is at `point` -/
def mainPhase (windowsStarted : Bool) (point : Option Point) : BootPhase :=
  (point.bind Point.phase).getD (if windowsStarted then .done else .idle)

/-- `mWindowsStarted` is what the phase says, and the log leads from phase to phase -/
structure Outcome.Allowed (o : Outcome) (phase : BootPhase) : Prop where
  log : monitor BootPhase.next phase o.log = some (mainPhase o.windowsStarted o.point)
  started : (mainPhase o.windowsStarted o.point).busy = o.windowsStarted

/-- `TryStartWindowsFromHandle` returns what became of `mWindowsStarted` -/
theorem returns_allowed (visitor : Visitor) (windowsStarted : Bool) (log : List BootEvent)
    (phase : BootPhase)
    (h : monitor BootPhase.next phase log = some (if windowsStarted then .done else .idle)) :
    (visitor.returns windowsStarted log windowsStarted).Allowed phase := by
  cases visitor with
  | fileSystemNotify => cases windowsStarted <;> exact ⟨h, rfl⟩
  | readyToBoot rest =>
    cases windowsStarted with
    | false => exact ⟨h, rfl⟩
    | true =>
      refine ⟨?_, rfl⟩
      show monitor BootPhase.next phase (log ++ [.leaves]) = some .done
      rw [monitor_append, h]
      rfl

theorem tryStart_allowed (windowsStarted : Bool) (visitor : Visitor) (handle : EfiHandle) :
    (tryStartWindowsFromHandle windowsStarted visitor handle).Allowed
      (if windowsStarted then .done else .idle) := by
  cases windowsStarted with
  | false => exact ⟨rfl, rfl⟩
  | true => exact returns_allowed visitor true [.skipped handle] .done rfl

/-- what a step of a loop can do -/
theorem LoopPoint.advance_cases (windowsStarted : Bool) (point : LoopPoint) (a : BootAction)
    (o : Outcome) (hstep : point.advance windowsStarted a = some o) :
    (windowsStarted = true ∧ o = ⟨windowsStarted, none, [.leaves]⟩) ∨
      o = ⟨windowsStarted, none, [.exhausted]⟩ ∨
      (∃ loop, o = ⟨windowsStarted, some (.loop loop), []⟩) ∨
      ∃ visitor handle, o = tryStartWindowsFromHandle windowsStarted visitor handle := by
  cases point with
  | notify =>
    dsimp only [LoopPoint.advance] at hstep
    split at hstep
    · split_ifs at hstep with hstarted
      cases hstep
      exact Or.inl ⟨hstarted, rfl⟩
    · split_ifs at hstep with hstarted herror
      · cases hstep
        exact Or.inr (Or.inl rfl)
      · cases hstep
        exact Or.inr (Or.inr (Or.inr ⟨_, _, rfl⟩))
    · cases hstep
  | connectAll =>
    dsimp only [LoopPoint.advance] at hstep
    split at hstep
    · cases hstep
      exact Or.inr (Or.inr (Or.inl ⟨_, rfl⟩))
    · cases hstep
  | locateFileSystems =>
    dsimp only [LoopPoint.advance] at hstep
    split at hstep
    · split_ifs at hstep with herror
      · cases hstep
        exact Or.inr (Or.inl rfl)
      · cases hstep
        exact Or.inr (Or.inr (Or.inl ⟨_, rfl⟩))
    · cases hstep
  | readyToBoot handles =>
    dsimp only [LoopPoint.advance] at hstep
    split at hstep
    · cases hstep
      exact Or.inr (Or.inl rfl)
    · cases hstep
      exact Or.inr (Or.inr (Or.inr ⟨_, _, rfl⟩))
    · cases hstep

/-- a step of a loop -/
theorem loop_allowed (windowsStarted : Bool) (point : LoopPoint) (a : BootAction) (o : Outcome)
    (hstep : point.advance windowsStarted a = some o) :
    o.Allowed (if windowsStarted then .done else .idle) := by
  obtain ⟨hstarted, rfl⟩ | rfl | ⟨loop, rfl⟩ | ⟨visitor, handle, rfl⟩ :=
    LoopPoint.advance_cases windowsStarted point a o hstep
  · rw [if_pos hstarted, hstarted]
    exact ⟨rfl, rfl⟩
  · cases windowsStarted <;> exact ⟨rfl, rfl⟩
  · cases windowsStarted <;> exact ⟨rfl, rfl⟩
  · exact tryStart_allowed windowsStarted visitor handle

/-- a handle that is turned down -/
theorem reject_allowed (visitor : Visitor) (handle : EfiHandle) (refusal : Refusal)
    (h : refusal.right = true) :
    (reject false visitor handle refusal).Allowed (.checking handle) := by
  refine returns_allowed visitor false _ _ ?_
  rw [monitor_cons, BootPhase.next_rejected handle refusal h]
  rfl

/-- a step of the checks -/
theorem check_allowed (visitor : Visitor) (handle : EfiHandle) (point : CheckPoint) (a : BootAction)
    (o : Outcome) (hstep : point.advance false visitor handle a = some o) :
    o.Allowed (.checking handle) := by
  rw [CheckPoint.advance.eq_def] at hstep
  split at hstep
  · rename_i status
    cases hstep
    exact reject_allowed visitor handle _ (Bool.or_true _)
  · rename_i status media
    split_ifs at hstep with herror hinternal
    · cases hstep
      refine reject_allowed visitor handle _ ?_
      rw [Refusal.right, herror, Bool.true_or]
    · cases hstep
      exact ⟨rfl, rfl⟩
    · cases hstep
      refine reject_allowed visitor handle _ ?_
      rw [Refusal.right, Option.any_some, Bool.eq_false_iff.mpr hinternal]
      exact Bool.or_true _
  · split_ifs at hstep with herror
    · cases hstep
      exact reject_allowed visitor handle _ herror
    · cases hstep
      exact ⟨rfl, rfl⟩
  · split_ifs at hstep with herror
    · cases hstep
      exact reject_allowed visitor handle _ herror
    · cases hstep
      exact ⟨rfl, rfl⟩
  · rename_i media status
    split_ifs at hstep with herror
    · cases hstep
      exact reject_allowed visitor handle _ herror
    · cases hstep
      refine ⟨?_, rfl⟩
      rw [monitor_cons, BootPhase.next_attempt handle media.media status media.internal
        (Bool.eq_false_iff.mpr herror)]
      rfl
  · cases hstep

/-- a start that fails before `StartImage` -/
theorem failStart_allowed (visitor : Visitor) (handle : EfiHandle) (status : StatusCode)
    (h : status.isError = true) : (failStart visitor handle status).Allowed (.loading handle) := by
  refine returns_allowed visitor false _ _ ?_
  rw [monitor_cons, BootPhase.next_failed handle status h]
  rfl

/-- a step of `StartWindowsFromHandle` -/
theorem start_allowed (visitor : Visitor) (handle : EfiHandle) (point : StartPoint) (a : BootAction)
    (o : Outcome) (hstep : point.advance true visitor handle a = some o) :
    o.Allowed (mainPhase true (some (.start visitor handle point))) := by
  rw [StartPoint.advance.eq_def] at hstep
  split at hstep
  · split_ifs at hstep with hfound
    · cases hstep
      exact ⟨rfl, rfl⟩
    · cases hstep
      exact failStart_allowed visitor handle _ (by decide)
  · split_ifs at hstep with herror
    · cases hstep
      exact failStart_allowed visitor handle _ herror
    · cases hstep
      exact ⟨rfl, rfl⟩
  · split_ifs at hstep with herror
    · cases hstep
      exact failStart_allowed visitor handle _ herror
    · cases hstep
      refine ⟨?_, rfl⟩
      dsimp only [mainPhase]
      rw [monitor_cons]
      show (BootPhase.next (.loading handle) (.startImage handle ⟨0, 0⟩)).bind _ = _
      rw [BootPhase.next_startImage handle ⟨0, 0⟩ (by decide)]
      rfl
  · rename_i status
    split_ifs at hstep with herror
    · cases hstep
      refine returns_allowed visitor false _ _ ?_
      show (BootPhase.next (.running handle) (.startReturned handle status)).bind _ = _
      rw [BootPhase.next_startReturned, if_pos herror]
      rfl
    · cases hstep
      refine returns_allowed visitor true _ _ ?_
      show (BootPhase.next (.running handle) (.startReturned handle status)).bind _ = _
      rw [BootPhase.next_startReturned, if_neg herror]
      rfl
  · cases hstep

/-- **a step of the outermost callback** -/
theorem advance_main (windowsStarted : Bool) (point : Point) (a : BootAction) (o : Outcome)
    (hstarted : (mainPhase windowsStarted (some point)).busy = windowsStarted)
    (hstep : point.advance windowsStarted a = some o) :
    o.Allowed (mainPhase windowsStarted (some point)) := by
  cases point with
  | loop point => exact loop_allowed windowsStarted point a o hstep
  | check visitor handle point =>
    have hfalse : windowsStarted = false := hstarted.symm
    rw [hfalse] at hstep
    exact check_allowed visitor handle point a o hstep
  | start visitor handle point =>
    have htrue : windowsStarted = true := by
      rw [← hstarted]
      cases point <;> rfl
    rw [htrue] at hstep ⊢
    exact start_allowed visitor handle point a o hstep

/-- what a callback does with `mWindowsStarted` set -/
structure Outcome.Nested (o : Outcome) : Prop where
  started : o.windowsStarted = true
  log : ∀ e ∈ o.log, e.passes = true
  point : ∀ point, o.point = some point → ∃ loop, point = .loop loop

/-- **a step of a callback inside another**: it stays in its loop or leaves, and makes no phase -/
theorem advance_nested (point : LoopPoint) (a : BootAction) (o : Outcome)
    (hstep : point.advance true a = some o) : o.Nested := by
  obtain ⟨_, rfl⟩ | rfl | ⟨loop, rfl⟩ | ⟨visitor, handle, rfl⟩ :=
    LoopPoint.advance_cases true point a o hstep
  · exact ⟨rfl, by simp, by simp⟩
  · exact ⟨rfl, by simp, by simp⟩
  · exact ⟨rfl, by simp, by simp⟩
  · cases visitor with
    | fileSystemNotify =>
      exact ⟨rfl, by simp [tryStartWindowsFromHandle, Visitor.returns],
        by simp [tryStartWindowsFromHandle, Visitor.returns]⟩
    | readyToBoot rest =>
      exact ⟨rfl, by simp [tryStartWindowsFromHandle, Visitor.returns],
        by simp [tryStartWindowsFromHandle, Visitor.returns]⟩

/-! ## the stack -/

/-- inside a `LoadImage` or `StartImage` of the outermost callback at most one other runs: it never
comes to such a call itself -/
inductive StackRight : List Point → Prop where
  | none : StackRight []
  | one (main : Point) : StackRight [main]
  | two (loop : LoopPoint) (main : Point) (hcalls : main.calls = true) :
    StackRight [.loop loop, main]

/-- the phase that the callbacks have made -/
def AutoBoot.phase (s : AutoBoot) : BootPhase := mainPhase s.windowsStarted s.stack.getLast?

/-- the monitor is in that phase, and `mWindowsStarted` says so -/
structure PhaseRight (s : AutoBoot) (phase : BootPhase) : Prop where
  stack : StackRight s.stack
  made : s.phase = phase
  started : phase.busy = s.windowsStarted

/-- a callback that is being called has an attempt -/
theorem calls_busy (windowsStarted : Bool) (main : Point) (h : main.calls = true) :
    (mainPhase windowsStarted (some main)).busy = true := by
  cases main with
  | loop loop => cases h
  | check visitor handle point => cases h
  | start visitor handle point => cases point <;> rfl

/-- a callback starts -/
theorem signal_agrees (s : AutoBoot) (phase : BootPhase) (callback : BootCallback)
    (h : PhaseRight s phase) (hcalls : s.stack.head?.all Point.calls = true) :
    PhaseRight ⟨s.windowsStarted, .loop callback.start :: s.stack⟩ phase := by
  obtain ⟨windowsStarted, stack⟩ := s
  obtain ⟨hstack, hmade, hstarted⟩ := h
  cases hstack with
  | none => exact ⟨.one _, hmade, hstarted⟩
  | one main => exact ⟨.two _ main hcalls, hmade, hstarted⟩
  | two loop main _ => cases hcalls

/-- the innermost callback takes a step -/
theorem advance_agrees (s s' : AutoBoot) (phase : BootPhase) (a : BootAction)
    (log : List BootEvent) (h : PhaseRight s phase) (hstep : s.advance a = some (s', log)) :
    ∃ phase', monitor BootPhase.next phase log = some phase' ∧ PhaseRight s' phase' := by
  obtain ⟨windowsStarted, stack⟩ := s
  obtain ⟨hstack, hmade, hstarted⟩ := h
  cases hstack with
  | none => cases hstep
  | one main =>
    obtain ⟨o, ho, heq⟩ := Option.map_eq_some_iff.mp hstep
    cases heq
    rw [← hmade] at hstarted ⊢
    have hallowed := advance_main windowsStarted main a o hstarted ho
    refine ⟨_, hallowed.log, ?_⟩
    cases hpoint : o.point with
    | none =>
      have hafter := hallowed.started
      rw [hpoint] at hafter
      exact ⟨.none, rfl, hafter⟩
    | some point =>
      have hafter := hallowed.started
      rw [hpoint] at hafter
      exact ⟨.one point, rfl, hafter⟩
  | two loop main hcalls =>
    -- the callback inside the other finds the flag set
    have hbusy : phase.busy = true := by
      rw [← hmade]
      exact calls_busy windowsStarted main hcalls
    obtain ⟨o, ho, heq⟩ := Option.map_eq_some_iff.mp hstep
    cases heq
    have hset : windowsStarted = true := hstarted.symm.trans hbusy
    rw [hset] at ho hmade
    have hnested := advance_nested loop a o ho
    refine ⟨phase, monitor_stays _ _ _ ?_, ?_⟩
    · intro e he
      exact BootPhase.next_passes phase e hbusy (hnested.log e he)
    · rw [hnested.started]
      cases hpoint : o.point with
      | none => exact ⟨.one main, hmade, hbusy⟩
      | some point =>
        obtain ⟨loop', rfl⟩ := hnested.point point hpoint
        exact ⟨.two loop' main hcalls, hmade, hbusy⟩

/-- **a step** moves the monitor to the phase that the callbacks have made -/
theorem step_agrees (s : AutoBoot) (phase : BootPhase) (a : BootAction) (s' : AutoBoot)
    (log : List BootEvent) (h : PhaseRight s phase) (hstep : s.step a = some (s', log)) :
    ∃ phase', monitor BootPhase.next phase log = some phase' ∧ PhaseRight s' phase' := by
  rw [AutoBoot.step.eq_def] at hstep
  split at hstep
  · split_ifs at hstep with hcalls
    cases hstep
    exact ⟨phase, rfl, signal_agrees s phase _ h hcalls⟩
  · exact advance_agrees s s' phase a log h hstep

/-! ## every run -/

theorem run_startsRight (as : List BootAction) (s : AutoBoot) (log : List BootEvent)
    (hrun : runLog AutoBoot.step .init as = some (s, log)) : StartsRight log := by
  obtain ⟨phase, hmonitor, _⟩ := runLog_monitored AutoBoot.step BootPhase.next PhaseRight
    step_agrees .init s .idle as log ⟨.none, rfl, rfl⟩ hrun
  exact startsRight_of_monitor log phase hmonitor

end AppleSilicon
