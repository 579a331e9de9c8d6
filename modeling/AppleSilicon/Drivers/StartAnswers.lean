import AppleSilicon.Drivers.StartOnce

/-!
# Windows is started once, and of what the answers gave

What the boot services answered is in the actions of a run.  A start is of the handle whose medium,
volume and loader they gave last; a handle that is checked is one that they gave; and a callback
that leaves since no handle is left was told so.

* `loop_answered`, `check_answered`, `start_answered`   a step of a callback;
* `step_answered`                                       a step of the driver;
* `windows_started_once`                                every run.
-/

namespace AppleSilicon

/-- an action, and what its step logged -/
abbrev BootStep := BootAction × List BootEvent

/-! ## what the answers say -/

/-- the handle that was checked last: its medium is internal, its volume opened and has the loader -/
def Eligible (past : List BootStep) (handle : EfiHandle) : Prop :=
  ∃ before a media s₁ s₂ s₃ s₄ since,
    past = before ++ (a, [.checked handle]) :: (.blockIo s₁ (some media), []) ::
      (.fileSystem s₂, []) :: (.openVolume s₃, []) ::
      (.openFile s₄, [.attempt handle media s₄]) :: since ∧
    s₁.isError = false ∧ media.internal = true ∧ s₂.isError = false ∧ s₃.isError = false ∧
    s₄.isError = false ∧ ∀ step ∈ since, ∀ e ∈ step.2, e.attempts = false

/-- of the file systems that were located, these have not been visited -/
def NotVisited (past : List BootStep) (left : List EfiHandle) : Prop :=
  ∃ before status tried since,
    past = before ++ (.locateFileSystems status (tried ++ left), []) :: since ∧
    status.isError = false ∧
    ∀ handle ∈ tried, ∃ step ∈ since, .checked handle ∈ step.2 ∨ .skipped handle ∈ step.2

/-- what the answers say of a step -/
structure StepAnswered (past : List BootStep) (step : BootStep) : Prop where
  /-- a start is of an eligible handle -/
  eligible : ∀ handle image, .startImage handle image ∈ step.2 → Eligible past handle
  /-- a handle that is visited was just located, or is the next one of those that were -/
  visited : ∀ handle, .checked handle ∈ step.2 ∨ .skipped handle ∈ step.2 →
    (∃ status, step.1 = .locateHandle status handle ∧ status.isError = false) ∨
      step.1 = .goOn ∧ ∃ left, NotVisited past (handle :: left)
  /-- none is left when none was located, or when all of those that were have been visited -/
  exhausted : .exhausted ∈ step.2 →
    (∃ status handle, step.1 = .locateHandle status handle ∧ status.isError = true) ∨
      (∃ status handles, step.1 = .locateFileSystems status handles ∧ status.isError = true) ∨
        step.1 = .goOn ∧ NotVisited past []

/-- so of every step of a run -/
def AnswersRight (history : List BootStep) : Prop :=
  ∀ before step after, history = before ++ step :: after → StepAnswered before step

theorem Eligible.append {past : List BootStep} {handle : EfiHandle} (h : Eligible past handle)
    (step : BootStep) (hstep : ∀ e ∈ step.2, e.attempts = false) :
    Eligible (past ++ [step]) handle := by
  obtain ⟨before, a, media, s₁, s₂, s₃, s₄, since, rfl, h1, hmedia, h2, h3, h4, hsince⟩ := h
  refine ⟨before, a, media, s₁, s₂, s₃, s₄, since ++ [step], by simp, h1, hmedia, h2, h3, h4, ?_⟩
  intro step' hmem
  cases List.mem_append.mp hmem with
  | inl hmem => exact hsince step' hmem
  | inr hmem =>
    rw [List.mem_singleton.mp hmem]
    exact hstep

theorem NotVisited.append {past : List BootStep} {left : List EfiHandle}
    (h : NotVisited past left) (step : BootStep) : NotVisited (past ++ [step]) left := by
  obtain ⟨before, status, tried, since, rfl, hstatus, htried⟩ := h
  refine ⟨before, status, tried, since ++ [step], by simp, hstatus, ?_⟩
  intro handle hmem
  obtain ⟨step', hstep', hvisit⟩ := htried handle hmem
  exact ⟨step', List.mem_append_left _ hstep', hvisit⟩

/-- the next handle is visited -/
theorem NotVisited.visit {past : List BootStep} {handle : EfiHandle} {left : List EfiHandle}
    (h : NotVisited past (handle :: left)) (step : BootStep)
    (hstep : .checked handle ∈ step.2 ∨ .skipped handle ∈ step.2) :
    NotVisited (past ++ [step]) left := by
  obtain ⟨before, status, tried, since, rfl, hstatus, htried⟩ := h
  refine ⟨before, status, tried ++ [handle], since ++ [step], by simp, hstatus, ?_⟩
  intro handle' hmem
  cases List.mem_append.mp hmem with
  | inl hmem =>
    obtain ⟨step', hstep', hvisit⟩ := htried handle' hmem
    exact ⟨step', List.mem_append_left _ hstep', hvisit⟩
  | inr hmem =>
    rw [List.mem_singleton.mp hmem]
    exact ⟨step, List.mem_append_right _ (List.mem_singleton_self step), hstep⟩

/-- a step that visits nothing, starts nothing and is not the last of its callback -/
theorem stepAnswered_silent (past : List BootStep) (step : BootStep)
    (h : ∀ e ∈ step.2, (∀ handle image, e ≠ .startImage handle image) ∧
      (∀ handle, e ≠ .checked handle ∧ e ≠ .skipped handle) ∧ e ≠ .exhausted) :
    StepAnswered past step := by
  constructor
  · intro handle image hmem
    exact absurd rfl ((h _ hmem).1 handle image)
  · intro handle hmem
    cases hmem with
    | inl hmem => exact absurd rfl ((h _ hmem).2.1 handle).1
    | inr hmem => exact absurd rfl ((h _ hmem).2.1 handle).2
  · intro hmem
    exact absurd rfl (h _ hmem).2.2

/-! ## what the answers say of the callbacks that run -/

/-- what `TryStartWindowsFromHandle` returns to -/
def Visitor.Answered (past : List BootStep) : Visitor → Prop
  | fileSystemNotify => True
  | readyToBoot rest => NotVisited past rest

/-- the checks that the handle has passed, one right after the other -/
def CheckPoint.Answered (past : List BootStep) (handle : EfiHandle) (point : CheckPoint) : Prop :=
  ∃ before a, ∃ s₁ s₂ s₃ : StatusCode, s₁.isError = false ∧ s₂.isError = false ∧
    s₃.isError = false ∧ past = before ++ (a, [.checked handle]) :: match point with
      | blockIo => []
      | fileSystem media => [(.blockIo s₁ (some media.media), [])]
      | openVolume media => [(.blockIo s₁ (some media.media), []), (.fileSystem s₂, [])]
      | openFile media => [(.blockIo s₁ (some media.media), []), (.fileSystem s₂, []),
          (.openVolume s₃, [])]

def Point.Answered (past : List BootStep) : Point → Prop
  | loop (.readyToBoot handles) => NotVisited past handles
  | loop _ => True
  | check visitor handle point => visitor.Answered past ∧ point.Answered past handle
  | start visitor handle _ => visitor.Answered past ∧ Eligible past handle

theorem Visitor.Answered.append {past : List BootStep} {visitor : Visitor}
    (h : visitor.Answered past) (step : BootStep) : visitor.Answered (past ++ [step]) := by
  cases visitor with
  | fileSystemNotify => exact trivial
  | readyToBoot rest => exact NotVisited.append h step

/-- a step of a callback that runs inside another one says nothing of that -/
theorem Point.Answered.append {past : List BootStep} {point : Point} (h : point.Answered past)
    (hcalls : point.calls = true) (step : BootStep) (hstep : ∀ e ∈ step.2, e.attempts = false) :
    point.Answered (past ++ [step]) := by
  cases point with
  | loop point => cases hcalls
  | check visitor handle point => cases hcalls
  | start visitor handle point => exact ⟨h.1.append step, h.2.append step hstep⟩

/-- what a step of a callback comes to -/
structure Outcome.Answered (past : List BootStep) (a : BootAction) (o : Outcome) : Prop where
  step : StepAnswered past (a, o.log)
  point : ∀ point, o.point = some point → point.Answered (past ++ [(a, o.log)])

/-- `TryStartWindowsFromHandle` returns, having visited nothing -/
theorem returns_answered (past : List BootStep) (a : BootAction) (windowsStarted result : Bool)
    (visitor : Visitor) (e : BootEvent) (h : visitor.Answered past)
    (he : (∀ handle image, e ≠ .startImage handle image) ∧
      (∀ handle, e ≠ .checked handle ∧ e ≠ .skipped handle) ∧ e ≠ .exhausted) :
    (visitor.returns windowsStarted [e] result).Answered past a := by
  cases visitor with
  | fileSystemNotify =>
    refine ⟨stepAnswered_silent past _ ?_, ?_⟩
    · intro e' he'
      rw [List.mem_singleton.mp he']
      exact he
    · intro point hpoint
      cases hpoint
      exact trivial
  | readyToBoot rest =>
    cases result with
    | false =>
      refine ⟨stepAnswered_silent past _ ?_, ?_⟩
      · intro e' he'
        rw [List.mem_singleton.mp he']
        exact he
      · intro point hpoint
        cases hpoint
        exact NotVisited.append h _
    | true =>
      refine ⟨stepAnswered_silent past _ ?_, ?_⟩
      · intro e' he'
        cases List.mem_append.mp he' with
        | inl he' =>
          rw [List.mem_singleton.mp he']
          exact he
        | inr he' =>
          rw [List.mem_singleton.mp he']
          simp
      · intro point hpoint
        cases hpoint

/-- the handle that `TryStartWindowsFromHandle` is called with was located -/
theorem tryStart_answered (past : List BootStep) (a : BootAction) (windowsStarted : Bool)
    (visitor : Visitor) (handle : EfiHandle)
    (hlocated : (∃ status, a = .locateHandle status handle ∧ status.isError = false) ∨
      a = .goOn ∧ ∃ left, NotVisited past (handle :: left))
    (hvisitor : ∀ step : BootStep, .checked handle ∈ step.2 ∨ .skipped handle ∈ step.2 →
      visitor.Answered (past ++ [step])) :
    (tryStartWindowsFromHandle windowsStarted visitor handle).Answered past a := by
  cases windowsStarted with
  | false =>
    refine ⟨⟨?_, ?_, ?_⟩, ?_⟩
    · intro handle' image hmem
      cases List.mem_singleton.mp hmem
    · intro handle' hmem
      rcases hmem with hmem | hmem
      · cases List.mem_singleton.mp hmem
        exact hlocated
      · cases List.mem_singleton.mp hmem
    · intro hmem
      cases List.mem_singleton.mp hmem
    · intro point hpoint
      cases hpoint
      exact ⟨hvisitor _ (Or.inl (List.mem_singleton_self _)), past, a, .success, .success, .success,
        rfl, rfl, rfl, rfl⟩
  | true =>
    have hlog : (tryStartWindowsFromHandle true visitor handle).log = [.skipped handle] ∨
        (tryStartWindowsFromHandle true visitor handle).log = [.skipped handle, .leaves] := by
      cases visitor with
      | fileSystemNotify => exact Or.inl rfl
      | readyToBoot rest => exact Or.inr rfl
    refine ⟨⟨?_, ?_, ?_⟩, ?_⟩
    · intro handle' image hmem
      rcases hlog with hlog | hlog <;> simp [hlog] at hmem
    · intro handle' hmem
      have heq : handle' = handle := by
        rcases hlog with hlog | hlog <;> simpa [hlog] using hmem
      rw [heq]
      exact hlocated
    · intro hmem
      rcases hlog with hlog | hlog <;> simp [hlog] at hmem
    · intro point hpoint
      cases visitor with
      | fileSystemNotify =>
        cases hpoint
        exact trivial
      | readyToBoot rest => cases hpoint

/-- a callback leaves -/
theorem leaves_answered (past : List BootStep) (a : BootAction) (windowsStarted : Bool) :
    (⟨windowsStarted, none, [.leaves]⟩ : Outcome).Answered past a := by
  refine ⟨stepAnswered_silent past _ (by simp), ?_⟩
  intro point hpoint
  cases hpoint

/-- a callback leaves since no handle is left -/
theorem exhausted_answered (past : List BootStep) (a : BootAction) (windowsStarted : Bool)
    (h : (∃ status handle, a = .locateHandle status handle ∧ status.isError = true) ∨
      (∃ status handles, a = .locateFileSystems status handles ∧ status.isError = true) ∨
        a = .goOn ∧ NotVisited past []) :
    (⟨windowsStarted, none, [.exhausted]⟩ : Outcome).Answered past a := by
  refine ⟨⟨?_, ?_, fun _ => h⟩, ?_⟩
  · intro handle image hmem
    cases List.mem_singleton.mp hmem
  · intro handle hmem
    rcases hmem with hmem | hmem <;> cases List.mem_singleton.mp hmem
  · intro point hpoint
    cases hpoint

/-- a step that logs nothing -/
theorem quiet_answered (past : List BootStep) (a : BootAction) (windowsStarted : Bool)
    (point : Point) (h : point.Answered (past ++ [(a, [])])) :
    (⟨windowsStarted, some point, []⟩ : Outcome).Answered past a := by
  refine ⟨stepAnswered_silent past _ (by simp), ?_⟩
  intro point' hpoint
  cases hpoint
  exact h

/-! ## a step -/

/-- **a step of a loop** -/
theorem loop_answered (past : List BootStep) (windowsStarted : Bool) (point : LoopPoint)
    (a : BootAction) (o : Outcome) (h : (Point.loop point).Answered past)
    (hstep : point.advance windowsStarted a = some o) : o.Answered past a := by
  cases point with
  | notify =>
    dsimp only [LoopPoint.advance] at hstep
    split at hstep
    · split_ifs at hstep with hstarted
      cases hstep
      exact leaves_answered past _ windowsStarted
    · rename_i status handle
      split_ifs at hstep with hstarted herror
      · cases hstep
        exact exhausted_answered past _ windowsStarted (Or.inl ⟨status, handle, rfl, herror⟩)
      · cases hstep
        exact tryStart_answered past _ windowsStarted .fileSystemNotify handle
          (Or.inl ⟨status, rfl, Bool.eq_false_iff.mpr herror⟩) fun _ _ => trivial
    · cases hstep
  | connectAll =>
    dsimp only [LoopPoint.advance] at hstep
    split at hstep
    · cases hstep
      exact quiet_answered past _ windowsStarted _ trivial
    · cases hstep
  | locateFileSystems =>
    dsimp only [LoopPoint.advance] at hstep
    split at hstep
    · rename_i status handles
      split_ifs at hstep with herror
      · cases hstep
        exact exhausted_answered past _ windowsStarted
          (Or.inr (Or.inl ⟨status, handles, rfl, herror⟩))
      · cases hstep
        refine quiet_answered past _ windowsStarted _ ?_
        refine ⟨past, status, [], [], rfl, Bool.eq_false_iff.mpr herror, ?_⟩
        intro handle hmem
        cases hmem
    · cases hstep
  | readyToBoot handles =>
    dsimp only [LoopPoint.advance] at hstep
    split at hstep
    · cases hstep
      exact exhausted_answered past _ windowsStarted (Or.inr (Or.inr ⟨rfl, h⟩))
    · cases hstep
      exact tryStart_answered past _ windowsStarted _ _ (Or.inr ⟨rfl, _, h⟩)
        fun step hvisit => NotVisited.visit h step hvisit
    · cases hstep

/-- a handle is turned down -/
theorem reject_answered (past : List BootStep) (a : BootAction) (windowsStarted : Bool)
    (visitor : Visitor) (handle : EfiHandle) (refusal : Refusal) (h : visitor.Answered past) :
    (reject windowsStarted visitor handle refusal).Answered past a :=
  returns_answered past a windowsStarted false visitor (.rejected handle refusal) h (by simp)

/-- **a step of the checks** -/
theorem check_answered (past : List BootStep) (windowsStarted : Bool) (visitor : Visitor)
    (handle : EfiHandle) (point : CheckPoint) (a : BootAction) (o : Outcome)
    (h : (Point.check visitor handle point).Answered past)
    (hstep : point.advance windowsStarted visitor handle a = some o) : o.Answered past a := by
  obtain ⟨hvisitor, before, a₀, s₁, s₂, s₃, h1, h2, h3, hpast⟩ := h
  rw [CheckPoint.advance.eq_def] at hstep
  split at hstep
  · cases hstep
    exact reject_answered past _ windowsStarted visitor handle _ hvisitor
  · rename_i status media
    split_ifs at hstep with herror hinternal
    · cases hstep
      exact reject_answered past _ windowsStarted visitor handle _ hvisitor
    · cases hstep
      refine quiet_answered past _ windowsStarted _ ⟨hvisitor.append _, ?_⟩
      refine ⟨before, a₀, status, s₂, s₃, Bool.eq_false_iff.mpr herror, h2, h3, ?_⟩
      rw [hpast, List.append_assoc]
      rfl
    · cases hstep
      exact reject_answered past _ windowsStarted visitor handle _ hvisitor
  · rename_i media status
    split_ifs at hstep with herror
    · cases hstep
      exact reject_answered past _ windowsStarted visitor handle _ hvisitor
    · cases hstep
      refine quiet_answered past _ windowsStarted _ ⟨hvisitor.append _, ?_⟩
      refine ⟨before, a₀, s₁, status, s₃, h1, Bool.eq_false_iff.mpr herror, h3, ?_⟩
      rw [hpast, List.append_assoc]
      rfl
  · rename_i media status
    split_ifs at hstep with herror
    · cases hstep
      exact reject_answered past _ windowsStarted visitor handle _ hvisitor
    · cases hstep
      refine quiet_answered past _ windowsStarted _ ⟨hvisitor.append _, ?_⟩
      refine ⟨before, a₀, s₁, s₂, status, h1, h2, Bool.eq_false_iff.mpr herror, ?_⟩
      rw [hpast, List.append_assoc]
      rfl
  · rename_i media status
    split_ifs at hstep with herror
    · cases hstep
      exact reject_answered past _ windowsStarted visitor handle _ hvisitor
    · cases hstep
      refine ⟨stepAnswered_silent past _ (by simp), ?_⟩
      intro point' hpoint
      cases hpoint
      refine ⟨hvisitor.append _, before, a₀, media.media, s₁, s₂, s₃, status, [], ?_, h1,
        media.internal, h2, h3, Bool.eq_false_iff.mpr herror, by simp⟩
      rw [hpast, List.append_assoc]
      rfl
  · cases hstep

/-- a start fails before `StartImage` -/
theorem failStart_answered (past : List BootStep) (a : BootAction) (visitor : Visitor)
    (handle : EfiHandle) (status : StatusCode) (h : visitor.Answered past) :
    (failStart visitor handle status).Answered past a :=
  returns_answered past a false false visitor (.failed handle status) h (by simp)

/-- **a step of `StartWindowsFromHandle`** -/
theorem start_answered (past : List BootStep) (windowsStarted : Bool) (visitor : Visitor)
    (handle : EfiHandle) (point : StartPoint) (a : BootAction) (o : Outcome)
    (h : (Point.start visitor handle point).Answered past)
    (hstep : point.advance windowsStarted visitor handle a = some o) : o.Answered past a := by
  obtain ⟨hvisitor, heligible⟩ := h
  rw [StartPoint.advance.eq_def] at hstep
  split at hstep
  · split_ifs at hstep with hfound
    · cases hstep
      exact quiet_answered past _ windowsStarted _
        ⟨hvisitor.append _, heligible.append _ (by simp)⟩
    · cases hstep
      exact failStart_answered past _ visitor handle _ hvisitor
  · split_ifs at hstep with herror
    · cases hstep
      exact failStart_answered past _ visitor handle _ hvisitor
    · cases hstep
      exact quiet_answered past _ windowsStarted _
        ⟨hvisitor.append _, heligible.append _ (by simp)⟩
  · rename_i status image
    split_ifs at hstep with herror
    · cases hstep
      exact failStart_answered past _ visitor handle _ hvisitor
    · cases hstep
      refine ⟨⟨?_, by simp, by simp⟩, ?_⟩
      · intro handle' image' hmem
        cases List.mem_singleton.mp hmem
        exact heligible
      · intro point' hpoint
        cases hpoint
        refine ⟨hvisitor.append _, heligible.append _ ?_⟩
        intro e he
        rw [List.mem_singleton.mp he]
        rfl
  · rename_i status
    split_ifs at hstep with herror
    · cases hstep
      exact returns_answered past _ false false visitor (.startReturned handle status) hvisitor
        (by simp)
    · cases hstep
      exact returns_answered past _ windowsStarted true visitor (.startReturned handle status)
        hvisitor (by simp)
  · cases hstep

/-- a step of the callback that runs -/
theorem advance_answered (past : List BootStep) (windowsStarted : Bool) (point : Point)
    (a : BootAction) (o : Outcome) (h : point.Answered past)
    (hstep : point.advance windowsStarted a = some o) : o.Answered past a := by
  cases point with
  | loop point => exact loop_answered past windowsStarted point a o h hstep
  | check visitor handle point =>
    exact check_answered past windowsStarted visitor handle point a o h hstep
  | start visitor handle point =>
    exact start_answered past windowsStarted visitor handle point a o h hstep

/-- the phase is right, and so is what the answers say of each callback that runs -/
structure RunAnswered (past : List BootStep) (s : AutoBoot) : Prop where
  phase : ∃ phase, PhaseRight s phase
  stack : ∀ point ∈ s.stack, point.Answered past

/-- **a step of the driver** -/
theorem step_answered (past : List BootStep) (s : AutoBoot) (a : BootAction) (s' : AutoBoot)
    (log : List BootEvent) (h : RunAnswered past s) (hstep : s.step a = some (s', log)) :
    StepAnswered past (a, log) ∧ RunAnswered (past ++ [(a, log)]) s' := by
  obtain ⟨⟨phase, hphase⟩, hstack⟩ := h
  obtain ⟨phase', _, hphase'⟩ := step_agrees s phase a s' log hphase hstep
  obtain ⟨windowsStarted, stack⟩ := s
  rw [AutoBoot.step.eq_def] at hstep
  split at hstep
  · -- a callback starts inside those that run
    rename_i callback
    split_ifs at hstep with hcalls
    cases hstep
    refine ⟨stepAnswered_silent past _ (by simp), ⟨phase', hphase'⟩, ?_⟩
    intro point hmem
    cases List.mem_cons.mp hmem with
    | inl hnew =>
      rw [hnew]
      cases callback <;> exact trivial
    | inr hold =>
      refine (hstack point hold).append ?_ _ (by simp)
      have hright := hphase.stack
      cases hright with
      | none => cases hold
      | one main =>
        rw [List.mem_singleton.mp hold]
        exact hcalls
      | two loop main _ => cases hcalls
  · have hright := hphase.stack
    cases hright with
    | none => cases hstep
    | one main =>
      obtain ⟨o, ho, heq⟩ := Option.map_eq_some_iff.mp hstep
      cases heq
      have hanswered := advance_answered past windowsStarted main a o
        (hstack main List.mem_cons_self) ho
      refine ⟨hanswered.step, ⟨phase', hphase'⟩, ?_⟩
      intro point hmem
      rw [List.append_nil, Option.mem_toList] at hmem
      exact hanswered.point point hmem
    | two loop main hcalls =>
      obtain ⟨o, ho, heq⟩ := Option.map_eq_some_iff.mp hstep
      cases heq
      have hanswered := advance_answered past windowsStarted (.loop loop) a o
        (hstack _ List.mem_cons_self) ho
      refine ⟨hanswered.step, ⟨phase', hphase'⟩, ?_⟩
      intro point hmem
      cases List.mem_append.mp hmem with
      | inl hmem => exact hanswered.point point (Option.mem_toList.mp hmem)
      | inr hmem =>
        -- the outer callback waits; the inner one attempts nothing
        rw [List.mem_singleton.mp hmem]
        refine (hstack main (by simp)).append hcalls _ ?_
        have hset : windowsStarted = true := by
          have hstarted := hphase.started
          rw [← hphase.made] at hstarted
          exact hstarted.symm.trans (calls_busy windowsStarted main hcalls)
        rw [hset] at ho
        intro e he
        exact BootEvent.passes_attempts e ((advance_nested loop a o ho).log e he)

/-! ## every run -/

/-- **Windows is started at most once**, in every run of the callbacks and of what they call; and
each step of the run is one that the answers before it call for -/
theorem windows_started_once (as : List BootAction) (s : AutoBoot) (log : List BootEvent)
    (hrun : runLog AutoBoot.step .init as = some (s, log)) :
    StartsRight log ∧ ∃ history, runLog (stepEntry AutoBoot.step) .init as = some (s, history) ∧
      history.map Prod.fst = as ∧ history.flatMap Prod.snd = log ∧ AnswersRight history := by
  obtain ⟨history, hhistory, hactions, hlog⟩ := runLog_entries AutoBoot.step .init s as log hrun
  refine ⟨run_startsRight as s log hrun, history, hhistory, hactions, hlog, ?_⟩
  refine history_right AutoBoot.step RunAnswered StepAnswered step_answered .init s [] as history
    ⟨⟨.idle, .none, rfl, rfl⟩, ?_⟩ hhistory
  intro point hmem
  cases hmem

/-- the answers that bring an internal volume with the loader to `LoadImage` -/
def loaderFound : List BootAction :=
  [.blockIo .success (some ⟨true, false⟩), .fileSystem .success, .openVolume .success,
    .openFile .success, .fileDevicePath true]

/-- the start from the volume 1 fails, and a callback that runs inside it skips the volume 2; then
that one is started -/
def twoVolumes : List BootAction :=
  List.flatten
    [[.signal .fileSystemNotify, .locateHandle .success 1], loaderFound,
      [.loadImage .success, .loadedImage .success ⟨0x1000, 8⟩, .signal .readyToBoot,
        .locateBlockIo .notFound [], .locateFileSystems .success [2], .goOn, .startImage .notFound,
        .locateHandle .success 2], loaderFound,
      [.loadImage .success, .loadedImage .success ⟨0x1000, 8⟩, .startImage .success, .goOn]]

theorem twoVolumes_started :
    ∃ s log, runLog AutoBoot.step .init twoVolumes = some (s, log) ∧
      log = [.checked 1, .attempt 1 ⟨true, false⟩ .success, .startImage 1 ⟨0, 0⟩, .skipped 2,
        .leaves, .startReturned 1 .notFound, .checked 2, .attempt 2 ⟨true, false⟩ .success,
        .startImage 2 ⟨0, 0⟩, .startReturned 2 .success, .leaves] ∧ StartsRight log ∧
      ∃ history, history.map Prod.fst = twoVolumes ∧ AnswersRight history := by
  have hrun : runLog AutoBoot.step .init twoVolumes = some (⟨true, []⟩,
      [.checked 1, .attempt 1 ⟨true, false⟩ .success, .startImage 1 ⟨0, 0⟩, .skipped 2,
        .leaves, .startReturned 1 .notFound, .checked 2, .attempt 2 ⟨true, false⟩ .success,
        .startImage 2 ⟨0, 0⟩, .startReturned 2 .success, .leaves]) := by
    decide +kernel
  obtain ⟨hstarts, history, _, hactions, _, hanswers⟩ := windows_started_once twoVolumes _ _ hrun
  exact ⟨_, _, hrun, rfl, hstarts, history, hactions, hanswers⟩

end AppleSilicon
