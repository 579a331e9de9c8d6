import AppleSilicon.Lib.LogRun

/-!
# Monitors

A monitor reads a log entry by entry and moves between phases; an entry that it does not allow in
its phase stops it.  What a log without such an entry looks like follows from the monitor alone, and
that the logs of a system have none is a simulation.

* `monitor_split`      the phases before and behind an entry;
* `monitor_invariant`  an invariant of the phase and of the log so far;
* `runLog_monitored`   the steps of a system are allowed, so are its runs.
-/

namespace AppleSilicon

variable {S A L P : Type*}

def monitor (next : P → L → Option P) (p : P) (log : List L) : Option P := log.foldlM next p

theorem monitor_cons (next : P → L → Option P) (p : P) (e : L) (log : List L) :
    monitor next p (e :: log) = (next p e).bind fun q => monitor next q log := rfl

theorem monitor_append (next : P → L → Option P) (p : P) (log log' : List L) :
    monitor next p (log ++ log') = (monitor next p log).bind fun q => monitor next q log' := by
  rw [monitor, List.foldlM_append]
  rfl

/-- the phases before and behind an entry -/
theorem monitor_split (next : P → L → Option P) (p r : P) (pre post : List L) (e : L)
    (h : monitor next p (pre ++ e :: post) = some r) :
    ∃ q q', monitor next p pre = some q ∧ next q e = some q' ∧ monitor next q' post = some r := by
  rw [monitor_append] at h
  obtain ⟨q, hpre, hrest⟩ := Option.bind_eq_some_iff.mp h
  rw [monitor_cons] at hrest
  obtain ⟨q', he, hpost⟩ := Option.bind_eq_some_iff.mp hrest
  exact ⟨q, q', hpre, he, hpost⟩

/-- **an invariant** of the phase and of the log so far -/
theorem monitor_invariant (next : P → L → Option P) (inv : P → List L → Prop)
    (hnext : ∀ q past e q', inv q past → next q e = some q' → inv q' (past ++ [e]))
    (p r : P) (past log : List L) (hinv : inv p past) (h : monitor next p log = some r) :
    inv r (past ++ log) := by
  induction log generalizing p past with
  | nil =>
    cases h
    rw [List.append_nil]
    exact hinv
  | cons e log ih =>
    rw [monitor_cons] at h
    obtain ⟨q, he, hlog⟩ := Option.bind_eq_some_iff.mp h
    rw [List.append_cons]
    exact ih q (past ++ [e]) (hnext p past e q hinv he) hlog

/-- a phase that the entries do not change -/
theorem monitor_stays (next : P → L → Option P) (p : P) (log : List L)
    (h : ∀ e ∈ log, next p e = some p) : monitor next p log = some p := by
  induction log with
  | nil => rfl
  | cons e log ih =>
    rw [monitor_cons, h e List.mem_cons_self, Option.bind_some]
    exact ih fun e' he' => h e' (List.mem_cons_of_mem e he')

/-- **a simulation**: if the log of a step takes the phase of the state to that of the next state,
the log of a run does -/
theorem runLog_monitored (step : S → A → Option (S × List L)) (next : P → L → Option P)
    (agrees : S → P → Prop)
    (hstep : ∀ s p a s' log, agrees s p → step s a = some (s', log) →
      ∃ p', monitor next p log = some p' ∧ agrees s' p')
    (s s' : S) (p : P) (as : List A) (log : List L) (hs : agrees s p)
    (h : runLog step s as = some (s', log)) :
    ∃ p', monitor next p log = some p' ∧ agrees s' p' := by
  induction as generalizing s p log with
  | nil =>
    cases h
    exact ⟨p, rfl, hs⟩
  | cons a as ih =>
    obtain ⟨s₁, log₁, log₂, h1, h2, rfl⟩ := (runLog_cons step s s' a as log).mp h
    obtain ⟨p₁, hp₁, hs₁⟩ := hstep s p a s₁ log₁ hs h1
    obtain ⟨p₂, hp₂, hs₂⟩ := ih s₁ p₁ log₂ hs₁ h2
    refine ⟨p₂, ?_, hs₂⟩
    rw [monitor_append, hp₁, Option.bind_some, hp₂]

end AppleSilicon
