import Mathlib

/-!
# Runs of a partial step that keeps a log

A step takes a state to the next one and says what it did, or fails.  A run does this for a list of
actions and collects what was done.  The rules take a fact about one step to a fact about a run.

* `runLog_all_iff`      when a run succeeds and everything it did is right, told by a condition on
  an abstraction of the state before each action;
* `runLog_meets_iff`    the same, told by a condition on the states themselves;
* `runLog_conserves`    what comes in is what went out and what is left;
* `runLog_replay`       the state at the end can be read off the log;
* `runLog_invariant`    an invariant of the state and of the log so far;
* `SetLast`             something was set after it was last cleared.
-/

namespace AppleSilicon

variable {S A L T E : Type*}

def runLog (step : S → A → Option (S × List L)) (s : S) : List A → Option (S × List L)
  | [] => some (s, [])
  | a :: as => (step s a).bind fun r =>
      (runLog step r.1 as).map fun r' => (r'.1, r.2 ++ r'.2)

/-- the condition `ok` holds before each action, where the actions move the abstract state -/
def RunOk (next : T → A → T) (ok : T → A → Prop) (t : T) : List A → Prop
  | [] => True
  | a :: as => ok t a ∧ RunOk next ok (next t a) as

theorem runOk_forall (next : T → A → T) (ok : A → Prop) (t : T) (as : List A) :
    RunOk next (fun _ a => ok a) t as ↔ ∀ a ∈ as, ok a := by
  induction as generalizing t with
  | nil => simp [RunOk]
  | cons a as ih => rw [RunOk, ih, List.forall_mem_cons]

theorem runLog_cons (step : S → A → Option (S × List L)) (s s' : S) (a : A) (as : List A)
    (log : List L) :
    runLog step s (a :: as) = some (s', log) ↔ ∃ s₁ log₁ log₂, step s a = some (s₁, log₁) ∧
      runLog step s₁ as = some (s', log₂) ∧ log = log₁ ++ log₂ := by
  rw [runLog]
  constructor
  · intro h
    obtain ⟨⟨s₁, log₁⟩, h1, h2⟩ := Option.bind_eq_some_iff.mp h
    obtain ⟨⟨s₂, log₂⟩, h3, h4⟩ := Option.map_eq_some_iff.mp h2
    cases h4
    exact ⟨s₁, log₁, log₂, h1, h3, rfl⟩
  · intro ⟨s₁, log₁, log₂, h1, h2, h3⟩
    rw [h1, Option.bind_some, h2, h3]
    rfl

/-- **a run is right** exactly when the condition holds before each action, if a step is right
exactly when the condition holds before it and moves the abstract state as told -/
theorem runLog_all_iff (step : S → A → Option (S × List L)) (right : L → Prop) (abs : S → T)
    (next : T → A → T) (ok : T → A → Prop)
    (hnext : ∀ s a s' log, step s a = some (s', log) → abs s' = next (abs s) a)
    (hstep : ∀ s a, (∃ s' log, step s a = some (s', log) ∧ ∀ x ∈ log, right x) ↔ ok (abs s) a)
    (s : S) (as : List A) :
    (∃ s' log, runLog step s as = some (s', log) ∧ ∀ x ∈ log, right x) ↔
      RunOk next ok (abs s) as := by
  induction as generalizing s with
  | nil => simp [runLog, RunOk]
  | cons a as ih =>
    rw [RunOk, ← hstep s a]
    constructor
    · intro ⟨s', log, hrun, hright⟩
      obtain ⟨s₁, log₁, log₂, h1, h2, rfl⟩ := (runLog_cons step s s' a as log).mp hrun
      refine ⟨⟨s₁, log₁, h1, fun x hx => hright x (List.mem_append_left _ hx)⟩, ?_⟩
      rw [← hnext s a s₁ log₁ h1, ← ih]
      exact ⟨s', log₂, h2, fun x hx => hright x (List.mem_append_right _ hx)⟩
    · intro ⟨⟨s₁, log₁, h1, hright₁⟩, hok⟩
      rw [← hnext s a s₁ log₁ h1, ← ih] at hok
      obtain ⟨s', log₂, h2, hright₂⟩ := hok
      refine ⟨s', log₁ ++ log₂, (runLog_cons step s s' a as _).mpr ⟨s₁, log₁, log₂, h1, h2, rfl⟩, ?_⟩
      intro x hx
      cases List.mem_append.mp hx with
      | inl hx => exact hright₁ x hx
      | inr hx => exact hright₂ x hx

/-- **nothing is lost or invented**: what the log names, in order, and then what is left is what
was there and then what came in -/
theorem runLog_conserves (step : S → A → Option (S × List L)) (name : L → E) (left : S → List E)
    (comesIn : A → List E)
    (hstep : ∀ s a s' log, step s a = some (s', log) →
      log.map name ++ left s' = left s ++ comesIn a)
    (s s' : S) (as : List A) (log : List L) (h : runLog step s as = some (s', log)) :
    log.map name ++ left s' = left s ++ as.flatMap comesIn := by
  induction as generalizing s log with
  | nil =>
    cases h
    simp
  | cons a as ih =>
    obtain ⟨s₁, log₁, log₂, h1, h2, rfl⟩ := (runLog_cons step s s' a as log).mp h
    rw [List.map_append, List.append_assoc, ih s₁ log₂ h2, ← List.append_assoc, hstep s a s₁ log₁ h1,
      List.append_assoc, List.flatMap_cons]

/-- **the log tells the state**, if the log of one step tells what the step made of it -/
theorem runLog_replay (step : S → A → Option (S × List L)) (replay : S → L → S)
    (hstep : ∀ s a s' log, step s a = some (s', log) → s' = log.foldl replay s)
    (s s' : S) (as : List A) (log : List L) (h : runLog step s as = some (s', log)) :
    s' = log.foldl replay s := by
  induction as generalizing s log with
  | nil =>
    cases h
    rfl
  | cons a as ih =>
    obtain ⟨s₁, log₁, log₂, h1, h2, rfl⟩ := (runLog_cons step s s' a as log).mp h
    rw [List.foldl_append, ← hstep s a s₁ log₁ h1]
    exact ih s₁ log₂ h2

/-! ## invariants -/

/-- the condition `ok` holds in the state before each action of the run -/
def Meets (step : S → A → Option (S × List L)) (ok : S → A → Prop) (s : S) : List A → Prop
  | [] => True
  | a :: as => ok s a ∧ match step s a with
    | none => True
    | some r => Meets step ok r.1 as

instance Meets.decidable (step : S → A → Option (S × List L)) (ok : S → A → Prop)
    [∀ s a, Decidable (ok s a)] : ∀ s as, Decidable (Meets step ok s as)
  | _, [] => isTrue trivial
  | s, a :: as =>
    have : Decidable (match step s a with
        | none => True
        | some r => Meets step ok r.1 as) :=
      match step s a with
      | none => isTrue trivial
      | some r => Meets.decidable step ok r.1 as
    inferInstanceAs (Decidable (_ ∧ _))

/-- **an invariant** of the state and the log so far, if each step keeps it where the condition holds
before that step -/
theorem runLog_invariant (step : S → A → Option (S × List L)) (ok : S → A → Prop)
    (inv : S → List L → Prop)
    (hstep : ∀ s past a s' log, inv s past → ok s a → step s a = some (s', log) →
      inv s' (past ++ log))
    (s s' : S) (past : List L) (as : List A) (log : List L) (hinv : inv s past)
    (hok : Meets step ok s as) (h : runLog step s as = some (s', log)) : inv s' (past ++ log) := by
  induction as generalizing s past log with
  | nil =>
    cases h
    rw [List.append_nil]
    exact hinv
  | cons a as ih =>
    obtain ⟨s₁, log₁, log₂, h1, h2, rfl⟩ := (runLog_cons step s s' a as log).mp h
    have hrest : Meets step ok s₁ as := by
      have hmatch := hok.2
      rw [h1] at hmatch
      exact hmatch
    rw [← List.append_assoc]
    exact ih s₁ (past ++ log₁) log₂ (hstep s past a s₁ log₁ hinv hok.1 h1) hrest h2

/-- **a run succeeds and all it did is right** exactly when the condition holds before each of its
steps, if that is so of one allowed step from a state with the invariant, and such a step keeps it -/
theorem runLog_meets_iff (step : S → A → Option (S × List L)) (allowed ok : S → A → Prop)
    (inv : S → Prop) (right : L → Prop)
    (hstep : ∀ s a, inv s → allowed s a →
      ((∃ s' log, step s a = some (s', log) ∧ ∀ x ∈ log, right x) ↔ ok s a))
    (hkeeps : ∀ s a s' log, inv s → allowed s a → ok s a → step s a = some (s', log) → inv s')
    (s : S) (as : List A) (hinv : inv s) (hallowed : Meets step allowed s as) :
    (∃ s' log, runLog step s as = some (s', log) ∧ ∀ x ∈ log, right x) ↔
      Meets step ok s as := by
  induction as generalizing s with
  | nil => simp [runLog, Meets]
  | cons a as ih =>
    have hone := hstep s a hinv hallowed.1
    cases h : step s a with
    | none =>
      rw [runLog, Meets, h, ← hone, h]
      simp
    | some r =>
      obtain ⟨s₁, log₁⟩ := r
      have hrest : Meets step allowed s₁ as := by
        have hmatch := hallowed.2
        rw [h] at hmatch
        exact hmatch
      have hmeets : Meets step ok s (a :: as) ↔ ok s a ∧ Meets step ok s₁ as := by
        rw [Meets, h]
      rw [hmeets]
      constructor
      · intro hrun
        obtain ⟨s', log, hrun, hright⟩ := hrun
        obtain ⟨s₂, log₂, log₃, h₂, h₃, rfl⟩ := (runLog_cons step s s' a as log).mp hrun
        rw [h] at h₂
        cases h₂
        rw [List.forall_mem_append] at hright
        have hok := hone.mp ⟨s₁, log₁, h, hright.1⟩
        exact ⟨hok, (ih s₁ (hkeeps s a s₁ log₁ hinv hallowed.1 hok h) hrest).mp
          ⟨s', log₃, h₃, hright.2⟩⟩
      · rintro ⟨hok, hmeets⟩
        obtain ⟨s₂, log₂, h₂, hright⟩ := hone.mpr hok
        rw [h] at h₂
        cases h₂
        obtain ⟨s', log₃, h₃, hright'⟩ :=
          (ih s₁ (hkeeps s a s₁ log₁ hinv hallowed.1 hok h) hrest).mpr hmeets
        exact ⟨s', log₁ ++ log₃, (runLog_cons step s s' a as _).mpr
          ⟨s₁, log₁, log₃, h, h₃, rfl⟩, List.forall_mem_append.mpr ⟨hright, hright'⟩⟩

/-! ## the steps of a run -/

/-- a step, as one entry with its action and with what it logged -/
def stepEntry (step : S → A → Option (S × List L)) (s : S) (a : A) :
    Option (S × List (A × List L)) := (step s a).map fun r => (r.1, [(a, r.2)])

theorem runLog_entries (step : S → A → Option (S × List L)) (s s' : S) (as : List A)
    (log : List L) (h : runLog step s as = some (s', log)) :
    ∃ history, runLog (stepEntry step) s as = some (s', history) ∧
      history.map Prod.fst = as ∧ history.flatMap Prod.snd = log := by
  induction as generalizing s log with
  | nil =>
    cases h
    exact ⟨[], rfl, rfl, rfl⟩
  | cons a as ih =>
    obtain ⟨s₁, log₁, log₂, h1, h2, rfl⟩ := (runLog_cons step s s' a as log).mp h
    obtain ⟨history, hrun, rfl, rfl⟩ := ih s₁ log₂ h2
    have hentry : stepEntry step s a = some (s₁, [(a, log₁)]) := by
      rw [stepEntry, h1]
      rfl
    exact ⟨(a, log₁) :: history, (runLog_cons _ s s' a _ _).mpr
      ⟨s₁, [(a, log₁)], history, hentry, hrun, rfl⟩, rfl, rfl⟩

/-- **every step is right for those before it**, if that is so of a step from a state with the
invariant, and such a step keeps it -/
theorem history_right (step : S → A → Option (S × List L)) (inv : List (A × List L) → S → Prop)
    (right : List (A × List L) → A × List L → Prop)
    (hstep : ∀ past s a s' log, inv past s → step s a = some (s', log) →
      right past (a, log) ∧ inv (past ++ [(a, log)]) s')
    (s s' : S) (past : List (A × List L)) (as : List A) (history : List (A × List L))
    (hinv : inv past s) (h : runLog (stepEntry step) s as = some (s', history)) :
    ∀ before e after, history = before ++ e :: after → right (past ++ before) e := by
  induction as generalizing s past history with
  | nil =>
    cases h
    intro before e after hnil
    cases before <;> cases hnil
  | cons a as ih =>
    obtain ⟨_, _, rest, h1, h2, rfl⟩ := (runLog_cons _ s s' a as history).mp h
    obtain ⟨⟨s₁, log⟩, hlog, heq⟩ := Option.map_eq_some_iff.mp h1
    cases heq
    obtain ⟨hright, hkeeps⟩ := hstep past s a s₁ log hinv hlog
    intro before e after hsplit
    cases before with
    | nil =>
      cases hsplit
      rw [List.append_nil]
      exact hright
    | cons first before =>
      obtain ⟨rfl, hrest⟩ := List.cons.inj hsplit
      rw [List.append_cons]
      exact ih s₁ _ rest hkeeps h2 before e after hrest

/-! ## set after it was last cleared -/

/-- an entry of the log sets, and none behind it clears -/
def SetLast (sets clears : L → Prop) (log : List L) : Prop :=
  ∃ pre x post, log = pre ++ x :: post ∧ sets x ∧ ∀ y ∈ post, ¬ clears y

theorem SetLast.exists_sets {sets clears : L → Prop} {log : List L} (h : SetLast sets clears log) :
    ∃ x ∈ log, sets x := by
  obtain ⟨pre, x, post, rfl, hx, _⟩ := h
  exact ⟨x, by simp, hx⟩

theorem SetLast.behind {sets clears : L → Prop} {log : List L} (h : SetLast sets clears log)
    (before : List L) : SetLast sets clears (before ++ log) := by
  obtain ⟨pre, x, post, rfl, hx, hpost⟩ := h
  exact ⟨before ++ pre, x, post, by rw [List.append_assoc], hx, hpost⟩

theorem SetLast.append {sets clears : L → Prop} {log : List L} (h : SetLast sets clears log)
    (after : List L) (hafter : ∀ y ∈ after, ¬ clears y) : SetLast sets clears (log ++ after) := by
  obtain ⟨pre, x, post, rfl, hx, hpost⟩ := h
  refine ⟨pre, x, post ++ after, by simp, hx, ?_⟩
  intro y hy
  cases List.mem_append.mp hy with
  | inl hy => exact hpost y hy
  | inr hy => exact hafter y hy

end AppleSilicon
