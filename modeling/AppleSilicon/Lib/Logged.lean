import AppleSilicon.Lib.Loop

/-!
# Computations that keep a log

A computation makes notes in a log on its way, and it may stop before its result: then the result is
`none`, but the log is still there.

* `bind_result`   the results compose as `Option` does, so a computation with a log is tied to the
  one without;
* `bind_all`      everything the log of a composition says is right, told by its parts;
* `preceded_append`   what stands in front of the events of a log;
* `runLoopLog_result`   a loop with a log leaves with what the loop without leaves with.
-/

namespace AppleSilicon

structure Logged (E : Type*) (α : Type*) where
  log : List E
  result : Option α
deriving DecidableEq

namespace Logged

variable {E α β γ : Type*}

def pure (a : α) : Logged E α := ⟨[], some a⟩

def stop : Logged E α := ⟨[], none⟩

def note (e : E) : Logged E Unit := ⟨[e], some ()⟩

def notes (l : List E) : Logged E Unit := ⟨l, some ()⟩

/-- a computation that writes nothing -/
def ofOption (o : Option α) : Logged E α := ⟨[], o⟩

def bind (x : Logged E α) (f : α → Logged E β) : Logged E β :=
  match x.result with
  | none => ⟨x.log, none⟩
  | some a => ⟨x.log ++ (f a).log, (f a).result⟩

theorem bind_none (x : Logged E α) (f : α → Logged E β) (h : x.result = none) :
    x.bind f = ⟨x.log, none⟩ := by
  rw [bind, h]

theorem bind_some (x : Logged E α) (f : α → Logged E β) (a : α) (h : x.result = some a) :
    x.bind f = ⟨x.log ++ (f a).log, (f a).result⟩ := by
  rw [bind, h]

theorem ofOption_bind (o : Option α) (f : α → Logged E β) (a : α) (h : o = some a) :
    (ofOption o).bind f = f a := by
  rw [h]
  rfl

theorem pure_bind (a : α) (f : α → Logged E β) : (pure a).bind f = f a := rfl

theorem note_bind (e : E) (f : Unit → Logged E β) :
    (note e).bind f = ⟨e :: (f ()).log, (f ()).result⟩ := rfl

/-- **the results compose** as if there were no log -/
theorem bind_result (x : Logged E α) (f : α → Logged E β) :
    (x.bind f).result = x.result.bind fun a => (f a).result := by
  cases h : x.result with
  | none => rw [bind_none x f h, Option.bind_none]
  | some a => rw [bind_some x f a h, Option.bind_some]

theorem bind_assoc (x : Logged E α) (f : α → Logged E β) (g : β → Logged E γ) :
    (x.bind f).bind g = x.bind fun a => (f a).bind g := by
  cases hx : x.result with
  | none => rw [bind_none x f hx, bind_none x _ hx, bind_none _ _ rfl]
  | some a =>
    rw [bind_some x f a hx, bind_some x _ a hx]
    cases hf : (f a).result with
    | none => rw [bind_none (f a) g hf, bind_none _ g rfl]
    | some b =>
      rw [bind_some (f a) g b hf, bind_some _ g b rfl, List.append_assoc]

/-- everything the log says is right -/
def All (P : E → Prop) (x : Logged E α) : Prop := ∀ e ∈ x.log, P e

instance (P : E → Prop) [DecidablePred P] (x : Logged E α) : Decidable (x.All P) :=
  inferInstanceAs (Decidable (∀ e ∈ x.log, P e))

theorem all_silent (P : E → Prop) (x : Logged E α) (h : x.log = []) : x.All P := by
  intro e he
  rw [h] at he
  cases he

theorem all_note (P : E → Prop) (e : E) : (note e).All P ↔ P e := List.forall_mem_singleton

/-- **a composition is right** exactly when its first part is and, where that has a result, the
second part is -/
theorem bind_all (P : E → Prop) (x : Logged E α) (f : α → Logged E β) :
    (x.bind f).All P ↔ x.All P ∧ ∀ a, x.result = some a → (f a).All P := by
  cases h : x.result with
  | none =>
    rw [bind_none x f h]
    exact ⟨fun hx => ⟨hx, fun a ha => by cases ha⟩, fun hx => hx.1⟩
  | some a =>
    rw [bind_some x f a h]
    constructor
    · intro hx
      refine ⟨fun e he => hx e (List.mem_append_left _ he), ?_⟩
      intro b hb e he
      obtain rfl := Option.some.inj hb
      exact hx e (List.mem_append_right _ he)
    · intro ⟨hx, hf⟩ e he
      cases List.mem_append.mp he with
      | inl he => exact hx e he
      | inr he => exact hf a rfl e he

theorem ofOption_bind_all (P : E → Prop) (o : Option α) (f : α → Logged E β) :
    ((ofOption o).bind f).All P ↔ ∀ a, o = some a → (f a).All P := by
  rw [bind_all]
  exact ⟨fun h => h.2, fun h => ⟨all_silent P _ rfl, h⟩⟩

theorem note_bind_all (P : E → Prop) (e : E) (f : Unit → Logged E β) :
    ((note e).bind f).All P ↔ P e ∧ (f ()).All P := by
  rw [note_bind]
  exact List.forall_mem_cons

theorem notes_bind_all (P : E → Prop) (l : List E) (f : Unit → Logged E β) :
    ((notes l).bind f).All P ↔ (∀ e ∈ l, P e) ∧ (f ()).All P := by
  rw [bind_all]
  exact ⟨fun h => ⟨h.1, h.2 () rfl⟩, fun h => ⟨h.1, fun _ _ => h.2⟩⟩

/-! ## what comes before an event -/

/-- what the log says in front of an event is right for it -/
def Preceded (P : List E → E → Prop) (log : List E) : Prop :=
  ∀ before e after, log = before ++ e :: after → P before e

theorem Preceded.all {P : List E → E → Prop} {Q : E → Prop} {log : List E} (h : Preceded P log)
    (hP : ∀ before e, P before e → Q e) : ∀ e ∈ log, Q e := by
  intro e he
  obtain ⟨before, after, hlog⟩ := List.append_of_mem he
  exact hP before e (h before e after hlog)

/-- **one log behind another**, where nothing is spoilt by what comes before -/
theorem preceded_append {P : List E → E → Prop}
    (hP : ∀ l before e, P before e → P (l ++ before) e) {l l' : List E} (h : Preceded P l)
    (h' : Preceded P l') : Preceded P (l ++ l') := by
  intro before e after hlog
  rcases List.append_eq_append_iff.mp hlog with ⟨front, hbefore, hlog⟩ | ⟨back, hlog, hback⟩
  · rw [hbefore]
    exact hP l front e (h' front e after hlog)
  · cases back with
    | nil =>
      have hlog' : l' = [] ++ e :: after := hback.symm
      have hbefore : before = l ++ [] := by rw [hlog, List.append_nil, List.append_nil]
      rw [hbefore]
      exact hP l [] e (h' [] e after hlog')
    | cons b back =>
      obtain ⟨rfl, _⟩ := List.cons.inj hback
      exact h before e back hlog

theorem preceded_concat {P : List E → E → Prop} (l : List E) (e : E)
    (hl : ∀ before, ∀ a ∈ l, P before a) (he : P l e) : Preceded P (l ++ [e]) := by
  intro before a after hlog
  cases after using List.reverseRecOn with
  | nil =>
    obtain ⟨rfl, ha⟩ := List.append_inj' hlog rfl
    obtain ⟨rfl, _⟩ := List.cons.inj ha
    exact he
  | append_singleton after z =>
    rw [← List.cons_append, ← List.append_assoc] at hlog
    obtain ⟨rfl, _⟩ := List.append_inj' hlog rfl
    exact hl before a (by simp)

/-! ## loops -/

variable {S R : Type*}

/-- `runLoop`, where each turn keeps a log -/
def runLoopLog (turn : S → Logged E (Turn S R)) : ℕ → S → Logged E R
  | 0, _ => stop
  | n + 1, s =>
    (turn s).bind fun t =>
      match t with
      | .again s => runLoopLog turn n s
      | .leave r => pure r

/-- **a loop with a log** leaves with what the loop without leaves with -/
theorem runLoopLog_result (turn : S → Logged E (Turn S R)) (n : ℕ) (s : S) :
    (runLoopLog turn n s).result = runLoop (fun s => (turn s).result) n s := by
  induction n generalizing s with
  | zero => rfl
  | succ n ih =>
    rw [runLoopLog, runLoop, bind_result]
    cases (turn s).result with
    | none => rfl
    | some t =>
      cases t with
      | again s => exact ih s
      | leave r => rfl

end Logged

end AppleSilicon
