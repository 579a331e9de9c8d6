import AppleSilicon.Lib.Logged
import AppleSilicon.Lib.Monitor

/-!
# Computations that the world answers

A computation makes notes of what it does to the world, and what it is answered may depend on
everything done so far.  A monitor of the log then gives it a logic: `Ends next p x post` says that
from phase `p` the monitor allows all that `x` does, whatever the world answers, and that `post`
holds of the result and of the phase it is left in.

* `Ends.bind`, `Ends.seq`   one computation after the other;
* `Ends.act`, `Ends.ask`   one entry of the log;
* `Ends.given`   a value that may be missing;
* `Only.bind`, `Total.bind`   all that is done is of one kind, there is a result.
-/

namespace AppleSilicon

/-- a computation, given what was done so far -/
def Traced (E : Type*) (α : Type*) := List E → Logged E α

namespace Traced

variable {E P α β : Type*}

def pure (a : α) : Traced E α := fun _ => Logged.pure a

def ofOption (o : Option α) : Traced E α := fun _ => Logged.ofOption o

/-- something is done -/
def act (e : E) : Traced E Unit := fun _ => Logged.note e

/-- something is asked for, and the answer is noted -/
def ask (answer : List E → β) (e : β → E) : Traced E β :=
  fun past => ⟨[e (answer past)], some (answer past)⟩

def bind (x : Traced E α) (f : α → Traced E β) : Traced E β :=
  fun past => (x past).bind fun a => f a (past ++ (x past).log)

theorem ofOption_bind (a : α) (f : α → Traced E β) : bind (ofOption (some a)) f = f a := by
  funext past
  unfold bind ofOption
  rw [Logged.ofOption_bind _ _ a rfl]
  show f a (past ++ []) = f a past
  rw [List.append_nil]

/-! ## the rules -/

/-- from phase `p` on, everything `x` does is allowed, and it ends with `post` -/
def Ends (next : P → E → Option P) (p : P) (x : Traced E α) (post : Option α → P → Prop) : Prop :=
  ∀ past, ∃ q, monitor next p (x past).log = some q ∧ post (x past).result q

theorem Ends.mono {next : P → E → Option P} {p : P} {x : Traced E α}
    {post post' : Option α → P → Prop} (h : Ends next p x post)
    (hpost : ∀ r q, post r q → post' r q) : Ends next p x post' := by
  intro past
  obtain ⟨q, hq, hr⟩ := h past
  exact ⟨q, hq, hpost _ _ hr⟩

theorem Ends.pure (next : P → E → Option P) (p : P) (a : α) (post : Option α → P → Prop)
    (h : post (some a) p) : Ends next p (pure a) post := fun _ => ⟨p, rfl, h⟩

theorem monitor_one (next : P → E → Option P) (p q : P) (e : E) (h : next p e = some q) :
    monitor next p [e] = some q := by
  rw [monitor_cons, h]
  rfl

theorem Ends.act (next : P → E → Option P) (p q : P) (e : E) (post : Option Unit → P → Prop)
    (h : next p e = some q) (hpost : post (some ()) q) : Ends next p (act e) post :=
  fun _ => ⟨q, monitor_one next p q e h, hpost⟩

theorem Ends.ask (next : P → E → Option P) (p : P) (answer : List E → β) (e : β → E)
    (post : Option β → P → Prop) (h : ∀ b, ∃ q, next p (e b) = some q ∧ post (some b) q) :
    Ends next p (ask answer e) post := by
  intro past
  obtain ⟨q, hq, hpost⟩ := h (answer past)
  exact ⟨q, monitor_one next p q _ hq, hpost⟩

/-- **one computation after the other** -/
theorem Ends.bind {next : P → E → Option P} {p : P} {x : Traced E α} {f : α → Traced E β}
    {mid : Option α → P → Prop} {post : Option β → P → Prop} (hx : Ends next p x mid)
    (hf : ∀ a q, mid (some a) q → Ends next q (f a) post)
    (hstop : ∀ q, mid none q → post none q) : Ends next p (bind x f) post := by
  intro past
  obtain ⟨q, hq, hmid⟩ := hx past
  unfold Traced.bind
  cases hr : (x past).result with
  | none =>
    rw [Logged.bind_none _ _ hr]
    rw [hr] at hmid
    exact ⟨q, hq, hstop q hmid⟩
  | some a =>
    rw [hr] at hmid
    obtain ⟨q', hq', hpost⟩ := hf a q hmid (past ++ (x past).log)
    rw [Logged.bind_some _ _ a hr]
    refine ⟨q', ?_, hpost⟩
    rw [monitor_append, hq, Option.bind_some]
    exact hq'

/-- something that may not be there -/
theorem Ends.given (next : P → E → Option P) (p : P) (o : Option α) (f : α → Traced E β)
    (post : Option β → P → Prop) (hf : ∀ a, o = some a → Ends next p (f a) post)
    (hstop : o = none → post none p) : Ends next p (Traced.bind (ofOption o) f) post := by
  cases o with
  | none => exact fun _ => ⟨p, rfl, hstop rfl⟩
  | some a =>
    rw [ofOption_bind]
    exact hf a rfl

/-- a computation that always has a result -/
theorem Ends.seq {next : P → E → Option P} {p : P} {x : Traced E α} {f : α → Traced E β}
    {mid : α → P → Prop} {post : Option β → P → Prop}
    (hx : Ends next p x fun r q => ∃ a, r = some a ∧ mid a q)
    (hf : ∀ a q, mid a q → Ends next q (f a) post) : Ends next p (Traced.bind x f) post := by
  refine hx.bind (fun a q h => ?_) (fun q h => ?_)
  · obtain ⟨a', e, hmid⟩ := h
    rw [Option.some.inj e]
    exact hf a' q hmid
  · obtain ⟨_, e, _⟩ := h
    cases e

/-! ## all that is done, and a result -/

/-- everything that is done is of one kind -/
def Only (P : E → Prop) (x : Traced E α) : Prop := ∀ past, (x past).All P

/-- there is a result, whatever the world answers -/
def Total (x : Traced E α) : Prop := ∀ past, ∃ a, (x past).result = some a

theorem only_pure (P : E → Prop) (a : α) : Only P (pure a) :=
  fun _ => Logged.all_silent P _ rfl

theorem only_ofOption (P : E → Prop) (o : Option α) : Only P (ofOption o) :=
  fun _ => Logged.all_silent P _ rfl

theorem only_act (P : E → Prop) (e : E) (h : P e) : Only P (act e) :=
  fun _ => (Logged.all_note P e).mpr h

theorem only_ask (P : E → Prop) (answer : List E → β) (e : β → E) (h : ∀ b, P (e b)) :
    Only P (ask answer e) := fun _ => List.forall_mem_singleton.mpr (h _)

theorem Only.bind {P : E → Prop} {x : Traced E α} {f : α → Traced E β} (hx : Only P x)
    (hf : ∀ a, Only P (f a)) : Only P (bind x f) :=
  fun past => (Logged.bind_all P _ _).mpr ⟨hx past, fun a _ => hf a _⟩

theorem total_pure (a : α) : Total (pure a : Traced E α) := fun _ => ⟨a, rfl⟩

theorem total_act (e : E) : Total (act e) := fun _ => ⟨(), rfl⟩

theorem total_ask (answer : List E → β) (e : β → E) : Total (ask answer e) := fun _ => ⟨_, rfl⟩

theorem Total.bind {x : Traced E α} {f : α → Traced E β} (hx : Total x)
    (hf : ∀ a, Total (f a)) : Total (bind x f) := by
  intro past
  obtain ⟨a, ha⟩ := hx past
  unfold Traced.bind
  rw [Logged.bind_some _ _ a ha]
  exact hf a _

end Traced

end AppleSilicon
