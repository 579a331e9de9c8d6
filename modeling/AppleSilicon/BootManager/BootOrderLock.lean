import AppleSilicon.BootManager.LoadOption
import AppleSilicon.Lib.Status

/-!
# Locking the boot order

When the setting for it is on, `BdsBootLockBootVariables` locks `BootOrder`, deletes `BootNext` and
locks it, and then locks the option variable of every entry of the boot order.  A second call would
do so again.  The variables are kept by the variable services and its policies.

* `lockNames_spec`            the loop over the boot order;
* `lockBootVariables_locks`   what one call has locked;
* `bootOrder_locked`          what is locked stays as it is, whatever is done later.
-/

namespace AppleSilicon

/-- `SetVariable`, `GetVariable2` and `RegisterBasicVariablePolicy` with the type `LOCK_NOW`, for the
variables of `gEfiGlobalVariableGuid`; no data deletes a variable -/
structure VariableServices (S : Type*) where
  getVariable2 : S → List Char → Option (List UInt8)
  setVariable : S → List Char → List UInt8 → StatusCode × S
  registerLockNow : S → List Char → StatusCode × S
  locked : S → List Char → Prop

/-- the locked variables are still locked, with the same values -/
def VariableServices.Held {S : Type*} (v : VariableServices S) (s s' : S) : Prop :=
  ∀ n, v.locked s n → v.locked s' n ∧ v.getVariable2 s' n = v.getVariable2 s n

def bootOrderName : List Char := ['B', 'o', 'o', 't', 'O', 'r', 'd', 'e', 'r']

def bootNextName : List Char := ['B', 'o', 'o', 't', 'N', 'e', 'x', 't']

/-- what the variable services promise -/
structure VariableServices.Documented {S : Type*} (v : VariableServices S) : Prop where
  set_held : ∀ s n data, v.Held s (v.setVariable s n data).2
  /-- to delete `BootNext` changes no other variable -/
  next_other : ∀ s m, m ≠ bootNextName →
    v.getVariable2 (v.setVariable s bootNextName []).2 m = v.getVariable2 s m
  set_deletes : ∀ s n, (v.setVariable s n []).1.isError = false ∨
    (v.setVariable s n []).1 = .notFound → v.getVariable2 (v.setVariable s n []).2 n = none
  lock_locks : ∀ s n, (v.registerLockNow s n).1.isError = false → v.locked (v.registerLockNow s n).2 n
  lock_held : ∀ s n, v.Held s (v.registerLockNow s n).2
  lock_value : ∀ s n m, v.getVariable2 (v.registerLockNow s n).2 m = v.getVariable2 s m

/-- the entries of a boot order; half an entry at the end is left out -/
def bootOrderEntries : List UInt8 → List UInt16
  | lo :: hi :: rest => (lo.toUInt16 ||| (hi.toUInt16 <<< 8)) :: bootOrderEntries rest
  | _ => []

inductive LockEvent where
  | locked (name : List Char) (status : StatusCode)
  | bootNextDeleted (status : StatusCode)
deriving DecidableEq, Repr

/-- the service did what it was asked for -/
def LockEvent.Ok : LockEvent → Prop
  | locked _ status => status.isError = false
  | bootNextDeleted status => status.isError = false ∨ status = .notFound

instance : DecidablePred LockEvent.Ok
  | .locked _ status => inferInstanceAs (Decidable (status.isError = false))
  | .bootNextDeleted _ => inferInstanceAs (Decidable (_ ∨ _))

section
variable {S : Type*} (v : VariableServices S)

def lockName (name : List Char) (s : S) : S × List LockEvent :=
  let r := v.registerLockNow s name
  (r.2, [.locked name r.1])

/-- the loop over the boot order -/
def lockNames : List UInt16 → S → S × List LockEvent
  | [], s => (s, [])
  | n :: rest, s =>
    let first := lockName v (bootOptionName n) s
    let more := lockNames rest first.1
    (more.1, first.2 ++ more.2)

/-- `BdsBootLockBootVariables` once it has the policy protocol -/
def lockBootVariables (s : S) : S × List LockEvent :=
  let order := lockName v bootOrderName s
  let deleted := v.setVariable order.1 bootNextName []
  let next := lockName v bootNextName deleted.2
  let log := order.2 ++ .bootNextDeleted deleted.1 :: next.2
  match v.getVariable2 next.1 bootOrderName with
  | none => (next.1, log)
  | some bootOrder =>
    let options := lockNames v (bootOrderEntries bootOrder) next.1
    (options.1, log ++ options.2)

/-- `BdsBootLockBootVariables`: what `GetBootManagerSetting` and `LocateProtocol` return.
`AlreadyLocked` is never set -/
def bdsBootLockBootVariables (bootOrderLock : StatusCode × Bool) (locateProtocol : StatusCode)
    (s : S) : S × List LockEvent :=
  if bootOrderLock.1.isError then (s, [])
  else if !bootOrderLock.2 then (s, [])
  else if locateProtocol.isError then (s, [])
  else lockBootVariables v s

/-- what is done to the variables -/
inductive VariableAction where
  | readyToBoot (bootOrderLock : StatusCode × Bool) (locateProtocol : StatusCode)
  | setVariable (name : List Char) (data : List UInt8)

def variableStep (s : S) : VariableAction → S
  | .readyToBoot bootOrderLock locateProtocol =>
    (bdsBootLockBootVariables v bootOrderLock locateProtocol s).1
  | .setVariable name data => (v.setVariable s name data).2

end

/-! ## names -/

theorem bootOptionName_ne_bootNext (n : UInt16) : bootOptionName n ≠ bootNextName := by
  intro h
  have hlen := congrArg List.length h
  unfold bootOptionName bootNextName hex4 at h
  simp only [List.map_cons, List.map_nil, List.cons_append, List.nil_append, List.cons.injEq] at h
  have hdigit : ∀ d < 16, (Nat.digitChar d).toUpper ≠ 'N' := by decide
  have hn := n.toNat_lt
  exact hdigit _ (by omega) h.2.2.2.2.1

/-! ## one call -/

section
variable {S : Type*} (v : VariableServices S)

theorem VariableServices.Held.refl (s : S) : v.Held s s := fun _ h => ⟨h, rfl⟩

variable {v} in
theorem VariableServices.Held.trans {s s' s'' : S} (h : v.Held s s') (h' : v.Held s' s'') :
    v.Held s s'' := by
  intro n hn
  obtain ⟨hl, hv⟩ := h n hn
  obtain ⟨hl', hv'⟩ := h' n hl
  exact ⟨hl', hv'.trans hv⟩

variable (hlib : v.Documented)
include hlib

/-- **the loop** changes no value and locks the option of every entry -/
theorem lockNames_spec (entries : List UInt16) (s : S) :
    v.Held s (lockNames v entries s).1 ∧
      (∀ m, v.getVariable2 (lockNames v entries s).1 m = v.getVariable2 s m) ∧
      ((∀ e ∈ (lockNames v entries s).2, e.Ok) →
        ∀ n ∈ entries, v.locked (lockNames v entries s).1 (bootOptionName n)) := by
  induction entries generalizing s with
  | nil => exact ⟨.refl v s, fun _ => rfl, nofun⟩
  | cons n rest ih =>
    obtain ⟨hheld, hvalue, hlocks⟩ := ih (lockName v (bootOptionName n) s).1
    unfold lockNames
    refine ⟨(hlib.lock_held s _).trans hheld, ?_, ?_⟩
    · intro m
      exact (hvalue m).trans (hlib.lock_value s _ m)
    · intro hok m hm
      rcases List.mem_cons.mp hm with rfl | hm
      · have hfirst := hok (.locked (bootOptionName m) _) (List.mem_append_left _
          (List.mem_singleton_self _))
        exact (hheld _ (hlib.lock_locks s _ hfirst)).1
      · exact hlocks (fun e he => hok e (List.mem_append_right _ he)) m hm

/-- before the loop: every value but that of `BootNext` is as it was -/
theorem lockBootVariables_next (s : S) :
    let deleted := v.setVariable (v.registerLockNow s bootOrderName).2 bootNextName []
    let next := (v.registerLockNow deleted.2 bootNextName).2
    v.Held s next ∧ (∀ m, m ≠ bootNextName → v.getVariable2 next m = v.getVariable2 s m) ∧
      ((v.registerLockNow s bootOrderName).1.isError = false → v.locked next bootOrderName) ∧
      ((v.registerLockNow deleted.2 bootNextName).1.isError = false → v.locked next bootNextName) ∧
      (deleted.1.isError = false ∨ deleted.1 = .notFound → v.getVariable2 next bootNextName = none) := by
  intro deleted next
  have hdeleted : v.Held (v.registerLockNow s bootOrderName).2 deleted.2 := hlib.set_held _ _ _
  have hnext : v.Held deleted.2 next := hlib.lock_held _ _
  refine ⟨((hlib.lock_held s bootOrderName).trans hdeleted).trans hnext, ?_, ?_, ?_, ?_⟩
  · intro m hm
    rw [hlib.lock_value, hlib.next_other _ m hm, hlib.lock_value]
  · intro hok
    exact ((hdeleted.trans hnext) _ (hlib.lock_locks s _ hok)).1
  · exact hlib.lock_locks deleted.2 bootNextName
  · intro hok
    rw [hlib.lock_value]
    exact hlib.set_deletes _ _ hok

/-- what is locked before a call stays so in it -/
theorem bootLock_held (bootOrderLock : StatusCode × Bool) (locateProtocol : StatusCode) (s : S) :
    v.Held s (bdsBootLockBootVariables v bootOrderLock locateProtocol s).1 := by
  unfold bdsBootLockBootVariables
  split
  · exact .refl v s
  · split
    · exact .refl v s
    · split
      · exact .refl v s
      · have hnext := (lockBootVariables_next v hlib s).1
        unfold lockBootVariables lockName
        dsimp only
        split
        · exact hnext
        · exact hnext.trans (lockNames_spec v hlib _ _).1

/-- **one call** locks the boot order, `BootNext`, which is deleted, and the options of the boot
order, if the services do what they are asked for -/
theorem lockBootVariables_locks (s : S) (hok : ∀ e ∈ (lockBootVariables v s).2, e.Ok) :
    let s' := (lockBootVariables v s).1
    (v.locked s' bootOrderName ∧ v.getVariable2 s' bootOrderName = v.getVariable2 s bootOrderName) ∧
      (v.locked s' bootNextName ∧ v.getVariable2 s' bootNextName = none) ∧
      ∀ data, v.getVariable2 s bootOrderName = some data → ∀ n ∈ bootOrderEntries data,
        v.locked s' (bootOptionName n) ∧
          v.getVariable2 s' (bootOptionName n) = v.getVariable2 s (bootOptionName n) := by
  intro s'
  have hs' : s' = (lockBootVariables v s).1 := rfl
  obtain ⟨_, hvalue, horder, hnext, hgone⟩ := lockBootVariables_next v hlib s
  have hname : bootOrderName ≠ bootNextName := by decide
  unfold lockBootVariables lockName at hok hs'
  dsimp only at hok hs'
  rw [hvalue bootOrderName hname] at hok hs'
  cases hdata : v.getVariable2 s bootOrderName with
  | none =>
    rw [hdata] at hok hs'
    dsimp only at hok hs'
    rw [hs']
    have h1 := hok (.locked bootOrderName _) (List.mem_append_left _ (List.mem_singleton_self _))
    have h2 := hok (.bootNextDeleted _) (List.mem_append_right _ List.mem_cons_self)
    have h3 := hok (.locked bootNextName _)
      (List.mem_append_right _ (List.mem_cons_of_mem _ (List.mem_singleton_self _)))
    exact ⟨⟨horder h1, (hvalue _ hname).trans hdata⟩, ⟨hnext h3, hgone h2⟩, nofun⟩
  | some data =>
    rw [hdata] at hok hs'
    dsimp only at hok hs'
    rw [hs']
    have h1 := hok (.locked bootOrderName _)
      (List.mem_append_left _ (List.mem_append_left _ (List.mem_singleton_self _)))
    have h2 := hok (.bootNextDeleted _)
      (List.mem_append_left _ (List.mem_append_right _ List.mem_cons_self))
    have h3 := hok (.locked bootNextName _) (List.mem_append_left _
      (List.mem_append_right _ (List.mem_cons_of_mem _ (List.mem_singleton_self _))))
    obtain ⟨hheld, hsame, hlocks⟩ := lockNames_spec v hlib (bootOrderEntries data)
      (v.registerLockNow (v.setVariable (v.registerLockNow s bootOrderName).2 bootNextName []).2
        bootNextName).2
    refine ⟨⟨(hheld _ (horder h1)).1, (hsame _).trans ((hvalue _ hname).trans hdata)⟩,
      ⟨(hheld _ (hnext h3)).1, (hsame _).trans (hgone h2)⟩, ?_⟩
    intro data' hdata' n hn
    obtain rfl := Option.some.inj hdata'
    exact ⟨hlocks (fun e he => hok e (List.mem_append_right _ he)) n hn,
      (hsame _).trans (hvalue _ (bootOptionName_ne_bootNext n))⟩

/-! ## runs -/

theorem variableStep_held (actions : List VariableAction) (s : S) :
    v.Held s (actions.foldl (variableStep v) s) := by
  induction actions generalizing s with
  | nil => exact .refl v s
  | cons a actions ih =>
    have hstep : v.Held s (variableStep v s a) := by
      cases a with
      | readyToBoot bootOrderLock locateProtocol => exact bootLock_held v hlib _ _ s
      | setVariable name data => exact hlib.set_held s name data
    exact hstep.trans (ih _)

/-- **what is locked stays as it is**: after a ready-to-boot with the setting on, in which the
services did what they were asked for, the boot order, the options that it names and the absence of
`BootNext` outlast all later writes and ready-to-boots.  With the setting off, or not to be had,
nothing is done -/
theorem bootOrder_locked (bootOrderLock : StatusCode × Bool) (locateProtocol : StatusCode) (s : S) :
    let call := bdsBootLockBootVariables v bootOrderLock locateProtocol s
    (bootOrderLock.1.isError = true ∨ bootOrderLock.2 = false ∨ locateProtocol.isError = true →
      call = (s, [])) ∧
    (bootOrderLock.1.isError = false → bootOrderLock.2 = true → locateProtocol.isError = false →
      (∀ e ∈ call.2, e.Ok) → ∀ actions : List VariableAction,
        let s' := actions.foldl (variableStep v) call.1
        v.getVariable2 s' bootOrderName = v.getVariable2 s bootOrderName ∧
          v.getVariable2 s' bootNextName = none ∧
          ∀ data, v.getVariable2 s bootOrderName = some data → ∀ n ∈ bootOrderEntries data,
            v.getVariable2 s' (bootOptionName n) = v.getVariable2 s (bootOptionName n)) := by
  intro call
  have hcall : call = bdsBootLockBootVariables v bootOrderLock locateProtocol s := rfl
  unfold bdsBootLockBootVariables at hcall
  refine ⟨?_, ?_⟩
  · intro hoff
    rw [hcall]
    rcases hoff with h | h | h
    · rw [if_pos h]
    · simp [h]
    · simp [h]
  · intro hget hon hlocate hok actions s'
    rw [if_neg (by simp [hget]), if_neg (by simp [hon]), if_neg (by simp [hlocate])] at hcall
    rw [hcall] at hok
    obtain ⟨⟨hlo, hvo⟩, ⟨hln, hvn⟩, hoptions⟩ := lockBootVariables_locks v hlib s hok
    have hheld : v.Held (lockBootVariables v s).1 s' := by
      rw [← hcall]
      exact variableStep_held v hlib actions call.1
    refine ⟨(hheld _ hlo).2.trans hvo, (hheld _ hln).2.trans hvn, ?_⟩
    intro data hdata n hn
    obtain ⟨hl, hv⟩ := hoptions data hdata n hn
    exact (hheld _ hl).2.trans hv

end

/-! ## an example -/

def StatusCode.writeProtected : StatusCode := 0x8000000000000008
def StatusCode.alreadyStarted : StatusCode := 0x8000000000000014

abbrev FlaggedStore := (List Char → Option (List UInt8)) × (List Char → Bool)

/-- variables with a flag for their lock; a second lock is an error -/
def flaggedServices : VariableServices FlaggedStore where
  getVariable2 s n := s.1 n
  setVariable s n data :=
    if s.2 n then (.writeProtected, s)
    else if data = [] ∧ s.1 n = none then (.notFound, s)
    else (.success, (Function.update s.1 n (if data = [] then none else some data), s.2))
  registerLockNow s n :=
    if s.2 n then (.alreadyStarted, s) else (.success, (s.1, Function.update s.2 n true))
  locked s n := s.2 n = true

theorem flaggedServices_documented : flaggedServices.Documented := by
  have hset : ∀ (s : FlaggedStore) n data, (flaggedServices.setVariable s n data).2.2 = s.2 ∧
      ∀ m, m ≠ n ∨ s.2 n = true → (flaggedServices.setVariable s n data).2.1 m = s.1 m := by
    intro s n data
    unfold flaggedServices
    dsimp only
    split
    · exact ⟨rfl, fun _ _ => rfl⟩
    · rename_i hfree
      split
      · exact ⟨rfl, fun _ _ => rfl⟩
      · refine ⟨rfl, fun m hm => ?_⟩
        exact Function.update_of_ne (hm.resolve_right hfree) _ _
  have hlock : ∀ (s : FlaggedStore) n, (flaggedServices.registerLockNow s n).2.1 = s.1 ∧
      ∀ m, s.2 m = true ∨ m = n → (flaggedServices.registerLockNow s n).2.2 m = true := by
    intro s n
    unfold flaggedServices
    dsimp only
    split
    · rename_i hlocked
      refine ⟨rfl, fun m hm => ?_⟩
      rcases hm with hm | hm
      · exact hm
      · exact hm ▸ hlocked
    · refine ⟨rfl, fun m hm => ?_⟩
      by_cases h : m = n
      · rw [h]
        exact Function.update_self ..
      · exact (Function.update_of_ne h _ _).trans (hm.resolve_right h)
  refine ⟨?_, ?_, ?_, ?_, ?_, ?_⟩
  · intro s n data m hm
    obtain ⟨hflags, hvalues⟩ := hset s n data
    refine ⟨(congrFun hflags m).trans hm, hvalues m ?_⟩
    by_cases h : m = n
    · exact Or.inr (h ▸ hm)
    · exact Or.inl h
  · intro s m hm
    exact (hset s bootNextName []).2 m (Or.inl hm)
  · intro s n hok
    unfold flaggedServices at hok ⊢
    dsimp only at hok ⊢
    split at hok
    · have herror : ¬ (StatusCode.writeProtected.isError = false ∨
          StatusCode.writeProtected = .notFound) := by decide
      exact absurd hok herror
    · split at hok
      · rename_i hgone
        rw [if_neg ‹_›, if_pos hgone]
        exact hgone.2
      · rename_i hthere
        rw [if_neg ‹_›, if_neg hthere]
        exact Function.update_self ..
  · intro s n _
    exact (hlock s n).2 n (Or.inr rfl)
  · intro s n m hm
    exact ⟨(hlock s n).2 m (Or.inl hm), congrFun (hlock s n).1 m⟩
  · intro s n m
    exact congrFun (hlock s n).1 m

/-- two options in the order, and a `BootNext` -/
def exampleVariables : FlaggedStore :=
  (fun n => if n = bootOrderName then some [2, 0, 1, 0] else if n = bootNextName then some [1, 0]
    else if n = bootOptionName 1 ∨ n = bootOptionName 2 then some [7] else none, fun _ => false)

theorem exampleVariables_locked :
    let s' := [VariableAction.setVariable bootOrderName [1, 0],
        .readyToBoot (.success, true) .success, .setVariable bootNextName [2, 0],
        .setVariable (bootOptionName 2) [8]].foldl (variableStep flaggedServices)
      (bdsBootLockBootVariables flaggedServices (.success, true) .success exampleVariables).1
    s'.1 bootOrderName = some [2, 0, 1, 0] ∧ s'.1 bootNextName = none ∧
      s'.1 (bootOptionName 1) = some [7] ∧ s'.1 (bootOptionName 2) = some [7] := by
  intro s'
  obtain ⟨horder, hnext, hoptions⟩ := (bootOrder_locked flaggedServices flaggedServices_documented
    (.success, true) .success exampleVariables).2 (by decide) rfl (by decide) (by decide)
    [.setVariable bootOrderName [1, 0], .readyToBoot (.success, true) .success,
      .setVariable bootNextName [2, 0], .setVariable (bootOptionName 2) [8]]
  exact ⟨horder, hnext, hoptions [2, 0, 1, 0] rfl 1 (by decide), hoptions [2, 0, 1, 0] rfl 2 (by decide)⟩

end AppleSilicon
