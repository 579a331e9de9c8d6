import AppleSilicon.Lib.Logged
import AppleSilicon.Lib.Status

/-!
# The checks before a boot

`MsPreBootChecks` looks at the power and at the temperature before anything is booted.  It tries
again while one of them is bad, as often as it is told, with a wait for the cooling in between, and
shuts the machine down when the last round was bad.  Power that is too low has to be mitigated in
every round; where that fails the loop is left at once.  A sensor that returns an error is taken for
a good one.

* `preBootRounds_induct`     the ways a round goes;
* `rounds_good_iff`          when the loop ends with both good;
* `rounds_reason`            what it found bad, it has measured in one of them;
* `msPreBootChecks_boots`    when the machine boots, and what it does else.
-/

namespace AppleSilicon

/-- why the machine is shut down -/
inductive ShutdownReason where
  | thermal
  | power
deriving DecidableEq, Repr

/-- what is done; a sensor is asked in a round -/
inductive PreBootEvent where
  | powerCheck (round : ℕ)
  | powerMitigate (round : ℕ)
  | thermalCheck (round : ℕ)
  | wait
  | closeEvent
  /-- the picture, the wait and `ResetSystem`, which does not return -/
  | shutdown (reason : ShutdownReason)
deriving DecidableEq, Repr

def PreBootEvent.looks : PreBootEvent → Bool
  | powerCheck _ => true
  | _ => false

def PreBootEvent.shutsDown : PreBootEvent → Bool
  | shutdown _ => true
  | _ => false

/-- what the calls return in each round -/
structure Sensors where
  systemPowerCheck : ℕ → StatusCode × Bool
  systemPowerMitigate : ℕ → StatusCode
  systemThermalCheck : ℕ → StatusCode × Bool

namespace Sensors

/-- the power is good, or cannot be read -/
def powerOk (sensors : Sensors) (k : ℕ) : Bool :=
  (sensors.systemPowerCheck k).1.isError || (sensors.systemPowerCheck k).2

def thermalOk (sensors : Sensors) (k : ℕ) : Bool :=
  (sensors.systemThermalCheck k).1.isError || (sensors.systemThermalCheck k).2

def mitigated (sensors : Sensors) (k : ℕ) : Bool := !(sensors.systemPowerMitigate k).isError

end Sensors

/-- the variables at `CleanUp` -/
structure PreBootState where
  powerGood : Bool
  thermalGood : Bool
  status : StatusCode

section
variable (sensors : Sensors)

/-- the power in round `k`: `PowerGood`, or nothing if the mitigation fails -/
def powerStep (k : ℕ) : Logged PreBootEvent (Option Bool) :=
  (Logged.note (.powerCheck k)).bind fun _ =>
    if sensors.powerOk k then Logged.pure (some true)
    else (Logged.note (.powerMitigate k)).bind fun _ =>
      Logged.pure (if sensors.mitigated k then some false else none)

/-- the temperature in round `k`: `ThermalGood`, after a wait if there is a retry left -/
def thermalStep (k retryCount : ℕ) : Logged PreBootEvent Bool :=
  (Logged.note (.thermalCheck k)).bind fun _ =>
    if sensors.thermalOk k then Logged.pure true
    else if 0 < retryCount then (Logged.note .wait).bind fun _ => Logged.pure false
    else Logged.pure false

/-- the loop from round `k` on with `ThermalGood` from the round before -/
def preBootRounds : ℕ → ℕ → Bool → Logged PreBootEvent PreBootState
  | retryCount, k, thermalGood =>
    (powerStep sensors k).bind fun power =>
      match power with
      | none => Logged.pure ⟨false, thermalGood, sensors.systemPowerMitigate k⟩
      | some powerGood =>
        (thermalStep sensors k retryCount).bind fun thermalGood =>
          match retryCount with
          | 0 => Logged.pure ⟨powerGood, thermalGood, (sensors.systemThermalCheck k).1⟩
          | retries + 1 =>
            if !thermalGood || !powerGood then preBootRounds retries (k + 1) thermalGood
            else Logged.pure ⟨powerGood, thermalGood, (sensors.systemThermalCheck k).1⟩

/-- `MsPreBootChecks`: the status of creating the timer, and `PcdPowerAndThermalRetries` as an
`INT32` -/
def msPreBootChecks (createEvent : StatusCode) (powerAndThermalRetries : ℤ) :
    Logged PreBootEvent StatusCode :=
  if createEvent.isError then Logged.pure createEvent
  else (preBootRounds sensors powerAndThermalRetries.toNat 0 true).bind fun s =>
    (Logged.note .closeEvent).bind fun _ =>
      if !s.thermalGood then (Logged.note (.shutdown .thermal)).bind fun _ => Logged.stop
      else if !s.powerGood then (Logged.note (.shutdown .power)).bind fun _ => Logged.stop
      else Logged.pure s.status

end

/-! ## the rounds -/

/-- both are good in round `k` -/
def Sensors.Good (sensors : Sensors) (k : ℕ) : Prop :=
  sensors.powerOk k = true ∧ sensors.thermalOk k = true

/-- round `k` goes on to the next -/
def Sensors.GoesOn (sensors : Sensors) (k : ℕ) : Prop :=
  sensors.powerOk k = true ∨ sensors.mitigated k = true

/-- the sensor was asked in round `k`, and showed the reason -/
def ShutdownReason.Measured (sensors : Sensors) (log : List PreBootEvent) (k : ℕ) :
    ShutdownReason → Prop
  | .thermal => .thermalCheck k ∈ log ∧ sensors.thermalOk k = false
  | .power => .powerCheck k ∈ log ∧ sensors.powerOk k = false

theorem ShutdownReason.Measured.mono {sensors : Sensors} {log log' : List PreBootEvent} {k : ℕ}
    {reason : ShutdownReason} (h : reason.Measured sensors log k) (hlog : ∀ e ∈ log, e ∈ log') :
    reason.Measured sensors log' k := by
  cases reason with
  | thermal => exact ⟨hlog _ h.1, h.2⟩
  | power => exact ⟨hlog _ h.1, h.2⟩

section
variable (sensors : Sensors)

theorem powerStep_result (k : ℕ) : (powerStep sensors k).result
    = some (if sensors.powerOk k then some true
        else if sensors.mitigated k then some false else none) := by
  unfold powerStep
  cases sensors.powerOk k with
  | true => rfl
  | false => cases sensors.mitigated k <;> rfl

theorem thermalStep_result (k retryCount : ℕ) : (thermalStep sensors k retryCount).result
    = some (sensors.thermalOk k) := by
  unfold thermalStep
  cases sensors.thermalOk k with
  | true => rfl
  | false =>
    rw [Logged.note_bind, if_neg (by decide)]
    split
    · rfl
    · rfl

/-- a round, and the rounds behind it -/
theorem preBootRounds_result (retryCount k : ℕ) (thermalGood : Bool) :
    (preBootRounds sensors retryCount k thermalGood).result
      = if sensors.powerOk k = false ∧ sensors.mitigated k = false then
          some ⟨false, thermalGood, sensors.systemPowerMitigate k⟩
        else if retryCount = 0 ∨ sensors.powerOk k = true ∧ sensors.thermalOk k = true then
          some ⟨sensors.powerOk k, sensors.thermalOk k, (sensors.systemThermalCheck k).1⟩
        else (preBootRounds sensors (retryCount - 1) (k + 1) (sensors.thermalOk k)).result := by
  rw [preBootRounds, Logged.bind_result, powerStep_result, Option.bind_some]
  cases hp : sensors.powerOk k with
  | true =>
    simp only [if_true, Logged.bind_result, thermalStep_result, Option.bind_some]
    cases retryCount with
    | zero => simp [Logged.pure]
    | succ n => cases sensors.thermalOk k <;> simp [Logged.pure]
  | false =>
    cases hm : sensors.mitigated k with
    | true =>
      simp only [Bool.false_eq_true, if_false, if_true, Logged.bind_result, thermalStep_result,
        Option.bind_some]
      cases retryCount with
      | zero => simp [Logged.pure]
      | succ n => cases sensors.thermalOk k <;> simp
    | false => simp [Logged.pure]

/-- what a round notes, and the rounds behind it -/
theorem preBootRounds_log (retryCount k : ℕ) (thermalGood : Bool) :
    (preBootRounds sensors retryCount k thermalGood).log = (powerStep sensors k).log ++
      if sensors.powerOk k = false ∧ sensors.mitigated k = false then []
      else (thermalStep sensors k retryCount).log ++
        if retryCount = 0 ∨ sensors.powerOk k = true ∧ sensors.thermalOk k = true then []
        else (preBootRounds sensors (retryCount - 1) (k + 1) (sensors.thermalOk k)).log := by
  rw [preBootRounds, Logged.bind_some _ _ _ (powerStep_result sensors k)]
  cases hp : sensors.powerOk k with
  | true =>
    simp only [if_true]
    rw [Logged.bind_some _ _ _ (thermalStep_result sensors k retryCount)]
    cases retryCount with
    | zero => simp [Logged.pure]
    | succ n => cases sensors.thermalOk k <;> simp [Logged.pure]
  | false =>
    cases hm : sensors.mitigated k with
    | true =>
      simp only [Bool.false_eq_true, if_false, if_true]
      rw [Logged.bind_some _ _ _ (thermalStep_result sensors k retryCount)]
      cases retryCount with
      | zero => simp [Logged.pure]
      | succ n => cases sensors.thermalOk k <;> simp
    | false => simp [Logged.pure]

/-- **the rounds, one after the other**: the mitigation fails, or the round is the last, or the others
are run behind it -/
theorem preBootRounds_induct {motive : ℕ → ℕ → Bool → Logged PreBootEvent PreBootState → Prop}
    (fails : ∀ retryCount k thermalGood, sensors.powerOk k = false → ¬ sensors.GoesOn k →
      motive retryCount k thermalGood
        ⟨(powerStep sensors k).log, some ⟨false, thermalGood, sensors.systemPowerMitigate k⟩⟩)
    (last : ∀ retryCount k thermalGood, retryCount = 0 ∨ sensors.Good k →
      motive retryCount k thermalGood
        ⟨(powerStep sensors k).log ++ (thermalStep sensors k retryCount).log,
          some ⟨sensors.powerOk k, sensors.thermalOk k, (sensors.systemThermalCheck k).1⟩⟩)
    (again : ∀ n k thermalGood rest, sensors.GoesOn k → ¬ sensors.Good k →
      motive n (k + 1) (sensors.thermalOk k) rest →
      motive (n + 1) k thermalGood
        ⟨(powerStep sensors k).log ++ ((thermalStep sensors k (n + 1)).log ++ rest.log),
          rest.result⟩)
    (retryCount k : ℕ) (thermalGood : Bool) :
    motive retryCount k thermalGood (preBootRounds sensors retryCount k thermalGood) := by
  have hrun : ∀ retryCount k thermalGood, preBootRounds sensors retryCount k thermalGood =
      ⟨(preBootRounds sensors retryCount k thermalGood).log,
        (preBootRounds sensors retryCount k thermalGood).result⟩ := fun _ _ _ => rfl
  have hgoesOn : ∀ k, ¬ (sensors.powerOk k = false ∧ sensors.mitigated k = false) →
      sensors.GoesOn k := by
    intro k h
    rw [not_and_or, Bool.not_eq_false, Bool.not_eq_false] at h
    exact h
  induction retryCount generalizing k thermalGood with
  | zero =>
    rw [hrun, preBootRounds_log, preBootRounds_result]
    by_cases hfail : sensors.powerOk k = false ∧ sensors.mitigated k = false
    · rw [if_pos hfail, if_pos hfail, List.append_nil]
      exact fails _ _ _ hfail.1 (by simp [Sensors.GoesOn, hfail])
    · rw [if_neg hfail, if_neg hfail, if_pos (.inl rfl), if_pos (.inl rfl), List.append_nil]
      exact last _ _ _ (.inl rfl)
  | succ n ih =>
    rw [hrun, preBootRounds_log, preBootRounds_result]
    by_cases hfail : sensors.powerOk k = false ∧ sensors.mitigated k = false
    · rw [if_pos hfail, if_pos hfail, List.append_nil]
      exact fails _ _ _ hfail.1 (by simp [Sensors.GoesOn, hfail])
    · rw [if_neg hfail, if_neg hfail]
      by_cases hgood : sensors.powerOk k = true ∧ sensors.thermalOk k = true
      · rw [if_pos (.inr hgood), if_pos (.inr hgood), List.append_nil]
        exact last _ _ _ (.inr hgood)
      · rw [if_neg (by simp [hgood]), if_neg (by simp [hgood]), Nat.add_sub_cancel]
        exact again n k thermalGood _ (hgoesOn k hfail) hgood (ih (k + 1) (sensors.thermalOk k))

/-- **the loop ends with both good** exactly when some round within the retries has both good, and
in the rounds before it low power was mitigated -/
theorem rounds_good_iff (retryCount k : ℕ) (thermalGood : Bool) :
    ∃ s, (preBootRounds sensors retryCount k thermalGood).result = some s ∧
      (s.powerGood = true ∧ s.thermalGood = true ↔
        ∃ i ≤ retryCount, sensors.Good (k + i) ∧ ∀ j < i, sensors.GoesOn (k + j)) := by
  refine preBootRounds_induct sensors (motive := fun retryCount k _ run =>
    ∃ s, run.result = some s ∧ (s.powerGood = true ∧ s.thermalGood = true ↔
      ∃ i ≤ retryCount, sensors.Good (k + i) ∧ ∀ j < i, sensors.GoesOn (k + j)))
    ?_ ?_ ?_ retryCount k thermalGood
  · intro retryCount k thermalGood hbad hfail
    refine ⟨_, rfl, ?_⟩
    simp only [Bool.false_eq_true, false_and, false_iff, not_exists, not_and]
    intro i _ hgood hon
    cases i with
    | zero => exact absurd hgood.1 (by simp [hbad])
    | succ i => exact hfail (hon 0 (Nat.zero_lt_succ i))
  · intro retryCount k thermalGood hlast
    refine ⟨_, rfl, ?_⟩
    constructor
    · intro h
      exact ⟨0, Nat.zero_le _, h, fun j hj => absurd hj (Nat.not_lt_zero j)⟩
    · rintro ⟨i, hi, hgood, _⟩
      cases hlast with
      | inl hzero =>
        obtain rfl := Nat.le_zero.mp (hi.trans_eq hzero)
        exact hgood
      | inr hgood => exact hgood
  · intro n k thermalGood rest hon hbad hrest
    obtain ⟨s, hs, hiff⟩ := hrest
    refine ⟨s, hs, hiff.trans ?_⟩
    constructor
    · rintro ⟨i, hi, hg, hprev⟩
      refine ⟨i + 1, by omega, by rwa [← Nat.add_assoc, Nat.add_right_comm], ?_⟩
      intro j hj
      cases j with
      | zero => exact hon
      | succ j =>
        rw [← Nat.add_assoc, Nat.add_right_comm]
        exact hprev j (by omega)
    · rintro ⟨i, hi, hg, hprev⟩
      cases i with
      | zero => exact absurd hg hbad
      | succ i =>
        refine ⟨i, by omega, by rwa [Nat.add_right_comm, Nat.add_assoc], ?_⟩
        intro j hj
        rw [Nat.add_right_comm, Nat.add_assoc]
        exact hprev (j + 1) (by omega)

theorem powerStep_log (k : ℕ) : (powerStep sensors k).log
    = if sensors.powerOk k then [.powerCheck k] else [.powerCheck k, .powerMitigate k] := by
  unfold powerStep
  cases sensors.powerOk k with
  | true => rfl
  | false => rfl

theorem thermalStep_log (k retryCount : ℕ) : (thermalStep sensors k retryCount).log
    = if sensors.thermalOk k = false ∧ 0 < retryCount then [.thermalCheck k, .wait]
      else [.thermalCheck k] := by
  unfold thermalStep
  cases sensors.thermalOk k with
  | true => rfl
  | false =>
    rw [Logged.note_bind, if_neg (by decide)]
    by_cases h : 0 < retryCount
    · rw [if_pos h, if_pos ⟨rfl, h⟩]
      rfl
    · rw [if_neg h, if_neg fun hc => h hc.2]
      rfl

/-- the look at the power -/
theorem powerStep_counts (k : ℕ) : .powerCheck k ∈ (powerStep sensors k).log ∧
    (powerStep sensors k).log.count .wait = 0 ∧
    (powerStep sensors k).log.countP PreBootEvent.looks = 1 ∧
    (powerStep sensors k).log.filter PreBootEvent.shutsDown = [] := by
  rw [powerStep_log]
  split
  · exact ⟨by simp, by simp, rfl, rfl⟩
  · exact ⟨by simp, by simp, rfl, rfl⟩

/-- the look at the temperature waits once where a retry is left -/
theorem thermalStep_counts (k retryCount : ℕ) :
    .thermalCheck k ∈ (thermalStep sensors k retryCount).log ∧
    (thermalStep sensors k retryCount).log.count .wait ≤ (if 0 < retryCount then 1 else 0) ∧
    (thermalStep sensors k retryCount).log.countP PreBootEvent.looks = 0 ∧
    (thermalStep sensors k retryCount).log.filter PreBootEvent.shutsDown = [] := by
  rw [thermalStep_log]
  split
  · next h => exact ⟨by simp, by simp [h.2], rfl, rfl⟩
  · exact ⟨by simp, by simp, rfl, rfl⟩

/-- the loop does not shut the machine down, and waits and looks at most this often -/
theorem rounds_log (retryCount k : ℕ) (thermalGood : Bool) :
    (preBootRounds sensors retryCount k thermalGood).log.count .wait ≤ retryCount ∧
      (preBootRounds sensors retryCount k thermalGood).log.countP PreBootEvent.looks
        ≤ retryCount + 1 ∧
      (preBootRounds sensors retryCount k thermalGood).log.filter PreBootEvent.shutsDown = [] := by
  refine preBootRounds_induct sensors (motive := fun retryCount _ _ run =>
    run.log.count .wait ≤ retryCount ∧ run.log.countP PreBootEvent.looks ≤ retryCount + 1 ∧
      run.log.filter PreBootEvent.shutsDown = []) ?_ ?_ ?_ retryCount k thermalGood
  · intro retryCount k thermalGood _ _
    obtain ⟨_, p1, p2, p3⟩ := powerStep_counts sensors k
    exact ⟨p1.le.trans (Nat.zero_le _), p2.le.trans (Nat.le_add_left 1 _), p3⟩
  · intro retryCount k thermalGood _
    obtain ⟨_, p1, p2, p3⟩ := powerStep_counts sensors k
    obtain ⟨_, t1, t2, t3⟩ := thermalStep_counts sensors k retryCount
    rw [List.count_append, List.countP_append, List.filter_append, p3, t3]
    refine ⟨?_, by omega, rfl⟩
    split at t1
    · omega
    · omega
  · intro n k thermalGood rest _ _ hrest
    obtain ⟨r1, r2, r3⟩ := hrest
    obtain ⟨_, p1, p2, p3⟩ := powerStep_counts sensors k
    obtain ⟨_, t1, t2, t3⟩ := thermalStep_counts sensors k (n + 1)
    rw [if_pos (Nat.zero_lt_succ n)] at t1
    rw [List.count_append, List.count_append, List.countP_append, List.countP_append,
      List.filter_append, List.filter_append, p3, t3, r3]
    exact ⟨by omega, by omega, rfl⟩

/-- **what the loop found bad**, a sensor has shown in one of the rounds that were run -/
theorem rounds_reason (retryCount k : ℕ) (thermalGood : Bool) (s : PreBootState)
    (hs : (preBootRounds sensors retryCount k thermalGood).result = some s) :
    (s.thermalGood = false → thermalGood = false ∨ ∃ i, ShutdownReason.Measured sensors
      (preBootRounds sensors retryCount k thermalGood).log i .thermal) ∧
    (s.powerGood = false → ∃ i, ShutdownReason.Measured sensors
      (preBootRounds sensors retryCount k thermalGood).log i .power) := by
  refine preBootRounds_induct sensors (motive := fun _ _ thermalGood run =>
    ∀ s, run.result = some s →
      (s.thermalGood = false → thermalGood = false ∨ ∃ i, ShutdownReason.Measured sensors
        run.log i .thermal) ∧
      (s.powerGood = false → ∃ i, ShutdownReason.Measured sensors run.log i .power))
    ?_ ?_ ?_ retryCount k thermalGood s hs
  · intro retryCount k thermalGood hbad _ s hs
    obtain ⟨hlook, _⟩ := powerStep_counts sensors k
    obtain rfl := Option.some.inj hs
    exact ⟨.inl, fun _ => ⟨k, hlook, hbad⟩⟩
  · intro retryCount k thermalGood _ s hs
    obtain ⟨hlook, _⟩ := powerStep_counts sensors k
    obtain ⟨hfeel, _⟩ := thermalStep_counts sensors k retryCount
    obtain rfl := Option.some.inj hs
    exact ⟨fun h => .inr ⟨k, List.mem_append_right _ hfeel, h⟩,
      fun h => ⟨k, List.mem_append_left _ hlook, h⟩⟩
  · intro n k thermalGood rest _ _ hrest s hs
    obtain ⟨hfeel, _⟩ := thermalStep_counts sensors k (n + 1)
    obtain ⟨hthermal, hpower⟩ := hrest s hs
    -- what the rounds behind this one showed is in the log behind its events
    have hbehind : ∀ e ∈ rest.log,
        e ∈ (powerStep sensors k).log ++ ((thermalStep sensors k (n + 1)).log ++ rest.log) :=
      fun e he => List.mem_append_right _ (List.mem_append_right _ he)
    refine ⟨?_, ?_⟩
    · intro h
      rcases hthermal h with hk | ⟨i, hi⟩
      · exact .inr ⟨k, List.mem_append_right _ (List.mem_append_left _ hfeel), hk⟩
      · exact .inr ⟨i, hi.mono hbehind⟩
    · intro h
      obtain ⟨i, hi⟩ := hpower h
      exact ⟨i, hi.mono hbehind⟩

/-- why the machine is shut down after the rounds: the temperature comes before the power -/
def PreBootState.reason (s : PreBootState) : Option ShutdownReason :=
  if !s.thermalGood then some .thermal
  else if !s.powerGood then some .power
  else none

theorem PreBootState.reason_none_iff (s : PreBootState) :
    s.reason = none ↔ s.powerGood = true ∧ s.thermalGood = true := by
  unfold PreBootState.reason
  cases s.thermalGood with
  | false => simp
  | true => cases s.powerGood <;> simp

/-- what follows the rounds -/
theorem msPreBootChecks_ends (createEvent : StatusCode) (powerAndThermalRetries : ℤ)
    (s : PreBootState) (herr : createEvent.isError = false)
    (hs : (preBootRounds sensors powerAndThermalRetries.toNat 0 true).result = some s) :
    msPreBootChecks sensors createEvent powerAndThermalRetries
      = ⟨(preBootRounds sensors powerAndThermalRetries.toNat 0 true).log
          ++ .closeEvent :: (s.reason.map PreBootEvent.shutdown).toList,
        if s.reason = none then some s.status else none⟩ := by
  rw [msPreBootChecks, herr, if_neg (by decide), Logged.bind_some _ _ s hs]
  unfold PreBootState.reason
  cases s.thermalGood with
  | false => rfl
  | true =>
    cases s.powerGood with
    | false => rfl
    | true => rfl

/-- a sensor showed the reason -/
theorem reason_measured (retryCount : ℕ) (s : PreBootState) (reason : ShutdownReason)
    (hs : (preBootRounds sensors retryCount 0 true).result = some s)
    (hreason : s.reason = some reason) :
    ∃ i, reason.Measured sensors (preBootRounds sensors retryCount 0 true).log i := by
  obtain ⟨hthermal, hpower⟩ := rounds_reason sensors retryCount 0 true s hs
  simp only [Bool.true_eq_false, false_or] at hthermal
  unfold PreBootState.reason at hreason
  cases ht : s.thermalGood with
  | false =>
    rw [ht] at hreason
    obtain rfl := Option.some.inj hreason
    exact hthermal ht
  | true =>
    cases hp : s.powerGood with
    | false =>
      rw [ht, hp] at hreason
      obtain rfl := Option.some.inj hreason
      exact hpower hp
    | true =>
      rw [ht, hp] at hreason
      cases hreason

/-- **the checks before a boot**: the machine boots exactly when the timer cannot be created, or a
round within the retries finds both sensors good and low power was mitigated in the rounds before
it.  Otherwise it is shut down once, for a reason that a sensor has shown in a round that was run.
It waits at most once for every retry, and looks once more than that -/
theorem msPreBootChecks_boots (createEvent : StatusCode) (powerAndThermalRetries : ℤ) :
    let run := msPreBootChecks sensors createEvent powerAndThermalRetries
    let retries := powerAndThermalRetries.toNat
    (run.result.isSome = true ↔ createEvent.isError = true ∨
      ∃ i ≤ retries, sensors.Good i ∧ ∀ j < i, sensors.GoesOn j) ∧
    (run.result.isSome = true → run.log.filter PreBootEvent.shutsDown = []) ∧
    (run.result = none → ∃ reason, run.log.filter PreBootEvent.shutsDown = [.shutdown reason] ∧
      ∃ i, reason.Measured sensors run.log i) ∧
    run.log.count .wait ≤ retries ∧ run.log.countP PreBootEvent.looks ≤ retries + 1 := by
  intro run retries
  show (run.result.isSome = true ↔ _) ∧ _
  cases herr : createEvent.isError with
  | true =>
    have hrun : run = Logged.pure createEvent := by
      show msPreBootChecks sensors createEvent powerAndThermalRetries = _
      rw [msPreBootChecks, if_pos herr]
    rw [hrun]
    simp [Logged.pure]
  | false =>
    obtain ⟨s, hs, hgood⟩ := rounds_good_iff sensors retries 0 true
    obtain ⟨hwait, hlook, hno⟩ := rounds_log sensors retries 0 true
    simp only [Nat.zero_add] at hgood
    have hrun : run = ⟨(preBootRounds sensors retries 0 true).log
        ++ .closeEvent :: (s.reason.map PreBootEvent.shutdown).toList,
        if s.reason = none then some s.status else none⟩ :=
      msPreBootChecks_ends sensors createEvent powerAndThermalRetries s herr hs
    rw [hrun, ← hgood, ← s.reason_none_iff]
    dsimp only
    rw [List.filter_append, List.count_append, List.countP_append, hno]
    cases hreason : s.reason with
    | none =>
      exact ⟨by simp, fun _ => rfl, by simp, hwait, hlook⟩
    | some reason =>
      obtain ⟨i, hi⟩ := reason_measured sensors retries s reason hs hreason
      refine ⟨by simp, by simp, fun _ => ⟨reason, rfl, i, ?_⟩, by simpa using hwait, hlook⟩
      exact hi.mono fun e he => List.mem_append_left _ he

end

end AppleSilicon
