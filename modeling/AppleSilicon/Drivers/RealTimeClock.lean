import AppleSilicon.Lib.Status

/-!
# `VirtualRealTimeClockLib`

There is no clock that keeps the date.  `LibGetTime` tells the time since the start of the CPU
counter, and gives it the form of a date in one month; the day starts again after 28 days.

* `timeOfCounter_seconds`   what the date tells of the counter;
* `timeOfCounter_valid`     it is a date;
* `libGetTime_readings`     when a call succeeds, and what a series of readings tells.
-/

namespace AppleSilicon

/-- `EFI_TIME`, without its padding -/
structure EfiTime where
  year : UInt16
  month : UInt8
  day : UInt8
  hour : UInt8
  minute : UInt8
  second : UInt8
  nanosecond : UInt32
  timeZone : Int16
  daylight : UInt8
deriving DecidableEq, Repr

/-- `EFI_TIME_CAPABILITIES` -/
structure EfiTimeCapabilities where
  resolution : UInt32
  accuracy : UInt32
  setsToZero : Bool
deriving DecidableEq, Repr

/-- what a call returns and what it writes to `Time` and to `Capabilities` -/
structure GetTimeResult where
  status : StatusCode
  time : Option EfiTime
  capabilities : Option EfiTimeCapabilities
deriving DecidableEq, Repr

def secondsPerDay : UInt64 := 24 * 60 * 60
def secondsPerHour : UInt64 := 60 * 60
def secondsPerMinute : UInt64 := 60

/-- `BaseTime` behind `LibRtcInitialize` -/
def libRtcInitialize : EfiTime := ⟨2019, 1, 0, 0, 0, 0, 0, 0, 0⟩

/-- what `LibGetTime` writes to `Time` -/
def timeOfCounter (baseTime : EfiTime) (freq : UInt32) (performanceCounter : UInt64) : EfiTime :=
  let elapsedSeconds := performanceCounter / freq.toUInt64
  let elapsedDays := elapsedSeconds / secondsPerDay
  let ofDay := elapsedSeconds % secondsPerDay
  let ofHour := ofDay % secondsPerHour
  { year := baseTime.year
    month := baseTime.month
    day := (1 + elapsedDays % 28).toUInt8
    hour := (ofDay / secondsPerHour).toUInt8
    minute := (ofHour / secondsPerMinute).toUInt8
    second := (ofHour % secondsPerMinute).toUInt8
    nanosecond := 0
    timeZone := 0
    daylight := 0 }

/-- `LibGetTime`: whether the two pointers are given, what `ArmGenericTimerGetTimerFreq` returns and
the counter.  `none` is the `ASSERT` on the frequency -/
def libGetTime (debugAssertEnabled : Bool) (baseTime : EfiTime) (timerFreq performanceCounter : UInt64)
    (hasTime hasCapabilities : Bool) : Option GetTimeResult :=
  let freq := timerFreq.toUInt32
  if !hasTime then some ⟨.invalidParameter, none, none⟩
  else if freq = 0 then
    if debugAssertEnabled then none else some ⟨.deviceError, none, none⟩
  else some ⟨.success, some (timeOfCounter baseTime freq performanceCounter),
    if hasCapabilities then some ⟨freq, 0, false⟩ else none⟩

/-! ## dates -/

/-- the days of a month -/
def daysOfMonth (year : UInt16) (month : UInt8) : ℕ :=
  if month = 2 then
    if year.toNat % 4 = 0 ∧ (year.toNat % 100 ≠ 0 ∨ year.toNat % 400 = 0) then 29 else 28
  else if month = 4 ∨ month = 6 ∨ month = 9 ∨ month = 11 then 30
  else 31

/-- a date that a caller has to take -/
structure EfiTime.Valid (t : EfiTime) : Prop where
  year : 1900 ≤ t.year.toNat ∧ t.year.toNat ≤ 9999
  month : 1 ≤ t.month.toNat ∧ t.month.toNat ≤ 12
  day : 1 ≤ t.day.toNat ∧ t.day.toNat ≤ daysOfMonth t.year t.month
  hour : t.hour.toNat ≤ 23
  minute : t.minute.toNat ≤ 59
  second : t.second.toNat ≤ 59
  nanosecond : t.nanosecond.toNat ≤ 999999999

theorem le_daysOfMonth (year : UInt16) (month : UInt8) : 28 ≤ daysOfMonth year month := by
  unfold daysOfMonth
  split
  · split <;> omega
  · split <;> omega

/-- the seconds since the first day of the month -/
def EfiTime.seconds (t : EfiTime) : ℕ :=
  (t.day.toNat - 1) * 86400 + t.hour.toNat * 3600 + t.minute.toNat * 60 + t.second.toNat

/-- the days of the clock, in seconds -/
def clockPeriod : ℕ := 28 * 86400

/-- the time between two readings, for one who does not know how often the days have started again -/
def EfiTime.secondsTo (t t' : EfiTime) : ℕ := (t'.seconds + clockPeriod - t.seconds) % clockPeriod

/-- the time between readings, summed up -/
def measured : List EfiTime → ℕ
  | [] => 0
  | [_] => 0
  | t :: t' :: ts => t.secondsTo t' + measured (t' :: ts)

section
variable (baseTime : EfiTime) (freq : UInt32) (counter : UInt64)

/-- the parts of the time, as numbers -/
theorem timeOfCounter_toNat :
    let t := timeOfCounter baseTime freq counter
    let elapsed := counter.toNat / freq.toNat
    t.day.toNat = 1 + elapsed / 86400 % 28 ∧ t.hour.toNat = elapsed % 86400 / 3600 ∧
      t.minute.toNat = elapsed % 86400 % 3600 / 60 ∧ t.second.toNat = elapsed % 86400 % 3600 % 60 := by
  intro t elapsed
  have helapsed : (counter / freq.toUInt64).toNat = elapsed := by
    rw [UInt64.toNat_div, UInt32.toNat_toUInt64]
  have hday : secondsPerDay.toNat = 86400 := rfl
  have hhour : secondsPerHour.toNat = 3600 := rfl
  have hminute : secondsPerMinute.toNat = 60 := rfl
  refine ⟨?_, ?_, ?_, ?_⟩
  · show ((1 + counter / freq.toUInt64 / secondsPerDay % 28).toUInt8).toNat = _
    rw [UInt64.toNat_toUInt8, UInt64.toNat_add, UInt64.toNat_mod, UInt64.toNat_div, helapsed, hday]
    simp only [UInt64.reduceToNat]
    omega
  · show ((counter / freq.toUInt64 % secondsPerDay / secondsPerHour).toUInt8).toNat = _
    rw [UInt64.toNat_toUInt8, UInt64.toNat_div, UInt64.toNat_mod, helapsed, hday, hhour]
    omega
  · show ((counter / freq.toUInt64 % secondsPerDay % secondsPerHour / secondsPerMinute).toUInt8).toNat
      = _
    rw [UInt64.toNat_toUInt8, UInt64.toNat_div, UInt64.toNat_mod, UInt64.toNat_mod, helapsed, hday,
      hhour, hminute]
    omega
  · show ((counter / freq.toUInt64 % secondsPerDay % secondsPerHour % secondsPerMinute).toUInt8).toNat
      = _
    rw [UInt64.toNat_toUInt8, UInt64.toNat_mod, UInt64.toNat_mod, UInt64.toNat_mod, helapsed, hday,
      hhour, hminute]
    omega

/-- **what the date tells**: the seconds of the counter, up to the 28 days after which it starts
again -/
theorem timeOfCounter_seconds :
    (timeOfCounter baseTime freq counter).seconds = counter.toNat / freq.toNat % clockPeriod := by
  obtain ⟨hday, hhour, hminute, hsecond⟩ := timeOfCounter_toNat baseTime freq counter
  unfold EfiTime.seconds clockPeriod
  rw [hday, hhour, hminute, hsecond]
  omega

/-- **it is a date**, if the year and the month are -/
theorem timeOfCounter_valid (hyear : 1900 ≤ baseTime.year.toNat ∧ baseTime.year.toNat ≤ 9999)
    (hmonth : 1 ≤ baseTime.month.toNat ∧ baseTime.month.toNat ≤ 12) :
    (timeOfCounter baseTime freq counter).Valid := by
  obtain ⟨hday, hhour, hminute, hsecond⟩ := timeOfCounter_toNat baseTime freq counter
  have hdays := le_daysOfMonth (timeOfCounter baseTime freq counter).year
    (timeOfCounter baseTime freq counter).month
  exact ⟨hyear, hmonth, by omega, by omega, by omega, by omega, Nat.zero_le _⟩

end

/-! ## readings -/

/-- two readings less than 28 days apart tell the seconds between them -/
theorem secondsTo_timeOfCounter (baseTime : EfiTime) (freq : UInt32) (c c' : UInt64)
    (hle : c.toNat / freq.toNat ≤ c'.toNat / freq.toNat)
    (hgap : c'.toNat / freq.toNat < c.toNat / freq.toNat + clockPeriod) :
    (timeOfCounter baseTime freq c).secondsTo (timeOfCounter baseTime freq c')
      = c'.toNat / freq.toNat - c.toNat / freq.toNat := by
  unfold EfiTime.secondsTo
  rw [timeOfCounter_seconds, timeOfCounter_seconds]
  unfold clockPeriod at hgap ⊢
  omega

/-- the counter has not gone back, and 28 days have not passed -/
def Soon (freq : UInt32) (c c' : UInt64) : Prop :=
  c.toNat / freq.toNat ≤ c'.toNat / freq.toNat ∧
    c'.toNat / freq.toNat < c.toNat / freq.toNat + clockPeriod

instance (freq : UInt32) (c c' : UInt64) : Decidable (Soon freq c c') :=
  inferInstanceAs (Decidable (_ ∧ _))

theorem measured_timeOfCounter (baseTime : EfiTime) (freq : UInt32) (c : UInt64)
    (cs : List UInt64) (hsoon : List.IsChain (Soon freq) (c :: cs)) :
    c.toNat / freq.toNat + measured ((c :: cs).map (timeOfCounter baseTime freq))
      = ((c :: cs).getLast (List.cons_ne_nil c cs)).toNat / freq.toNat := by
  induction cs generalizing c with
  | nil => rfl
  | cons c' cs ih =>
    rw [List.isChain_cons_cons] at hsoon
    obtain ⟨⟨hle, hgap⟩, hrest⟩ := hsoon
    have hih := ih c' hrest
    rw [List.getLast_cons (List.cons_ne_nil c' cs), ← hih]
    show _ + ((timeOfCounter baseTime freq c).secondsTo (timeOfCounter baseTime freq c')
      + measured ((c' :: cs).map (timeOfCounter baseTime freq))) = _
    rw [secondsTo_timeOfCounter baseTime freq c c' hle hgap]
    omega

/-- **the clock**: a call succeeds exactly when it has a place for the time and the counter has a
frequency, and else it writes nothing.  Readings that follow one another within 28 days are dates,
and the times between them add up to the seconds that the counter has gone on -/
theorem libGetTime_readings (debugAssertEnabled : Bool) (timerFreq : UInt64) :
    (∀ baseTime c hasTime hasCapabilities r,
      libGetTime debugAssertEnabled baseTime timerFreq c hasTime hasCapabilities = some r →
        (r.status = .success ↔ hasTime = true ∧ timerFreq.toUInt32 ≠ 0) ∧
        (r.status ≠ .success → r.time = none ∧ r.capabilities = none)) ∧
    (timerFreq.toUInt32 ≠ 0 → ∀ (c : UInt64) (cs : List UInt64),
      List.IsChain (Soon timerFreq.toUInt32) (c :: cs) →
      ∃ ts : List EfiTime,
        (c :: cs).map (fun c => (libGetTime debugAssertEnabled libRtcInitialize timerFreq c true
          false).map GetTimeResult.time) = ts.map (fun t => some (some t)) ∧
        (∀ t ∈ ts, t.Valid) ∧
        c.toNat / timerFreq.toUInt32.toNat + measured ts
          = ((c :: cs).getLast (List.cons_ne_nil c cs)).toNat / timerFreq.toUInt32.toNat) := by
  refine ⟨?_, ?_⟩
  · intro baseTime c hasTime hasCapabilities r h
    unfold libGetTime at h
    cases hasTime with
    | false =>
      cases h
      exact ⟨by simp [StatusCode.invalidParameter, StatusCode.success], fun _ => ⟨rfl, rfl⟩⟩
    | true =>
      by_cases hfreq : timerFreq.toUInt32 = 0
      · cases debugAssertEnabled with
        | true => simp [hfreq] at h
        | false =>
          simp only [hfreq, Bool.not_true, Bool.false_eq_true, if_true, if_false,
            Option.some.injEq] at h
          rw [← h]
          exact ⟨by simp [hfreq, StatusCode.deviceError, StatusCode.success], fun _ => ⟨rfl, rfl⟩⟩
      · simp only [hfreq, Bool.not_true, Bool.false_eq_true, if_false, Option.some.injEq] at h
        rw [← h]
        exact ⟨by simp [hfreq], fun hs => absurd rfl hs⟩
  · intro hfreq c cs hsoon
    refine ⟨(c :: cs).map (timeOfCounter libRtcInitialize timerFreq.toUInt32), ?_, ?_, ?_⟩
    · rw [List.map_map]
      apply List.map_congr_left
      intro c _
      simp [libGetTime, hfreq]
    · intro t ht
      obtain ⟨c, _, rfl⟩ := List.mem_map.mp ht
      exact timeOfCounter_valid _ _ _ (by decide) (by decide)
    · exact measured_timeOfCounter libRtcInitialize timerFreq.toUInt32 c cs hsoon

/-- three readings with 20 days between them, at 24 MHz: the date starts again before the third -/
theorem readings_twenty_days :
    ∃ ts : List EfiTime, measured ts = 40 * 86400 ∧ (∀ t ∈ ts, t.Valid) ∧
      [(0 : UInt64), 20 * 86400 * 24000000, 40 * 86400 * 24000000].map (fun c =>
        (libGetTime true libRtcInitialize 24000000 c true false).map GetTimeResult.time)
        = ts.map (fun t => some (some t)) := by
  obtain ⟨ts, hcalls, hvalid, hsum⟩ := (libGetTime_readings true 24000000).2 (by decide) 0
    [20 * 86400 * 24000000, 40 * 86400 * 24000000] (by decide +kernel)
  refine ⟨ts, ?_, hvalid, hcalls⟩
  have hlast : ([(0 : UInt64), 20 * 86400 * 24000000, 40 * 86400 * 24000000].getLast
      (by decide)).toNat / (24000000 : UInt64).toUInt32.toNat = 40 * 86400 := by decide +kernel
  have hzero : (0 : UInt64).toNat / (24000000 : UInt64).toUInt32.toNat = 0 := by decide +kernel
  rw [hlast, hzero] at hsum
  omega

end AppleSilicon
