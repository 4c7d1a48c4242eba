import CronDaemon.Proofs.Cron.EarliestRun

/-!
# Schedules of dates

With every weekday admitted, a schedule by five fields runs on the dates that its months and days of
the month admit. Any date but 29 February comes back every year, within the four years that a search
looks ahead. The leap day does not: around a century that is no leap year eight years pass from one
to the next, and a search that sets out in the first half of them gives up before it gets there.
-/

namespace CronDaemon

open Calendar

namespace Calendar

theorem isLeap_iff {year : Int} :
    isLeap year = true ↔ year % 4 = 0 ∧ (year % 100 ≠ 0 ∨ year % 400 = 0) := by
  simp [isLeap]

/-- Whether a date is a 29 February. -/
def Date.IsLeapDay (date : Date) : Prop := date.month = 2 ∧ date.day = 29

/-- The day that a 29 February of a year is, or would be. -/
def leapDay (year : Int) : Int := Date.toDay ⟨year, 2, 29⟩

theorem leapDay_eq (year : Int) : leapDay year = yearStart year + 59 := by
  simp only [leapDay, Date.toDay]
  cases isLeap year <;> simp [monthStart] <;> omega

/-- Later leap days are at least a year later. -/
theorem leapDay_lt {a b : Int} (h : a < b) : leapDay a + 365 ≤ leapDay b := by
  have hmono := yearStart_mono (show a + 1 ≤ b by omega)
  have hsucc := yearStart_succ a
  rw [leapDay_eq, leapDay_eq]
  split at hsucc <;> omega

/-- A leap day exists in leap years only. -/
theorem isLeap_of_isLeapDay {date : Date} (hvalid : date.isValid = true) (h : date.IsLeapDay) :
    isLeap date.year = true := by
  have hday := (Date.isValid_iff.1 hvalid).2.2.2
  rw [h.1, h.2] at hday
  cases hleap : isLeap date.year with
  | true => rfl
  | false =>
    rw [hleap] at hday
    exact absurd hday (by decide)

/-- Any other date exists in every year. -/
theorem isValid_of_not_isLeapDay {date : Date} (hvalid : date.isValid = true)
    (h : ¬ date.IsLeapDay) (year : Int) : (Date.mk year date.month date.day).isValid = true := by
  have hlength : ∀ a b : Bool, ∀ month ≤ 12,
      monthLength a month ≤ monthLength b month ∨
        month = 2 ∧ monthLength a month = 29 ∧ monthLength b month = 28 := by
    decide
  rw [Date.isValid_iff] at hvalid ⊢
  obtain ⟨h₁, h₂, h₃, h₄⟩ := hvalid
  have := hlength (isLeap date.year) (isLeap year) date.month h₂
  simp only [Date.IsLeapDay] at h
  refine ⟨h₁, h₂, h₃, ?_⟩
  show date.day ≤ monthLength (isLeap year) date.month
  omega

end Calendar

theorem Zone.localTime_utc (t : Instant) : Zone.utc.localTime t = ⟨t.nanos, t.leap⟩ := by
  simp [Zone.localTime, Zone.offsetAt, Zone.utc]

theorem Zone.utc_isWithinDay : Zone.utc.IsWithinDay := by
  have hoffsets : Zone.utc.offsets = [0] := by decide
  intro offset hoffset
  rw [hoffsets, List.mem_singleton] at hoffset
  omega

namespace Cron

namespace CronFields

/-- A date of the calendar whose month and day of the month the fields admit. -/
structure AdmitsDate (fields : CronFields) (date : Date) : Prop where
  isValid : date.isValid = true
  month : fields.month.contains date.month = true
  day : fields.dayOfMonth.contains date.day = true

/-- The weekday is not restricted. -/
def AdmitsEveryWeekday (fields : CronFields) : Prop :=
  ∀ d, d ≤ Field.dayOfWeek.max → fields.dayOfWeek.contains d = true

/-- The minutes of the 29 February of a year that satisfy the fields. -/
def leapDayMinutes (fields : CronFields) (year : Int) : Set Int :=
  {m | m / dayMinutes = leapDay year ∧ fields.admits (.ofMinute m) = true}

/-- An instant in the eight years around a century that is no leap year: the leap day four years
before the century has no matching minute left, and the one four years after it is not within
reach. -/
def IsInLongGap (fields : CronFields) (after : Instant) : Prop :=
  ∃ century : Int, century % 100 = 0 ∧ century % 400 ≠ 0 ∧
    (∀ m ∈ fields.leapDayMinutes (century - 4), (LocalTime.ofMinute m).nanos ≤ after.nanos) ∧
    ∀ m ∈ fields.leapDayMinutes (century + 4),
      after.nanos + 4 * 366 * dayNanos ≤ (LocalTime.ofMinute m).nanos

variable {fields : CronFields} {after : Instant} {m : Int}

/-- With every weekday admitted, the date of a minute decides about its day. -/
theorem admitsDate_of_admits (h : fields.admits (.ofMinute m) = true) :
    fields.AdmitsDate (.ofDay (m / dayMinutes)) := by
  simp only [admits, LocalTime.minute_ofMinute, matchesMinute, matchesDay, Bool.and_eq_true] at h
  exact ⟨Date.isValid_ofDay _, h.2, h.1.2.1⟩

/-- There is a time of day at which every admitted date has a matching minute. -/
theorem exists_minuteOfDay (hf : fields.HasValues) (hweek : fields.AdmitsEveryWeekday) :
    ∃ μ : Int, 0 ≤ μ ∧ μ < dayMinutes ∧ ∀ date, fields.AdmitsDate date →
      fields.admits (.ofMinute (date.toDay * dayMinutes + μ)) = true := by
  obtain ⟨hour, -, hhour, hhour'⟩ := hf .hour
  obtain ⟨min, -, hmin, hmin'⟩ := hf .minute
  simp only [Field.max, get] at hhour hhour' hmin hmin'
  refine ⟨hour * 60 + min, by omega, by simp only [dayMinutes]; omega, fun date hdate => ?_⟩
  have hsame := Date.ofDay_toDay hdate.isValid
  have hmonth : monthOf date.toDay = date.month := congrArg Date.month hsame
  have hday : Calendar.dayOfMonth date.toDay = date.day := congrArg Date.day hsame
  have hweekday : weekday date.toDay ≤ Field.dayOfWeek.max := by
    simp only [weekday, Field.max]; omega
  rw [admits, LocalTime.minute_ofMinute, ← Int.add_assoc]
  refine matchesMinute_of_day (by omega) (by omega) hhour' hmin' ?_ (hmonth ▸ hdate.month)
  rw [matchesDay, hday, hdate.day, hweek _ hweekday]
  rfl

/-- The search in universal time finds nothing exactly when no minute of its four years matches. -/
theorem nextAfter_utc_eq_none_iff_of_minutes (hf : fields.HasValues)
    (hafter : holds after.nanos = true)
    (hend : after.nanos + 9 * 365 * dayNanos ≤ endDay * dayNanos) :
    ∃ r, (Schedule.cron fields).nextAfter .utc after = .ok r ∧
      (r = none ↔ ∀ m, fields.admits (.ofMinute m) = true →
        (LocalTime.ofMinute m).nanos ≤ after.nanos ∨
          after.nanos + 4 * 366 * dayNanos ≤ (LocalTime.ofMinute m).nanos) := by
  have hlocal : holds (Zone.utc.localTime after).nanos = true := by rwa [Zone.localTime_utc]
  obtain ⟨r, hr, hfirst⟩ :=
    nextAfter_isFirstRun hf hlocal (holdsMinute_of_nine_years Zone.utc_isWithinDay hend hlocal)
  refine ⟨r, hr, ?_⟩
  have hempty : r = none ↔ fields.minutesAhead .utc after = ∅ := by
    cases r with
    | none => exact ⟨fun _ => hfirst, fun _ => rfl⟩
    | some t =>
      obtain ⟨m, hm, -⟩ := hfirst
      constructor
      · intro h
        cases h
      · intro h
        rw [h] at hm
        cases hm.1
  rw [hempty, Set.eq_empty_iff_forall_notMem]
  simp only [minutesAhead, runMinutes, Zone.localTime_utc, Set.mem_ofPred_eq]
  constructor
  · intro h m hadmits
    by_contra hbetween
    refine h m ⟨by omega, by omega, hadmits, ⟨(LocalTime.ofMinute m).nanos, false⟩, ?_, ?_, ?_⟩
    · rw [holds_iff] at hafter ⊢
      simp only [dayNanos] at *
      omega
    · rw [Zone.localTime_utc]
      rfl
    · -- A leap second ends before the minute that follows it, so it makes no difference here.
      have hlt : after.nanos < (LocalTime.ofMinute m).nanos := by omega
      simp only [LocalTime.ofMinute, minuteNanos] at hlt ⊢
      rw [Instant.lt_def]
      simp only [Instant.rank]
      split <;> simp <;> omega
  · rintro h m ⟨hlower, hupper, hadmits, -⟩
    rcases h m hadmits with hle | hle <;> omega

/-- A date that comes back every year has a matching minute within reach. -/
theorem exists_minute_of_yearly_date (after : Instant) {date : Date} (hf : fields.HasValues)
    (hweek : fields.AdmitsEveryWeekday) (hdate : fields.AdmitsDate date)
    (hleap : ¬ date.IsLeapDay) :
    ∃ m, fields.admits (.ofMinute m) = true ∧ after.nanos < (LocalTime.ofMinute m).nanos ∧
      (LocalTime.ofMinute m).nanos < after.nanos + 4 * 366 * dayNanos := by
  obtain ⟨μ, hμ, hμ', hadmits⟩ := exists_minuteOfDay hf hweek
  let year := yearOf (after.nanos / dayNanos)
  have hvalid := isValid_of_not_isLeapDay hdate.isValid hleap (year + 1)
  have hnext : fields.AdmitsDate ⟨year + 1, date.month, date.day⟩ :=
    ⟨hvalid, hdate.month, hdate.day⟩
  refine ⟨_, hadmits _ hnext, ?_⟩
  obtain ⟨hlower, hupper⟩ := Date.toDay_bounds hvalid
  have h₁ : yearStart year ≤ after.nanos / dayNanos := yearStart_yearOf_le _
  have h₂ : after.nanos / dayNanos < yearStart (year + 1) := lt_yearStart_yearOf_succ _
  have h₃ := yearStart_succ year
  have h₄ := yearStart_succ (year + 1)
  simp only [LocalTime.ofMinute, minuteNanos, dayNanos, dayMinutes] at *
  split at h₃ <;> split at h₄ <;> omega

/-- The matching minutes of fields that admit leap days only lie on the leap days of leap years. -/
theorem mem_leapDayMinutes_of_admits
    (honly : ∀ date, fields.AdmitsDate date → date.IsLeapDay)
    (h : fields.admits (.ofMinute m) = true) :
    ∃ year, isLeap year = true ∧ m ∈ fields.leapDayMinutes year := by
  have hdate := admitsDate_of_admits h
  have hleap := honly _ hdate
  refine ⟨_, isLeap_of_isLeapDay hdate.isValid hleap, ?_, h⟩
  rw [leapDay, ← hleap.1, ← hleap.2]
  exact (Date.toDay_ofDay (m / dayMinutes)).symm

/-- On the leap days that the fields admit, some time of day matches every time. -/
theorem exists_leapDayMinute {date : Date} (hf : fields.HasValues)
    (hweek : fields.AdmitsEveryWeekday) (hdate : fields.AdmitsDate date) (hleap : date.IsLeapDay) :
    ∃ μ : Int, 0 ≤ μ ∧ μ < dayMinutes ∧ ∀ year, isLeap year = true →
      leapDay year * dayMinutes + μ ∈ fields.leapDayMinutes year := by
  obtain ⟨μ, hμ, hμ', hadmits⟩ := exists_minuteOfDay hf hweek
  refine ⟨μ, hμ, hμ', fun year hyear => ⟨?_, hadmits ⟨year, 2, 29⟩ ⟨?_, ?_, ?_⟩⟩⟩
  · simp only [dayMinutes] at *
    omega
  · rw [Date.isValid_iff]
    show 1 ≤ 2 ∧ 2 ≤ 12 ∧ 1 ≤ 29 ∧ 29 ≤ monthLength (isLeap year) 2
    rw [hyear]
    decide
  · exact hleap.1 ▸ hdate.month
  · exact hleap.2 ▸ hdate.day

/-- Two matching minutes of one leap day are less than a day apart. -/
theorem sub_lt_of_mem_leapDayMinutes {year m' : Int} (h : m ∈ fields.leapDayMinutes year)
    (h' : m' ∈ fields.leapDayMinutes year) :
    (LocalTime.ofMinute m).nanos < (LocalTime.ofMinute m').nanos + dayNanos := by
  have hday := h.1
  have hday' := h'.1
  simp only [LocalTime.ofMinute, minuteNanos, dayNanos, dayMinutes] at *
  omega

/-- In a long gap no minute within reach matches. -/
theorem IsInLongGap.minutes (h : fields.IsInLongGap after)
    (honly : ∀ date, fields.AdmitsDate date → date.IsLeapDay) (hf : fields.HasValues)
    (hweek : fields.AdmitsEveryWeekday) (hadmits : fields.admits (.ofMinute m) = true) :
    (LocalTime.ofMinute m).nanos ≤ after.nanos ∨
      after.nanos + 4 * 366 * dayNanos ≤ (LocalTime.ofMinute m).nanos := by
  obtain ⟨century, h₁, h₂, hbefore, hbehind⟩ := h
  obtain ⟨year, hyear, hm⟩ := mem_leapDayMinutes_of_admits honly hadmits
  have hdate := admitsDate_of_admits hadmits
  obtain ⟨μ, hμ, hμ', hall⟩ := exists_leapDayMinute hf hweek hdate (honly _ hdate)
  have hlast := hbefore _ (hall (century - 4) (isLeap_iff.2 (by omega)))
  have hfirst := hbehind _ (hall (century + 4) (isLeap_iff.2 (by omega)))
  have hday := hm.1
  rw [isLeap_iff] at hyear
  rcases (by omega : year < century - 4 ∨ year = century - 4 ∨ year = century + 4 ∨
    century + 4 < year) with hlt | rfl | rfl | hlt
  · have := leapDay_lt hlt
    left
    simp only [LocalTime.ofMinute, minuteNanos, dayMinutes] at *
    omega
  · exact Or.inl (hbefore m hm)
  · exact Or.inr (hbehind m hm)
  · have := leapDay_lt hlt
    right
    simp only [LocalTime.ofMinute, minuteNanos, dayMinutes, dayNanos] at *
    omega

/-- The last leap year whose leap day has passed. -/
theorem exists_last_leapYear (after : Instant) (μ : Int) (hμ : 0 ≤ μ) (hμ' : μ < dayMinutes) :
    ∃ year, isLeap year = true ∧
      (LocalTime.ofMinute (leapDay year * dayMinutes + μ)).nanos ≤ after.nanos ∧
      ∀ later, isLeap later = true →
        (LocalTime.ofMinute (leapDay later * dayMinutes + μ)).nanos ≤ after.nanos →
          later ≤ year := by
  let day := after.nanos / dayNanos
  have h₁ : yearStart (yearOf day) ≤ day := yearStart_yearOf_le _
  have h₂ : day < yearStart (yearOf day + 1) := lt_yearStart_yearOf_succ _
  have hbound : ∀ year, isLeap year = true ∧
      (LocalTime.ofMinute (leapDay year * dayMinutes + μ)).nanos ≤ after.nanos →
        year ≤ yearOf day := by
    rintro year ⟨-, hpast⟩
    by_contra hlt
    have hmono := yearStart_mono (show yearOf day + 1 ≤ year by omega)
    have hleap := leapDay_eq year
    simp only [LocalTime.ofMinute, minuteNanos, dayMinutes, dayNanos, day] at *
    omega
  -- A year that is divisible by 400 and over before the year of `after`.
  have hsome : ∃ year, isLeap year = true ∧
      (LocalTime.ofMinute (leapDay year * dayMinutes + μ)).nanos ≤ after.nanos := by
    refine ⟨(yearOf day - 1) / 400 * 400, isLeap_iff.2 (by omega), ?_⟩
    have hlt := leapDay_lt (show (yearOf day - 1) / 400 * 400 < yearOf day by omega)
    have hleap := leapDay_eq (yearOf day)
    simp only [LocalTime.ofMinute, minuteNanos, dayMinutes, dayNanos, day] at *
    omega
  obtain ⟨year, ⟨hyear, hpast⟩, hlast⟩ := Int.exists_greatest_of_bdd ⟨_, hbound⟩ hsome
  exact ⟨year, hyear, hpast, fun later hlater hle => hlast later ⟨hlater, hle⟩⟩

/-- Where no minute within reach matches though the leap day is admitted, there is a long gap. -/
theorem isInLongGap_of_minutes {date : Date} (hf : fields.HasValues)
    (hweek : fields.AdmitsEveryWeekday) (hdate : fields.AdmitsDate date) (hleap : date.IsLeapDay)
    (hnone : ∀ m, fields.admits (.ofMinute m) = true → (LocalTime.ofMinute m).nanos ≤ after.nanos ∨
      after.nanos + 4 * 366 * dayNanos ≤ (LocalTime.ofMinute m).nanos) :
    fields.IsInLongGap after := by
  obtain ⟨μ, hμ, hμ', hall⟩ := exists_leapDayMinute hf hweek hdate hleap
  obtain ⟨year, hyear, hpast, hlast⟩ := exists_last_leapYear after μ hμ hμ'
  -- All matching minutes of a leap day lie on the same side.
  have hbefore : ∀ m ∈ fields.leapDayMinutes year, (LocalTime.ofMinute m).nanos ≤ after.nanos := by
    intro m hm
    have := sub_lt_of_mem_leapDayMinutes hm (hall year hyear)
    rcases hnone m hm.2 with hle | hge
    · exact hle
    · simp only [dayNanos] at *
      omega
  have hbehind : ∀ next, isLeap next = true → year < next → ∀ m ∈ fields.leapDayMinutes next,
      after.nanos + 4 * 366 * dayNanos ≤ (LocalTime.ofMinute m).nanos := by
    intro next hnext hlt m hm
    have hfar := (hnone _ (hall next hnext).2).resolve_left fun hle => by
      have := hlast next hnext hle
      omega
    have := sub_lt_of_mem_leapDayMinutes (hall next hnext) hm
    rcases hnone m hm.2 with hle | hge
    · simp only [dayNanos] at *
      omega
    · exact hge
  -- The year four years later is no leap year, for its leap day would be within reach.
  have hskipped : isLeap (year + 4) ≠ true := by
    intro hnext
    have hfar := hbehind _ hnext (by omega) _ (hall _ hnext)
    rw [isLeap_iff] at hyear hnext
    have h₁ := leapDay_eq year
    have h₂ := leapDay_eq (year + 4)
    simp only [LocalTime.ofMinute, minuteNanos, dayMinutes, dayNanos, yearStart] at *
    omega
  rw [isLeap_iff] at hyear
  rw [ne_eq, isLeap_iff] at hskipped
  refine ⟨year + 4, by omega, by omega, ?_, ?_⟩
  · rwa [show year + 4 - 4 = year by omega]
  · exact hbehind _ (isLeap_iff.2 (by omega)) (by omega)

/-- The next run, in universal time, of a schedule that admits every weekday. From nine years before
the end of the calendar there is always one as soon as a date other than 29 February is admitted. It
is missing for schedules that admit no date of the calendar, and for those that run on leap days
only when the search sets out in a long gap, with the next leap day more than four years of 366 days
away. -/
theorem nextAfter_utc_eq_none_iff (hf : fields.HasValues) (hweek : fields.AdmitsEveryWeekday)
    (hafter : holds after.nanos = true)
    (hend : after.nanos + 9 * 365 * dayNanos ≤ endDay * dayNanos) :
    ∃ r, (Schedule.cron fields).nextAfter .utc after = .ok r ∧
      (r = none ↔ (∀ date, ¬ fields.AdmitsDate date) ∨
        (∀ date, fields.AdmitsDate date → date.IsLeapDay) ∧ fields.IsInLongGap after) := by
  obtain ⟨r, hr, hnone⟩ := nextAfter_utc_eq_none_iff_of_minutes hf hafter hend
  refine ⟨r, hr, ?_⟩
  rw [hnone]
  constructor
  · intro hminutes
    have honly : ∀ date, fields.AdmitsDate date → date.IsLeapDay := by
      intro date hdate
      by_contra hleap
      obtain ⟨m, hm, hlower, hupper⟩ := exists_minute_of_yearly_date after hf hweek hdate hleap
      rcases hminutes m hm with hle | hge <;> omega
    by_cases hsome : ∃ date, fields.AdmitsDate date
    · obtain ⟨date, hdate⟩ := hsome
      exact Or.inr ⟨honly, isInLongGap_of_minutes hf hweek hdate (honly date hdate) hminutes⟩
    · exact Or.inl (not_exists.1 hsome)
  · rintro (hno | ⟨honly, hgap⟩) m hm
    · exact absurd (admitsDate_of_admits hm) (hno _)
    · exact hgap.minutes honly hf hweek hm

/-- Midnight on every 29 February, as `0 0 29 2 *` has it. -/
def leapMidnights : CronFields :=
  ⟨.ofList [0], .ofList [0], .ofList [29], .ofList [2], .full .dayOfWeek⟩

example : Schedule.parse "0 0 29 2 *" = .ok (.cron leapMidnights) := by decide +kernel

theorem leapMidnights_hasValues : leapMidnights.HasValues := by
  intro field
  cases field
  exacts [⟨0, by decide⟩, ⟨0, by decide⟩, ⟨29, by decide⟩, ⟨2, by decide⟩, ⟨0, by decide⟩]

theorem leapMidnights_admitsEveryWeekday : leapMidnights.AdmitsEveryWeekday := by
  unfold AdmitsEveryWeekday
  decide

/-- The leap midnights admit the leap day of 2096. -/
theorem leapMidnights_admitsDate : leapMidnights.AdmitsDate ⟨2096, 2, 29⟩ :=
  ⟨by decide, by decide, by decide⟩

/-- The start of 1 March 2096, a day after the last leap day for eight years. -/
def marchOf2096 : Instant := .ofNanos 3981398400000000000

/-- The search from 1 March 2096 finds no leap midnight: it sets out in the long gap around 2100. -/
theorem nextAfter_utc_eq_none_iff_of_marchOf2096 :
    leapMidnights.HasValues ∧ leapMidnights.AdmitsEveryWeekday ∧ holds marchOf2096.nanos = true ∧
      marchOf2096.nanos + 9 * 365 * dayNanos ≤ endDay * dayNanos ∧
      (Schedule.cron leapMidnights).nextAfter .utc marchOf2096 = .ok none ∧
      leapMidnights.IsInLongGap marchOf2096 := by
  have hholds : holds marchOf2096.nanos = true := by decide
  have hend : marchOf2096.nanos + 9 * 365 * dayNanos ≤ endDay * dayNanos := by decide
  have hnext : (Schedule.cron leapMidnights).nextAfter .utc marchOf2096 = .ok none := by
    decide +kernel
  refine ⟨leapMidnights_hasValues, leapMidnights_admitsEveryWeekday, hholds, hend, hnext, ?_⟩
  obtain ⟨r, hr, hnone⟩ := nextAfter_utc_eq_none_iff leapMidnights_hasValues
    leapMidnights_admitsEveryWeekday hholds hend
  rw [hnext] at hr
  cases hr
  rcases hnone.1 rfl with hno | ⟨-, hgap⟩
  · exact absurd leapMidnights_admitsDate (hno _)
  · exact hgap

/-- A leap-day schedule is not always found: four years of 366 days do not reach from 1 March 2096
to the next 29 February, that of 2104. -/
theorem not_forall_nextAfter_isSome_of_date :
    ¬ ∀ (fields : CronFields) (after : Instant), fields.HasValues → fields.AdmitsEveryWeekday →
      holds after.nanos = true → after.nanos + 9 * 365 * dayNanos ≤ endDay * dayNanos →
      (∃ date, fields.AdmitsDate date) →
      ∃ t, (Schedule.cron fields).nextAfter .utc after = .ok (some t) := by
  intro hall
  obtain ⟨t, ht⟩ := hall leapMidnights marchOf2096 leapMidnights_hasValues
    leapMidnights_admitsEveryWeekday (by decide) (by decide) ⟨_, leapMidnights_admitsDate⟩
  have hnext : (Schedule.cron leapMidnights).nextAfter .utc marchOf2096 = .ok none := by
    decide +kernel
  rw [hnext] at ht
  cases ht

end CronFields

end Cron

end CronDaemon
