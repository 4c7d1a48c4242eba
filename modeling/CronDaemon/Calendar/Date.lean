/-!
# Gregorian dates

A day is a whole number counted from 1 January 1970, and a date names it by year, month and
day of the month in the Gregorian calendar, which is extended to all years. The year of a day is
estimated by the mean length of a year and corrected by at most one; `yearStart_yearOf_le` and
`lt_yearStart_yearOf_succ` say that the result is right. Jumping to the first day of the
next month passes over days of one month only (`monthOf_eq_of_lt_nextMonthStart`).
-/

namespace CronDaemon.Calendar

/-- Every fourth year is a leap year, but of the full centuries only every fourth. -/
def isLeap (year : Int) : Bool :=
  year % 4 == 0 && (year % 100 != 0 || year % 400 == 0)

/-- The day on which a year starts. -/
def yearStart (year : Int) : Int :=
  365 * (year - 1970) + ((year - 1) / 4 - (year - 1) / 100 + (year - 1) / 400) - 477

theorem yearStart_succ (year : Int) :
    yearStart (year + 1) = yearStart year + if isLeap year then 366 else 365 := by
  simp only [yearStart, isLeap, Bool.and_eq_true, Bool.or_eq_true, beq_iff_eq, bne_iff_ne]
  split <;> omega

/-- The year of a day. -/
def yearOf (day : Int) : Int :=
  let guess := 1970 + day * 400 / 146097
  if day < yearStart guess then guess - 1
  else if yearStart (guess + 1) ≤ day then guess + 1
  else guess

theorem yearStart_yearOf_le (day : Int) : yearStart (yearOf day) ≤ day := by
  simp only [yearOf]
  split
  · simp only [yearStart] at *; omega
  · split <;> omega

theorem lt_yearStart_yearOf_succ (day : Int) : day < yearStart (yearOf day + 1) := by
  simp only [yearOf]
  split
  · simpa using ‹_›
  · split
    · simp only [yearStart] at *; omega
    · omega

/-- The days of the year that precede a month. -/
def monthStart (leap : Bool) (month : Nat) : Nat :=
  let common := [0, 0, 31, 59, 90, 120, 151, 181, 212, 243, 273, 304, 334, 365]
  common.getD month 365 + if leap && 3 ≤ month then 1 else 0

/-- The number of days of a month. -/
def monthLength (leap : Bool) (month : Nat) : Nat :=
  monthStart leap (month + 1) - monthStart leap month

/-- The month in which the day number `n` of a year lies, the first day being number 0. -/
def monthAt (leap : Bool) (n : Nat) : Nat :=
  ((List.range' 1 12).filter fun month => monthStart leap month ≤ n).length

/-- A date by year, month (from 1) and day of the month (from 1). -/
structure Date where
  year : Int
  month : Nat
  day : Nat
  deriving DecidableEq, Repr

/-- The number of a day within its year, from 0. -/
def dayOfYear (day : Int) : Nat := (day - yearStart (yearOf day)).toNat

/-- The month of a day. -/
def monthOf (day : Int) : Nat := monthAt (isLeap (yearOf day)) (dayOfYear day)

/-- The day of the month of a day. -/
def dayOfMonth (day : Int) : Nat :=
  dayOfYear day - monthStart (isLeap (yearOf day)) (monthOf day) + 1

/-- The weekday of a day, from 0 for Sunday to 6 for Saturday. -/
def weekday (day : Int) : Nat := ((day + 4) % 7).toNat

/-- The date of a day. -/
def Date.ofDay (day : Int) : Date := ⟨yearOf day, monthOf day, dayOfMonth day⟩

/-- The day of a date. -/
def Date.toDay (date : Date) : Int :=
  yearStart date.year + (monthStart (isLeap date.year) date.month : Int) + (date.day : Int) - 1

/-- Whether the month and the day of the month exist. -/
def Date.isValid (date : Date) : Bool :=
  1 ≤ date.month && date.month ≤ 12 && 1 ≤ date.day &&
    date.day ≤ monthLength (isLeap date.year) date.month

/-- The first day of the month after that of a day. -/
def nextMonthStart (day : Int) : Int :=
  let month := monthOf day
  if month = 12 then Date.toDay ⟨yearOf day + 1, 1, 1⟩ else Date.toDay ⟨yearOf day, month + 1, 1⟩

/-- Later years start later. -/
theorem yearStart_mono {a b : Int} (h : a ≤ b) : yearStart a ≤ yearStart b := by
  obtain ⟨n, rfl⟩ : ∃ n : Nat, b = a + n := ⟨(b - a).toNat, by omega⟩
  clear h
  induction n with
  | zero => simp
  | succ n ih =>
    have := yearStart_succ (a + n)
    rw [Int.natCast_succ, ← Int.add_assoc]
    split at this <;> omega

/-- A year is the only one whose days enclose a given day. -/
theorem yearOf_eq {day year : Int} (h₁ : yearStart year ≤ day) (h₂ : day < yearStart (year + 1)) :
    yearOf day = year := by
  have h₃ := yearStart_yearOf_le day
  have h₄ := lt_yearStart_yearOf_succ day
  refine Int.le_antisymm (Int.not_lt.1 fun h => ?_) (Int.not_lt.1 fun h => ?_)
  · have := yearStart_mono (show year + 1 ≤ yearOf day by omega)
    omega
  · have := yearStart_mono (show yearOf day + 1 ≤ year by omega)
    omega

/-- The length of a year in days. -/
def yearLength (leap : Bool) : Nat := if leap then 366 else 365

theorem yearStart_add_dayOfYear (day : Int) :
    yearStart (yearOf day) + (dayOfYear day : Int) = day := by
  have := yearStart_yearOf_le day
  simp only [dayOfYear]; omega

theorem dayOfYear_lt (day : Int) : dayOfYear day < yearLength (isLeap (yearOf day)) := by
  have h₁ := lt_yearStart_yearOf_succ day
  have h₂ := yearStart_succ (yearOf day)
  have h₃ := yearStart_add_dayOfYear day
  unfold yearLength
  split at h₂ <;> simp_all <;> omega

/-- The months of a year follow each other without a gap. -/
theorem monthAt_spec : ∀ leap : Bool, ∀ n < yearLength leap,
    1 ≤ monthAt leap n ∧ monthAt leap n ≤ 12 ∧ monthStart leap (monthAt leap n) ≤ n ∧
      n < monthStart leap (monthAt leap n + 1) := by
  decide +kernel

/-- Later months start later. -/
theorem monthStart_mono : ∀ leap : Bool, ∀ month ≤ 13, ∀ earlier ≤ month,
    monthStart leap earlier ≤ monthStart leap month := by
  decide

/-- The days from the start of a month to the start of the next one lie in that month. -/
theorem monthAt_eq_of_between (leap : Bool) (n : Nat) (hn : n < yearLength leap) (month : Nat)
    (hmonth : month < 13) (h₁ : monthStart leap month ≤ n) (h₂ : n < monthStart leap (month + 1)) :
    monthAt leap n = month := by
  obtain ⟨-, hle, hlower, hupper⟩ := monthAt_spec leap n hn
  rcases Nat.lt_trichotomy (monthAt leap n) month with hlt | he | hgt
  · have := monthStart_mono leap month (by omega) (monthAt leap n + 1) hlt
    omega
  · exact he
  · have := monthStart_mono leap (monthAt leap n) (by omega) (month + 1) hgt
    omega

/-- No month goes on past the end of its year. -/
theorem monthStart_le_yearLength : ∀ leap : Bool, ∀ month ≤ 13,
    monthStart leap month ≤ yearLength leap := by
  decide

/-- The days up to the start of the month after that of a day lie in the month of that day. -/
theorem monthAt_eq {leap : Bool} {n m : Nat} (hn : n < yearLength leap)
    (h₁ : monthStart leap (monthAt leap m) ≤ n) (h₂ : n < monthStart leap (monthAt leap m + 1)) :
    monthAt leap n = monthAt leap m := by
  have hle : monthAt leap m ≤ 12 := Nat.le_trans (List.length_filter_le _ _) (by simp)
  exact monthAt_eq_of_between leap n hn _ (by omega) h₁ h₂

theorem nextMonthStart_eq (day : Int) : nextMonthStart day =
    yearStart (yearOf day) + (monthStart (isLeap (yearOf day)) (monthOf day + 1) : Int) := by
  simp only [nextMonthStart]
  split
  · next h =>
    rw [h]
    have := yearStart_succ (yearOf day)
    simp only [Date.toDay, this]
    cases isLeap (yearOf day) <;> simp [monthStart]
  · simp [Date.toDay]

/-- The next month starts later. -/
theorem lt_nextMonthStart (day : Int) : day < nextMonthStart day := by
  rw [nextMonthStart_eq]
  have h₁ := yearStart_add_dayOfYear day
  have h₂ := (monthAt_spec _ _ (dayOfYear_lt day)).2.2.2
  simp only [monthOf]
  omega

/-- Until the next month starts, the month is the same. -/
theorem monthOf_eq_of_lt_nextMonthStart {day later : Int} (h₁ : day ≤ later)
    (h₂ : later < nextMonthStart day) : monthOf later = monthOf day := by
  rw [nextMonthStart_eq] at h₂
  have hd := yearStart_add_dayOfYear day
  have hl := yearStart_add_dayOfYear later
  have hs := (monthAt_spec _ _ (dayOfYear_lt day))
  have hm : monthStart (isLeap (yearOf day)) (monthOf day + 1) ≤
      yearLength (isLeap (yearOf day)) :=
    monthStart_le_yearLength _ _ (by simp only [monthOf]; omega)
  have hy : yearOf later = yearOf day := by
    refine yearOf_eq (by have := yearStart_yearOf_le day; omega) ?_
    have := yearStart_succ (yearOf day)
    unfold yearLength at hm
    split at hm <;> simp_all <;> omega
  have hlt := dayOfYear_lt later
  rw [hy] at hl hlt
  simp only [monthOf, hy] at *
  exact monthAt_eq hlt (by omega) (by omega)

theorem Date.isValid_iff {date : Date} : date.isValid = true ↔ 1 ≤ date.month ∧ date.month ≤ 12 ∧
    1 ≤ date.day ∧ date.day ≤ monthLength (isLeap date.year) date.month := by
  simp [Date.isValid, and_assoc]

/-- Every day has a date that exists. -/
theorem Date.isValid_ofDay (day : Int) : (Date.ofDay day).isValid = true := by
  obtain ⟨h₁, h₂, h₃, h₄⟩ := monthAt_spec _ _ (dayOfYear_lt day)
  rw [Date.isValid_iff]
  simp only [Date.ofDay, dayOfMonth, monthOf, monthLength]
  omega

/-- A day is the day of its date. -/
theorem Date.toDay_ofDay (day : Int) : (Date.ofDay day).toDay = day := by
  have hday := yearStart_add_dayOfYear day
  have hmonth := (monthAt_spec _ _ (dayOfYear_lt day)).2.2.1
  simp only [Date.toDay, Date.ofDay, dayOfMonth, monthOf]
  omega

/-- A date that exists lies in its year. -/
theorem Date.toDay_bounds {date : Date} (h : date.isValid = true) :
    yearStart date.year ≤ date.toDay ∧ date.toDay < yearStart (date.year + 1) := by
  obtain ⟨h₁, h₂, h₃, h₄⟩ := Date.isValid_iff.1 h
  have hm := monthStart_le_yearLength (isLeap date.year) (date.month + 1) (by omega)
  have hy := yearStart_succ date.year
  simp only [Date.toDay, yearLength, monthLength] at *
  split at hy <;> simp_all <;> omega

/-- The day of a date that exists has that date. -/
theorem Date.ofDay_toDay {date : Date} (h : date.isValid = true) :
    Date.ofDay date.toDay = date := by
  obtain ⟨hlower, hupper⟩ := Date.toDay_bounds h
  obtain ⟨h₁, h₂, h₃, h₄⟩ := Date.isValid_iff.1 h
  have hyear := yearOf_eq hlower hupper
  have hlt := dayOfYear_lt date.toDay
  have hday : dayOfYear date.toDay = monthStart (isLeap date.year) date.month + date.day - 1 := by
    rw [dayOfYear, hyear, Date.toDay]
    omega
  simp only [monthLength] at h₄
  have hmonth : monthOf date.toDay = date.month := by
    rw [hyear] at hlt
    rw [monthOf, hyear]
    exact monthAt_eq_of_between _ _ hlt _ (by omega) (by omega) (by omega)
  have hdayOfMonth : dayOfMonth date.toDay = date.day := by
    rw [dayOfMonth, hmonth, hyear, hday]
    omega
  rw [Date.ofDay, hyear, hmonth, hdayOfMonth]

end CronDaemon.Calendar
