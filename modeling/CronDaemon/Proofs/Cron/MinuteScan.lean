import CronDaemon.Cron.Search
import CronDaemon.Proofs.Cron.FieldValues
import Mathlib.Order.Bounds.Defs
import Mathlib.Tactic.Common

/-!
# The search against the plain scan

The search for the next matching minute jumps over months, days and hours. Here it is compared with
the scan that looks at every minute in turn. No jump passes over a match, since the unit that is
jumped over fails one field as a whole. A jump past the end of the calendar passes over the horizon
too; only a walk to the next hour could fail there, and then the last day would have matched before.
-/

namespace CronDaemon.Cron

open Calendar

namespace CronFields

/-- The first matching minute of `count` minutes, each being looked at in turn. -/
def scan (fields : CronFields) (minute : Int) : Nat → Option Int
  | 0 => none
  | count + 1 => if fields.matchesMinute minute then some minute else fields.scan (minute + 1) count

/-- What it is to be the first matching minute from `start` on and before `horizon`. -/
def IsFirstMatch (fields : CronFields) (start horizon : Int) : Option Int → Prop
  | none => ∀ m, start ≤ m → m < horizon → fields.matchesMinute m = false
  | some found => start ≤ found ∧ found < horizon ∧ fields.matchesMinute found = true ∧
      ∀ m, start ≤ m → m < found → fields.matchesMinute m = false

variable {fields : CronFields} {start horizon minute target m : Int}

/-- There is only one first match. -/
theorem IsFirstMatch.unique {a b : Option Int} (ha : fields.IsFirstMatch start horizon a)
    (hb : fields.IsFirstMatch start horizon b) : a = b := by
  cases a with
  | none =>
    cases b with
    | none => rfl
    | some b =>
      obtain ⟨hb₁, hb₂, hb₃, -⟩ := hb
      have := ha b hb₁ hb₂
      simp [this] at hb₃
  | some a =>
    obtain ⟨ha₁, ha₂, ha₃, ha₄⟩ := ha
    cases b with
    | none =>
      have := hb a ha₁ ha₂
      simp [this] at ha₃
    | some b =>
      obtain ⟨hb₁, hb₂, hb₃, hb₄⟩ := hb
      have hab : ¬ a < b := fun h => by simp [hb₄ a ha₁ h] at ha₃
      have hba : ¬ b < a := fun h => by simp [ha₄ b hb₁ h] at hb₃
      rw [show a = b by omega]

/-- A first match stays the first one when minutes without a match are put in front. -/
theorem IsFirstMatch.extend {r : Option Int} (h : fields.IsFirstMatch target horizon r)
    (hle : minute ≤ target)
    (hfree : ∀ m, minute ≤ m → m < target → fields.matchesMinute m = false) :
    fields.IsFirstMatch minute horizon r := by
  cases r with
  | none =>
    intro m h₁ h₂
    by_cases hm : m < target
    · exact hfree m h₁ hm
    · exact h m (by omega) h₂
  | some found =>
    obtain ⟨h₁, h₂, h₃, h₄⟩ := h
    refine ⟨by omega, h₂, h₃, fun m hm₁ hm₂ => ?_⟩
    by_cases hm : m < target
    · exact hfree m hm₁ hm
    · exact h₄ m (by omega) hm₂

/-- Some minute is the first match exactly when it is the least matching one. -/
theorem isFirstMatch_some_iff :
    fields.IsFirstMatch start horizon (some m) ↔
      IsLeast {m | start ≤ m ∧ m < horizon ∧ fields.matchesMinute m = true} m := by
  constructor
  · rintro ⟨h₁, h₂, h₃, h₄⟩
    refine ⟨⟨h₁, h₂, h₃⟩, fun k ⟨hk₁, _, hk₃⟩ => ?_⟩
    by_contra hlt
    simp [h₄ k hk₁ (by omega)] at hk₃
  · rintro ⟨⟨h₁, h₂, h₃⟩, hleast⟩
    refine ⟨h₁, h₂, h₃, fun k hk₁ hk₂ => ?_⟩
    by_contra hk
    have := hleast ⟨hk₁, by omega, by simpa using hk⟩
    omega

/-- The plain scan finds the first match. -/
theorem isFirstMatch_scan (fields : CronFields) (count : Nat) (minute : Int) :
    fields.IsFirstMatch minute (minute + count) (fields.scan minute count) := by
  induction count generalizing minute with
  | zero => exact fun m h₁ h₂ => by omega
  | succ count ih =>
    rw [scan]
    split
    · next hm => exact ⟨by omega, by omega, hm, fun m h₁ h₂ => by omega⟩
    · next hm =>
      have hrest := ih (minute + 1)
      rw [show minute + 1 + (count : Int) = minute + ((count + 1 : Nat) : Int) by omega] at hrest
      refine hrest.extend (by omega) fun m h₁ h₂ => ?_
      rw [show m = minute by omega]
      simpa using hm

/-- A month or a day that is leapt over fails a field as a whole. -/
theorem matchesMinute_of_move_eq_leap (h : fields.move minute = .leap target)
    (h₁ : minute ≤ m) (h₂ : m < target) : fields.matchesMinute m = false := by
  have hday : minute / dayMinutes ≤ m / dayMinutes := by simp only [dayMinutes]; omega
  simp only [move] at h
  split at h
  · next hmonth =>
    cases h
    have hlt : m / dayMinutes < nextMonthStart (minute / dayMinutes) := by
      simp only [dayMinutes] at *; omega
    have hsame := monthOf_eq_of_lt_nextMonthStart hday hlt
    simp only [Bool.not_eq_true'] at hmonth
    simp [matchesMinute, hsame, hmonth]
  · split at h
    · next hd =>
      cases h
      have hsame : m / dayMinutes = minute / dayMinutes := by simp only [dayMinutes] at *; omega
      simp only [Bool.not_eq_true'] at hd
      simp [matchesMinute, hsame, hd]
    · split at h
      · cases h
      · split at h <;> cases h

/-- The same holds of an hour or a minute that is walked over. -/
theorem matchesMinute_of_move_eq_walk (h : fields.move minute = .walk target)
    (h₁ : minute ≤ m) (h₂ : m < target) : fields.matchesMinute m = false := by
  simp only [move] at h
  split at h
  · cases h
  · split at h
    · cases h
    · split at h
      · next hhour =>
        cases h
        have hsame : m / 60 = minute / 60 := by omega
        simp only [Bool.not_eq_true'] at hhour
        simp [matchesMinute, hsame, hhour]
      · split at h
        · next hminute =>
          cases h
          have hsame : m = minute := by omega
          simp only [Bool.not_eq_true'] at hminute
          simp [matchesMinute, hsame, hminute]
        · cases h

/-- A walk goes to the next minute, or to the next hour from an hour that fails on a day that
satisfies its fields. -/
theorem walk_cases (h : fields.move minute = .walk target) :
    target = minute + 1 ∨
      (target = (minute / 60 + 1) * 60 ∧ fields.hour.contains (minute / 60 % 24).toNat = false ∧
        fields.matchesDay (minute / dayMinutes) = true ∧
        fields.month.contains (monthOf (minute / dayMinutes)) = true) := by
  simp only [move] at h
  split at h
  · cases h
  · next hmonth =>
    split at h
    · cases h
    · next hday =>
      split at h
      · next hhour =>
        cases h
        exact Or.inr ⟨rfl, by simpa using hhour, by simpa using hday, by simpa using hmonth⟩
      · split at h
        · cases h
          exact Or.inl rfl
        · cases h

/-- A day that satisfies its fields has a match at each admitted hour and minute. -/
theorem matchesMinute_of_day {hour min : Nat} {d : Int}
    (hhour : hour < 24) (hmin : min < 60) (hh : fields.hour.contains hour = true)
    (hm : fields.minute.contains min = true) (hd : fields.matchesDay d = true)
    (hmonth : fields.month.contains (monthOf d) = true) :
    fields.matchesMinute (d * dayMinutes + hour * 60 + min) = true := by
  have h₁ : ((d * dayMinutes + hour * 60 + min) % 60).toNat = min := by
    simp only [dayMinutes]; omega
  have h₂ : ((d * dayMinutes + hour * 60 + min) / 60 % 24).toNat = hour := by
    simp only [dayMinutes]; omega
  have h₃ : (d * dayMinutes + hour * 60 + min) / dayMinutes = d := by
    simp only [dayMinutes]; omega
  simp only [matchesMinute, h₁, h₂, h₃, hh, hm, hd, hmonth, Bool.and_self]

/-- A search over more than a day never walks out of the calendar: on the last day it would have
found a match before. -/
theorem holdsMinute_of_move_eq_walk (hf : fields.HasValues) (hstart : holdsMinute start = true)
    (hhorizon : holdsMinute horizon = true) (hspan : start + dayMinutes ≤ horizon)
    (hle : start ≤ minute) (hlt : minute < horizon)
    (hfree : ∀ m, start ≤ m → m < minute → fields.matchesMinute m = false)
    (h : fields.move minute = .walk target) : holdsMinute target = true := by
  have hgrow := lt_of_move_eq_walk h
  rw [holdsMinute_iff] at hstart hhorizon ⊢
  refine ⟨by omega, ?_⟩
  rcases walk_cases h with rfl | ⟨rfl, hhour, hday, hmonth⟩
  · omega
  · by_contra hout
    have hlast : minute / dayMinutes = endDay - 1 := by simp only [dayMinutes] at *; omega
    have hlate : minute / 60 % 24 = 23 := by simp only [dayMinutes] at *; omega
    obtain ⟨hour, -, hhour₁, hhour₂⟩ := hf .hour
    obtain ⟨min, -, hmin₁, hmin₂⟩ := hf .minute
    simp only [Field.max, get] at hhour₁ hhour₂ hmin₁ hmin₂
    have hne : hour ≠ 23 := by
      rintro rfl
      rw [hlate] at hhour
      simp [hhour₂] at hhour
    rw [hlast] at hday hmonth
    have hmatch := matchesMinute_of_day (by omega) (by omega) hhour₂ hmin₂ hday hmonth
    have hbefore := hfree ((endDay - 1) * dayMinutes + hour * 60 + min)
      (by simp only [dayMinutes] at *; omega) (by simp only [dayMinutes] at *; omega)
    simp [hmatch] at hbefore

/-- From any candidate with no match before it, the search ends without a fault at the first
match. -/
theorem search_isFirstMatch (hf : fields.HasValues) (hstart : holdsMinute start = true)
    (hhorizon : holdsMinute horizon = true) (hspan : start + dayMinutes ≤ horizon)
    (hle : start ≤ minute) (hfree : ∀ m, start ≤ m → m < minute → fields.matchesMinute m = false) :
    ∃ r, fields.search minute horizon = .ok r ∧ fields.IsFirstMatch minute horizon r := by
  fun_induction fields.search minute horizon with
  | case1 minute hlt hmove =>
    exact ⟨_, rfl, by omega, hlt, move_eq_stay_iff.1 hmove, fun m h₁ h₂ => by omega⟩
  | case2 minute hlt target hmove hin ih =>
    have hgrow := lt_of_move_eq_leap hmove
    have hskip : ∀ m, minute ≤ m → m < target → fields.matchesMinute m = false :=
      fun m => matchesMinute_of_move_eq_leap hmove
    obtain ⟨r, hr, hfirst⟩ := ih (by omega) fun m h₁ h₂ =>
      if hm : m < minute then hfree m h₁ hm else hskip m (by omega) h₂
    exact ⟨r, hr, hfirst.extend (by omega) hskip⟩
  | case3 minute hlt target hmove hout =>
    -- The target lies past the calendar and so past the horizon: nothing before it can match.
    have hgrow := lt_of_move_eq_leap hmove
    refine ⟨none, rfl, fun m h₁ h₂ => matchesMinute_of_move_eq_leap hmove h₁ ?_⟩
    rw [holdsMinute_iff] at hstart hhorizon hout
    omega
  | case4 minute hlt target hmove hin ih =>
    have hgrow := lt_of_move_eq_walk hmove
    have hskip : ∀ m, minute ≤ m → m < target → fields.matchesMinute m = false :=
      fun m => matchesMinute_of_move_eq_walk hmove
    obtain ⟨r, hr, hfirst⟩ := ih (by omega) fun m h₁ h₂ =>
      if hm : m < minute then hfree m h₁ hm else hskip m (by omega) h₂
    exact ⟨r, hr, hfirst.extend (by omega) hskip⟩
  | case5 minute hlt target hmove hout =>
    exact absurd (holdsMinute_of_move_eq_walk hf hstart hhorizon hspan hle hlt hfree hmove) hout
  | case6 minute hge => exact ⟨none, rfl, fun m h₁ h₂ => by omega⟩

/-- The search after a local time ends without a fault at the first match before its horizon. -/
theorem nextLocal_isFirstMatch (hf : fields.HasValues) {after : LocalTime}
    (hstart : holdsMinute (after.minute + 1) = true)
    (hend : holdsMinute (after.minute + 1 + horizonMinutes) = true) :
    ∃ r, fields.nextLocal after = .ok r ∧
      fields.IsFirstMatch (after.minute + 1) (after.minute + 1 + horizonMinutes) r := by
  have hspan : after.minute + 1 + dayMinutes ≤ after.minute + 1 + horizonMinutes := by
    simp only [horizonMinutes, dayMinutes]; omega
  have hsearch := search_isFirstMatch hf hstart hend hspan (Int.le_refl _)
    fun m h₁ h₂ => by omega
  simpa only [nextLocal, hstart, hend, Bool.and_self, if_true] using hsearch

/-- The search by jumps is the scan that looks at every minute: it finds the least whole minute that
satisfies the fields after the minute of the given time and within the horizon, and none exactly
when there is none. As long as both ends of the scan lie in the calendar, no jump meets a fault. -/
theorem nextLocal_eq_scan (hf : fields.HasValues) (after : LocalTime)
    (hstart : holdsMinute (after.minute + 1) = true)
    (hend : holdsMinute (after.minute + 1 + horizonMinutes) = true) :
    fields.nextLocal after = .ok (fields.scan (after.minute + 1) horizonMinutes.toNat) ∧
      (∀ m, fields.nextLocal after = .ok (some m) ↔
        IsLeast {m | after.minute + 1 ≤ m ∧ m < after.minute + 1 + horizonMinutes ∧
          fields.admits (.ofMinute m) = true} m) ∧
      (fields.nextLocal after = .ok none ↔
        ∀ m, after.minute + 1 ≤ m → m < after.minute + 1 + horizonMinutes →
          fields.admits (.ofMinute m) = false) := by
  obtain ⟨r, hr, hfirst⟩ := nextLocal_isFirstMatch hf hstart hend
  have hscan := fields.isFirstMatch_scan horizonMinutes.toNat (after.minute + 1)
  rw [show ((horizonMinutes.toNat : Nat) : Int) = horizonMinutes from rfl] at hscan
  have hiff (o : Option Int) : fields.nextLocal after = .ok o ↔
      fields.IsFirstMatch (after.minute + 1) (after.minute + 1 + horizonMinutes) o := by
    rw [hr]
    constructor
    · rintro ⟨rfl⟩
      exact hfirst
    · intro ho
      rw [hfirst.unique ho]
  refine ⟨(hiff _).2 hscan, fun m => ?_, ?_⟩
  · rw [hiff, isFirstMatch_some_iff]
    simp only [admits, LocalTime.minute_ofMinute]
  · rw [hiff]
    simp only [IsFirstMatch, admits, LocalTime.minute_ofMinute]

/-- Half past ten in the evening of a 31 December that is a Monday, as the last day of the calendar
is one. -/
def lastEvening : CronFields :=
  ⟨.ofList [30], .ofList [22], .ofList [31], .ofList [12], .ofList [1]⟩

theorem lastEvening_hasValues : lastEvening.HasValues := by
  intro field
  cases field
  exacts [⟨30, by decide⟩, ⟨22, by decide⟩, ⟨31, by decide⟩, ⟨12, by decide⟩, ⟨1, by decide⟩]

/-- A time from which the horizon lies in the last hour of the calendar. -/
def lastSearch : LocalTime :=
  ⟨(endDay * dayMinutes - 20 - horizonMinutes) * minuteNanos + 17000000000, false⟩

/-- The search that ends in the last hour of the calendar finds the match of the last day. -/
theorem nextLocal_eq_scan_on_last_day :
    lastEvening.HasValues ∧ holdsMinute (lastSearch.minute + 1) = true ∧
      holdsMinute (lastSearch.minute + 1 + horizonMinutes) = true ∧
      IsLeast {m | lastSearch.minute + 1 ≤ m ∧ m < lastSearch.minute + 1 + horizonMinutes ∧
        lastEvening.admits (.ofMinute m) = true} ((endDay - 1) * dayMinutes + 22 * 60 + 30) :=
  ⟨lastEvening_hasValues, by decide, by decide,
    ((nextLocal_eq_scan lastEvening_hasValues lastSearch (by decide) (by decide)).2.1 _).1
      (by decide +kernel)⟩

end CronFields

end CronDaemon.Cron
