import CronDaemon.Proofs.Cron.MinuteScan
import CronDaemon.Zone.Known
import Mathlib.Data.Set.Basic

/-!
# Next runs in a zone

The outer search takes the matching minutes in the order of the wall clock and stops at the first
one that the zone shows at an instant later than the given one. Here its answer is described for
every history of offsets: minutes that the clock skips or shows only earlier are passed over, and
the inner horizon, which moves with the search, never hides a minute before the fixed outer limit.
-/

namespace CronDaemon

open Calendar

/-- The instants later than `after` at which a clock of the zone shows the start of a minute. -/
def Zone.laterInstants (zone : Zone) (after : Instant) (minute : Int) : Set Instant :=
  {t | holds t.nanos = true ∧ zone.localTime t = .ofMinute minute ∧ after < t}

/-- What a search among some minutes has to answer: the earliest later instant of the least one. -/
def Zone.IsFirstRun (zone : Zone) (after : Instant) (minutes : Set Int) : Option Instant → Prop
  | none => minutes = ∅
  | some t => ∃ m, IsLeast minutes m ∧ IsLeast (zone.laterInstants after m) t

/-- A search through the listed instants finds the earliest of the later ones. -/
theorem Zone.isLeast_of_find {zone : Zone} {after t : Instant} {minute : Int}
    (h : (zone.instantsAt (.ofMinute minute)).find? (fun t => after < t) = some t) :
    IsLeast (zone.laterInstants after minute) t := by
  obtain ⟨hlater, before, rest, hsplit, hbefore⟩ := List.find?_eq_some_iff_append.1 h
  have hsorted := zone.instantsAt_sorted (.ofMinute minute)
  have hmem : t ∈ zone.instantsAt (.ofMinute minute) := hsplit ▸ by simp
  obtain ⟨hholds, hshown⟩ := mem_instantsAt_iff.1 hmem
  refine ⟨⟨hholds, hshown, by simpa using hlater⟩, fun u ⟨hu₁, hu₂, hu₃⟩ => ?_⟩
  have hu : u ∈ before ++ t :: rest := hsplit ▸ mem_instantsAt_iff.2 ⟨hu₁, hu₂⟩
  rw [hsplit, List.pairwise_append, List.pairwise_cons] at hsorted
  rcases List.mem_append.1 hu with hu | hu
  · have := hbefore u hu
    simp [hu₃] at this
  · rcases List.mem_cons.1 hu with rfl | hu
    · exact Int.le_refl _
    · exact hsorted.2.1.1 u hu

/-- A search through the listed instants finds nothing exactly when none of them is later. -/
theorem Zone.laterInstants_of_find_eq_none {zone : Zone} {after : Instant} {minute : Int}
    (h : (zone.instantsAt (.ofMinute minute)).find? (fun t => after < t) = none) :
    zone.laterInstants after minute = ∅ := by
  ext t
  simp only [Set.mem_empty_iff_false, iff_false]
  rintro ⟨hholds, hshown, hlater⟩
  have := List.find?_eq_none.1 h t (mem_instantsAt_iff.2 ⟨hholds, hshown⟩)
  simp [hlater] at this

namespace Cron

namespace CronFields

/-- The whole minutes after `start` and before `limit` that satisfy the fields and that the zone
shows at an instant later than `after`. -/
def runMinutes (fields : CronFields) (zone : Zone) (after : Instant) (start limit : Int) :
    Set Int :=
  {m | start < (LocalTime.ofMinute m).nanos ∧ (LocalTime.ofMinute m).nanos < limit ∧
    fields.admits (.ofMinute m) = true ∧ (zone.laterInstants after m).Nonempty}

variable {fields : CronFields} {zone : Zone} {after : Instant} {start limit : LocalTime}

/-- A run minute is no earlier than the minute that the inner search finds. -/
theorem le_of_mem_runMinutes {m found stop : Int}
    (hfirst : fields.IsFirstMatch (start.minute + 1) (start.minute + 1 + horizonMinutes)
      (some found))
    (hm : m ∈ fields.runMinutes zone after start.nanos stop) : found ≤ m := by
  obtain ⟨hstart, -, hadmits, -⟩ := hm
  rw [LocalTime.lt_ofMinute_iff] at hstart
  rw [admits, LocalTime.minute_ofMinute] at hadmits
  by_contra hlt
  simp [hfirst.2.2.2 m (by omega) (by omega)] at hadmits

/-- When the minute that the inner search finds is not shown later, the search goes on from it. -/
theorem runMinutes_eq_of_dead {found : Int}
    (hfirst : fields.IsFirstMatch (start.minute + 1) (start.minute + 1 + horizonMinutes)
      (some found))
    (hdead : zone.laterInstants after found = ∅) :
    fields.runMinutes zone after start.nanos limit.nanos =
      fields.runMinutes zone after (LocalTime.ofMinute found).nanos limit.nanos := by
  have hfound : start.nanos < (LocalTime.ofMinute found).nanos := by
    rw [LocalTime.lt_ofMinute_iff]
    have := hfirst.1
    omega
  ext m
  constructor
  · intro hm
    have hle := le_of_mem_runMinutes hfirst hm
    obtain ⟨hstart, hlimit, hadmits, hlater⟩ := hm
    refine ⟨?_, hlimit, hadmits, hlater⟩
    have hne : m ≠ found := by
      rintro rfl
      rw [hdead] at hlater
      exact Set.not_nonempty_empty hlater
    rw [LocalTime.lt_ofMinute_iff, LocalTime.minute_ofMinute]
    omega
  · rintro ⟨hstart, hlimit, hadmits, hlater⟩
    exact ⟨by omega, hlimit, hadmits, hlater⟩

/-- A matching minute that lies after the start and before a limit within reach is in the horizon of
the inner search. -/
theorem mem_horizon {m : Int} (hreach : limit.minute ≤ start.minute + horizonMinutes)
    (hstart : start.nanos < (LocalTime.ofMinute m).nanos)
    (hlimit : (LocalTime.ofMinute m).nanos < limit.nanos) :
    start.minute + 1 ≤ m ∧ m < start.minute + 1 + horizonMinutes := by
  have hm : m ≤ limit.minute := by
    simp only [LocalTime.minute, LocalTime.ofMinute, minuteNanos] at *; omega
  rw [LocalTime.lt_ofMinute_iff] at hstart
  omega

/-- From any start before the limit the outer search ends without a fault, and with the earliest
later instant of the least run minute. -/
theorem searchInstant_isFirstRun (hf : fields.HasValues)
    (hfirstDay : firstDay * dayMinutes ≤ start.minute + 1)
    (hroom : limit.minute + 1 + horizonMinutes < endDay * dayMinutes)
    (hle : start.minute ≤ limit.minute) (hreach : limit.minute ≤ start.minute + horizonMinutes) :
    ∃ r, fields.searchInstant zone after limit start = .ok r ∧
      zone.IsFirstRun after (fields.runMinutes zone after start.nanos limit.nanos) r := by
  have hinner : ∀ s : LocalTime, firstDay * dayMinutes ≤ s.minute + 1 → s.minute ≤ limit.minute →
      ∃ r, fields.nextLocal s = .ok r ∧
        fields.IsFirstMatch (s.minute + 1) (s.minute + 1 + horizonMinutes) r := by
    intro s h₁ h₂
    apply nextLocal_isFirstMatch hf <;> rw [holdsMinute_iff] <;>
      simp only [horizonMinutes, dayMinutes] at * <;> omega
  fun_induction fields.searchInstant zone after limit start with
  | case1 start e hnext =>
    obtain ⟨r, hr, -⟩ := hinner start hfirstDay hle
    rw [hr] at hnext
    cases hnext
  | case2 start hnext =>
    obtain ⟨r, hr, hfirst⟩ := hinner start hfirstDay hle
    rw [hr] at hnext
    cases hnext
    refine ⟨none, rfl, Set.eq_empty_iff_forall_notMem.2 ?_⟩
    rintro m ⟨hm₁, hm₂, hm₃, -⟩
    obtain ⟨h₁, h₂⟩ := mem_horizon hreach hm₁ hm₂
    rw [admits, LocalTime.minute_ofMinute, hfirst m h₁ h₂] at hm₃
    cases hm₃
  | case3 start found hnext hlimit =>
    obtain ⟨r, hr, hfirst⟩ := hinner start hfirstDay hle
    rw [hr] at hnext
    cases hnext
    refine ⟨none, rfl, Set.eq_empty_iff_forall_notMem.2 fun m hm => ?_⟩
    have hge := le_of_mem_runMinutes hfirst hm
    have hm₂ := hm.2.1
    simp only [LocalTime.ofMinute, minuteNanos] at *
    omega
  | case4 start found hnext hlimit t hfind =>
    obtain ⟨r, hr, hfirst⟩ := hinner start hfirstDay hle
    rw [hr] at hnext
    cases hnext
    have ht := Zone.isLeast_of_find hfind
    refine ⟨some t, rfl, found, ⟨⟨?_, by omega, ?_, ⟨t, ht.1⟩⟩, fun m hm => ?_⟩, ht⟩
    · rw [LocalTime.lt_ofMinute_iff]
      have := hfirst.1
      omega
    · rw [admits, LocalTime.minute_ofMinute]
      exact hfirst.2.2.1
    · exact le_of_mem_runMinutes hfirst hm
  | case5 start found hnext hlimit hfind ih =>
    obtain ⟨r, hr, hfirst⟩ := hinner start hfirstDay hle
    rw [hr] at hnext
    cases hnext
    have hgrow := hfirst.1
    have hbound : found ≤ limit.minute := by
      simp only [LocalTime.minute, LocalTime.ofMinute, minuteNanos] at *; omega
    -- No instant shows the minute that was found, so that nothing is lost by going on after it.
    rw [runMinutes_eq_of_dead hfirst (Zone.laterInstants_of_find_eq_none hfind)]
    apply ih <;> rw [LocalTime.minute_ofMinute] <;> omega

/-- The minutes at which the fields may run within four years of 366 days, by the wall clock. -/
def minutesAhead (fields : CronFields) (zone : Zone) (after : Instant) : Set Int :=
  fields.runMinutes zone after (zone.localTime after).nanos
    ((zone.localTime after).nanos + 4 * 366 * dayNanos)

/-- The search for the next run answers by the least minute ahead. -/
theorem nextAfter_isFirstRun (hf : fields.HasValues)
    (hlocal : holds (zone.localTime after).nanos = true)
    (hroom : holdsMinute ((zone.localTime after).minute + 1 + 2 * horizonMinutes) = true) :
    ∃ r, fields.nextAfter zone after = .ok r ∧
      zone.IsFirstRun after (fields.minutesAhead zone after) r := by
  have hlower := (holds_iff.1 hlocal).1
  have hupper := (holdsMinute_iff.1 hroom).2
  have hlimit : holds ((zone.localTime after).nanos + 4 * 366 * dayNanos) = true := by
    rw [holds_iff]
    simp only [LocalTime.minute, horizonMinutes, dayMinutes, minuteNanos, dayNanos] at *
    omega
  have hsearch := @searchInstant_isFirstRun fields zone after (zone.localTime after)
    ⟨(zone.localTime after).nanos + 4 * 366 * dayNanos, false⟩ hf
  simp only [nextAfter, hlocal, hlimit, Bool.and_self, if_true]
  apply hsearch <;>
    simp only [LocalTime.minute, horizonMinutes, dayMinutes, minuteNanos, dayNanos] at * <;>
    omega

end CronFields

open CronFields

variable {fields : CronFields} {zone : Zone} {after : Instant}

/-- The next run of a schedule by five fields, for any zone. There is one exactly when a minute
ahead satisfies the fields and is shown later than `after`, and then it is the earliest later
instant of the least such minute. Minutes in a gap are shown at no instant, so if all matches fall
into gaps there is no run. The search always ends, and without a fault as long as every minute from
which it may set out lies four years of 366 days inside the calendar. -/
theorem nextAfter_eq_earliest_of_least_minute (hf : fields.HasValues)
    (hlocal : holds (zone.localTime after).nanos = true)
    (hroom : holdsMinute ((zone.localTime after).minute + 1 + 2 * horizonMinutes) = true) :
    ∃ r, (Schedule.cron fields).nextAfter zone after = .ok r ∧
      (r.isSome = true ↔ (fields.minutesAhead zone after).Nonempty) ∧
      (∀ t, r = some t → ∃ m, IsLeast (fields.minutesAhead zone after) m ∧
        IsLeast (zone.laterInstants after m) t ∧
        zone.localTime t = .ofMinute m ∧ fields.admits (zone.localTime t) = true) ∧
      ((∀ m, fields.admits (.ofMinute m) = true → zone.instantsAt (.ofMinute m) = []) →
        r = none) := by
  obtain ⟨r, hr, hfirst⟩ := nextAfter_isFirstRun hf hlocal hroom
  refine ⟨r, hr, ?_, ?_, ?_⟩
  · cases r with
    | none =>
      rw [show fields.minutesAhead zone after = ∅ from hfirst]
      simp
    | some t =>
      obtain ⟨m, hm, -⟩ := hfirst
      exact ⟨fun _ => ⟨m, hm.1⟩, fun _ => rfl⟩
  · rintro t rfl
    obtain ⟨m, hm, ht⟩ := hfirst
    have hshown : zone.localTime t = .ofMinute m := ht.1.2.1
    exact ⟨m, hm, ht, hshown, hshown ▸ hm.1.2.2.1⟩
  · intro hgaps
    cases r with
    | none => rfl
    | some t =>
      obtain ⟨m, hm, ht⟩ := hfirst
      have hlisted := Zone.mem_instantsAt_iff.2 ⟨ht.1.1, ht.1.2.1⟩
      rw [hgaps m hm.1.2.2.1] at hlisted
      cases hlisted

/-- Half past two at night, every day. -/
def halfPastTwo : CronFields :=
  ⟨.ofList [30], .ofList [2], .full .dayOfMonth, .full .month, .full .dayOfWeek⟩

theorem halfPastTwo_hasValues : halfPastTwo.HasValues := by
  intro field
  cases field
  exacts [⟨30, by decide⟩, ⟨2, by decide⟩, ⟨1, by decide⟩, ⟨1, by decide⟩, ⟨0, by decide⟩]

/-- The zone of New York. -/
def newYork : Zone := Zone.northAmerican "America/New_York" (Zone.hours (-5))

/-- One o'clock in New York on 10 March 2024, an hour before the clock is put forward. -/
def beforeGap : Instant := .ofNanos 1710050400000000000

/-- The half past two that the clock skips is passed over: the run comes a day later. -/
theorem nextAfter_eq_earliest_over_gap :
    halfPastTwo.HasValues ∧ holds (newYork.localTime beforeGap).nanos = true ∧
      holdsMinute ((newYork.localTime beforeGap).minute + 1 + 2 * horizonMinutes) = true ∧
      ∃ m, IsLeast (halfPastTwo.minutesAhead newYork beforeGap) m ∧
        IsLeast (newYork.laterInstants beforeGap m) (.ofNanos 1710138600000000000) := by
  have hlocal : holds (newYork.localTime beforeGap).nanos = true := by decide +kernel
  have hroom : holdsMinute ((newYork.localTime beforeGap).minute + 1 + 2 * horizonMinutes) =
    true := by decide +kernel
  refine ⟨halfPastTwo_hasValues, hlocal, hroom, ?_⟩
  obtain ⟨r, hr, -, hleast, -⟩ :=
    nextAfter_eq_earliest_of_least_minute halfPastTwo_hasValues hlocal hroom
  have hfound : (Schedule.cron halfPastTwo).nextAfter newYork beforeGap =
      .ok (some (.ofNanos 1710138600000000000)) := by decide +kernel
  rw [hfound] at hr
  cases hr
  obtain ⟨m, hm, ht, -⟩ := hleast _ rfl
  exact ⟨m, hm, ht⟩

end Cron

end CronDaemon
