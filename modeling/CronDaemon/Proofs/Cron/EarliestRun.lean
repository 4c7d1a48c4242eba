import CronDaemon.Proofs.Cron.NextRun
import Mathlib.Data.Int.LeastGreatest

/-!
# When the next run is the earliest instant

The search goes by the wall clock, and where the clock is set back the order of the wall clock is
not that of time. The earliest matching instant is the next run exactly when the clock shows it
later than the instant from which the search sets out, and shows no matching instant between the
two. After a set-back the repeated hour fails the first condition: the minutes that lie before the
start on the wall clock are not looked at again.
-/

namespace CronDaemon

open Calendar

/-- No clock of the zone is a day or more ahead of universal time or behind it. -/
def Zone.IsWithinDay (zone : Zone) : Prop := ∀ offset ∈ zone.offsets, -86400 < offset ∧
    offset < 86400

theorem Zone.IsWithinDay.localTime_bounds {zone : Zone} (hz : zone.IsWithinDay) (t : Instant) :
    t.nanos - dayNanos < (zone.localTime t).nanos ∧
      (zone.localTime t).nanos < t.nanos + dayNanos := by
  obtain ⟨h₁, h₂⟩ := hz _ (zone.offsetAt_mem_offsets t)
  simp only [localTime, secondNanos, dayNanos]
  omega

namespace Cron

/-- The instants later than `after` at which the zone shows a whole minute that satisfies the
fields. -/
def CronFields.runInstants (fields : CronFields) (zone : Zone) (after : Instant) : Set Instant :=
  {t | ∃ m, t ∈ zone.laterInstants after m ∧ fields.admits (.ofMinute m) = true}

open CronFields

variable {fields : CronFields} {zone : Zone} {after t : Instant}

/-- A search that answers has set out from a local time of the calendar. -/
theorem holds_of_nextAfter_eq_ok {r : Option Instant} (h : fields.nextAfter zone after = .ok r) :
    holds (zone.localTime after).nanos = true := by
  simp only [CronFields.nextAfter] at h
  split at h
  · next hboth => exact (Bool.and_eq_true_iff.1 hboth).1
  · cases h

/-- Nine years before the end of the calendar there is room for all searches. -/
theorem holdsMinute_of_nine_years (hz : zone.IsWithinDay)
    (hend : after.nanos + 9 * 365 * dayNanos ≤ endDay * dayNanos)
    (hlocal : holds (zone.localTime after).nanos = true) :
    holdsMinute ((zone.localTime after).minute + 1 + 2 * horizonMinutes) = true := by
  have hbounds := (hz.localTime_bounds after).2
  have hlower := (holds_iff.1 hlocal).1
  rw [holdsMinute_iff]
  simp only [LocalTime.minute, horizonMinutes, dayMinutes, minuteNanos, dayNanos] at *
  omega

/-- A run shows a whole minute and so lies in no leap second. -/
theorem leap_of_mem_runInstants (ht : t ∈ fields.runInstants zone after) : t.leap = false := by
  obtain ⟨m, ⟨-, hshown, -⟩, -⟩ := ht
  exact congrArg LocalTime.leap hshown

/-- If there is a run at all, there is an earliest one. -/
theorem exists_isLeast_runInstants (h : (fields.runInstants zone after).Nonempty) :
    ∃ t, IsLeast (fields.runInstants zone after) t := by
  obtain ⟨u, hu⟩ := h
  have hbelow : ∃ b, ∀ z, (∃ t ∈ fields.runInstants zone after, t.rank = z) → b ≤ z := by
    refine ⟨after.rank, ?_⟩
    rintro z ⟨t, ⟨m, ⟨-, -, hlater⟩, -⟩, rfl⟩
    exact Int.le_of_lt (Instant.lt_def.1 hlater)
  obtain ⟨z, ⟨t, ht, rfl⟩, hleast⟩ := Int.exists_least_of_bdd hbelow ⟨u.rank, u, hu, rfl⟩
  exact ⟨t, ht, fun v hv => Instant.le_def.2 (hleast v.rank ⟨v, hv, rfl⟩)⟩

/-- A given earliest instant that comes soon is the next run exactly when the wall clock shows it
later than `after`, and no matching instant between the two. -/
theorem nextAfter_eq_isLeast_iff (hf : fields.HasValues) (hz : zone.IsWithinDay)
    (hend : after.nanos + 9 * 365 * dayNanos ≤ endDay * dayNanos)
    (ht : IsLeast (fields.runInstants zone after) t)
    (hsoon : t.nanos < after.nanos + 4 * 365 * dayNanos) :
    (Schedule.cron fields).nextAfter zone after = .ok (some t) ↔
      holds (zone.localTime after).nanos = true ∧
        (zone.localTime after).nanos < (zone.localTime t).nanos ∧
        ∀ u ∈ fields.runInstants zone after,
          (zone.localTime after).nanos < (zone.localTime u).nanos →
          (zone.localTime t).nanos ≤ (zone.localTime u).nanos := by
  obtain ⟨⟨m, hlater, hadmits⟩, hleast⟩ := ht
  have hshown : zone.localTime t = .ofMinute m := hlater.2.1
  constructor
  · intro hnext
    have hlocal := holds_of_nextAfter_eq_ok hnext
    obtain ⟨r, hr, hfirst⟩ :=
      nextAfter_isFirstRun hf hlocal (holdsMinute_of_nine_years hz hend hlocal)
    rw [show fields.nextAfter zone after = .ok (some t) from hnext] at hr
    cases hr
    obtain ⟨m', hm', ht'⟩ := hfirst
    have hsame : zone.localTime t = .ofMinute m' := ht'.1.2.1
    refine ⟨hlocal, hsame ▸ hm'.1.1, fun u ⟨k, hk, hk'⟩ hu => ?_⟩
    rw [show zone.localTime u = .ofMinute k from hk.2.1] at hu ⊢
    rw [hsame]
    by_cases hwindow : (LocalTime.ofMinute k).nanos <
        (zone.localTime after).nanos + 4 * 366 * dayNanos
    · have hle : m' ≤ k := hm'.2 ⟨hu, hwindow, hk', u, hk⟩
      simp only [LocalTime.ofMinute, minuteNanos]
      omega
    · have := hm'.1.2.1
      omega
  · rintro ⟨hlocal, hahead, hbetween⟩
    obtain ⟨r, hr, hfirst⟩ :=
      nextAfter_isFirstRun hf hlocal (holdsMinute_of_nine_years hz hend hlocal)
    -- The zone is within a day of universal time, so that the instant is shown within the horizon.
    have hmem : m ∈ fields.minutesAhead zone after := by
      refine ⟨hshown ▸ hahead, ?_, hadmits, t, hlater⟩
      have h₁ := (hz.localTime_bounds t).2
      have h₂ := (hz.localTime_bounds after).1
      rw [hshown] at h₁
      simp only [dayNanos] at *
      omega
    cases r with
    | none =>
      rw [show fields.minutesAhead zone after = ∅ from hfirst] at hmem
      cases hmem
    | some t' =>
      obtain ⟨m', hm', ht'⟩ := hfirst
      have hrun : t' ∈ fields.runInstants zone after := ⟨m', ht'.1, hm'.1.2.2.1⟩
      have hge := hbetween t' hrun (ht'.1.2.1 ▸ hm'.1.1)
      have hle : m' ≤ m := hm'.2 hmem
      rw [hshown, ht'.1.2.1] at hge
      have hsame : m' = m := by
        simp only [LocalTime.ofMinute, minuteNanos] at hge
        omega
      subst hsame
      have hfound : t' = t := Instant.rank_inj.1 (Int.le_antisymm (ht'.2 hlater) (hleast hrun))
      rw [← hfound]
      exact hr

/-- Where fewer than four years pass before the next matching instant, the next run of a schedule by
five fields is the earliest such instant exactly when the wall clock shows that instant later than
`after`, and no matching instant between the two. The search sets out from the local time of
`after`, which has to lie in the calendar. -/
theorem nextAfter_eq_earliest_iff (hf : fields.HasValues) (hz : zone.IsWithinDay)
    (hend : after.nanos + 9 * 365 * dayNanos ≤ endDay * dayNanos)
    (hsome : ∃ t ∈ fields.runInstants zone after, t.nanos < after.nanos + 4 * 365 * dayNanos) :
    ∃ t, IsLeast (fields.runInstants zone after) t ∧
      ((Schedule.cron fields).nextAfter zone after = .ok (some t) ↔
        holds (zone.localTime after).nanos = true ∧
          (zone.localTime after).nanos < (zone.localTime t).nanos ∧
          ∀ u ∈ fields.runInstants zone after,
            (zone.localTime after).nanos < (zone.localTime u).nanos →
            (zone.localTime t).nanos ≤ (zone.localTime u).nanos) := by
  obtain ⟨u, hu, hsoon⟩ := hsome
  obtain ⟨t, ht⟩ := exists_isLeast_runInstants ⟨u, hu⟩
  have hle : t.nanos ≤ u.nanos := by
    have hrank := Instant.le_def.1 (ht.2 hu)
    rw [← Int.not_lt, ← Instant.lt_iff_nanos (leap_of_mem_runInstants hu)
      (leap_of_mem_runInstants ht.1), Instant.lt_def]
    omega
  exact ⟨t, ht, nextAfter_eq_isLeast_iff hf hz hend ht (by omega)⟩

/-- Every quarter of an hour. -/
def quarterHours : CronFields :=
  ⟨.ofList [0, 15, 30, 45], .full .hour, .full .dayOfMonth, .full .month, .full .dayOfWeek⟩

theorem quarterHours_hasValues : quarterHours.HasValues := by
  intro field
  cases field
  exacts [⟨0, by decide⟩, ⟨0, by decide⟩, ⟨1, by decide⟩, ⟨1, by decide⟩, ⟨0, by decide⟩]

theorem newYork_isWithinDay : newYork.IsWithinDay := by
  have hoffsets : newYork.offsets = [-18000, -14400] := by decide +kernel
  intro offset hoffset
  rw [hoffsets] at hoffset
  simp only [List.mem_cons, List.not_mem_nil, or_false] at hoffset
  omega

/-- A quarter to two in New York on 3 November 2024, a quarter of an hour before the clock is set
back to one. -/
def beforeSetBack : Instant := .ofNanos 1730612700000000000

/-- One o'clock in New York for the second time, just after the clock is set back. -/
def atSetBack : Instant := .ofNanos 1730613600000000000

theorem atSetBack_mem_runInstants :
    atSetBack ∈ quarterHours.runInstants newYork beforeSetBack :=
  ⟨28843260, ⟨by decide +kernel, by decide +kernel, by decide +kernel⟩, by decide +kernel⟩

/-- The condition decides about the run after a quarter to two. -/
theorem nextAfter_eq_earliest_iff_before_set_back :
    quarterHours.HasValues ∧ newYork.IsWithinDay ∧
      beforeSetBack.nanos + 9 * 365 * dayNanos ≤ endDay * dayNanos ∧
      (∃ t ∈ quarterHours.runInstants newYork beforeSetBack,
        t.nanos < beforeSetBack.nanos + 4 * 365 * dayNanos) ∧
      ∃ t, IsLeast (quarterHours.runInstants newYork beforeSetBack) t ∧
        ((Schedule.cron quarterHours).nextAfter newYork beforeSetBack = .ok (some t) ↔
          holds (newYork.localTime beforeSetBack).nanos = true ∧
            (newYork.localTime beforeSetBack).nanos < (newYork.localTime t).nanos ∧
            ∀ u ∈ quarterHours.runInstants newYork beforeSetBack,
              (newYork.localTime beforeSetBack).nanos < (newYork.localTime u).nanos →
              (newYork.localTime t).nanos ≤ (newYork.localTime u).nanos) := by
  have hsome : ∃ t ∈ quarterHours.runInstants newYork beforeSetBack,
      t.nanos < beforeSetBack.nanos + 4 * 365 * dayNanos :=
    ⟨_, atSetBack_mem_runInstants, by decide⟩
  have hend : beforeSetBack.nanos + 9 * 365 * dayNanos ≤ endDay * dayNanos := by decide
  exact ⟨quarterHours_hasValues, newYork_isWithinDay, hend, hsome,
    nextAfter_eq_earliest_iff quarterHours_hasValues newYork_isWithinDay hend hsome⟩

/-- The next run need not be the earliest matching instant: before the clock is set back the whole
repeated hour is left out, and the run after a quarter to two comes at two, not at one. -/
theorem not_forall_nextAfter_isLeast :
    ¬ ∀ (fields : CronFields) (zone : Zone) (after : Instant), fields.HasValues →
      zone.IsWithinDay → holds (zone.localTime after).nanos = true →
      after.nanos + 9 * 365 * dayNanos ≤ endDay * dayNanos →
      (∃ t ∈ fields.runInstants zone after, t.nanos < after.nanos + 4 * 365 * dayNanos) →
      ∃ t, (Schedule.cron fields).nextAfter zone after = .ok (some t) ∧
        IsLeast (fields.runInstants zone after) t := by
  intro hall
  obtain ⟨t, ht, hleast⟩ := hall quarterHours newYork beforeSetBack quarterHours_hasValues
    newYork_isWithinDay (by decide +kernel) (by decide) ⟨_, atSetBack_mem_runInstants, by decide⟩
  have hnext : (Schedule.cron quarterHours).nextAfter newYork beforeSetBack =
      .ok (some (.ofNanos 1730617200000000000)) := by decide +kernel
  rw [hnext] at ht
  cases ht
  have hle : Instant.ofNanos 1730617200000000000 ≤ atSetBack := hleast.2 atSetBack_mem_runInstants
  exact absurd hle (by decide)

end Cron

end CronDaemon
