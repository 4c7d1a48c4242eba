import CronDaemon.Cron.Schedule
import CronDaemon.Zone.Basic

/-!
# Next runs

The search for the next run of five fields walks over the whole minutes of a wall clock and jumps
over months, days and hours that cannot match. It gives up after four years of 366 days, and breaks
off where it would have to compute past the end of the calendar. The outer search turns a matching
minute into an instant; minutes that the clock skips, or that lie in the past, are passed over.
-/

namespace CronDaemon.Cron

open Calendar

/-- How many minutes a search looks ahead. -/
def horizonMinutes : Int := 4 * 366 * dayMinutes

namespace CronFields

/-- Whether a day satisfies both of its fields. -/
def matchesDay (fields : CronFields) (day : Int) : Bool :=
  fields.dayOfMonth.contains (Calendar.dayOfMonth day) && fields.dayOfWeek.contains (weekday day)

/-- Whether a whole minute, counted from 1970-01-01T00:00, satisfies all five fields. -/
def matchesMinute (fields : CronFields) (minute : Int) : Bool :=
  fields.minute.contains (minute % 60).toNat && fields.hour.contains (minute / 60 % 24).toNat &&
    fields.matchesDay (minute / dayMinutes) && fields.month.contains (monthOf (minute / dayMinutes))

/-- Whether a local time satisfies all five fields; its seconds do not count. -/
def admits (fields : CronFields) (t : LocalTime) : Bool := fields.matchesMinute t.minute

/-- Where the search goes from a candidate minute. -/
inductive Move where
  /-- The candidate matches. -/
  | stay
  /-- A whole month or day is passed over. -/
  | leap (target : Int)
  /-- The rest of an hour or a minute is passed over. -/
  | walk (target : Int)
  deriving DecidableEq, Repr

/-- The move from a candidate: the largest unit that cannot match is passed over. -/
def move (fields : CronFields) (minute : Int) : Move :=
  let day := minute / dayMinutes
  if !fields.month.contains (monthOf day) then .leap (nextMonthStart day * dayMinutes)
  else if !fields.matchesDay day then .leap ((day + 1) * dayMinutes)
  else if !fields.hour.contains (minute / 60 % 24).toNat then .walk ((minute / 60 + 1) * 60)
  else if !fields.minute.contains (minute % 60).toNat then .walk (minute + 1)
  else .stay

theorem lt_of_move_eq_leap {fields : CronFields} {minute target : Int}
    (h : fields.move minute = .leap target) : minute < target := by
  have := lt_nextMonthStart (minute / dayMinutes)
  simp only [move] at h
  split at h
  · cases h; simp only [dayMinutes] at *; omega
  · split at h
    · cases h; simp only [dayMinutes] at *; omega
    · split at h
      · cases h
      · split at h <;> cases h

theorem lt_of_move_eq_walk {fields : CronFields} {minute target : Int}
    (h : fields.move minute = .walk target) : minute < target := by
  simp only [move] at h
  split at h
  · cases h
  · split at h
    · cases h
    · split at h
      · cases h; omega
      · split at h
        · cases h; omega
        · cases h

/-- The candidate stays exactly when it matches. -/
theorem move_eq_stay_iff {fields : CronFields} {minute : Int} :
    fields.move minute = .stay ↔ fields.matchesMinute minute = true := by
  simp only [move, matchesMinute]
  cases fields.month.contains (monthOf (minute / dayMinutes)) <;>
    cases fields.matchesDay (minute / dayMinutes) <;>
    cases fields.hour.contains (minute / 60 % 24).toNat <;>
    cases fields.minute.contains (minute % 60).toNat <;> simp

/-- The first matching minute from a candidate on and before the horizon. A leap past the end of
the calendar finds nothing, a walk past it fails. -/
def search (fields : CronFields) (minute horizon : Int) : Except Fault (Option Int) :=
  if minute < horizon then
    match _h : fields.move minute with
    | .stay => .ok (some minute)
    | .leap target =>
      if holdsMinute target then fields.search target horizon else .ok none
    | .walk target =>
      if holdsMinute target then fields.search target horizon else .error .calendarEnd
  else .ok none
termination_by (horizon - minute).toNat
decreasing_by
  · have := lt_of_move_eq_leap _h; omega
  · have := lt_of_move_eq_walk _h; omega

/-- The first matching minute after a local time, looking four years ahead. -/
def nextLocal (fields : CronFields) (after : LocalTime) : Except Fault (Option Int) :=
  let start := after.minute + 1
  let horizon := start + horizonMinutes
  if holdsMinute start && holdsMinute horizon then fields.search start horizon
  else .error .calendarEnd

theorem le_of_search_eq_some {fields : CronFields} {minute horizon found : Int}
    (h : fields.search minute horizon = .ok (some found)) : minute ≤ found := by
  fun_induction fields.search minute horizon with
  | case1 => cases h; omega
  | case2 minute _ target hm _ ih =>
    have := lt_of_move_eq_leap hm
    have := ih h
    omega
  | case3 => cases h
  | case4 minute _ target hm _ ih =>
    have := lt_of_move_eq_walk hm
    have := ih h
    omega
  | case5 => cases h
  | case6 => cases h

/-- A found minute starts after the given time. -/
theorem lt_of_nextLocal_eq_some {fields : CronFields} {after : LocalTime} {found : Int}
    (h : fields.nextLocal after = .ok (some found)) :
    after.nanos < (LocalTime.ofMinute found).nanos := by
  simp only [nextLocal] at h
  split at h
  · rw [LocalTime.lt_ofMinute_iff]
    have := le_of_search_eq_some h
    omega
  · cases h

/-- The first instant after `after` that belongs to a matching minute, the minutes being taken in
the order of the wall clock after the local time `start` and before `limit`. -/
def searchInstant (fields : CronFields) (zone : Zone) (after : Instant) (limit start : LocalTime) :
    Except Fault (Option Instant) :=
  match _h : fields.nextLocal start with
  | .error e => .error e
  | .ok none => .ok none
  | .ok (some found) =>
    if limit.nanos ≤ (LocalTime.ofMinute found).nanos then .ok none
    else
      match (zone.instantsAt (LocalTime.ofMinute found)).find? fun t => after < t with
      | some t => .ok (some t)
      | none => fields.searchInstant zone after limit (LocalTime.ofMinute found)
termination_by (limit.nanos - start.nanos).toNat
decreasing_by
  have := lt_of_nextLocal_eq_some _h
  omega

/-- The next run of the fields in a zone. -/
def nextAfter (fields : CronFields) (zone : Zone) (after : Instant) :
    Except Fault (Option Instant) :=
  let start := zone.localTime after
  let limit : LocalTime := ⟨start.nanos + 4 * 366 * dayNanos, false⟩
  if holds start.nanos && holds limit.nanos then fields.searchInstant zone after limit start
  else .error .calendarEnd

end CronFields

namespace Schedule

/-- The next run after an instant, by the wall clock of a zone. -/
def nextAfter (schedule : Schedule) (zone : Zone) (after : Instant) :
    Except Fault (Option Instant) :=
  match schedule with
  | .every d => .ok (after.add? d)
  | .cron fields => fields.nextAfter zone after

/-- Up to `count` successive runs after an instant, however long the list gets. -/
def runsAfter (schedule : Schedule) (zone : Zone) (after : Instant) :
    Nat → Except Fault (List Instant)
  | 0 => .ok []
  | count + 1 => do
    match ← schedule.nextAfter zone after with
    | none => return []
    | some next => return next :: (← schedule.runsAfter zone next count)

/-- The most runs for which there is room: each takes 48 bytes of a memory of 2^63 - 1 bytes. -/
def longestList : Nat := 0x7FFFFFFFFFFFFFFF / 48

/-- Up to `count` successive runs after an instant. The room for them is taken in advance. -/
def upcoming (schedule : Schedule) (zone : Zone) (after : Instant) (count : Nat) :
    Except Fault (List Instant) :=
  if count ≤ longestList then schedule.runsAfter zone after count else .error .oversizedList

/-- Up to `count` successive runs of the schedule that a text describes. -/
def preview (text : String) (zone : Zone) (after : Instant) (count : Nat) :
    Except CronError (Except Fault (List Instant)) :=
  (parse text).map fun schedule => schedule.upcoming zone after count

end Schedule

end CronDaemon.Cron
