import CronDaemon.Calendar.Date
import CronDaemon.Calendar.Duration

/-!
# Instants and local times

An instant is a point of time, a local time is what a wall clock shows; both are counted in
nanoseconds from 1970-01-01T00:00:00, the first in universal time. Any second may be followed by a
leap second, which the count passes over: an instant in it is told by a flag. The calendar holds the
years from -262143 to 262142; a sum that leaves it has no value.
-/

namespace CronDaemon

namespace Calendar

/-- The first day of the calendar. -/
def firstDay : Int := yearStart (-262143)

/-- The day after the last day of the calendar. -/
def endDay : Int := yearStart 262143

/-- Minutes in a day. -/
def dayMinutes : Int := 1440

/-- Nanoseconds in a minute. -/
def minuteNanos : Int := 60000000000

/-- Nanoseconds in a day. -/
def dayNanos : Int := 86400000000000

/-- Whether a count of nanoseconds from 1970 lies in the calendar. -/
def holds (nanos : Int) : Bool := firstDay * dayNanos ≤ nanos && nanos < endDay * dayNanos

/-- Whether a count of whole minutes from 1970 lies in the calendar. -/
def holdsMinute (minute : Int) : Bool :=
  firstDay * dayMinutes ≤ minute && minute < endDay * dayMinutes

theorem holds_iff {nanos : Int} :
    holds nanos = true ↔ firstDay * dayNanos ≤ nanos ∧ nanos < endDay * dayNanos := by
  simp [holds]

theorem holdsMinute_iff {minute : Int} :
    holdsMinute minute = true ↔ firstDay * dayMinutes ≤ minute ∧ minute < endDay * dayMinutes := by
  simp [holdsMinute]

/-- The longest step between two instants: 2^63 - 1 milliseconds. -/
def longestStep : Nat := 0x7FFFFFFFFFFFFFFF * 1000000

end Calendar

/-- A point of time. -/
structure Instant where
  /-- Nanoseconds since 1970-01-01T00:00:00 in universal time, leap seconds not counted. -/
  nanos : Int
  /-- Whether the instant lies in the leap second after the second that `nanos` names. -/
  leap : Bool
  deriving DecidableEq, Repr, Inhabited

namespace Instant

/-- The instant so many nanoseconds after 1970, in no leap second. -/
def ofNanos (nanos : Int) : Instant := ⟨nanos, false⟩

/-- The place of an instant in the order of time: each second is followed by room for a leap
second. -/
def rank (t : Instant) : Int :=
  t.nanos + t.nanos / 1000000000 * 1000000000 + if t.leap then 1000000000 else 0

instance : LT Instant := ⟨fun a b => a.rank < b.rank⟩
instance : LE Instant := ⟨fun a b => a.rank ≤ b.rank⟩
instance (a b : Instant) : Decidable (a < b) := inferInstanceAs (Decidable (a.rank < b.rank))
instance (a b : Instant) : Decidable (a ≤ b) := inferInstanceAs (Decidable (a.rank ≤ b.rank))

theorem lt_def {a b : Instant} : a < b ↔ a.rank < b.rank := Iff.rfl

theorem le_def {a b : Instant} : a ≤ b ↔ a.rank ≤ b.rank := Iff.rfl

/-- Two instants at the same place are the same. -/
theorem rank_inj {a b : Instant} : a.rank = b.rank ↔ a = b := by
  refine ⟨fun h => ?_, fun h => h ▸ rfl⟩
  obtain ⟨m, p⟩ := a
  obtain ⟨n, q⟩ := b
  have key : m = n ∧ p = q := by
    cases p <;> cases q <;> simp [rank] at h ⊢ <;> omega
  simp [key]

/-- Outside leap seconds, time goes with the count of nanoseconds. -/
theorem lt_iff_nanos {a b : Instant} (ha : a.leap = false) (hb : b.leap = false) :
    a < b ↔ a.nanos < b.nanos := by
  simp only [lt_def, rank, ha, hb, Bool.false_eq_true, if_false]
  omega

/-- The instant, if it lies in the calendar. -/
def checked (t : Instant) : Option Instant := if Calendar.holds t.nanos then some t else none

/-- The nanoseconds in the second of an instant. -/
def subsec (t : Instant) : Nat := (t.nanos % 1000000000).toNat

/-- The count of nanoseconds when a leap second is counted as the first second after it. -/
def folded (t : Instant) : Int := t.nanos + if t.leap then 1000000000 else 0

/-- The instant a duration later. A leap second is left as if it were the second before it. -/
def add? (t : Instant) (d : Duration) : Option Instant :=
  if d.nanos ≤ Calendar.longestStep then
    checked ⟨t.nanos + d.nanos, t.leap && t.subsec + d.nanos < Duration.second⟩
  else none

/-- The instant a duration earlier. A leap second is left as if it were the second after it. -/
def sub? (t : Instant) (d : Duration) : Option Instant :=
  if d.nanos ≤ Calendar.longestStep then
    checked (if t.leap && d.nanos ≤ t.subsec then ⟨t.nanos - d.nanos, true⟩
      else ofNanos (t.folded - d.nanos))
  else none

/-- What is read from a wall clock that is set to an instant. The clock counts from 1970 on, and a
leap second as the first second after it. -/
def clockReading (t : Instant) : Except Fault Instant :=
  if 0 ≤ t.folded && Calendar.holds t.folded then .ok (ofNanos t.folded) else
    .error .unreadableClock

/-- The instant of a count of seconds since 1970 and of nanoseconds, which go on into a leap second
at the end of a minute. -/
def ofUnix? (seconds : Int) (nanos : Nat) : Option Instant :=
  if nanos < Duration.second then checked (ofNanos (seconds * Duration.second + nanos))
  else if nanos < 2 * Duration.second && seconds % 60 = 59 then
    checked ⟨seconds * Duration.second + (nanos - Duration.second : Nat), true⟩
  else none

end Instant

/-- What a wall clock shows. -/
structure LocalTime where
  /-- Nanoseconds since 1970-01-01T00:00:00 on the same clock, leap seconds not counted. -/
  nanos : Int
  /-- Whether it shows the leap second after the second that `nanos` names. -/
  leap : Bool
  deriving DecidableEq, Repr, Inhabited

namespace LocalTime

/-- The start of a whole minute, counted from 1970-01-01T00:00. -/
def ofMinute (minute : Int) : LocalTime := ⟨minute * Calendar.minuteNanos, false⟩

/-- The whole minute in which a local time lies. -/
def minute (t : LocalTime) : Int := t.nanos / Calendar.minuteNanos

@[simp] theorem minute_ofMinute (m : Int) : (ofMinute m).minute = m := by
  simp only [minute, ofMinute, Calendar.minuteNanos]; omega

/-- A whole minute starts after a local time exactly when it follows that time's own minute. -/
theorem lt_ofMinute_iff (t : LocalTime) (m : Int) :
    t.nanos < (ofMinute m).nanos ↔ t.minute < m := by
  simp only [minute, ofMinute, Calendar.minuteNanos]; omega

end LocalTime

end CronDaemon
