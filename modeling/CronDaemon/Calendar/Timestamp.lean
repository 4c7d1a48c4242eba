import CronDaemon.Calendar.Instant

/-!
# Timestamps

The text form of instants: year, month, day, a `T`, hours, minutes and seconds, and the distance
from universal time. The fraction of a second has 0, 3, 6 or 9 digits, the fewest that are exact;
a year outside 0 to 9999 carries its sign. A leap second is one more than the second before it.
Distances are shown in whole minutes.
-/

namespace CronDaemon

/-- The year, with a sign outside 0 to 9999. -/
def Calendar.renderYear (year : Int) : String :=
  if 0 ≤ year ∧ year ≤ 9999 then Text.padded 4 year.toNat
  else (if year < 0 then "-" else "+") ++ Text.padded 4 year.natAbs

/-- The fraction of a second in groups of three digits, as many as are needed. -/
def Calendar.renderFraction (nanos : Nat) : String :=
  if nanos = 0 then ""
  else if nanos % 1000000 = 0 then "." ++ Text.padded 3 (nanos / 1000000)
  else if nanos % 1000 = 0 then "." ++ Text.padded 6 (nanos / 1000)
  else "." ++ Text.padded 9 nanos

/-- The date and the time of day. -/
def LocalTime.render (t : LocalTime) : String :=
  let date := Calendar.Date.ofDay (t.nanos / Calendar.dayNanos)
  let inDay := (t.nanos % Calendar.dayNanos).toNat
  let seconds := inDay / Duration.second
  Calendar.renderYear date.year ++ "-" ++ Text.padded 2 date.month ++ "-" ++
    Text.padded 2 date.day ++ "T" ++ Text.padded 2 (seconds / 3600) ++ ":" ++
    Text.padded 2 (seconds / 60 % 60) ++ ":" ++
    Text.padded 2 (seconds % 60 + if t.leap then 1 else 0) ++
    Calendar.renderFraction (inDay % Duration.second)

/-- An instant in universal time. -/
def Instant.render (t : Instant) : String := (LocalTime.mk t.nanos t.leap).render ++ "Z"

/-- A distance from universal time, rounded to whole minutes, a half away from zero. -/
def Calendar.renderOffset (seconds : Int) : String :=
  let minutes := (seconds.natAbs + 30) / 60
  (if seconds < 0 then "-" else "+") ++ Text.padded 2 (minutes / 60) ++ ":" ++
    Text.padded 2 (minutes % 60)

/-- An instant as shown by a clock that is `offset` seconds ahead of universal time. -/
def Instant.renderAt (t : Instant) (offset : Int) : String :=
  (LocalTime.mk (t.nanos + offset * Duration.second) t.leap).render ++ Calendar.renderOffset offset

namespace Calendar.Timestamp

/-- Read exactly `n` digits. -/
def digits (n : Nat) (s : List Char) : Option (Nat × List Char) := do
  let front := s.take n
  if front.length < n then none else return (← Text.digitsFrom? 0 front, s.drop n)

/-- Read one of the given characters. -/
def oneOf (allowed : List Char) : List Char → Option (List Char)
  | c :: r => if c ∈ allowed then some r else none
  | [] => none

/-- Read an optional fraction of a second, of which nine digits count. -/
def fraction (s : List Char) : Option (Nat × List Char) :=
  match s with
  | '.' :: r =>
    let front := r.takeWhile Text.isDigit
    if front.isEmpty then none
    else do
      let n ← Text.digitsFrom? 0 ((front ++ List.replicate 9 '0').take 9)
      return (n, r.dropWhile Text.isDigit)
  | _ => some (0, s)

/-- Read the distance from universal time in seconds, which is less than a day. The minus sign may
be a hyphen. -/
def offset : List Char → Option (Int × List Char)
  | 'Z' :: r | 'z' :: r => some (0, r)
  | sign :: r => do
    let (hours, r) ← digits 2 r
    let (minutes, r) ← digits 2 (← oneOf [':'] r)
    if 59 < minutes || 23 < hours then none
    let seconds : Int := (hours * 3600 + minutes * 60 : Nat)
    if sign = '+' then return (seconds, r)
    else if sign = '-' || sign = '−' then return (-seconds, r)
    else none
  | [] => none

/-- Read a timestamp whose year has four digits. Every minute may have a leap second. -/
def read (s : List Char) : Option Instant := do
  let (year, s) ← digits 4 s
  let (month, s) ← digits 2 (← oneOf ['-'] s)
  let (day, s) ← digits 2 (← oneOf ['-'] s)
  let (hour, s) ← digits 2 (← oneOf ['T', 't', ' '] s)
  let (minute, s) ← digits 2 (← oneOf [':'] s)
  let (second, s) ← digits 2 (← oneOf [':'] s)
  let (nanos, s) ← fraction s
  let (offset, s) ← offset s
  let date : Date := ⟨year, month, day⟩
  if date.isValid && hour < 24 && minute < 60 && second ≤ 60 && s.isEmpty then
    let seconds := date.toDay * 86400 + (hour * 3600 + minute * 60 + min second 59 : Nat) - offset
    return ⟨seconds * Duration.second + nanos, second == 60⟩
  else none

end Calendar.Timestamp

/-- Read an instant from its text. -/
def Instant.parse? (s : String) : Option Instant := Calendar.Timestamp.read s.toList

end CronDaemon
