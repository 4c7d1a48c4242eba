import CronDaemon.Fault
import CronDaemon.Text.Numeral

/-!
# Durations

A duration is a length of time in whole nanoseconds. It is written in the largest of the
units s, ms, µs and ns that it fills at least once, with the exact decimal fraction.
-/

namespace CronDaemon

/-- A length of time. -/
structure Duration where
  /-- The length in nanoseconds. -/
  nanos : Nat
  deriving DecidableEq, Repr, Inhabited

namespace Duration

/-- Nanoseconds in a second. -/
def second : Nat := 1000000000

/-- A number of whole seconds. -/
def ofSecs (n : Nat) : Duration := ⟨n * second⟩

/-- A number of whole milliseconds. -/
def ofMillis (n : Nat) : Duration := ⟨n * 1000000⟩

/-- So many seconds and nanoseconds. The seconds have 64 bits; nanoseconds that make up more of them
are carried. -/
def ofParts (seconds nanos : Nat) : Except Fault Duration :=
  if seconds + nanos / second ≤ Text.max64 then .ok ⟨seconds * second + nanos⟩
  else .error .intervalCarry

/-- The whole seconds of a duration. -/
def secs (d : Duration) : Nat := d.nanos / second

/-- The nanoseconds after the last whole second. -/
def subsecNanos (d : Duration) : Nat := d.nanos % second

/-- The decimal digits of a fraction over `10 ^ width`, with the point, without final zeros. -/
def fraction (width n : Nat) : String :=
  let digits := (Text.padded width n).toList.reverse.dropWhile (· = '0')
  if digits.isEmpty then "" else "." ++ String.ofList digits.reverse

/-- The text of a duration. -/
def render (d : Duration) : String :=
  let n := d.nanos
  if second ≤ n then toString (n / second) ++ fraction 9 (n % second) ++ "s"
  else if 1000000 ≤ n then toString (n / 1000000) ++ fraction 6 (n % 1000000) ++ "ms"
  else if 1000 ≤ n then toString (n / 1000) ++ fraction 3 (n % 1000) ++ "µs"
  else toString n ++ "ns"

end Duration

end CronDaemon
