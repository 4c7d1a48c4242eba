import CronDaemon.Calendar.Duration
import CronDaemon.Cron.Error

/-!
# Intervals

An interval is written as spans, each a number and a unit: `1h 30m`, `1.5s`. The text is read one
character at a time; `Reading` says between which characters the reader stands. Amounts are kept
in words of 64 bits, and a fraction must be exact in nanoseconds, or in whole seconds for hours
and longer units. Nanoseconds that make up one second exactly are carried after all checks, so that
they break reading off when the seconds are full.
-/

namespace CronDaemon.Cron.Interval

open Text (max64)

/-- A unit of time: how many of its ticks it has, and whether a tick is a second or a nanosecond. -/
structure Unit where
  /-- The length in ticks. -/
  ticks : Nat
  /-- Whether a tick is a second; otherwise it is a nanosecond. -/
  inSeconds : Bool
  /-- The ticks over which a fraction must be exact; none allows no fraction. -/
  fractionTicks : Option Nat
  /-- Whether the ticks of a fraction are seconds. -/
  fractionInSeconds : Bool
  deriving DecidableEq, Repr

/-- A unit up to the millisecond, of so many nanoseconds. -/
def Unit.short (nanos : Nat) : Unit :=
  ⟨nanos, false, if nanos = 1 then none else some nanos, false⟩

/-- A unit up to the minute, of so many seconds, whose fractions are exact in nanoseconds. -/
def Unit.middle (seconds : Nat) : Unit := ⟨seconds, true, some (seconds * 1000000000), false⟩

/-- A longer unit, of so many seconds, whose fractions are exact in seconds. -/
def Unit.long (seconds : Nat) : Unit := ⟨seconds, true, some seconds, true⟩

/-- The unit of a name. -/
def Unit.ofName? (name : String) : Option Unit :=
  if name ∈ ["nanos", "nsec", "ns"] then some (.short 1)
  else if name ∈ ["usec", "us", "µs"] then some (.short 1000)
  else if name ∈ ["millis", "msec", "ms"] then some (.short 1000000)
  else if name ∈ ["seconds", "second", "secs", "sec", "s"] then some (.middle 1)
  else if name ∈ ["minutes", "minute", "min", "mins", "m"] then some (.middle 60)
  else if name ∈ ["hours", "hour", "hr", "hrs", "h"] then some (.long 3600)
  else if name ∈ ["days", "day", "d"] then some (.long 86400)
  else if name ∈ ["weeks", "week", "wk", "wks", "w"] then some (.long 604800)
  else if name ∈ ["months", "month", "M"] then some (.long 2630016)
  else if name ∈ ["years", "year", "yr", "yrs", "y"] then some (.long 31557600)
  else none

/-- Whether a character can stand in the name of a unit. -/
def isUnitLetter (c : Char) : Bool := c.isAlpha || c == 'µ'

/-- A number that fits 64 bits. -/
def word (n : Nat) : Except IntervalError Nat := if n ≤ max64 then .ok n else .error .overflow

/-- Append a digit to a number. -/
def append (n digit : Nat) : Except IntervalError Nat := word (10 * n + digit)

/-- A decimal fraction, as a numerator and a power of ten. -/
structure Fraction where
  numerator : Nat
  denominator : Nat
  deriving DecidableEq, Repr

/-- Add seconds and nanoseconds to a total. -/
def addTo (total : Duration) (seconds nanos : Nat) : Except IntervalError Duration := do
  let parts ← word (total.subsecNanos + nanos)
  let sum : Duration := ⟨total.nanos + seconds * Duration.second + nanos⟩
  if sum.secs ≤ max64 then return sum
  else if parts = Duration.second ∧ total.secs + seconds ≤ max64 then throw (.broken .intervalCarry)
  else throw .overflow

/-- Add a number of ticks to a total. -/
def addTicks (total : Duration) (ticks : Nat) (inSeconds : Bool) : Except IntervalError Duration :=
  if inSeconds then addTo total ticks 0 else addTo total 0 ticks

/-- Add a span to a total. -/
def addSpan (total : Duration) (number : Nat) (fraction : Option Fraction) (unitName : String) :
    Except IntervalError Duration :=
  match Unit.ofName? unitName with
  | none => .error (if unitName.isEmpty then .unitNeeded number else .unknownUnit unitName)
  | some unit => do
    let total ← addTicks total (← word (number * unit.ticks)) unit.inSeconds
    match fraction, unit.fractionTicks with
    | none, _ => return total
    | some _, none => throw .overflow
    | some f, some ticks =>
      let parts ← word (f.numerator * ticks)
      if parts % f.denominator ≠ 0 then throw .overflow
      addTicks total (parts / f.denominator) unit.fractionInSeconds

/-- Where the reader stands. -/
inductive Reading where
  /-- Before a span, in a gap that starts at the given offset. -/
  | gap (start : Nat)
  /-- In the whole part of a number. -/
  | whole (number : Nat)
  /-- After a decimal point; `fault` is the offset to report for a character that does not fit. -/
  | decimals (number : Nat) (fraction : Fraction) (fault : Nat)
  /-- In the name of a unit. -/
  | unit (number : Nat) (fraction : Option Fraction) (name : String)
  deriving DecidableEq, Repr

/-- Read the character at an offset. -/
def step (reading : Reading) (total : Duration) (offset : Nat) (c : Char) :
    Except IntervalError (Reading × Duration) :=
  let next := offset + c.utf8Size
  match reading with
  | .gap start =>
    match Text.digit? c with
    | some digit => .ok (.whole digit, total)
    | none => if Text.isBlank c then .ok (.gap start, total) else .error (.numberExpected start)
  | .whole number =>
    match Text.digit? c with
    | some digit => do return (.whole (← append number digit), total)
    | none =>
      if Text.isBlank c then .ok (.whole number, total)
      else if isUnitLetter c then .ok (.unit number none (String.singleton c), total)
      else if c = '.' then .ok (.decimals number ⟨0, 1⟩ offset, total)
      else .error (.invalidCharacter offset)
  | .decimals number f fault =>
    match Text.digit? c with
    | some digit => do
      let denominator ← word (10 * f.denominator)
      return (.decimals number ⟨← append f.numerator digit, denominator⟩ next, total)
    | none =>
      if Text.isBlank c then .ok (.decimals number f next, total)
      else if isUnitLetter c then
        if f.denominator = 1 then .error (.invalidCharacter fault)
        else .ok (.unit number (some f) (String.singleton c), total)
      else .error (.invalidCharacter fault)
  | .unit number f name =>
    match Text.digit? c with
    | some digit => do return (.whole digit, ← addSpan total number f name)
    | none =>
      if Text.isBlank c then do return (.gap next, ← addSpan total number f name)
      else if isUnitLetter c then .ok (.unit number f (name.push c), total)
      else .error (.invalidCharacter offset)

/-- Read the characters from an offset on. -/
def run (reading : Reading) (total : Duration) (offset : Nat) :
    List Char → Except IntervalError (Reading × Duration)
  | [] => .ok (reading, total)
  | c :: r => do
    let (reading, total) ← step reading total offset c
    run reading total (offset + c.utf8Size) r

/-- The total at the end of the text. -/
def finish : Reading × Duration → Except IntervalError Duration
  | (.gap _, total) => .ok total
  | (.whole number, total) => addSpan total number none ""
  | (.decimals number f fault, total) =>
    if f.denominator = 1 then .error (.invalidCharacter fault)
    else addSpan total number (some f) ""
  | (.unit number f name, total) => addSpan total number f name

/-- Read a text of spans. A lone `0` has no unit. -/
def parse (s : List Char) : Except IntervalError Duration :=
  if s = ['0'] then .ok ⟨0⟩
  else if s.all Text.isBlank then .error .empty
  else run (.gap 0) ⟨0⟩ 0 s >>= finish

end CronDaemon.Cron.Interval
