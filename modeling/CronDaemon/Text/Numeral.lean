import CronDaemon.Text.Blank

/-!
# Decimal numerals

A numeral is one or more ASCII digits, with one optional plus sign in front.
Reading takes the largest admissible value, so that a numeral that does not fit
a given width is refused, and never wraps.
-/

namespace CronDaemon.Text

/-- The value of an ASCII digit. -/
def digit? (c : Char) : Option Nat :=
  if '0' ≤ c ∧ c ≤ '9' then some (c.toNat - 48) else none

/-- Whether a character is an ASCII digit. -/
def isDigit (c : Char) : Bool := (digit? c).isSome

/-- Continue a value by the digits of a text; any other character refuses it. -/
def digitsFrom? (n : Nat) : List Char → Option Nat
  | [] => some n
  | c :: r => do digitsFrom? (10 * n + (← digit? c)) r

/-- The value of a non-empty text of digits. -/
def digits? : List Char → Option Nat
  | [] => none
  | s => digitsFrom? 0 s

/-- A numeral without its optional plus sign. -/
def unsigned : List Char → List Char
  | '+' :: r => r
  | s => s

/-- Read a numeral whose value is at most `max`. -/
def numeral? (max : Nat) (s : List Char) : Option Nat :=
  (digits? (unsigned s)).filter (· ≤ max)

/-- The largest value of 32 bits. -/
def max32 : Nat := 0xFFFFFFFF

/-- The largest value of 64 bits. -/
def max64 : Nat := 0xFFFFFFFFFFFFFFFF

/-- Write a number with at least `width` digits. -/
def padded (width n : Nat) : String :=
  let s := toString n
  String.ofList (List.replicate (width - s.length) '0') ++ s

end CronDaemon.Text
