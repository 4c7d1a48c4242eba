import CronDaemon.Cron.Error
import CronDaemon.Text.Numeral

/-!
# Texts of field values

A field is a list of parts between commas. A part is `*`, a number, a range of two numbers, or one
of `*` and a range with a step `n`, which keeps the first of its values and every `n`-th after it.
The first part at fault decides the error, and within a part the step is read first.
-/

namespace CronDaemon.Cron

open Text (max32 max64)

/-- Read a number inside the bound of a field. -/
def parseValue (field : Field) (s : List Char) : Except CronError Nat :=
  match Text.numeral? max32 s with
  | none => .error (.invalidValue field (String.ofList s))
  | some value =>
    if field.min ≤ value ∧ value ≤ field.max then .ok value else .error (.outOfRange field value)

/-- Read a step. -/
def parseStep (field : Field) (s : List Char) : Except CronError Nat :=
  match Text.numeral? max64 s with
  | some (n + 1) => .ok (n + 1)
  | _ => .error (.invalidStep field (String.ofList s))

/-- Read the ends of the values that a part without its step stands for; `whole` is the part. -/
def parseSpan (field : Field) (base : List Char) (stepped : Bool) (whole : List Char) :
    Except CronError (Nat × Nat) :=
  if base = ['*'] then .ok (field.min, field.max)
  else
    match Text.splitOnce '-' base with
    | some (lo, hi) => do
      let lo ← parseValue field lo
      let hi ← parseValue field hi
      if hi < lo then throw (.invalidRange field (String.ofList base))
      return (lo, hi)
    | none =>
      if stepped then .error (.invalidStep field (String.ofList whole))
      else do
        let value ← parseValue field base
        return (value, value)

/-- Read the values of one part. -/
def parsePart (field : Field) (part : List Char) : Except CronError (List Nat) :=
  match Text.splitOnce '/' part with
  | some (base, step) => do
    let step ← parseStep field step
    let (lo, hi) ← parseSpan field base true part
    return FieldSet.stepped lo hi step
  | none => do
    let (lo, hi) ← parseSpan field part false part
    return FieldSet.stepped lo hi 1

/-- Read the parts of a field, adding their values to a set. -/
def parseParts (field : Field) (set : FieldSet) : List (List Char) → Except CronError FieldSet
  | [] => .ok set
  | part :: parts => do parseParts field ((← parsePart field part).foldl FieldSet.insert set) parts

/-- Read a field. -/
def parseField (field : Field) (s : List Char) : Except CronError FieldSet := do
  let set ← parseParts field FieldSet.empty (Text.splitOn ',' s)
  if set.isEmpty then throw (.emptyField field) else return set

end CronDaemon.Cron
