import CronDaemon.Cron.Field
import CronDaemon.Fault
import CronDaemon.Text.Quoted

/-!
# What can be wrong with a schedule text

Each cause keeps the piece of text at fault. `message` is the sentence for people; `inspect` shows
the cause and its parts.
-/

namespace CronDaemon.Cron

/-- What can be wrong with the text of an interval. Offsets count bytes. -/
inductive IntervalError where
  /-- There is no span at all. -/
  | empty
  /-- A span does not start with a digit. -/
  | numberExpected (offset : Nat)
  /-- A character cannot stand where it is. -/
  | invalidCharacter (offset : Nat)
  /-- A number has no unit. -/
  | unitNeeded (number : Nat)
  /-- A unit is not known. -/
  | unknownUnit (unit : String)
  /-- A number does not fit or is not exact. -/
  | overflow
  /-- The interval has no length. -/
  | zero
  /-- Adding up the spans breaks off. -/
  | broken (fault : Fault)
  deriving DecidableEq, Repr

/-- The sentence for an interval error. -/
def IntervalError.message : IntervalError → String
  | .empty => "value was empty"
  | .numberExpected offset => s!"expected number at {offset}"
  | .invalidCharacter offset => s!"invalid character at {offset}"
  | .unitNeeded number => s!"time unit needed, for example {number}sec or {number}ms"
  | .unknownUnit unit =>
    s!"unknown time unit \"{unit}\", supported units: ns, us/µs, ms, sec, min, " ++
      "hours, days, weeks, months, years (and few variations)"
  | .overflow => "number is too large or cannot be represented without a lack of precision " ++
      "(values below 1ns are not supported)"
  | .zero => "duration must be greater than zero"
  | .broken fault => fault.message

/-- The fault behind an interval error. -/
def IntervalError.fault? : IntervalError → Option Fault
  | .broken fault => some fault
  | _ => none

/-- What can be wrong with a schedule text. -/
inductive CronError where
  /-- The text is blank. -/
  | empty
  /-- There are not five fields. -/
  | fieldCount (found : Nat)
  /-- A number lies outside the bound of its field. -/
  | outOfRange (field : Field) (value : Nat)
  /-- A value is not a number. -/
  | invalidValue (field : Field) (value : String)
  /-- A range descends. -/
  | invalidRange (field : Field) (range : String)
  /-- A step is not a positive number, or has nothing to walk over. -/
  | invalidStep (field : Field) (step : String)
  /-- A field admits no value. -/
  | emptyField (field : Field)
  /-- An interval cannot be read. -/
  | invalidInterval (input : String) (cause : IntervalError)
  deriving DecidableEq, Repr

namespace CronError

/-- The name of the kind of error. -/
def kind : CronError → String
  | empty => "Empty"
  | fieldCount _ => "FieldCount"
  | outOfRange .. => "OutOfRange"
  | invalidValue .. => "InvalidValue"
  | invalidRange .. => "InvalidRange"
  | invalidStep .. => "InvalidStep"
  | emptyField _ => "EmptyField"
  | invalidInterval .. => "InvalidDuration"

/-- The sentence for an error. -/
def message : CronError → String
  | empty => "empty schedule expression"
  | fieldCount found =>
    s!"invalid cron expression: expected 5 fields (minute hour day month weekday), found {found}"
  | outOfRange field value =>
    s!"{field.name} value {value} out of range: must be between {field.min} and {field.max}"
  | invalidValue field value => s!"invalid {field.name} value '{value}'"
  | invalidRange field range => s!"invalid {field.name} range '{range}'"
  | invalidStep field step => s!"invalid {field.name} step '{step}'"
  | emptyField field => s!"{field.name} field matches no values"
  | invalidInterval input cause => s!"invalid @every duration '{input}': {cause.message}"

/-- The parts of an error, in order. -/
def parts : CronError → List (String × String)
  | empty => []
  | fieldCount found => [("found", toString found)]
  | outOfRange field value =>
    [("field", field.tag), ("value", toString value), ("min", toString field.min),
      ("max", toString field.max)]
  | invalidValue field value => [("field", field.tag), ("value", Text.quoted value)]
  | invalidRange field range => [("field", field.tag), ("range", Text.quoted range)]
  | invalidStep field step => [("field", field.tag), ("step", Text.quoted step)]
  | emptyField field => [("field", field.tag)]
  | invalidInterval input cause =>
    [("input", Text.quoted input), ("message", Text.quoted cause.message)]

/-- The fault behind an error. -/
def fault? : CronError → Option Fault
  | invalidInterval _ cause => cause.fault?
  | _ => none

/-- The structured form of an error. -/
def inspect (e : CronError) : String := Text.record e.kind e.parts

end CronError

end CronDaemon.Cron
