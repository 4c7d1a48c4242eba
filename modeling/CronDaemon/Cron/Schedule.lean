import CronDaemon.Cron.FieldText
import CronDaemon.Cron.Interval

/-!
# Schedules

A schedule is either a set of values for each of the five cron fields or an interval. A text is a
schedule when it is an interval after `@every`, a named shortcut, or five fields between blanks. How
the text of an interval is read is left open; schedules read it with `Interval.parse`.
-/

namespace CronDaemon.Cron

/-- The admitted values of the five fields. A day must satisfy both of its fields. -/
structure CronFields where
  minute : FieldSet
  hour : FieldSet
  dayOfMonth : FieldSet
  month : FieldSet
  /-- Sunday is 0 and Saturday is 6. -/
  dayOfWeek : FieldSet
  deriving DecidableEq, Repr

/-- The set of one field. -/
def CronFields.get (fields : CronFields) : Field → FieldSet
  | .minute => fields.minute
  | .hour => fields.hour
  | .dayOfMonth => fields.dayOfMonth
  | .month => fields.month
  | .dayOfWeek => fields.dayOfWeek

/-- When a task is due. -/
inductive Schedule where
  /-- At the minutes that satisfy the fields. -/
  | cron (fields : CronFields)
  /-- A fixed time after the last run. -/
  | every (interval : Duration)
  deriving DecidableEq, Repr

/-- Read five fields from left to right. -/
def CronFields.parse (s : List Char) : Except CronError CronFields :=
  match Text.words s with
  | [minute, hour, dayOfMonth, month, dayOfWeek] => do
    let minute ← parseField .minute minute
    let hour ← parseField .hour hour
    let dayOfMonth ← parseField .dayOfMonth dayOfMonth
    let month ← parseField .month month
    let dayOfWeek ← parseField .dayOfWeek dayOfWeek
    return ⟨minute, hour, dayOfMonth, month, dayOfWeek⟩
  | words => .error (.fieldCount words.length)

/-- A way to read the text of an interval. -/
abbrev IntervalParser := List Char → Except IntervalError Duration

namespace Schedule

/-- The named shortcuts and the fields that they stand for. -/
def shortcuts : List (String × String) :=
  [("@yearly", "0 0 1 1 *"), ("@annually", "0 0 1 1 *"), ("@monthly", "0 0 1 * *"),
   ("@weekly", "0 0 * * 0"), ("@daily", "0 0 * * *"), ("@midnight", "0 0 * * *"),
   ("@hourly", "0 * * * *")]

/-- The fields of a shortcut; any other text stands for itself. -/
def expand (s : List Char) : List Char :=
  match shortcuts.find? fun (name, _) => name.toList == s with
  | some (_, fields) => fields.toList
  | none => s

/-- The text after `@every`, when that word stands alone in front. -/
def everyText? (s : List Char) : Option (List Char) :=
  match Text.stripStart "@every".toList s with
  | some rest => if rest.isEmpty || Text.startsBlank rest then some (Text.trim rest) else none
  | none => none

/-- Read an interval that has some length. -/
def parseEvery (interval : IntervalParser) (s : List Char) : Except IntervalError Duration := do
  let d ← interval s
  if d.nanos = 0 then throw .zero else return d

theorem parseEvery_pos {interval : IntervalParser} {s : List Char} {d : Duration}
    (h : parseEvery interval s = .ok d) : 0 < d.nanos := by
  unfold parseEvery at h
  cases hread : interval s with
  | error e => simp [hread, bind, Except.bind] at h
  | ok d' =>
    simp only [hread, bind, Except.bind] at h
    split at h
    · cases h
    · next hpos =>
      cases h
      exact Nat.pos_of_ne_zero hpos

/-- Read a schedule from characters. -/
def parseChars (interval : IntervalParser) (s : List Char) : Except CronError Schedule :=
  let s := Text.trim s
  if s.isEmpty then .error .empty
  else
    match everyText? s with
    | some rest =>
      match parseEvery interval rest with
      | .ok d => .ok (.every d)
      | .error cause => .error (.invalidInterval (String.ofList rest) cause)
    | none => (CronFields.parse (expand s)).map .cron

/-- Read a schedule, its interval in the way that is given. -/
def parseWith (interval : IntervalParser) (s : String) : Except CronError Schedule :=
  parseChars interval s.toList

/-- Read a schedule. -/
def parse (s : String) : Except CronError Schedule := parseWith Interval.parse s

/-- The fixed interval of a schedule, if it has one. -/
def interval? : Schedule → Option Duration
  | every d => some d
  | cron _ => none

end Schedule

end CronDaemon.Cron
