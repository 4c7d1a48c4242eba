import CronDaemon.Settings.Environment
import CronDaemon.Text.Alphanumeric

/-!
# Log filters

What is logged is told by a list of directives between commas. A directive is a level, or a target,
a span in brackets and fields of the span in braces, in this order, with a level after an equals
sign. A variable of the environment counts if every directive of it can be read; otherwise the
settings count, of which a directive that cannot be read is passed over with a notice.

A place in a directive is counted from its first character that is not blank, but looked up in the
whole directive, so that blanks in front shift the level into the text before it.
-/

namespace CronDaemon.Daemon

open Settings

namespace LogFilter

/-- What can be wrong with a directive. -/
inductive DirectiveError where
  /-- It has not the form of a directive. -/
  | malformed
  /-- The text after the equals sign is no level. -/
  | unknownLevel
  deriving DecidableEq, Repr, Inhabited

/-- The sentence for an error of a directive. -/
def DirectiveError.message : DirectiveError → String
  | malformed => "invalid filter directive"
  | unknownLevel => "error parsing level filter: expected one of \"off\", \"error\", \"warn\", " ++
      "\"info\", \"debug\", \"trace\", or a number 0-5"

/-- The names of the levels. -/
def levelNames : List String := ["off", "error", "warn", "info", "debug", "trace"]

/-- Whether a text is a level: a number up to five, or a name in letters of any case. -/
def isLevel (s : List Char) : Bool :=
  s.isEmpty || (Text.numeral? Text.max64 s).any (· ≤ 5) ||
    levelNames.contains (String.ofList (s.map Char.toLower))

/-- A place in a directive. -/
inductive Place where
  | start
  /-- In a level or a target. -/
  | word
  /-- In the name of a span. -/
  | span
  /-- In a field, which is empty so far or not. -/
  | field (isEmpty : Bool)
  /-- After the fields. -/
  | fields
  /-- After a target with its span. -/
  | target
  /-- In a level after an equals sign, which begins at the given place. -/
  | level (first : Nat)
  deriving DecidableEq, Repr, Inhabited

/-- Whether a directive may start with a character. -/
def startsWord (c : Char) : Bool :=
  Text.isAlphanumeric c || c == '-' || c == ':' || c == '_'

/-- The place after the character with the given number, if it may stand there. -/
def Place.after? (place : Place) (number : Nat) (c : Char) : Option Place :=
  match place with
  | start => if c = '[' then some span else if startsWord c then some word else none
  | word => some (if c = '=' then level (number + 1) else if c = '[' then span else word)
  | span => some (if c = ']' then target else if c = '\x7b' then field true else span)
  | field isEmpty =>
    if c = '\x7d' then if isEmpty then none else some fields else some (field false)
  | fields => if c = ']' then some target else none
  | target => if c = '=' then some (level (number + 1)) else none
  | level first => some (level first)

/-- The place after the characters from the given number on. -/
def walk? (place : Place) (number : Nat) : List Char → Option Place
  | [] => some place
  | c :: r => do walk? (← place.after? number c) (number + 1) r

/-- What is wrong with a directive, if anything. -/
def fault? (directive : List Char) : Option DirectiveError :=
  match walk? .start 0 (Text.trim directive) with
  | some .word | some .target => none
  | some (.level first) => if isLevel (directive.drop first) then none else some .unknownLevel
  | _ => some .malformed

/-- The directives of a filter. -/
def directives (filter : String) : List (List Char) :=
  (Text.splitOn ',' filter.toList).filter fun directive => !directive.isEmpty

/-- Whether every directive of a filter can be read. -/
def isSound (filter : String) : Bool :=
  (directives filter).all fun directive => (fault? directive).isNone

/-- The notice about a directive that is passed over. -/
def notice (directive : List Char) (e : DirectiveError) : String :=
  "ignoring `" ++ String.ofList directive ++ "`: " ++ e.message ++ "\n"

/-- The notices about the directives of a filter that are passed over. -/
def notices (filter : String) : String :=
  String.join ((directives filter).filterMap fun directive =>
    (fault? directive).map (notice directive))

/-- The variable that tells what is logged. -/
def variableName : String := "RUST_LOG"

/-- The notices about the settings, which count if the variable does not. -/
def noticesOf (env : Environment) (level : String) : String :=
  match (env.get? variableName).bind String.fromUTF8? with
  | some filter => if isSound filter then "" else notices level
  | none => notices level

end LogFilter

end CronDaemon.Daemon
