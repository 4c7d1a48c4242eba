import CronDaemon.Settings.Environment
import CronDaemon.Text.Alphanumeric

/-!
# Environment files

An environment file defines variables, one statement to a line: `NAME=value`, with an optional word
`export` in front; blanks around a statement do not count. A number sign at the start of a line or
after a single blank begins a comment. Text between quotes may go over several lines; between single
quotes it stands for itself, elsewhere a backslash escapes and a dollar sign names a variable whose
value is put in. A variable that has a text already keeps it. Loading ends at the first statement
that cannot be read.
-/

namespace CronDaemon.Settings.EnvironmentFile

/-- Where a character stands in a statement. -/
inductive Place where
  | bare
  /-- After a blank that is not quoted. -/
  | blank
  | escaped
  | weak
  | weakEscaped
  | strong
  | strongEscaped
  deriving DecidableEq, Repr, Inhabited

namespace Place

/-- The place after a bare character, except a blank one. -/
def opening (c : Char) : Place :=
  if c = '\\' then escaped
  else if c = '"' then weak
  else if c = '\x27' then strong
  else bare

/-- The place after a character. -/
def after (place : Place) (c : Char) : Place :=
  match place with
  | bare => if Text.isBlank c && c ≠ '\n' && c ≠ '\r' then blank else opening c
  | blank => opening c
  | escaped => bare
  | weak => if c = '\\' then weakEscaped else if c = '"' then bare else weak
  | weakEscaped => weak
  | strong => if c = '\\' then strongEscaped else if c = '\x27' then bare else strong
  | strongEscaped => strong

end Place

/-- What follows the current line. -/
def afterLine (s : List Char) : List Char := (s.dropWhile (· ≠ '\n')).drop 1

/-- The first statement of a text and what follows it; a statement that breaks off has none. -/
def statementFrom (place : Place) (read : List Char) : List Char → Option (List Char × List Char)
  | [] => if place = .bare then some (read.reverse, []) else none
  | c :: r =>
    if place = .blank ∧ c = '#' then some (read.reverse, afterLine r)
    else if c = '\n' ∧ place.after c = .bare then some (read.reverse, r)
    else statementFrom (place.after c) (c :: read) r

/-- Whether a text starts with a comment. -/
def startsComment (s : List Char) : Bool :=
  (s.dropWhile fun c => Text.isBlank c && c ≠ '\n').head? == some '#'

/-- The first statement of a text and what follows it. -/
def statement? (s : List Char) : Option (List Char × List Char) :=
  if startsComment s then some ([], afterLine s) else statementFrom .bare [] s

theorem length_afterLine_le (s : List Char) : (afterLine s).length ≤ s.length - 1 := by
  have := (List.dropWhile_sublist (fun c => c ≠ '\n') (l := s)).length_le
  simp only [afterLine, List.length_drop]
  omega

theorem length_statementFrom {place : Place} {read s statement rest : List Char}
    (h : statementFrom place read s = some (statement, rest)) : rest.length ≤ s.length - 1 := by
  induction s generalizing place read with
  | nil =>
    rw [statementFrom] at h
    split at h <;> simp_all
  | cons c r ih =>
    rw [statementFrom] at h
    split at h
    · simp only [Option.some.injEq, Prod.mk.injEq] at h
      have := length_afterLine_le r
      rw [← h.2, List.length_cons]
      omega
    · split at h
      · simp_all
      · have := ih h
        rw [List.length_cons]
        omega

theorem length_statement? {s statement rest : List Char}
    (h : statement? s = some (statement, rest)) : rest.length ≤ s.length - 1 := by
  rw [statement?] at h
  split at h
  · simp only [Option.some.injEq, Prod.mk.injEq] at h
    rw [← h.2]
    exact length_afterLine_le s
  · exact length_statementFrom h

/-- Where a character stands in a value. -/
inductive Mode where
  | plain
  | weak
  | strong
  /-- After a backslash; the flag tells whether that stands between double quotes. -/
  | escaped (quoted : Bool)
  /-- In the name of a variable. -/
  | name (quoted : Bool) (name : List Char)
  /-- In the name of a variable that stands in braces. -/
  | braced (quoted : Bool) (name : List Char)
  /-- After the value. -/
  | closing
  | comment
  deriving DecidableEq, Repr, Inhabited

namespace Mode

/-- The mode outside of escapes and names. -/
def base (quoted : Bool) : Mode := if quoted then weak else plain

/-- Whether a value may end in this mode. -/
def isFinal : Mode → Bool
  | plain | closing | comment => true
  | escaped quoted | name quoted _ => !quoted
  | weak | strong | braced .. => false

end Mode

/-- The character that an escape stands for. -/
def unescape? (c : Char) : Option Char :=
  if c = 'n' then some '\n' else if "\\'\"$ ".toList.contains c then some c else none

/-- What one character of a value does: the next mode, and what it adds to the value. -/
def advance? (lookup : List Char → List Char) (mode : Mode) (c : Char) :
    Option (Mode × List Char) :=
  match mode with
  | .comment => some (.comment, [])
  | .closing =>
    if c = ' ' ∨ c = '\t' then some (.closing, []) else if c = '#' then some (.comment, [])
      else none
  | .escaped quoted => (unescape? c).map fun c => (.base quoted, [c])
  | .strong => some (if c = '\x27' then (.plain, []) else (.strong, [c]))
  | .name quoted name =>
    if Text.isAlphanumeric c then some (.name quoted (name ++ [c]), [])
    else if c = '\x7b' ∧ name = [] then some (.braced quoted [], [])
    else if c = '$' then some (.name quoted [], lookup name)
    else some (.base quoted, lookup name ++ [c])
  | .braced quoted name =>
    if c = '\x7d' then some (.base quoted, lookup name) else some (.braced quoted (name ++ [c]), [])
  | .weak =>
    if c = '$' then some (.name true [], [])
    else if c = '"' then some (.plain, [])
    else if c = '\\' then some (.escaped true, [])
    else some (.weak, [c])
  | .plain =>
    if c = '$' then some (.name false [], [])
    else if c = '\x27' then some (.strong, [])
    else if c = '"' then some (.weak, [])
    else if c = '\\' then some (.escaped false, [])
    else if c = ' ' ∨ c = '\t' then some (.closing, [])
    else some (.plain, [c])

/-- The text of a value from the place where `mode` holds. -/
def value? (lookup : List Char → List Char) (mode : Mode) : List Char → Option (List Char)
  | [] =>
    match mode with
    | .name false name => some (lookup name)
    | mode => if mode.isFinal then some [] else none
  | c :: r => do
    let (mode, added) ← advance? lookup mode c
    return added ++ (← value? lookup mode r)

/-- Whether a name may start with a character. -/
def startsName (c : Char) : Bool := c.isAlpha || c == '_'

/-- Whether a character may stand in a name. -/
def isNameChar (c : Char) : Bool := c.isAlpha || c.isDigit || c == '_' || c == '.'

/-- The name in front of a text, and what follows it and the blanks after it. -/
def name? (s : List Char) : Option (List Char × List Char) :=
  if s.head?.any startsName then
    some (s.takeWhile isNameChar, Text.trimStart (s.dropWhile isNameChar))
  else none

/-- The name that a statement defines and the text of its value. -/
def definition? (s : List Char) : Option (List Char × List Char) := do
  let (name, rest) ← name? s
  match rest with
  | '=' :: value => return (name, value)
  | rest =>
    if name = "export".toList then
      match ← name? rest with
      | (name, '=' :: value) => return (name, value)
      | _ => none
    else none

/-- The text of a variable, empty if it has none. -/
def lookup (env : Environment) (name : List Char) : List Char :=
  (((env.get? (String.ofList name)).bind String.fromUTF8?).getD "").toList

/-- Define a variable that has no text. -/
def define (env : Environment) (name value : List Char) : Environment :=
  let name := String.ofList name
  if ((env.get? name).bind String.fromUTF8?).isSome then env
  else env.insert name (String.ofList value).toUTF8

/-- Carry out a statement, if it can be read. Blanks at its ends do not count, even escaped ones. -/
def carryOut? (env : Environment) (statement : List Char) : Option Environment :=
  match Text.trim statement with
  | [] | '#' :: _ => some env
  | s => do
    let (name, rest) ← definition? s
    match Text.trimStart rest with
    | [] | '#' :: _ => return define env name []
    | value => return define env name (← value? (lookup env) .plain value)

/-- Load the statements of a text. -/
def loadChars (env : Environment) (s : List Char) : Environment :=
  match s with
  | [] => env
  | c :: r =>
    match _h : statement? (c :: r) with
    | none => env
    | some (statement, rest) =>
      match carryOut? env statement with
      | none => env
      | some env => loadChars env rest
termination_by s.length
decreasing_by
  have := length_statement? _h
  simp only [List.length_cons] at *
  omega

/-- Load an environment file; a byte order mark in front is passed over. -/
def load (env : Environment) (text : String) : Environment :=
  match text.toList with
  | '\ufeff' :: s => loadChars env s
  | s => loadChars env s

end CronDaemon.Settings.EnvironmentFile
