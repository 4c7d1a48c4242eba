import CronDaemon.Settings.Environment

/-!
# Arguments of the command line

The arguments hold options, each with a value, and at most one command, which may have options and
operands of its own. The path of the configuration file can be given before and after the command,
and by an environment variable; what stands last on the command line counts most.
-/

namespace CronDaemon.Daemon

open Settings

/-- What the daemon is asked to do. -/
inductive Command where
  /-- Run the scheduler until the process is interrupted. -/
  | serve
  /-- Check the settings. -/
  | check
  /-- Print the next runs of a schedule. -/
  | next (expression : String) (count : Nat) (timezone : String)
  /-- Print the version of the daemon and of its platform. -/
  | version
  deriving DecidableEq, Repr, Inhabited

/-- What the arguments say. -/
inductive Arguments where
  | invoke (config : Option String) (command : Command)
  /-- Print how the daemon is used. -/
  | help
  /-- Print the version of the daemon. -/
  | versionFlag
  deriving DecidableEq, Repr, Inhabited

namespace Arguments

/-- One argument, by its form. -/
inductive Word where
  /-- Two dashes: all that follows is plain. -/
  | escape
  /-- A long option, perhaps with a value after an equals sign. -/
  | long (name : String) (value : Option String)
  /-- Short options, each of one letter. -/
  | short (letters : List Char)
  | plain (text : String)
  deriving DecidableEq, Repr, Inhabited

/-- The form of an argument. A single dash is plain. -/
def Word.ofArgument (argument : String) : Word :=
  match argument.toList with
  | '-' :: '-' :: [] => escape
  | '-' :: '-' :: rest =>
    match Text.splitOnce '=' rest with
    | some (name, value) => long (String.ofList name) (some (String.ofList value))
    | none => long (String.ofList rest) none
  | '-' :: c :: rest => short (c :: rest)
  | _ => plain argument

/-- The options that may stand at one place, each with the values that it accepts. -/
structure Level where
  options : List (String × (String → Bool))
  /-- How many operands there may be. -/
  arity : Nat
  /-- Whether a plain argument is a command, and not an operand. -/
  isTop : Bool

/-- What was read at one place. -/
structure Gathered where
  /-- The options with their values. -/
  options : List (String × String)
  /-- The plain arguments before the command. -/
  operands : List String
  /-- The command and the arguments after it. -/
  command : Option (String × List String)
  deriving DecidableEq, Repr, Inhabited

/-- Why reading ends early. -/
inductive Stop where
  /-- The arguments make no sense. -/
  | misuse
  | help
  | version
  deriving DecidableEq, Repr, Inhabited

/-- Add an option. Each option may be given once, with a value that it accepts. -/
def Gathered.give (gathered : Gathered) (level : Level) (name value : String) :
    Except Stop Gathered :=
  match level.options.find? fun option => option.1 == name with
  | none => .error .misuse
  | some (_, accepts) =>
    if gathered.options.any (fun given => given.1 == name) || !accepts value then .error .misuse
    else .ok { gathered with options := gathered.options ++ [(name, value)] }

/-- Add an operand, if there may be one more. -/
def Gathered.take (gathered : Gathered) (level : Level) (operand : String) : Except Stop Gathered :=
  if gathered.operands.length < level.arity then
    .ok { gathered with operands := gathered.operands ++ [operand] }
  else .error .misuse

/-- How reading ends at a long option without a value that takes none. -/
def stopAtLong (level : Level) (name : String) : Stop :=
  if name = "help" then .help else if name = "version" ∧ level.isTop then .version else .misuse

/-- How reading ends at short options. -/
def stopAtShort (level : Level) (letters : List Char) : Stop :=
  match letters with
  | 'h' :: _ => .help
  | 'V' :: _ => if level.isTop then .version else .misuse
  | _ => .misuse

/-- Read the arguments at one place. The first argument that makes no sense or asks for a text ends
the reading. -/
def gather (level : Level) (gathered : Gathered) : List String → Except Stop Gathered
  | [] => .ok gathered
  | argument :: rest =>
    match Word.ofArgument argument with
    | .escape => rest.foldlM (fun gathered operand => gathered.take level operand) gathered
    | .short letters => .error (stopAtShort level letters)
    | .long name (some value) => do gather level (← gathered.give level name value) rest
    | .long name none =>
      if level.options.any fun option => option.1 == name then
        match rest with
        | [] => .error .misuse
        | value :: rest =>
          match Word.ofArgument value with
          | .plain value => do gather level (← gathered.give level name value) rest
          | _ => .error .misuse
      else .error (stopAtLong level name)
    | .plain text =>
      if level.isTop then .ok { gathered with command := some (text, rest) }
      else do gather level (← gathered.take level text) rest

/-- The value of an option. -/
def Gathered.value? (gathered : Gathered) (name : String) : Option String :=
  (gathered.options.find? fun option => option.1 == name).map (·.2)

/-- The option that names the configuration file; a path is not empty. -/
def configOption : String × (String → Bool) := ("config", (· ≠ ""))

/-- The options before the command. -/
def topLevel : Level := ⟨[configOption], 0, true⟩

/-- The options after a command that has none of its own. -/
def plainLevel : Level := ⟨[configOption], 0, false⟩

/-- The number that the option for the number of runs gives. -/
def count? (text : String) : Option Nat := Text.numeral? Text.max64 text.toList

/-- The options after the command that prints runs. -/
def nextLevel : Level :=
  ⟨[configOption, ("count", fun text => (count? text).isSome), ("timezone", fun _ => true)],
    1, false⟩

/-- Read what follows a command. -/
def gatherAfter (level : Level) (rest : List String) : Except Stop Gathered :=
  gather level ⟨[], [], none⟩ rest

/-- A command without operands. -/
def bareCommand (command : Command) (rest : List String) : Except Stop (Command × Gathered) := do
  return (command, ← gatherAfter plainLevel rest)

/-- The command that prints runs, with one operand. -/
def nextCommand (rest : List String) : Except Stop (Command × Gathered) := do
  let gathered ← gatherAfter nextLevel rest
  match gathered.operands with
  | [expression] =>
    let count := ((gathered.value? "count").bind count?).getD 5
    return (.next expression count ((gathered.value? "timezone").getD "UTC"), gathered)
  | _ => throw .misuse

/-- The names of the commands. -/
def commandNames : List String := ["check", "next", "version", "help"]

/-- Read a command. -/
def readCommand (name : String) (rest : List String) : Except Stop (Command × Gathered) :=
  match name with
  | "check" => bareCommand .check rest
  | "next" => nextCommand rest
  | "version" => bareCommand .version rest
  | "help" =>
    match rest with
    | [] => throw .help
    | [topic] => throw (if commandNames.contains topic then .help else .misuse)
    | _ => throw .misuse
  | _ => throw .misuse

/-- The variable that names the configuration file. -/
def configVariable : String := "PASTA_SERVER_CONFIG"

/-- The path that the variable gives, for a place where no option gives one. A path that is not text
leads nowhere. -/
def configOf (env : Environment) (gathered : Gathered) : Except Stop (Option String) :=
  match gathered.value? "config", env.get? configVariable with
  | some path, _ => .ok (some path)
  | none, none => .ok none
  | none, some bytes =>
    if bytes.isEmpty then .error .misuse else .ok (some ((String.fromUTF8? bytes).getD "\ufffd"))

/-- Read the arguments. -/
def read (env : Environment) (arguments : List String) : Except Stop Arguments := do
  let top ← gather topLevel ⟨[], [], none⟩ arguments
  match top.command with
  | none => return .invoke (← configOf env top) .serve
  | some (name, rest) =>
    let (command, below) ← readCommand name rest
    let inner ← configOf env below
    let outer ← configOf env top
    return .invoke (if (below.value? "config").isSome then inner else outer) command

/-- Read the arguments; the arguments that ask for a text are among those that make sense. -/
def parse? (env : Environment) (arguments : List String) : Option Arguments :=
  match read env arguments with
  | .ok arguments => some arguments
  | .error .help => some .help
  | .error .version => some .versionFlag
  | .error .misuse => none

end Arguments

end CronDaemon.Daemon
