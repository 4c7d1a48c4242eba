import CronDaemon.Settings.Config
import CronDaemon.Text.Numeral

/-!
# Settings from environment variables

A variable counts when it is set to valid text that is not empty. Overrides of single tasks cannot
be given by variables.
-/

namespace CronDaemon.Settings

/-- The environment of the process: the raw values of its variables by name. -/
abbrev Environment := Table String ByteArray

namespace Environment

/-- The text of a variable that counts. -/
def text? (env : Environment) (name : String) : Option String :=
  ((env.get? name).bind String.fromUTF8?).filter (· ≠ "")

/-- Whether a text equals a word in lower case, the case of ASCII letters apart. -/
def equalsWord (text word : String) : Bool := text.toList.map Char.toLower == word.toList

/-- The truth value of a variable: `true` in any case and `1` are true, all else is false. -/
def bool? (env : Environment) (name : String) : Option Bool :=
  (env.text? name).map fun text => equalsWord text "true" || text == "1"

/-- The number of a variable, which must fit 64 bits; `width` names that width in the error. -/
def number? (env : Environment) (width name : String) : Except ConfigError (Option Nat) :=
  match env.text? name with
  | none => .ok none
  | some text =>
    match Text.numeral? Text.max64 text.toList with
    | some n => .ok (some n)
    | none => .error (.invalidValue name (.notNumber width text))

/-- The variables that make up a layer of settings. -/
def variableNames : List String :=
  ["PASTA_SERVER_SCHEDULER_ENABLED", "PASTA_SERVER_SCHEDULER_TIMEZONE",
   "PASTA_SERVER_SCHEDULER_CATCH_UP_WINDOW_SECS", "PASTA_SERVER_SCHEDULER_TASK_TIMEOUT_SECS",
   "PASTA_SERVER_SCHEDULER_SHUTDOWN_GRACE_SECS", "PASTA_SERVER_SCHEDULER_MAX_CONCURRENT_TASKS",
   "PASTA_SERVER_LOG_LEVEL"]

/-- The layer of settings that the variables make up. -/
def layer (env : Environment) : Except ConfigError Layer := do
  let catchUp ← env.number? "u64" "PASTA_SERVER_SCHEDULER_CATCH_UP_WINDOW_SECS"
  let timeout ← env.number? "u64" "PASTA_SERVER_SCHEDULER_TASK_TIMEOUT_SECS"
  let grace ← env.number? "u64" "PASTA_SERVER_SCHEDULER_SHUTDOWN_GRACE_SECS"
  let workers ← env.number? "usize" "PASTA_SERVER_SCHEDULER_MAX_CONCURRENT_TASKS"
  return {
    scheduler := some {
      enabled := env.bool? "PASTA_SERVER_SCHEDULER_ENABLED"
      timezone := env.text? "PASTA_SERVER_SCHEDULER_TIMEZONE"
      catchUpWindowSecs := catchUp
      taskTimeoutSecs := timeout
      shutdownGraceSecs := grace
      maxConcurrentTasks := workers }
    logging := some { level := env.text? "PASTA_SERVER_LOG_LEVEL" } }

end Environment

end CronDaemon.Settings
