import CronDaemon.Settings.Config
import CronDaemon.Toml.Document

/-!
# Settings from a configuration file

A decoder makes a layer of settings of the text of a file, or finds the text malformed. The one that
serves here reads a TOML document with the sections `scheduler` and `logging`; other entries are
ignored. A section may also list all its values in order, and a point of time stands for a section
that sets nothing. A value of the wrong type makes the whole file malformed.
-/

namespace CronDaemon.Settings

open Toml (Value)

/-- What stands at the path of the configuration file. -/
inductive ConfigFile where
  | missing
  /-- Something that the system refuses to read. -/
  | refused (fault : SystemFault)
  | contents (bytes : ByteArray)

/-- What makes a layer of settings of a text. Without an answer the text is malformed. -/
abbrev Decoder := String → Option Layer

namespace ConfigFile

instance : DecidableEq ConfigFile
  | .missing, .missing => .isTrue rfl
  | .refused a, .refused b => decidable_of_iff (a = b) ⟨congrArg refused, refused.inj⟩
  | .contents a, .contents b =>
    match ByteArray.decEq a b with
    | .isTrue h => .isTrue (congrArg contents h)
    | .isFalse h => .isFalse fun e => h (contents.inj e)
  | .missing, .refused _ | .missing, .contents _ | .refused _, .missing
  | .refused _, .contents _ | .contents _, .missing | .contents _, .refused _ => .isFalse nofun

/-- A directory stands at the path. -/
def directory : ConfigFile := refused .isDirectory

/-- The values of the named entries of a section. -/
def entries (names : List String) : Value → Option (List (Option Value))
  | .table es => some (names.map fun name => Toml.entry? name es)
  | .array items =>
    if items.length < names.length then none else some ((items.take names.length).map some)
  | .datetime _ => some (names.map fun _ => none)
  | _ => none

/-- Read an entry that may be missing. -/
def optional {α : Type} (read : Value → Option α) : Option Value → Option (Option α)
  | none => some none
  | some v => (read v).map some

/-- Read a text. -/
def text? : Value → Option String
  | .string s => some s
  | _ => none

/-- Read a truth value. -/
def bool? : Value → Option Bool
  | .boolean b => some b
  | _ => none

/-- Read a number that is not negative. -/
def number? : Value → Option Nat
  | .integer (.ofNat n) => some n
  | _ => none

/-- Read the override of a task. -/
def taskOverride? (v : Value) : Option TaskOverride := do
  match ← entries ["schedule", "enabled", "skippable"] v with
  | [schedule, enabled, skippable] =>
    return ⟨← optional text? schedule, ← optional bool? enabled, ← optional bool? skippable⟩
  | _ => none

/-- Read the overrides by task. -/
def tasks? : Value → Option (Table String TaskOverride)
  | .table es => do
    return Table.ofList (← es.mapM fun (id, v) => return (id, ← taskOverride? v))
  | _ => none

/-- Read the scheduler section. -/
def scheduler? (v : Value) : Option SchedulerLayer := do
  match ← entries ["enabled", "timezone", "catch_up_window_secs", "task_timeout_secs",
      "shutdown_grace_secs", "max_concurrent_tasks", "tasks"] v with
  | [enabled, timezone, catchUp, timeout, grace, workers, tasks] =>
    return {
      enabled := ← optional bool? enabled
      timezone := ← optional text? timezone
      catchUpWindowSecs := ← optional number? catchUp
      taskTimeoutSecs := ← optional number? timeout
      shutdownGraceSecs := ← optional number? grace
      maxConcurrentTasks := ← optional number? workers
      tasks := ← optional tasks? tasks }
  | _ => none

/-- Read the log section. -/
def logging? (v : Value) : Option LoggingLayer := do
  match ← entries ["level"] v with
  | [level] => return ⟨← optional text? level⟩
  | _ => none

/-- Read the layer of settings of a TOML document. -/
def layerOfText? : Decoder := fun text => do
  let es ← Toml.parse? text
  return ⟨← optional scheduler? (Toml.entry? "scheduler" es),
    ← optional logging? (Toml.entry? "logging" es)⟩

/-- The layer of settings of the file at a path. A missing file sets nothing. -/
def layer (decode : Decoder) (path : String) : ConfigFile → Except ConfigError Layer
  | missing => .ok Layer.empty
  | refused fault => .error (.unreadable path (.system fault))
  | contents bytes =>
    match String.fromUTF8? bytes with
    | none => .error (.unreadable path .notText)
    | some text =>
      match decode text with
      | some layer => .ok layer
      | none => .error (.malformed path)

end ConfigFile

end CronDaemon.Settings
