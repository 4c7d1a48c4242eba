import CronDaemon.Daemon.CommandLine
import CronDaemon.Simulation.Clock
import CronDaemon.Zone.Known
import Std.Time.DateTime.Timestamp

/-!
# The process

The outer layer of the daemon: it looks up what the command line needs to know, prints what comes of
it, and moves the clock of a serving scheduler with the clocks of the machine.
-/

namespace CronDaemon.Process

open Daemon Settings Simulation

/-- What the wall clock of the machine shows. -/
def wallClock : IO Instant := do
  return .ofNanos (← Std.Time.Timestamp.now).toNanosecondsSinceUnixEpoch.val

/-- What stands at a path. -/
def readPath (path : String) : IO ConfigFile := do
  try
    return .contents (← IO.FS.readBinFile path)
  catch
    | .noFileOrDirectory .. => return .missing
    | .inappropriateType .. => return .directory
    | .permissionDenied _ code reason => return .refused ⟨code.toNat, "PermissionDenied", reason⟩
    | e => throw e

/-- The text of the environment file in the working directory, if it can be read. -/
def readEnvironmentFile : IO (Option String) := do
  try
    return some (← IO.FS.readFile ".env")
  catch _ =>
    return none

/-- The variables that the daemon knows. -/
def readEnvironment : IO Environment := do
  let names := Arguments.configVariable :: LogFilter.variableName :: Environment.variableNames
  let found ← names.filterMapM fun name => do
    return (← IO.getEnv name).map fun text => (name, text.toUTF8)
  return Table.ofList found

/-- What the process finds around it. Only one path is looked up, the one that counts. -/
def lookAround (arguments : List String) : IO Surroundings := do
  let environment ← readEnvironment
  let path := match Arguments.parse? environment arguments with
    | some (.invoke (some path) _) => path
    | _ => systemPath
  let file ← readPath path
  return {
    zones := Zone.known
    environment := environment
    environmentFile := ← readEnvironmentFile
    file := fun other => if other = path then file else .missing
    now := ← wallClock }

/-- Let a world follow the clocks of the machine for ever. -/
partial def follow (origin : Nat) (w : World) : IO Unit := do
  let w := w.settle
  let elapsed := (← IO.monoNanosNow) - origin
  let wait := w.nextMoment (elapsed + Duration.second) - elapsed
  IO.sleep (wait / 1000000 + 1).toUInt32
  let w := w.moveTo ((← IO.monoNanosNow) - origin)
  let now ← wallClock
  let s := match w.scheduler.serve (.setClock now) with
    | .ok s => s
    | .error _ => w.scheduler
  follow origin { w with scheduler := { s with journal := [] } }

/-- Start a scheduler and serve until the process is interrupted. -/
def serve (scheduler : Scheduler.State Handler) : IO Unit := do
  follow (← IO.monoNanosNow) (World.ofScheduler scheduler.start)

/-- Run the daemon. -/
def run (arguments : List String) : IO UInt32 := do
  match runCommand Handler.report (← lookAround arguments) arguments with
  | .serves notices scheduler =>
    IO.eprint notices
    serve scheduler
    return 0
  | .exits exit =>
    IO.print exit.output
    IO.eprint exit.errors
    return exit.code.toUInt32

end CronDaemon.Process

/-- The entry of the process. -/
def main (arguments : List String) : IO UInt32 := CronDaemon.Process.run arguments
