import CronDaemon.Daemon.Arguments
import CronDaemon.Daemon.LogFilter
import CronDaemon.Daemon.Startup
import CronDaemon.Settings.EnvironmentFile
import CronDaemon.Settings.Load

/-!
# The command line

What the process does is decided by its arguments and by what it finds around it. It either exits
with a code and what it has printed, or serves, which means that it runs the scheduler until it is
interrupted. Errors of the settings, the startup and of schedules are printed in their structured
form, and make the process exit with code 1; arguments that make no sense make it exit with code 2,
and a fault with code 101.
-/

namespace CronDaemon.Daemon

open Settings

/-- What the process finds around it. -/
structure Surroundings where
  /-- The zones that the process knows. -/
  zones : Zone.Database
  environment : Environment
  /-- The text of the environment file, if there is one. -/
  environmentFile : Option String
  /-- What stands at a path. -/
  file : String → ConfigFile
  now : Instant

/-- How a process ends. -/
structure Exit where
  code : Nat
  output : String
  errors : String
  deriving DecidableEq, Repr, Inhabited

/-- What a process does. -/
inductive Outcome (H : Type) where
  | exits (exit : Exit)
  /-- Print notices, and run a scheduler until the process is interrupted. -/
  | serves (notices : String) (scheduler : Scheduler.State H)

namespace Exit

/-- Print a text and succeed. -/
def success (output : String) : Exit := ⟨0, output, ""⟩

/-- Print the structured form of an error and fail. -/
def failure (inspected : String) : Exit := ⟨1, "", s!"Error: {inspected}\n"⟩

/-- The arguments make no sense. -/
def misuse : Exit := ⟨2, "", "usage"⟩

/-- The process meets a fault and breaks down. -/
def breakdown (fault : Fault) : Exit := ⟨101, "", fault.message ++ "\n"⟩

/-- Break down over the fault behind an error, or else print the structured form of the error. -/
def ofError (fault : Option Fault) (inspected : String) : Exit :=
  match fault with
  | some fault => breakdown fault
  | none => failure inspected

/-- Print notices in front of what went wrong. -/
def after (exit : Exit) (notices : String) : Exit := { exit with errors := notices ++ exit.errors }

end Exit

/-- The version of the daemon. -/
def version : String := "0.1.0"

/-- The platform for which the daemon is built. -/
def platform : String := "linux-x86_64"

/-- The version of the daemon and of its platform. -/
def versionText : String := s!"pasta-server version: {version}\nPlatform:             {platform}\n"

/-- How the daemon is used. -/
def usageText : String :=
  "Usage: pasta-server [--config PATH] [check | next EXPR [--count N] [--timezone TZ] | version]\n"

/-- The lines of the next runs of a schedule. -/
def previewLines (zone : Zone) (times : List Instant) : String :=
  String.join (times.map fun t => t.renderAt (zone.offsetAt t) ++ "\n")

/-- Print the next runs of a schedule after what the clock reads. An unknown zone is reported first,
then a clock that cannot be read. -/
def preview (zones : Zone.Database) (expression : String) (count : Nat) (timezone : String)
    (clock : Except Fault Instant) : Exit :=
  match zones timezone, clock with
  | none, _ => .failure (ConfigError.invalidValue "--timezone" .unknownZone).inspect
  | some _, .error fault => .breakdown fault
  | some zone, .ok now =>
    match Cron.Schedule.preview expression zone now count with
    | .error e => .ofError e.fault? e.inspect
    | .ok (.error fault) => .breakdown fault
    | .ok (.ok times) => .success (previewLines zone times)

namespace Surroundings

/-- The environment with the variables of the environment file. -/
def fullEnvironment (around : Surroundings) : Environment :=
  match around.environmentFile with
  | some text => EnvironmentFile.load around.environment text
  | none => around.environment

/-- Load the settings, from the given path or else from the usual one. -/
def settings (around : Surroundings) (config : Option String) : Except ConfigError Config :=
  let path := config.getD systemPath
  Origins.load ⟨path, around.file path, around.fullEnvironment⟩ ConfigFile.layerOfText? around.zones
    Source.all

end Surroundings

/-- Bring the daemon up. With `checks`, say that the settings are fine instead of serving; a
disabled scheduler does not serve. The log filter is set up as soon as the settings are known. -/
def bringUp {H : Type} (report : H) (around : Surroundings) (config : Option String)
    (checks : Bool) : Outcome H :=
  match around.settings config with
  | .error e => .exits (.failure e.inspect)
  | .ok settings =>
    let notices := LogFilter.noticesOf around.fullEnvironment settings.logging.level
    match build around.zones report settings.scheduler around.now with
    | .error e => .exits ((Exit.ofError e.fault? e.inspect).after notices)
    | .ok scheduler =>
      if checks then
        let count := scheduler.taskIds.length
        .exits ((Exit.success s!"configuration OK ({count} tasks)\n").after notices)
      else if settings.scheduler.enabled then .serves notices scheduler
      else .exits ((Exit.success "").after notices)

/-- What a process with these arguments does. The environment file counts for the settings only, and
not for the path of the configuration file. -/
def runCommand {H : Type} (report : H) (around : Surroundings) (arguments : List String) :
    Outcome H :=
  match Arguments.parse? around.environment arguments with
  | none => .exits .misuse
  | some .help => .exits (.success usageText)
  | some .versionFlag => .exits (.success s!"pasta-server {version}\n")
  | some (.invoke config command) =>
    match command with
    | .version => .exits (.success versionText)
    | .next expression count timezone =>
      .exits (preview around.zones expression count timezone around.now.clockReading)
    | .check => bringUp report around config true
    | .serve => bringUp report around config false

/-- How a process ends that is interrupted as soon as it serves: it stops its scheduler and prints
no more. -/
def Outcome.interrupted {H : Type} : Outcome H → Exit
  | .exits exit => exit
  | .serves notices _ => (Exit.success "").after notices

end CronDaemon.Daemon
