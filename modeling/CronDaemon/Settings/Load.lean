import CronDaemon.Settings.Environment
import CronDaemon.Settings.File

/-!
# Loading settings

Settings come from three sources. They are read in the order of their precedence, whatever the
order in which they are given, and the first that fails decides the error; a source of higher
precedence overrides the ones below it. The decoder of files and the database of zones are given.
-/

namespace CronDaemon.Settings

/-- A source of settings. -/
inductive Source where
  | defaults
  | file
  | environment
  deriving DecidableEq, Repr

namespace Source

/-- The sources in the order of their precedence. -/
def all : List Source := [defaults, file, environment]

/-- The name of a source. -/
def name : Source → String
  | defaults => "defaults"
  | file => "toml-config"
  | environment => "environment"

/-- The rank of a source; a higher rank overrides a lower one. -/
def precedence : Source → Nat
  | defaults => 10
  | file => 20
  | environment => 50

/-- Sources in the order in which they are read, those of lower precedence first. -/
def inOrder (sources : List Source) : List Source :=
  sources.mergeSort fun a b => a.precedence ≤ b.precedence

end Source

/-- Where the settings come from. -/
structure Origins where
  /-- The path of the configuration file, for messages. -/
  path : String
  /-- What stands at that path. -/
  file : ConfigFile
  /-- The environment of the process. -/
  environment : Environment

/-- The path of the configuration file unless another is given. -/
def systemPath : String := "/etc/pasta/server.toml"

/-- Read one source. -/
def Origins.layer (origins : Origins) (decode : Decoder) : Source → Except ConfigError Layer
  | .defaults => .ok Layer.empty
  | .file => origins.file.layer decode origins.path
  | .environment => origins.environment.layer

/-- Load the settings of the given sources. -/
def Origins.load (origins : Origins) (decode : Decoder) (zones : Zone.Database)
    (sources : List Source) : Except ConfigError Config := do
  (Layer.mergeAll (← (Source.inOrder sources).mapM (origins.layer decode))).finalize zones

end CronDaemon.Settings
