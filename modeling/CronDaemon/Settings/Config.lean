import CronDaemon.Settings.Layer
import CronDaemon.Calendar.Duration
import CronDaemon.Text.Quoted
import CronDaemon.Zone.Basic

/-!
# Resolved settings

Settings that a layer leaves open take their built-in values. What comes out is checked once: the
zone has to be in the database of zones, and neither the time allowed to a task nor the size of the
worker pool may be zero. The first check that fails decides the error.
-/

namespace CronDaemon.Settings

/-- Why a single value is refused. -/
inductive ValueFault where
  /-- A zone name is not known. -/
  | unknownZone
  /-- A text is not a number of the named width. -/
  | notNumber (width text : String)
  deriving DecidableEq, Repr

/-- The sentence for a refused value. -/
def ValueFault.message : ValueFault → String
  | unknownZone => "failed to parse timezone"
  | notNumber width text => s!"invalid {width} value '{text}'"

/-- A refusal of the system: its code, the name of its kind and its sentence. -/
structure SystemFault where
  code : Nat
  kind : String
  reason : String
  deriving DecidableEq, Repr

/-- What is to be read is a directory. -/
def SystemFault.isDirectory : SystemFault := ⟨21, "IsADirectory", "Is a directory"⟩

/-- Why a configuration file cannot be read. -/
inductive FileFault where
  /-- The system refuses to read it. -/
  | system (fault : SystemFault)
  | notText
  deriving DecidableEq, Repr

/-- The sentence for an unreadable file. -/
def FileFault.message : FileFault → String
  | system fault => s!"{fault.reason} (os error {fault.code})"
  | notText => "stream did not contain valid UTF-8"

/-- The structured form of the cause of an unreadable file. -/
def FileFault.inspect : FileFault → String
  | system fault => Text.record "Os"
      [("code", toString fault.code), ("kind", fault.kind), ("message", Text.quoted fault.reason)]
  | notText => Text.record "Error"
      [("kind", "InvalidData"), ("message", Text.quoted FileFault.notText.message)]

/-- Which rule the resolved settings break. -/
inductive Violation where
  | unknownZone
  | noTaskTimeout
  | noWorkers
  deriving DecidableEq, Repr

/-- Why settings cannot be loaded. -/
inductive ConfigError where
  /-- A value is refused. -/
  | invalidValue (key : String) (fault : ValueFault)
  /-- The configuration file is not a well-formed document of the expected shape. -/
  | malformed (path : String)
  /-- The configuration file cannot be read. -/
  | unreadable (path : String) (fault : FileFault)
  /-- The resolved settings break a rule. -/
  | violation (rule : Violation)
  deriving DecidableEq, Repr

/-- The sentence for a refused value of a setting. -/
def invalidValueMessage (key : String) (fault : ValueFault) : String :=
  s!"Invalid value for {key}: {fault.message}"

/-- The setting that names the zone. -/
def timezoneKey : String := "scheduler.timezone"

/-- The sentence for a broken rule. -/
def Violation.message : Violation → String
  | unknownZone =>
    "PASTA_SERVER_SCHEDULER_TIMEZONE / scheduler.timezone must be an IANA zone name: " ++
      invalidValueMessage timezoneKey .unknownZone
  | noTaskTimeout => "scheduler.task_timeout_secs must be greater than zero"
  | noWorkers => "scheduler.max_concurrent_tasks must be greater than zero when set"

namespace ConfigError

/-- The name of the kind of error. -/
def kind : ConfigError → String
  | invalidValue .. => "InvalidValue"
  | malformed _ => "TomlParse"
  | unreadable .. => "FileRead"
  | violation _ => "Validation"

/-- The sentence for an error; a malformed file has none. -/
def message? : ConfigError → Option String
  | invalidValue key fault => some (invalidValueMessage key fault)
  | malformed _ => none
  | unreadable path fault => some s!"Failed to read config file {path}: {fault.message}"
  | violation rule => some s!"Validation error: {rule.message}"

/-- The structured form of an error. -/
def inspect (e : ConfigError) : String :=
  match e with
  | invalidValue key fault => Text.record e.kind
      [("key", Text.quoted key), ("message", Text.quoted fault.message)]
  | malformed _ => e.kind
  | unreadable path fault => Text.record e.kind
      [("path", Text.quoted path), ("source", fault.inspect)]
  | violation rule => e.kind ++ "(" ++ Text.quoted rule.message ++ ")"

end ConfigError

/-- The resolved settings of the scheduler. -/
structure SchedulerConfig where
  /-- Whether the daemon schedules at all. -/
  enabled : Bool
  /-- The name of the zone whose wall clock schedules follow. -/
  timezone : String
  catchUpWindowSecs : Nat
  taskTimeoutSecs : Nat
  shutdownGraceSecs : Nat
  maxConcurrentTasks : Option Nat
  /-- The overrides by task. -/
  tasks : Table String TaskOverride
  deriving DecidableEq

/-- The resolved settings of the log. -/
structure LoggingConfig where
  level : String
  deriving DecidableEq

/-- The resolved settings. -/
structure Config where
  scheduler : SchedulerConfig
  logging : LoggingConfig
  deriving DecidableEq

/-- Fill the open settings of the scheduler. -/
def SchedulerLayer.resolve (layer : SchedulerLayer) : SchedulerConfig where
  enabled := layer.enabled.getD true
  timezone := layer.timezone.getD "UTC"
  catchUpWindowSecs := layer.catchUpWindowSecs.getD 86400
  taskTimeoutSecs := layer.taskTimeoutSecs.getD 300
  shutdownGraceSecs := layer.shutdownGraceSecs.getD 30
  maxConcurrentTasks := layer.maxConcurrentTasks
  tasks := layer.tasks.getD Table.empty

/-- Fill the open settings of the log. -/
def LoggingLayer.resolve (layer : LoggingLayer) : LoggingConfig where
  level := layer.level.getD "info"

namespace SchedulerConfig

/-- The zone of the settings. -/
def zone (config : SchedulerConfig) (zones : Zone.Database) : Except ConfigError Zone :=
  match zones config.timezone with
  | some zone => .ok zone
  | none => .error (.invalidValue timezoneKey .unknownZone)

/-- The first rule that the settings break. -/
def violation? (config : SchedulerConfig) (zones : Zone.Database) : Option Violation :=
  if (zones config.timezone).isNone then some .unknownZone
  else if config.taskTimeoutSecs = 0 then some .noTaskTimeout
  else if config.maxConcurrentTasks = some 0 then some .noWorkers
  else none

end SchedulerConfig

/-- Fill the open settings of the scheduler section. -/
def Layer.resolveScheduler (layer : Layer) : SchedulerConfig := (layer.scheduler.getD {}).resolve

/-- Fill the open settings, without checking them. -/
def Layer.resolve (layer : Layer) : Config where
  scheduler := layer.resolveScheduler
  logging := (layer.logging.getD {}).resolve

/-- Fill the open settings and check the result. -/
def Layer.finalize (layer : Layer) (zones : Zone.Database) : Except ConfigError Config :=
  match layer.resolveScheduler.violation? zones with
  | some rule => .error (.violation rule)
  | none => .ok layer.resolve

end CronDaemon.Settings
