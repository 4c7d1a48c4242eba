import CronDaemon.Zone.Basic

/-!
# Options of a scheduler
-/

namespace CronDaemon.Scheduler

/-- The options of a scheduler. -/
structure Options where
  /-- The zone whose wall clock cron fields are matched against. -/
  zone : Zone
  /-- Tasks that must not be skipped run once at a start if their last run is older than this. -/
  catchUpWindow : Duration
  /-- The time allowed to a run from the moment at which it may execute. -/
  taskTimeout : Duration
  /-- The time between two ticks of the loop. -/
  tickInterval : Duration
  /-- How long a stop waits for runs. -/
  shutdownGrace : Duration
  /-- The most handlers that execute at once; without a number there is no limit. -/
  maxConcurrentTasks : Option Nat
  deriving DecidableEq, Repr, Inhabited

namespace Options

/-- The tick interval of a scheduler that is not given another. -/
def defaultTick : Duration := .ofSecs 1

/-- The options of a scheduler that is not given others. -/
def standard : Options where
  zone := Zone.utc
  catchUpWindow := .ofSecs 86400
  taskTimeout := .ofSecs 300
  tickInterval := defaultTick
  shutdownGrace := .ofSecs 30
  maxConcurrentTasks := none

/-- A loop cannot tick without a pause: a tick interval of zero is replaced. -/
def normalized (options : Options) : Options :=
  if options.tickInterval.nanos = 0 then { options with tickInterval := defaultTick } else options

/-- The number of permits of the worker pool, if there is one. A pool has at least one. -/
def permits? (options : Options) : Option Nat := options.maxConcurrentTasks.map fun n => max 1 n

/-- The most permits that a pool can have. -/
def largestPool : Nat := 0x1FFFFFFFFFFFFFFF

/-- Whether a scheduler can be made with these options: its pool must not be too large. -/
def areFeasible (options : Options) : Bool := options.permits?.all (· ≤ largestPool)

end Options

end CronDaemon.Scheduler
