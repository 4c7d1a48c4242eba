import CronDaemon.Table

/-!
# Layers of settings

A layer sets some of the settings and leaves the others open. Laying one layer over another keeps,
for every single setting, the value of the upper layer where it sets one and else that of the lower
layer; overrides of tasks are combined task by task and setting by setting.
-/

namespace CronDaemon.Settings

/-- What the settings change about one task. -/
structure TaskOverride where
  /-- The schedule text. -/
  schedule : Option String := none
  /-- Whether the task is triggered automatically. -/
  enabled : Option Bool := none
  /-- Whether a missed run is skipped. -/
  skippable : Option Bool := none
  deriving DecidableEq, Inhabited

/-- The settings of the scheduler that a layer sets. -/
structure SchedulerLayer where
  enabled : Option Bool := none
  timezone : Option String := none
  catchUpWindowSecs : Option Nat := none
  taskTimeoutSecs : Option Nat := none
  shutdownGraceSecs : Option Nat := none
  maxConcurrentTasks : Option Nat := none
  tasks : Option (Table String TaskOverride) := none
  deriving DecidableEq, Inhabited

/-- The settings of the log that a layer sets. -/
structure LoggingLayer where
  level : Option String := none
  deriving DecidableEq, Inhabited

/-- A layer of settings. -/
structure Layer where
  scheduler : Option SchedulerLayer := none
  logging : Option LoggingLayer := none
  deriving DecidableEq, Inhabited

/-- Combine two optional sections. -/
def mergeSections {α : Type} (merge : α → α → α) : Option α → Option α → Option α
  | some lower, some upper => some (merge lower upper)
  | lower, none => lower
  | none, upper => upper

/-- Lay an override over another. -/
def TaskOverride.merge (lower upper : TaskOverride) : TaskOverride where
  schedule := upper.schedule.or lower.schedule
  enabled := upper.enabled.or lower.enabled
  skippable := upper.skippable.or lower.skippable

/-- Lay scheduler settings over others. -/
def SchedulerLayer.merge (lower upper : SchedulerLayer) : SchedulerLayer where
  enabled := upper.enabled.or lower.enabled
  timezone := upper.timezone.or lower.timezone
  catchUpWindowSecs := upper.catchUpWindowSecs.or lower.catchUpWindowSecs
  taskTimeoutSecs := upper.taskTimeoutSecs.or lower.taskTimeoutSecs
  shutdownGraceSecs := upper.shutdownGraceSecs.or lower.shutdownGraceSecs
  maxConcurrentTasks := upper.maxConcurrentTasks.or lower.maxConcurrentTasks
  tasks := mergeSections (Table.mergeWith TaskOverride.merge) lower.tasks upper.tasks

/-- Lay log settings over others. -/
def LoggingLayer.merge (lower upper : LoggingLayer) : LoggingLayer where
  level := upper.level.or lower.level

namespace Layer

/-- The layer that sets nothing. -/
def empty : Layer := {}

/-- Lay a layer over another. -/
def merge (lower upper : Layer) : Layer where
  scheduler := mergeSections SchedulerLayer.merge lower.scheduler upper.scheduler
  logging := mergeSections LoggingLayer.merge lower.logging upper.logging

/-- Lay layers over each other, the last one on top. -/
def mergeAll (layers : List Layer) : Layer := layers.foldl merge empty

end Layer

end CronDaemon.Settings
