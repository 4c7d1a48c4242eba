import CronDaemon.Scheduler.State

/-!
# Scripted handlers

A simulated handler plays one behaviour per call. A behaviour may wait until the run is cancelled,
then sleeps for some time, which may be cut short by a cancellation, and then returns.
-/

namespace CronDaemon.Simulation

open Job Scheduler

/-- What a handler does in one call. -/
structure Behaviour where
  /-- Wait until the run is cancelled. -/
  waitsForCancellation : Bool
  /-- Then sleep for this time. -/
  sleep : Duration
  /-- Whether a cancellation cuts the sleep short. -/
  watches : Bool
  /-- How a call ends that was not cut short. -/
  ending : Ending
  deriving DecidableEq, Repr, Inhabited

/-- Return at once. -/
def Behaviour.immediate : Behaviour := ⟨false, ⟨0⟩, false, .completed ""⟩

/-- A simulated handler. -/
inductive Handler where
  /-- Returns at once and leaves no trace in the log. -/
  | silent
  /-- Plays the first behaviour in the first call, and so on; the last one is played again. -/
  | scripted (behaviours : List Behaviour)
  /-- The status report. -/
  | report
  deriving DecidableEq, Repr, Inhabited

/-- The behaviour of the call with the given number, counted from one. -/
def behaviourAt (behaviours : List Behaviour) (call : Nat) : Behaviour :=
  match behaviours[call - 1]? with
  | some behaviour => behaviour
  | none => behaviours.getLast?.getD Behaviour.immediate

/-- Where a call of a scripted handler stands. -/
inductive Stage where
  /-- It waits for the cancellation. -/
  | waiting
  /-- It sleeps. -/
  | sleeping (wake : Moment)
  deriving DecidableEq, Repr, Inhabited

/-- A scripted call in progress. -/
structure Scene where
  behaviour : Behaviour
  /-- The number of the call on its record. -/
  call : Nat
  stage : Stage
  deriving DecidableEq, Repr, Inhabited

/-- Where a call goes on to. -/
inductive Turn where
  /-- Nothing can happen now. -/
  | blocked
  | goesOn (stage : Stage)
  | ends (ending : Ending)
  deriving DecidableEq, Repr, Inhabited

namespace Scene

/-- The first stage of a call. -/
def enter (behaviour : Behaviour) (call : Nat) (clock : Moment) : Scene where
  behaviour := behaviour
  call := call
  stage :=
    if behaviour.waitsForCancellation then .waiting else .sleeping (clock + behaviour.sleep.nanos)

/-- What a call does next. A sleep that ends at the instant of the cancellation is not cut short. -/
def turn (scene : Scene) (clock : Moment) (cancelled : Bool) : Turn :=
  match scene.stage with
  | .waiting =>
    if cancelled then .goesOn (.sleeping (clock + scene.behaviour.sleep.nanos)) else .blocked
  | .sleeping wake =>
    if wake ≤ clock then .ends scene.behaviour.ending
    else if scene.behaviour.watches && cancelled then .ends (.failed .cancelled)
    else .blocked

/-- The moment at which a sleep ends. -/
def timer? (scene : Scene) : Option Moment :=
  match scene.stage with
  | .waiting => none
  | .sleeping wake => some wake

end Scene

end CronDaemon.Simulation
