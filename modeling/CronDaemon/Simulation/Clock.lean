import CronDaemon.Simulation.Turn

/-!
# Passing of time

Fibers that are ready have their turns first come, first served. When none is ready, the clock moves
straight to the next timer.
-/

namespace CronDaemon.Simulation

open Scheduler

namespace World

/-- Set the timers that are new, and forget those for which nothing waits any more. -/
def setTimers (w : World) : World :=
  let present := w.timersOf
  { w with timers :=
      w.timers.filter present.contains ++ present.filter fun timer => !w.timers.contains timer }

/-- Add to a queue the ready ones of some fibers, each once. -/
def enqueueReady (w : World) (queue : List Fiber) : List Fiber → List Fiber
  | [] => queue
  | fiber :: rest =>
    if w.isReady fiber && !queue.contains fiber then enqueueReady w (queue ++ [fiber]) rest
    else enqueueReady w queue rest

/-- Queue the fibers that have become ready. -/
def wake (w : World) : World :=
  let s := w.scheduler
  let fibers := w.timers.map (fun timer => fiberOfTimer s timer.1) ++ fibersOf s
  { w with ready := w.enqueueReady w.ready fibers }

/-- Give the fibers their turns until none is ready, for at most `fuel` turns. -/
def settleFor : Nat → World → World
  | 0, w => w
  | fuel + 1, w =>
    let w := w.setTimers.wake
    match w.ready with
    | [] => w
    | fiber :: rest => settleFor fuel (turn { w with ready := rest } fiber)

/-- Let everything happen that can happen at the present instant. -/
def settle (w : World) : World := settleFor turnLimit w

/-- Move the clock to a later moment. -/
def moveTo (w : World) (moment : Moment) : World :=
  { w with scheduler := w.scheduler.elapse (moment - w.scheduler.clock) }

/-- The moment at which the next timer ends, but no later than `limit`. -/
def nextMoment (w : World) (limit : Moment) : Moment :=
  ((w.timers.map (·.2)).filter (w.scheduler.clock < ·)).foldl min limit

/-- Let things happen until the clock has come to `limit` or `done` holds, for at most `fuel` moves
of the clock. -/
def runFor (done : World → Bool) (limit : Moment) : Nat → World → World
  | 0, w => w
  | fuel + 1, w =>
    let w := w.settle
    if done w || limit ≤ w.scheduler.clock then w
    else runFor done limit fuel (w.moveTo (w.nextMoment limit))

/-- Let things happen until the clock has come to `limit` or `done` holds. Every move of the clock
takes a nanosecond at least. -/
def runUntil (w : World) (done : World → Bool) (limit : Moment) : World :=
  w.runFor done limit (limit - w.scheduler.clock + 1)

end World

end CronDaemon.Simulation
