import CronDaemon.Simulation.Clock
import CronDaemon.Simulation.Command

/-!
# Sessions

A session drives a simulated scheduler command by command. After each command everything happens
that can happen at that instant; then the session tells the answer, the time, the state of every
task, and what the handlers have seen since the last command.
-/

namespace CronDaemon.Simulation

open Job Scheduler

/-- What is told after a command. -/
structure Observation where
  answer : Answer
  clock : Moment
  running : Bool
  log : List LogEntry
  tasks : List Snapshot

/-- A simulated scheduler and the demands in the background. -/
structure Session where
  world : World
  /-- The demands in the background with their calls. -/
  background : Table String (Demand × Nat)

/-- Entries of the log by time and then by task; entries that agree in both keep their order. -/
def sortedLog (log : List LogEntry) : List LogEntry :=
  log.mergeSort fun a b => a.moment < b.moment || (a.moment == b.moment && a.task ≤ b.task)

/-- How long a session waits for a demand. -/
def patience : Duration := .ofSecs 3600

namespace World

/-- Serve a request, and let everything happen that can happen then. -/
def serve (w : World) (request : Request Handler) : World × Answer :=
  match w.scheduler.serve request with
  | .ok s => ({ w with scheduler := s }.settle, .done)
  | .error e => (w, .refused e)

/-- The reply of a call that has returned. -/
def reply? (w : World) (call : Nat) : Option Reply :=
  match w.scheduler.calls.get? call with
  | some (.returned reply) => some reply
  | _ => none

/-- Wait until the call of a demand has returned or the clock has come to `limit`. -/
def awaitUntil (w : World) (demand : Demand) (call : Nat) (limit : Moment) : World × Answer :=
  let w := w.runUntil (fun w => (w.reply? call).isSome) limit
  match w.reply? call with
  | some reply => (w, demand.answer reply)
  | none => (w, .pending)

/-- Wait until the call of a demand has returned. -/
def await (w : World) (demand : Demand) (call : Nat) : World × Answer :=
  w.awaitUntil demand call (w.scheduler.clock + patience.nanos)

end World

namespace Session

/-- A session with a scheduler in which nothing has happened yet. -/
def ofScheduler (scheduler : State Handler) : Session := ⟨World.ofScheduler scheduler, Table.empty⟩

/-- Put the world of an answer into a session. -/
def answering (session : Session) (result : World × Answer) : Session × Answer :=
  ({ session with world := result.1 }, result.2)

/-- Carry out a command. -/
def perform (session : Session) (command : Command) : Session × Answer :=
  let w := session.world
  let next := w.scheduler.nextId
  match command with
  | .request request => session.answering (w.serve request)
  | .look query => (session, query.answer w.scheduler)
  | .await demand => session.answering ((w.serve demand.request).1.await demand next)
  | .background key demand =>
    let (w, answer) := w.serve demand.request
    (⟨w, session.background.insert key (demand, next)⟩, answer)
  | .join key =>
    match session.background.get? key with
    | none => (session, .unknownKey)
    | some (demand, call) =>
      let session := { session with background := session.background.erase key }
      session.answering (w.await demand call)
  | .advance time =>
    session.answering (w.runUntil (fun _ => false) (w.scheduler.clock + time.nanos), .done)

/-- Carry out a command and tell what came of it. -/
def observe (session : Session) (command : Command) : Session × Observation :=
  let (session, answer) := session.perform command
  let w := session.world
  ({ session with world := { w with log := [] } },
    { answer := answer
      clock := w.scheduler.clock
      running := w.scheduler.running
      log := sortedLog w.log.reverse
      tasks := w.scheduler.list })

/-- Carry out commands one after the other. -/
def run (session : Session) : List Command → List Observation
  | [] => []
  | command :: rest =>
    let (session, observation) := session.observe command
    observation :: session.run rest

end Session

end CronDaemon.Simulation
