import CronDaemon.Main
import CronDaemon.Simulation.Session
import CronDaemon.Proofs.Cron.FieldValues
import CronDaemon.Proofs.Cron.MinuteScan
import CronDaemon.Proofs.Cron.NextRun
import CronDaemon.Proofs.Cron.EarliestRun
import CronDaemon.Proofs.Cron.LeapDays
import CronDaemon.Proofs.Text.Pieces
import CronDaemon.Proofs.Cron.FieldGrammar
import CronDaemon.Proofs.Text.Words
import CronDaemon.Proofs.Cron.ScheduleGrammar
import CronDaemon.Proofs.Cron.Succession
import CronDaemon.Proofs.Cron.Upcoming
import CronDaemon.Proofs.Scheduler.Ledger
import CronDaemon.Proofs.Scheduler.Moves
import CronDaemon.Proofs.Scheduler.Awaiting
import CronDaemon.Proofs.Scheduler.Bystanders
import CronDaemon.Proofs.Scheduler.OverlapGuard
import CronDaemon.Proofs.Scheduler.Frame
import CronDaemon.Proofs.Scheduler.History
import CronDaemon.Proofs.Scheduler.Origins
import CronDaemon.Proofs.Scheduler.Registration
import CronDaemon.Proofs.Scheduler.TaskIdentity
import CronDaemon.Proofs.Scheduler.TaskMap
import CronDaemon.Proofs.Scheduler.Alternation
import CronDaemon.Proofs.Scheduler.Tally
import CronDaemon.Proofs.Scheduler.DueDispatch
import CronDaemon.Proofs.Scheduler.TickTimes
import CronDaemon.Proofs.Scheduler.Dispatched
import CronDaemon.Proofs.Scheduler.Occurrences
import CronDaemon.Proofs.Scheduler.Course
import CronDaemon.Proofs.Scheduler.Regime
import CronDaemon.Proofs.Scheduler.Permits
import CronDaemon.Proofs.Scheduler.WorkerPool
import CronDaemon.Proofs.Scheduler.Cancellation
import CronDaemon.Proofs.Scheduler.StopReach
import CronDaemon.Proofs.Scheduler.Calls
import CronDaemon.Proofs.Scheduler.Shutdown
import CronDaemon.Proofs.Scheduler.ReferenceTimes
import CronDaemon.Proofs.Scheduler.LoopHandle
import CronDaemon.Proofs.Scheduler.Refusals
import CronDaemon.Proofs.Scheduler.CatchUpPass
import CronDaemon.Proofs.Scheduler.CatchUp
import CronDaemon.Proofs.Scheduler.FirstLooks
import CronDaemon.Proofs.Simulation.Firing
import CronDaemon.Proofs.Settings.Merging
import CronDaemon.Proofs.Settings.Loading
import CronDaemon.Proofs.Scheduler.StopOverlap
import CronDaemon.Proofs.Scheduler.Effects
import CronDaemon.Proofs.Scheduler.Mirroring
import CronDaemon.Proofs.Scheduler.Batches
import CronDaemon.Proofs.Scheduler.Lockstep
import CronDaemon.Proofs.Scheduler.Independence
import CronDaemon.Proofs.Scheduler.TaskOrder
import CronDaemon.Proofs.Scheduler.HandlerCalls
import CronDaemon.Proofs.Scheduler.Attempts
import CronDaemon.Proofs.Scheduler.RetryRace
import CronDaemon.Proofs.Text.ByteOrder
import CronDaemon.Proofs.Scheduler.Grades
import CronDaemon.Proofs.Daemon.Startup
import CronDaemon.Proofs.Cron.FieldListing
import CronDaemon.Proofs.Daemon.StatusSummary
