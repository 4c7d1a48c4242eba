/-!
# Faults

A fault is neither an answer nor an error that is told: the operation breaks off in the midst, and
leaves things as they are at that moment. Each fault names the limit that was met, or says that
nobody waits for the operation any more.
-/

namespace CronDaemon

/-- Why an operation breaks off. -/
inductive Fault where
  /-- The seconds of an interval have no room for the nanoseconds that make up one more. -/
  | intervalCarry
  /-- A search for a next run would have to compute past the end of the calendar. -/
  | calendarEnd
  /-- A list of runs would be longer than any memory. -/
  | oversizedList
  /-- A worker pool would have more permits than can be counted. -/
  | oversizedPool
  /-- The wall clock shows a time at which it cannot be read. -/
  | unreadableClock
  /-- The deadline of a run lies past the end of the steady clock. -/
  | unreachableDeadline
  /-- Whoever waited for the operation has hung up. -/
  | hungUp
  deriving DecidableEq, Repr, Inhabited

/-- The sentence for a fault. -/
def Fault.message : Fault → String
  | intervalCarry => "interval too long"
  | calendarEnd => "search past the end of the calendar"
  | oversizedList => "list too long"
  | oversizedPool => "worker pool too large"
  | unreadableClock => "wall clock cannot be read"
  | unreachableDeadline => "deadline past the end of the steady clock"
  | hungUp => "caller hung up"

/-- Two operations in a row succeed exactly when the first does, and the second on its result. -/
theorem bind_eq_ok_iff {ε α β : Type} {x : Except ε α} {f : α → Except ε β} {b : β} :
    (x >>= f) = .ok b ↔ ∃ a, x = .ok a ∧ f a = .ok b := by
  cases x <;> simp [bind, Except.bind]

/-- A mapped result is that of an operation that succeeds. -/
theorem map_eq_ok_iff {ε α β : Type} {x : Except ε α} {f : α → β} {b : β} :
    x.map f = .ok b ↔ ∃ a, x = .ok a ∧ f a = b := by
  cases x <;> simp [Except.map]

end CronDaemon
