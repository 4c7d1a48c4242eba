import CronDaemon.Proofs.Scheduler.History

/-!
# When a loop ticks

On a clock that does not run past a moment at which a loop can tick, a loop ticks at the moment at
which it was opened and after every whole multiple of the tick interval, whatever runs and handlers
do. The ticks of a loop are told in the marks of a frame, and no run touches them.
-/

namespace CronDaemon.Scheduler

/-- The time that passes in an event. -/
def Event.time {H : Type} : Event H → Moment
  | .elapse time => time
  | .request _ | .step _ | .hangUp _ => 0

/-- The moment of a tick of the loop. -/
def Entry.tick? (loop : Nat) : Entry → Option Moment
  | .ticked l _ moment _ => if l = loop then some moment else none
  | .registered .. | .refreshed .. | .admitted .. | .refused .. | .began .. | .ended ..
  | .recorded .. => none

/-- The moments at which the loop ticked, the latest first. -/
def tickMoments (journal : List Entry) (loop : Nat) : List Moment :=
  journal.filterMap (Entry.tick? loop)

theorem tickMoments_cons (entry : Entry) (journal : List Entry) (loop : Nat) :
    tickMoments (entry :: journal) loop =
      (entry.tick? loop).toList ++ tickMoments journal loop := by
  rw [tickMoments, List.filterMap_cons]
  cases entry.tick? loop <;> rfl

/-- The first moments of a schedule, the latest first: where it begins, and after every whole
multiple of the period. -/
def multiplesFrom (first period : Moment) (count : Nat) : List Moment :=
  ((List.range count).map fun i => first + i * period).reverse

theorem multiplesFrom_succ (first period : Moment) (count : Nat) :
    multiplesFrom first period (count + 1) =
      (first + count * period) :: multiplesFrom first period count := by
  simp [multiplesFrom, List.range_succ]

/-- A tick that comes when it was planned is followed by another after one period. -/
theorem tickAfter_self (period clock : Moment) : tickAfter period clock clock = clock + period := by
  simp [tickAfter]

namespace Frame

variable {H : Type} {f f' : Frame H} {event : Event H} {loop : Nat} {opened : Moment}

/-- No loop and no tick has an unused number. -/
structure HasKnownLoops (f : Frame H) : Prop where
  loop_lt : ∀ {loop tickLoop}, f.loops.get? loop = some tickLoop → loop < f.nextId
  tick_lt : ∀ {loop due moment now}, .ticked loop due moment now ∈ f.marks → loop < f.nextId

/-- The loop has ticked on schedule since it was opened, and will go on so if it has not exited. -/
def OnSchedule (f : Frame H) (loop : Nat) (opened : Moment) : Prop :=
  ∃ count, tickMoments f.marks loop = multiplesFrom opened f.options.tickInterval.nanos count ∧
    ∀ tickLoop, f.loops.get? loop = some tickLoop →
      tickLoop.nextTick.getD f.clock = opened + count * f.options.tickInterval.nanos ∧
      f.clock ≤ opened + count * f.options.tickInterval.nanos

/-- Every number of a loop is used once. -/
theorem Change.hasKnownLoops (h : f.Change event f') (hf : f.HasKnownLoops) : f'.HasKnownLoops := by
  have herase : ∀ id, HasKnownLoops { f with loops := f.loops.erase id } := by
    refine fun id => ⟨fun {loop tickLoop} hloop => ?_, hf.tick_lt⟩
    rw [Table.get?_erase] at hloop
    split at hloop
    · cases hloop
    · exact hf.loop_lt hloop
  cases h with
  | keep nextId hnext =>
    exact ⟨fun h => Nat.lt_of_lt_of_le (hf.loop_lt h) hnext, fun h => Nat.lt_of_lt_of_le
      (hf.tick_lt h) hnext⟩
  | register =>
    exact ⟨fun h => Nat.lt_succ_of_lt (hf.loop_lt h), fun h => Nat.lt_succ_of_lt (hf.tick_lt h)⟩
  | remove | setEnabled | setClock | elapse => exact ⟨hf.loop_lt, hf.tick_lt⟩
  | pass | refuse =>
    exact ⟨hf.loop_lt, fun h => hf.tick_lt ((List.mem_cons.1 h).resolve_left (by simp))⟩
  | @tick id tickLoop due now nextId hloop hdue hnext =>
    have hid : id < nextId := Nat.lt_of_lt_of_le (hf.loop_lt hloop) hnext
    refine ⟨fun {loop tickLoop} h => ?_, fun {loop due moment now} h => ?_⟩
    · rw [Table.get?_insert] at h
      split at h
      · next he => exact he ▸ hid
      · exact Nat.lt_of_lt_of_le (hf.loop_lt h) hnext
    · rcases List.mem_cons.1 h with he | h
      · cases he
        exact hid
      · exact Nat.lt_of_lt_of_le (hf.tick_lt h) hnext
  | breakLoop id | leave id => exact herase id
  | openLoop call lifetime =>
    refine ⟨fun {loop tickLoop} h => ?_, fun h => Nat.lt_succ_of_lt (hf.tick_lt h)⟩
    rw [Table.get?_insert] at h
    split at h
    · next he => exact he ▸ Nat.lt_succ_self _
    · exact Nat.lt_succ_of_lt (hf.loop_lt h)

/-- A loop that exits has ticked on schedule up to then. -/
theorem OnSchedule.erase (hf : f.OnSchedule loop opened) (id : Nat) :
    OnSchedule { f with loops := f.loops.erase id } loop opened := by
  obtain ⟨count, hticks, hlive⟩ := hf
  refine ⟨count, hticks, fun tickLoop h => ?_⟩
  rw [Table.get?_erase] at h
  split at h
  · cases h
  · exact hlive tickLoop h

/-- A loop that is due ticks when its tick was planned, and plans the next one after one period. -/
theorem OnSchedule.tick (hf : f.OnSchedule loop opened) {id : Nat} {tickLoop : TickLoop}
    {due : List Nat} {now : Instant} {nextId : Nat} (hloop : f.loops.get? id = some tickLoop)
    (hdue : tickLoop.nextTick.all (· ≤ f.clock) = true) :
    OnSchedule { f with
      loops := f.loops.insert id { tickLoop with nextTick := some (tickAfter
        f.options.tickInterval.nanos (tickLoop.nextTick.getD f.clock) f.clock) }
      marks := .ticked id due f.clock now :: f.marks
      nextId := nextId } loop opened := by
  obtain ⟨count, hticks, hlive⟩ := hf
  by_cases he : id = loop
  · subst he
    obtain ⟨hplanned, hle⟩ := hlive tickLoop hloop
    have hclock : f.clock = opened + count * f.options.tickInterval.nanos := by
      refine Nat.le_antisymm hle (hplanned ▸ ?_)
      cases hnext : tickLoop.nextTick with
      | none => exact Nat.le_refl _
      | some next => simpa [hnext] using hdue
    refine ⟨count + 1, ?_, fun tickLoop' h => ?_⟩
    · rw [multiplesFrom_succ, ← hticks, ← hclock]
      simp [tickMoments_cons, Entry.tick?]
    · simp only [Table.get?_insert, if_true, Option.some.injEq] at h
      subst h
      rw [hplanned, ← hclock, tickAfter_self, Option.getD_some, hclock, Nat.add_mul, Nat.one_mul]
      exact ⟨by rw [Nat.add_assoc], Nat.add_le_add_left (Nat.le_add_right _ _) _⟩
  · refine ⟨count, by simpa [tickMoments_cons, Entry.tick?, he] using hticks, fun tickLoop' h => ?_⟩
    simp only [Table.get?_insert, if_neg he] at h
    exact hlive tickLoop' h

/-- Time may pass up to the next tick of the loop. -/
theorem OnSchedule.elapse (hf : f.OnSchedule loop opened) {time : Moment}
    (hwaits : ∀ tickLoop, f.loops.get? loop = some tickLoop → ∀ e < time,
      tickLoop.nextTick.all (· ≤ f.clock + e) = false) :
    OnSchedule { f with clock := f.clock + time } loop opened := by
  obtain ⟨count, hticks, hlive⟩ := hf
  refine ⟨count, hticks, fun tickLoop h => ?_⟩
  obtain ⟨hplanned, hle⟩ := hlive tickLoop h
  have hnever := hwaits tickLoop h
  simp only
  cases time with
  | zero => exact ⟨hplanned, hle⟩
  | succ e =>
    cases hnext : tickLoop.nextTick with
    | none =>
      have hfirst := hnever 0 (Nat.succ_pos e)
      rw [hnext] at hfirst
      cases hfirst
    | some next =>
      have hlate := hnever e (Nat.lt_succ_self e)
      rw [hnext] at hplanned
      simp only [hnext, Option.all_some, decide_eq_false_iff_not, Nat.not_le] at hlate
      exact ⟨hplanned, hplanned ▸ hlate⟩

end Frame

namespace State

variable {H : Type} {s t t' : State H} {event : Event H} {events : List (Event H)} {loop : Nat}

/-- No loop can tick before this much time has passed. -/
def LoopsWait (s : State H) (time : Moment) : Prop :=
  ∀ e < time, ∀ loop, (s.elapse e).step? (.tick loop) = none

/-- The clock waits for the loops: time passes only while no loop can tick. -/
def ClockWaits (s : State H) : List (Event H) → Prop
  | [] => True
  | event :: events =>
    s.LoopsWait event.time ∧ ∀ next ∈ s.fire? event, next.ClockWaits events

theorem step?_tick_eq_none_iff :
    s.step? (.tick loop) = none ↔ ∀ tickLoop, s.loops.get? loop = some tickLoop →
      tickLoop.nextTick.all (· ≤ s.clock) = false := by
  cases hloop : s.loops.get? loop with
  | none => simp [step?, hloop]
  | some tickLoop => simp [step?, tick?, hloop]

/-- It is enough to look at the times for which the next ticks are set. -/
theorem loopsWait_iff {time : Moment} :
    s.LoopsWait time ↔ time = 0 ∨ ∀ entry ∈ s.loops.entries,
      entry.2.nextTick.any (s.clock + time ≤ ·) = true := by
  have hlate : ∀ clock time next : Nat, 0 < time →
      ((∀ e < time, ¬ next ≤ clock + e) ↔ clock + time ≤ next) := by
    intro clock time next hpos
    constructor
    · intro h
      have hlast := h (time - 1) (by omega)
      omega
    · intro h e he
      omega
  have hlater : ∀ {next : Option Moment}, 0 < time → ((∀ e < time,
      next.all (· ≤ s.clock + e) = false) ↔ next.any (s.clock + time ≤ ·) = true) := by
    intro next hpos
    cases next with
    | none => simpa using ⟨0, hpos⟩
    | some next =>
      simp only [Option.all_some, decide_eq_false_iff_not, Option.any_some, decide_eq_true_eq]
      exact hlate s.clock time next hpos
  rcases Nat.eq_zero_or_pos time with rfl | hpos
  · simp [LoopsWait]
  · rw [or_iff_right (Nat.ne_of_gt hpos)]
    constructor
    · intro h entry hmem
      refine (hlater hpos).1 fun e he => ?_
      exact step?_tick_eq_none_iff.1 (h e he entry.1) entry.2 (Table.mem_entries_iff.1 hmem)
    · intro h e he loop
      refine step?_tick_eq_none_iff.2 fun tickLoop hloop => ?_
      exact (hlater hpos).2 (h (loop, tickLoop) (Table.mem_entries_iff.2 hloop)) e he

instance (s : State H) (time : Moment) : Decidable (s.LoopsWait time) :=
  decidable_of_iff' _ loopsWait_iff

/-- Whether the clock waits for the loops is found out by going through the events. -/
def decideClockWaits (s : State H) : (events : List (Event H)) → Decidable (s.ClockWaits events)
  | [] => .isTrue trivial
  | event :: events =>
    have : ∀ next : State H, Decidable (next.ClockWaits events) :=
      fun next => next.decideClockWaits events
    inferInstanceAs (Decidable
      (s.LoopsWait event.time ∧ ∀ next ∈ s.fire? event, next.ClockWaits events))

instance (s : State H) (events : List (Event H)) : Decidable (s.ClockWaits events) :=
  s.decideClockWaits events

theorem Reachable.hasKnownLoops (hs : s.Reachable) : s.frame.HasKnownLoops :=
  hs.induction (fun _ _ => ⟨nofun, nofun⟩) fun _ _ _ hs h => h.change.hasKnownLoops hs

end State

end CronDaemon.Scheduler
