import CronDaemon.Proofs.Scheduler.Moves

/-!
# What runs leave alone

The frame of a state is what no run touches: the options and the clocks, the registry, the tick
loops, what the records say of their tasks, the ticks, admissions and refusals that the journal
tells of, and which numbers are used. The steps of a run leave the frame as it is once the run has
passed the guard; every other change of a frame is told here, with the event that makes it.
-/

namespace CronDaemon.Scheduler

open Job

/-- What a record says of its task, apart from how the runs came out. -/
def Record.profile {H : Type} (record : Record H) : Record H :=
  { record with
    status := .pending
    lastRun := none
    nextRun := none
    lastError := none
    runCount := 0
    failureCount := 0
    consecutiveFailures := 0
    calls := 0 }

/-- Whether an entry tells of a tick, or of a run that passed the guard or was refused. -/
def Entry.isMark : Entry → Bool
  | .ticked .. | .admitted .. | .refused .. => true
  | .registered .. | .refreshed .. | .began .. | .ended .. | .recorded .. => false

/-- The profiles of the records. -/
def profilesOf {H : Type} (records : Table Nat (Record H)) (number : Nat) : Option (Record H) :=
  (records.get? number).map Record.profile

/-- The part of a state that no run touches. -/
structure Frame (H : Type) where
  options : Options
  clock : Moment
  epoch : Instant
  registry : Table String Nat
  loops : Table Nat TickLoop
  /-- What the records say of their tasks. -/
  profiles : Nat → Option (Record H)
  /-- The ticks, admissions and refusals that happened, the latest first. -/
  marks : List Entry
  /-- The next unused number. -/
  nextId : Nat

/-- The frame of a state. -/
def State.frame {H : Type} (s : State H) : Frame H :=
  ⟨s.options, s.clock, s.epoch, s.registry, s.loops, profilesOf s.records,
    s.journal.filter Entry.isMark, s.nextId⟩

section Profiles

variable {H : Type} {records : Table Nat (Record H)} {number : Nat}

/-- A record that is put in shows its own profile. -/
theorem profilesOf_insert (record : Record H) :
    profilesOf (records.insert number record) =
      fun k => if number = k then some record.profile else profilesOf records k := by
  funext k
  simp only [profilesOf, Table.get?_insert]
  split <;> rfl

/-- A record may be replaced by one with the same profile. -/
theorem profilesOf_insert_of_eq {before after : Record H}
    (hbefore : records.get? number = some before) (h : after.profile = before.profile) :
    profilesOf (records.insert number after) = profilesOf records := by
  rw [profilesOf_insert]
  funext k
  split
  · next he =>
    subst he
    rw [profilesOf, hbefore, h]
    rfl
  · rfl

/-- A record may be changed apart from its profile. -/
theorem profilesOf_modify_of_eq {change : Record H → Record H}
    (h : ∀ record, (change record).profile = record.profile) :
    profilesOf (records.modify number change) = profilesOf records := by
  funext k
  simp only [profilesOf, Table.get?_modify]
  split
  · simp [Option.map_map, Function.comp_def, h]
  · rfl

/-- To pass over a task leaves its profile. -/
theorem Record.profile_passedOver (record : Record H) :
    record.passedOver.profile = record.profile := by
  unfold Record.passedOver
  split <;> rfl

/-- A result that is recorded leaves the profile. -/
theorem Record.profile_recorded {zone : Zone} {now : Instant} {before after : Record H}
    {result : Except JobError Unit} (h : before.recorded zone now result = .ok after) :
    after.profile = before.profile := by
  obtain ⟨next, -, rfl⟩ := map_eq_ok_iff.1 h
  cases result <;> rfl

/-- A next run that is computed anew leaves the profile. -/
theorem Record.profile_refreshed {zone : Zone} {now : Instant} {before after : Record H}
    (h : before.refreshed zone now = .ok after) : after.profile = before.profile := by
  unfold Record.refreshed at h
  split at h
  · cases h
    rfl
  · obtain ⟨next, -, rfl⟩ := map_eq_ok_iff.1 h
    rfl

end Profiles

namespace State

variable {H : Type} {s s' : State H} {id : Nat} {run : Run}

/-- Records may be replaced by others with the same profiles. -/
theorem frame_withRecords (s : State H) {records : Table Nat (Record H)}
    (h : profilesOf records = profilesOf s.records) :
    { s with records := records }.frame = s.frame := by
  simp only [frame, h]

/-- Calls are no part of the frame. -/
@[simp] theorem frame_setCall (s : State H) (id : Nat) (call : Call) :
    (s.setCall id call).frame = s.frame := rfl

@[simp] theorem frame_reply (s : State H) (id : Nat) (reply : Reply) :
    (s.reply id reply).frame = s.frame := rfl

/-- The phases of runs are no part of the frame, and neither is the pool. -/
@[simp] theorem frame_setPhase (s : State H) (id : Nat) (phase : Phase) :
    (s.setPhase id phase).frame = s.frame := rfl

@[simp] theorem frame_dequeue (s : State H) (id : Nat) : (s.dequeue id).frame = s.frame := rfl

/-- An entry that is no mark leaves the frame. -/
@[simp] theorem frame_note (s : State H) {entry : Entry} (h : entry.isMark = false) :
    (s.note entry).frame = s.frame := by
  simp [frame, note, h]

/-- A mark is added to the marks. -/
theorem frame_note_of_isMark (s : State H) {entry : Entry} (h : entry.isMark = true) :
    (s.note entry).frame = { s.frame with marks := entry :: s.frame.marks } := by
  simp [frame, note, h]

/-- To wake the waiting stops leaves the frame. -/
@[simp] theorem frame_wakeStops (s : State H) : s.wakeStops.frame = s.frame := by
  unfold wakeStops
  split <;> rfl

/-- To drop a run that has an outcome leaves the frame. -/
@[simp] theorem frame_finish (s : State H) (id : Nat) (run : Run) (outcome : RunOutcome) :
    (s.finish id run outcome).frame = s.frame := by
  unfold finish
  cases run.owner with
  | dispatched => exact frame_wakeStops _
  | call call => rfl

/-- To leave a run leaves the frame. -/
@[simp] theorem frame_abandon (s : State H) (id : Nat) : (s.abandon id).frame = s.frame := by
  obtain ⟨_, _, he⟩ := s.abandon_eq id
  rw [he]
  rfl

/-- A call that breaks off leaves the frame. -/
@[simp] theorem frame_breakCall (s : State H) (call : Nat) (fault : Fault) :
    (s.breakCall call fault).frame = s.frame := by
  rw [breakCall_eq]
  rfl

/-- A run that breaks off leaves the frame. -/
@[simp] theorem frame_breakRun (s : State H) (id : Nat) (run : Run) (fault : Fault) :
    (s.breakRun id run fault).frame = s.frame := by
  unfold breakRun
  cases run.owner with
  | dispatched => simp
  | call call => exact frame_breakCall s call fault

/-- The end of a run leaves the frame, since its result is no part of a profile. -/
@[simp] theorem frame_conclude (s : State H) (id : Nat) (run : Run)
    (result : Except JobError Unit) : (s.conclude id run result).frame = s.frame := by
  rcases s.conclude_cases id run result with
    ⟨-, he⟩ | ⟨fault, -, he⟩ | ⟨before, now, after, hbefore, -, hafter, he⟩
  · rw [he]
  · rw [he]
    exact frame_breakRun s id run fault
  · have hprofiles := profilesOf_insert_of_eq hbefore (Record.profile_recorded hafter)
    rw [he]
    simp only [putDown, frame_finish]
    split <;> exact frame_withRecords s hprofiles

/-- A call of the handler leaves the frame. -/
@[simp] theorem frame_attempt (s : State H) (id : Nat) (run : Run) (token : Token)
    (deadline : Moment) (number : Nat) : (s.attempt id run token deadline number).frame = s.frame :=
  frame_withRecords s (profilesOf_modify_of_eq fun _ => rfl)

/-- A run that is launched leaves the frame, also if it breaks off. -/
@[simp] theorem frame_launch (s : State H) (id : Nat) (run : Run) (token : Token) :
    (s.launch id run token).frame = s.frame := by
  unfold launch
  split
  · exact frame_attempt s.takePermit id run token _ 0
  · simp

/-- A run that is accepted passes the guard. -/
theorem frame_accept (s : State H) (id : Nat) (run : Run) :
    (s.accept id run).frame = { s.frame with
      marks := .admitted id run.record run.trigger s.clock s.now :: s.frame.marks } := by
  have hprofiles : profilesOf (s.records.modify run.record fun record =>
      { record with status := .running }) = profilesOf s.records :=
        profilesOf_modify_of_eq fun _ => rfl
  have hmark : (Entry.admitted id run.record run.trigger s.clock s.now).isMark = true := rfl
  have hadmitted := frame_note_of_isMark { s with
    records := s.records.modify run.record fun record => { record with status := .running } } hmark
  rw [frame_withRecords s hprofiles] at hadmitted
  simp only [accept]
  split
  · rw [frame_launch]
    exact hadmitted
  · exact hadmitted

/-- The end of an attempt leaves the frame. -/
@[simp] theorem frame_endAttempt (s : State H) (id : Nat) (run : Run) (token : Token)
    (deadline : Moment) (number : Nat) (ending : Ending) :
    (s.endAttempt id run token deadline number ending).frame = s.frame := by
  simp only [endAttempt]
  split
  · rw [frame_conclude]
    rfl
  · split
    · rfl
    · rw [frame_conclude]
      rfl

/-- A run that is looked at for the first time is refused and dropped if its task is running
already, and passes the guard otherwise. -/
theorem frame_begin (id : Nat) {record : Record H}
    (hrecord : s.records.get? run.record = some record) :
    (record.status = .running ∧ (s.begin id run).runs = s.runs.erase id ∧
      (s.begin id run).frame = { s.frame with marks := .refused id run.record :: s.frame.marks }) ∨
    (record.status ≠ .running ∧ (s.begin id run).frame = { s.frame with
      marks := .admitted id run.record run.trigger s.clock s.now :: s.frame.marks }) := by
  simp only [begin, hrecord]
  split
  · next hrunning =>
    refine .inl
      ⟨hrunning, congrArg Ledger.runs (ledger_finish (s.note _) id run .alreadyRunning), ?_⟩
    rw [frame_finish]
    rfl
  · next hfree => exact .inr ⟨hfree, frame_accept s id run⟩

/-- The frames agree, except that more numbers are used in the second. -/
def KeepsFrame (s s' : State H) : Prop :=
  s.nextId ≤ s'.nextId ∧ s'.frame = { s.frame with nextId := s'.nextId }

/-- What leaves the frame keeps it. -/
theorem KeepsFrame.of_eq (h : s'.frame = s.frame) : KeepsFrame s s' := by
  have hnext : s'.nextId = s.nextId := congrArg Frame.nextId h
  refine ⟨Nat.le_of_eq hnext.symm, ?_⟩
  rw [h, hnext]
  rfl

/-- Two changes in a row keep the frame if each of them does. -/
theorem KeepsFrame.trans {s'' : State H} (h : KeepsFrame s s') (h' : KeepsFrame s' s'') :
    KeepsFrame s s'' :=
  ⟨Nat.le_trans h.1 h'.1, by rw [h'.2, h.2]⟩

/-- To spawn a run uses up a number. -/
theorem KeepsFrame.spawn (s : State H) (record : Nat) (trigger : Trigger) (owner : Owner) :
    KeepsFrame s (s.spawn record trigger owner) := ⟨Nat.le_succ _, rfl⟩

/-- To ask for tasks uses up a number for each run. -/
theorem KeepsFrame.askFor (call : Nat) (names : List String) (s : State H) :
    KeepsFrame s (s.askFor call names).1 := by
  induction names generalizing s with
  | nil => exact KeepsFrame.of_eq rfl
  | cons name names ih =>
    unfold State.askFor
    cases s.task? name with
    | none => exact ih s
    | some task => exact (KeepsFrame.spawn s _ _ _).trans (ih _)

/-- A trigger uses up numbers for its call and for its runs. -/
theorem KeepsFrame.trigger (s : State H) (names : List String) :
    KeepsFrame s (s.trigger names) := by
  have h := KeepsFrame.askFor s.nextId names { s with nextId := s.nextId + 1 }
  exact ⟨Nat.le_of_succ_le h.1, h.2⟩

/-- To dispatch runs uses up a number for each. -/
theorem KeepsFrame.dispatchAll (records : List Nat) (s : State H) :
    KeepsFrame s (s.dispatchAll records) := by
  unfold State.dispatchAll
  induction records generalizing s with
  | nil => exact KeepsFrame.of_eq rfl
  | cons record records ih => exact (KeepsFrame.spawn s _ _ _).trans (ih _)

/-- To compute next runs anew leaves the frame. -/
theorem frame_refreshEach (now : Instant) (numbers : List Nat) (s : State H) :
    (s.refreshEach now numbers).1.frame = s.frame := by
  induction numbers generalizing s with
  | nil => rfl
  | cons number numbers ih =>
    unfold refreshEach
    cases hbefore : s.records.get? number with
    | none => exact ih s
    | some before =>
      cases hafter : before.refreshed s.options.zone now with
      | error fault => simp only [hafter]
      | ok after =>
        simp only [hafter]
        rw [ih]
        exact frame_withRecords s
          (profilesOf_insert_of_eq hbefore (Record.profile_refreshed hafter))

/-- The catch-up pass uses up a number for each run. -/
theorem KeepsFrame.catchUp (s : State H) (call : Nat) : KeepsFrame s (s.catchUp call) := by
  have heach : ∀ (cutoff : Instant) (tasks : List (Nat × Record H)) (s : State H),
      KeepsFrame s (s.catchUpEach call cutoff tasks) := by
    intro cutoff tasks
    unfold catchUpEach
    induction tasks with
    | nil => exact fun s => KeepsFrame.of_eq rfl
    | cons task tasks ih =>
      intro s
      refine KeepsFrame.trans ?_ (ih (s.catchUpTask call cutoff task.1 task.2))
      unfold catchUpTask
      split
      · exact KeepsFrame.of_eq rfl
      · split
        · exact KeepsFrame.of_eq
            (frame_withRecords s (profilesOf_modify_of_eq Record.profile_passedOver))
        · exact KeepsFrame.spawn s _ _ _
  unfold State.catchUp
  split
  · exact KeepsFrame.of_eq rfl
  · exact heach _ s.tasks s

/-- A start that gets the lock keeps the frame, however far it comes. -/
theorem KeepsFrame.enterStart (s : State H) (call : Nat) : KeepsFrame s (s.enterStart call) := by
  simp only [State.enterStart]
  split
  · exact KeepsFrame.of_eq rfl
  · split
    · exact KeepsFrame.of_eq (frame_breakCall { s with lock := s.lock.take call } call _)
    · next now _ =>
      have hrefresh := frame_refreshEach now s.registry.values { s with lock := s.lock.take call }
      split
      · next s' fault he =>
        simp only [refreshAll] at he
        rw [he] at hrefresh
        exact KeepsFrame.of_eq ((frame_breakCall s' call fault).trans hrefresh)
      · next s' he =>
        simp only [refreshAll] at he
        rw [he] at hrefresh
        have hkeeps : KeepsFrame s s' := KeepsFrame.of_eq hrefresh
        exact hkeeps.trans (KeepsFrame.catchUp s' call)

/-- A stop that gets the lock leaves the frame. -/
@[simp] theorem frame_enterStop (s : State H) (call : Nat) :
    (s.enterStop call).frame = s.frame := by
  simp only [enterStop]
  split <;> rfl

/-- A stop whose loop has exited leaves the frame. -/
@[simp] theorem frame_drain (s : State H) (call : Nat) : (s.drain call).frame = s.frame := by
  simp only [drain, frame_setCall, frame_wakeStops]
  rfl

/-- A caller that hangs up leaves the frame. -/
@[simp] theorem frame_hangUp (s : State H) (call : Nat) : (s.hangUp call).frame = s.frame :=
  frame_breakCall { s with lock := { s.lock with waiting := s.lock.waiting.erase call } } call
    .hungUp

end State

/-- What one event may do to a frame. -/
inductive Frame.Change {H : Type} (f : Frame H) : Event H → Frame H → Prop
  /-- At most numbers are used up. -/
  | keep {event : Event H} (nextId : Nat) (h : f.nextId ≤ nextId) :
      Change f event { f with nextId := nextId }
  | register {spec : TaskSpec H} {clock : Except Fault Instant} {record : Record H}
      (h : Record.ofSpec f.options.zone clock spec = .ok record) :
      Change f (.request (.register spec)) { f with
        registry := f.registry.insert spec.id f.nextId
        profiles := fun k => if f.nextId = k then some record.profile else f.profiles k
        nextId := f.nextId + 1 }
  | remove (name : String) :
      Change f (.request (.remove name)) { f with registry := f.registry.erase name }
  | setEnabled {name : String} {number : Nat} (enabled : Bool)
      (h : f.registry.get? name = some number) :
      Change f (.request (.setEnabled name enabled)) { f with
        profiles := fun k => if number = k then
          (f.profiles k).map fun profile => { profile with enabled := enabled } else f.profiles k }
  | setClock (now : Instant) :
      Change f (.request (.setClock now)) { f with epoch := .ofNanos (now.folded - f.clock) }
  /-- A run passes the guard. -/
  | pass (id record : Nat) (trigger : Trigger) (now : Instant) :
      Change f (.step (.begin id)) { f with
        marks := .admitted id record trigger f.clock now :: f.marks }
  /-- A run is refused. -/
  | refuse (id record : Nat) :
      Change f (.step (.begin id)) { f with marks := .refused id record :: f.marks }
  | tick {id : Nat} {loop : TickLoop} (due : List Nat) (now : Instant) (nextId : Nat)
      (hloop : f.loops.get? id = some loop) (hdue : loop.nextTick.all (· ≤ f.clock) = true)
      (h : f.nextId ≤ nextId) :
      Change f (.step (.tick id)) { f with
        loops := f.loops.insert id { loop with nextTick := some (tickAfter
          f.options.tickInterval.nanos (loop.nextTick.getD f.clock) f.clock) }
        marks := .ticked id due f.clock now :: f.marks
        nextId := nextId }
  /-- A loop cannot read the clock. -/
  | breakLoop (id : Nat) : Change f (.step (.tick id)) { f with loops := f.loops.erase id }
  | leave (id : Nat) : Change f (.step (.leave id)) { f with loops := f.loops.erase id }
  | openLoop (call lifetime : Nat) :
      Change f (.step (.proceed call)) { f with
        loops := f.loops.insert f.nextId ⟨lifetime, none⟩
        nextId := f.nextId + 1 }
  | elapse (time : Moment) : Change f (.elapse time) { f with clock := f.clock + time }

namespace State

variable {H : Type} {s s' : State H}

/-- To keep the frame is one of the ways in which an event may change it. -/
theorem KeepsFrame.change (h : KeepsFrame s s') (event : Event H) :
    s.frame.Change event s'.frame := by
  rw [h.2]
  exact .keep _ h.1

theorem change_of_frame_eq (h : s'.frame = s.frame) (event : Event H) :
    s.frame.Change event s'.frame := (KeepsFrame.of_eq h).change event

/-- A task that is enabled or disabled says so in its profile. -/
theorem change_setEnabled {name : String} {number : Nat} (enabled : Bool)
    (h : s.registry.get? name = some number) :
    s.frame.Change (.request (.setEnabled name enabled)) { s with
      records := s.records.modify number fun record =>
        { record with enabled := enabled } }.frame := by
  have hprofiles : profilesOf (s.records.modify number fun record =>
      { record with enabled := enabled }) = fun k => if number = k then
        (profilesOf s.records k).map fun profile => { profile with enabled := enabled }
        else profilesOf s.records k := by
    funext k
    simp only [profilesOf, Table.get?_modify]
    split
    · simp only [Option.map_map]
      rfl
    · rfl
  simp only [frame, hprofiles]
  exact .setEnabled (f := s.frame) enabled h

/-- A tick is marked and moves the next tick of its loop, or ends a loop that cannot read the clock.
-/
theorem change_tick {id : Nat} {loop : TickLoop} (hloop : s.loops.get? id = some loop)
    (hdue : loop.nextTick.all (· ≤ s.clock) = true) :
    s.frame.Change (.step (.tick id)) (s.tick id loop).frame := by
  unfold State.tick
  cases s.reading with
  | error fault => exact .breakLoop id
  | ok now =>
    obtain ⟨hnext, hframe⟩ :=
      KeepsFrame.dispatchAll s.due (s.note (.ticked id s.due s.clock now))
    rw [frame_note_of_isMark s rfl] at hframe
    have hchange : s.frame.Change (.step (.tick id)) _ :=
      .tick (f := s.frame) s.due now _ hloop hdue hnext
    simp only [frame, Frame.mk.injEq] at hframe hchange ⊢
    simp only [hframe]
    exact hchange

/-- Each change of a scheduler changes its frame in one of these ways. -/
theorem Transition.change {event : Event H} (h : s.Transition event s') :
    s.frame.Change event s'.frame := by
  cases h with
  | refuse | answer | endStop => exact change_of_frame_eq rfl _
  | register h =>
    simp only [frame, note, profilesOf_insert]
    exact .register (f := s.frame) h
  | remove => exact .remove _
  | setEnabled enabled h => exact change_setEnabled enabled h
  | runNow => exact (KeepsFrame.spawn s _ _ _).change _
  | trigger names => exact (KeepsFrame.trigger s names).change _
  | start | stop => exact .keep _ (Nat.le_succ _)
  | setClock now => exact .setClock now
  | @begin id run hrun hphase =>
    cases hrecord : s.records.get? run.record with
    | none =>
      refine change_of_frame_eq ?_ _
      simp only [State.begin, hrecord]
    | some record =>
      rcases frame_begin id hrecord with ⟨-, -, hframe⟩ | ⟨-, hframe⟩
      · rw [hframe]
        exact .refuse id run.record
      · rw [hframe]
        exact .pass id run.record run.trigger s.now
  | cancel => exact change_of_frame_eq (by simp) _
  | acquire => exact change_of_frame_eq (by simp) _
  | endAttempt | retry | giveUp | revokeExecuting | revokeResting =>
    exact change_of_frame_eq (by simp) _
  | tick hloop hdue => exact change_tick hloop hdue
  | leave => exact .leave _
  | enterStart => exact (KeepsFrame.enterStart s _).change _
  | openLoop => exact .openLoop _ s.lifetime
  | enterStop | drain | hangUp => exact change_of_frame_eq (by simp) _
  | elapse time => exact .elapse time

end State

end CronDaemon.Scheduler
