import CronDaemon.Proofs.Scheduler.LoopHandle
import CronDaemon.Proofs.Scheduler.TaskMap

/-!
# Refused operations

An operation is refused before its first effect. A request that is answered at once and refused
leaves the state as it is, and of several causes the first one in the order of the checks is told. A
start that finds a loop handle stored, a stop that finds none and a trigger of ids that are not
registered come and go as calls that change nothing but themselves.
-/

namespace CronDaemon.Scheduler

open Job

theorem expression?_eq_some_iff {H : Type} {spec : TaskSpec H} {text : String} :
    expression? spec = some text ↔ spec.schedule = some text ∧ Text.isBlankText text = false := by
  simp [expression?, Option.filter_eq_some_iff]

/-- Why no record is made of a specification. The causes are listed in the order in which they are
looked for: each of them says that the ones before do not hold. -/
inductive Record.Defect {H : Type} (zone : Zone) (clock : Except Fault Instant)
    (spec : TaskSpec H) : SchedulerError → Prop
  | missingId (hid : Text.isBlankText spec.id = true) : Defect zone clock spec .missingId
  | missingHandler (hid : Text.isBlankText spec.id = false) (hhandler : spec.handler = none) :
      Defect zone clock spec (.missingHandler spec.id)
  | invalidSchedule {text : String} {cause : Cron.CronError}
      (hid : Text.isBlankText spec.id = false)
      (hhandler : spec.handler ≠ none) (htext : spec.schedule = some text)
      (hcounts : Text.isBlankText text = false) (hcause : Cron.Schedule.parse text = .error cause) :
      Defect zone clock spec (.invalidSchedule spec.id cause)
  /-- The first run cannot be computed. -/
  | broken {schedule : Option Cron.Schedule} {fault : Fault}
      (hid : Text.isBlankText spec.id = false) (hhandler : spec.handler ≠ none)
      (hschedule : (expression? spec).mapM Cron.Schedule.parse = .ok schedule)
      (hfault : Scheduler.nextRun zone schedule clock = .error fault) :
      Defect zone clock spec (.broken fault)

theorem Record.ofSpec_eq_error_iff {H : Type} {zone : Zone} {clock : Except Fault Instant}
    {spec : TaskSpec H} {error : SchedulerError} :
    Record.ofSpec zone clock spec = .error error ↔ Record.Defect zone clock spec error := by
  have hparse : ∀ cause, (expression? spec).mapM Cron.Schedule.parse = .error cause ↔
      ∃ text, (spec.schedule = some text ∧ Text.isBlankText text = false) ∧
        Cron.Schedule.parse text = .error cause := by
    intro cause
    simp only [← expression?_eq_some_iff]
    cases expression? spec with
    | none => exact ⟨nofun, nofun⟩
    | some text => cases h : Cron.Schedule.parse text <;> simp [h]
  constructor
  · intro h
    unfold Record.ofSpec at h
    split at h
    · next hid =>
      cases h
      exact .missingId hid
    next hid =>
    have hid := Bool.eq_false_iff.2 hid
    split at h
    · next hhandler =>
      cases h
      exact .missingHandler hid hhandler
    next handler hhandler =>
    have hhandler : spec.handler ≠ none := by simp [hhandler]
    split at h
    · next cause hcause =>
      cases h
      obtain ⟨text, ⟨htext, hcounts⟩, hcause⟩ := (hparse cause).1 hcause
      exact .invalidSchedule hid hhandler htext hcounts hcause
    next schedule hschedule =>
    split at h
    · next fault hfault =>
      cases h
      exact .broken hid hhandler hschedule hfault
    · cases h
  · intro h
    cases h with
    | missingId hid => simp [Record.ofSpec, hid]
    | missingHandler hid hhandler => simp [Record.ofSpec, hid, hhandler]
    | invalidSchedule hid hhandler htext hcounts hcause =>
      obtain ⟨handler, hhandler⟩ := Option.ne_none_iff_exists'.1 hhandler
      have hcause := (hparse _).2 ⟨_, ⟨htext, hcounts⟩, hcause⟩
      simp [Record.ofSpec, hid, hhandler, hcause]
    | broken hid hhandler hschedule hfault =>
      obtain ⟨handler, hhandler⟩ := Option.ne_none_iff_exists'.1 hhandler
      simp [Record.ofSpec, hid, hhandler, hschedule, hfault]

theorem Lock.isNext_iff {lock : Lock} {c : Nat} :
    lock.isNext c = true ↔ lock.holder = none ∧ lock.waiting.head? = some c := by
  simp [Lock.isNext]

/-- The parts of a call whose ids are all unknown have their outcomes at once. -/
theorem outcomes?_settled (results : List (Except SchedulerError RunOutcome)) :
    outcomes? (results.map Part.settled) = some results := by
  induction results with
  | nil => rfl
  | cons result results ih =>
    simp only [outcomes?, List.map_cons, List.mapM_cons] at ih ⊢
    rw [ih]
    rfl

/-- What a call is told does not change whether it has gone on. -/
theorem Call.Hears.isFresh_iff {dispatched : List Nat} {change : Call → Call}
    (h : Call.Hears dispatched change) (call : Call) : (change call).IsFresh ↔ call.IsFresh := by
  cases h with
  | nothing => exact Iff.rfl
  | woken | outcome => cases call <;> exact Iff.rfl

namespace State

variable {H : Type} {start s s' t t' : State H} {event : Event H} {events after : List (Event H)}
  {c : Nat} {request : Request H} {error : SchedulerError} {reply : Reply} {call : Call}

/-- Why a request is refused at once. -/
inductive Refuses (s : State H) : Request H → SchedulerError → Prop
  | register {spec : TaskSpec H} {error : SchedulerError}
      (h : Record.Defect s.options.zone s.reading spec error) : Refuses s (.register spec) error
  | remove {id : String} (h : s.registry.get? id = none) : Refuses s (.remove id) (.notFound id)
  | setEnabled {id : String} (enabled : Bool) (h : s.registry.get? id = none) :
      Refuses s (.setEnabled id enabled) (.notFound id)
  | runNow {id : String} (hasRuntime : Bool) (h : s.registry.get? id = none) :
      Refuses s (.runNow hasRuntime id) (.notFound id)
  | noRuntime {id : String} {number : Nat} (h : s.registry.get? id = some number) :
      Refuses s (.runNow false id) .noRuntime

/-- A reachable scheduler refuses a request that is answered at once exactly for these causes. -/
theorem Reachable.serve_eq_error_iff (hs : s.Reachable) :
    s.serve request = .error error ↔ s.Refuses request error := by
  constructor
  · intro h
    cases request with
    | register spec =>
      refine .register (Record.ofSpec_eq_error_iff.1 ?_)
      simp only [serve, State.register] at h
      split at h
      · next hspec =>
        cases h
        exact hspec
      · cases h
    | remove id =>
      simp only [serve, State.remove] at h
      split at h
      · next hid =>
        cases h
        exact .remove hid
      · cases h
    | setEnabled id enabled =>
      simp only [serve, State.setEnabled] at h
      split at h
      · next hid =>
        cases h
        exact .setEnabled enabled hid
      · cases h
    | runNow hasRuntime id =>
      cases hid : s.registry.get? id with
      | none =>
        simp only [serve, State.runNow, task?_eq_none hid] at h
        cases h
        exact .runNow hasRuntime hid
      | some number =>
        obtain ⟨record, htask, -⟩ := hs.exists_task hid
        simp only [serve, State.runNow, htask] at h
        cases hasRuntime with
        | false =>
          cases h
          exact .noRuntime hid
        | true => cases h
    | trigger | start | stop | setClock => cases h
  · intro h
    cases h with
    | register h => simp only [serve, State.register, Record.ofSpec_eq_error_iff.2 h]
    | remove h => simp only [serve, State.remove, h]
    | setEnabled _ h => simp only [serve, State.setEnabled, h]
    | runNow _ h => simp only [serve, State.runNow, task?_eq_none h]
    | noRuntime h =>
      obtain ⟨record, htask, -⟩ := hs.exists_task h
      simp only [serve, State.runNow, htask, Bool.false_eq_true, if_false]

/-- Nothing changes but a call, its place among those that wait for the lock and the next number. -/
structure ChangesOnlyCall (s : State H) (c : Nat) (s' : State H) : Prop where
  state : ∃ calls lock nextId, s' = { s with calls := calls, lock := lock, nextId := nextId }
  calls : ∀ k, k ≠ c → s'.calls.get? k = s.calls.get? k
  holder : s'.lock.holder = s.lock.holder
  waiting : s'.lock.waiting.filter (· ≠ c) = s.lock.waiting.filter (· ≠ c)

/-- The request opens the call, which has no effect yet. -/
inductive Opens (s : State H) : Request H → Call → Prop
  | trigger {ids : List String} (h : ∀ id ∈ ids, s.registry.get? id = none) :
      Opens s (.trigger ids) (.triggering ((ids.map fun id => .error (.notFound id)).map .settled))
  | start : Opens s .start .starting
  | stop : Opens s .stop .stopping

/-- Nothing is spawned for ids that are not registered. -/
theorem askFor_of_not_registered (call : Nat) {ids : List String}
    (h : ∀ id ∈ ids, s.registry.get? id = none) :
    s.askFor call ids = (s, (ids.map fun id => .error (.notFound id)).map .settled) := by
  induction ids with
  | nil => rfl
  | cons id ids ih =>
    have htask : s.task? id = none := task?_eq_none (h id List.mem_cons_self)
    have hrest := ih fun other hother => h other (List.mem_cons_of_mem id hother)
    simp only [askFor, htask, hrest, List.map_cons]

theorem trigger_of_not_registered {ids : List String} (h : ∀ id ∈ ids, s.registry.get? id = none) :
    s.trigger ids =
      s.openCall (.triggering ((ids.map fun id => .error (.notFound id)).map .settled)) := by
  have hasked := askFor_of_not_registered (s := { s with nextId := s.nextId + 1 }) s.nextId h
  simp only [trigger, hasked]
  rfl

theorem Opens.fires (h : s.Opens request call) : ∃ s', s.fire? (.request request) = some s' ∧
    s'.calls.get? s.nextId = some call ∧ s.ChangesOnlyCall s.nextId s' := by
  have hothers : ∀ k, k ≠ s.nextId → (s.calls.insert s.nextId call).get? k = s.calls.get? k := by
    intro k hne
    rw [Table.get?_insert, if_neg (Ne.symm hne)]
  have hcall : (s.calls.insert s.nextId call).get? s.nextId = some call := by
    rw [Table.get?_insert, if_pos rfl]
  cases h with
  | trigger h =>
    refine ⟨s.trigger _, rfl, ?_⟩
    rw [trigger_of_not_registered h]
    exact ⟨hcall, ⟨_, s.lock, _, rfl⟩, hothers, rfl, rfl⟩
  | start =>
    exact ⟨s.start, rfl, hcall, ⟨_, _, _, rfl⟩, hothers, rfl, by simp [State.start, openCall]⟩
  | stop => exact ⟨s.stop, rfl, hcall, ⟨_, _, _, rfl⟩, hothers, rfl, by simp [State.stop, openCall]⟩

/-- The call has its turn, finds that there is nothing for it to do, and is told so. -/
inductive Declines (s : State H) (c : Nat) : Reply → Prop
  | trigger {ids : List String} (hcall : s.calls.get? c =
        some (.triggering ((ids.map fun id => .error (.notFound id)).map .settled))) :
      Declines s c (.outcomes (ids.map fun id => .error (.notFound id)))
  | start {loop : Nat} (hcall : s.calls.get? c = some .starting)
      (hfirst : s.lock.waiting.head? = some c) (hhandle : s.handle = some loop) :
      Declines s c (.refused .alreadyRunning)
  | stop (hcall : s.calls.get? c = some .stopping) (hfirst : s.lock.waiting.head? = some c)
      (hfree : s.lock.holder = none) (hhandle : s.handle = none) : Declines s c .stopped

/-- Nobody holds the lock while a loop handle is stored. -/
theorem Reachable.holder_of_handle (hs : s.Reachable) {loop : Nat}
    (hhandle : s.handle = some loop) : s.lock.holder = none := by
  cases hholder : s.lock.holder with
  | none => rfl
  | some c =>
    have hvacant := hs.isSteered.vacant c (hs.heldByStart c hholder)
    rw [hhandle] at hvacant
    cases hvacant

/-- A call that gets the lock, frees it and returns changes only itself. -/
theorem changesOnlyCall_of_first (hfree : s.lock.holder = none)
    (hfirst : s.lock.waiting.head? = some c) :
    s.ChangesOnlyCall c ({ s with lock := (s.lock.take c).release }.reply c reply) := by
  refine ⟨⟨_, _, _, rfl⟩, fun k hne => ?_, hfree.symm, ?_⟩
  · exact (Table.get?_insert ..).trans (if_neg (Ne.symm hne))
  · obtain ⟨rest, hrest⟩ := List.head?_eq_some_iff.1 hfirst
    simp [State.reply, setCall, Lock.release, Lock.take, hrest]

theorem Declines.proceeds (hs : s.Reachable) (h : s.Declines c reply) :
    ∃ s', s.step? (.proceed c) = some s' ∧ s'.calls.get? c = some (.returned reply) ∧
      s.ChangesOnlyCall c s' := by
  have hreturned : ∀ calls : Table Nat Call,
      (calls.insert c (.returned reply)).get? c = some (.returned reply) := by
    intro calls
    rw [Table.get?_insert, if_pos rfl]
  cases h with
  | trigger hcall =>
    refine ⟨s.reply c _, ?_, hreturned _, ⟨⟨_, s.lock, s.nextId, rfl⟩, fun k hne => ?_, rfl, rfl⟩⟩
    · simp only [step?, proceed?, hcall, outcomes?_settled, Option.map_some]
    · exact (Table.get?_insert ..).trans (if_neg (Ne.symm hne))
  | start hcall hfirst hhandle =>
    have hfree := hs.holder_of_handle hhandle
    refine ⟨_, ?_, hreturned _, changesOnlyCall_of_first hfree hfirst⟩
    simp only [step?, proceed?, hcall, Lock.isNext_iff.2 ⟨hfree, hfirst⟩, if_true, enterStart,
      hhandle]
  | stop hcall hfirst hfree hhandle =>
    refine ⟨_, ?_, hreturned _, changesOnlyCall_of_first hfree hfirst⟩
    simp only [step?, proceed?, hcall, Lock.isNext_iff.2 ⟨hfree, hfirst⟩, if_true, enterStop,
      hhandle]

/-- The state after a call that has come and gone without any effect. -/
def answered (s : State H) (reply : Reply) : State H :=
  { s with calls := s.calls.insert s.nextId (.returned reply), nextId := s.nextId + 1 }

/-- The request is opened as a call, goes on at once and is answered. -/
inductive Answers (s : State H) : Request H → Reply → Prop
  | trigger {ids : List String} (h : ∀ id ∈ ids, s.registry.get? id = none) :
      Answers s (.trigger ids) (.outcomes (ids.map fun id => .error (.notFound id)))
  | start {loop : Nat} (hhandle : s.handle = some loop) (hline : s.lock.waiting = []) :
      Answers s .start (.refused .alreadyRunning)
  | stop (hhandle : s.handle = none) (hlock : s.lock = ⟨none, []⟩) : Answers s .stop .stopped

theorem Answers.replays (hs : s.Reachable) (h : s.Answers request reply) :
    s.replay? [.request request, .step (.proceed s.nextId)] = some (s.answered reply) := by
  have hcall : ∀ call, (s.calls.insert s.nextId call).get? s.nextId = some call := by
    intro call
    rw [Table.get?_insert, if_pos rfl]
  -- The only call in the line takes the lock and frees it, which leaves the lock as it was.
  have hline : s.lock = ⟨none, []⟩ →
      (Lock.take { s.lock with waiting := s.lock.waiting ++ [s.nextId] } s.nextId).release =
        s.lock ∧
      Lock.isNext { s.lock with waiting := s.lock.waiting ++ [s.nextId] } s.nextId = true := by
    intro hlock
    simp [hlock, Lock.take, Lock.release, Lock.isNext]
  rw [replay?_cons]
  cases h with
  | trigger h =>
    have hopened : s.fire? (.request (.trigger _)) = some (s.openCall _) :=
      congrArg some (trigger_of_not_registered h)
    rw [hopened, Option.bind_some, replay?_singleton_iff]
    simp only [State.fire?, step?, proceed?, openCall, hcall, outcomes?_settled, Option.map_some,
      State.reply, setCall, Table.insert_insert, answered]
  | start hhandle hwaiting =>
    have hlock : s.lock = ⟨none, []⟩ := by
      rw [← hs.holder_of_handle hhandle, ← hwaiting]
    obtain ⟨hsame, hnext⟩ := hline hlock
    have hopened : s.fire? (.request .start) = some s.start := rfl
    rw [hopened, Option.bind_some, replay?_singleton_iff]
    simp only [State.fire?, step?, proceed?, State.start, openCall, hcall, hnext, if_true,
      enterStart, hhandle, hsame, State.reply, setCall, Table.insert_insert, answered]
  | stop hhandle hlock =>
    obtain ⟨hsame, hnext⟩ := hline hlock
    have hopened : s.fire? (.request .stop) = some s.stop := rfl
    rw [hopened, Option.bind_some, replay?_singleton_iff]
    simp only [State.fire?, step?, proceed?, State.stop, openCall, hcall, hnext, if_true, enterStop,
      hhandle, hsame, State.reply, setCall, Table.insert_insert, answered]

/-- A call that takes a step of its own has gone on from where it was opened. -/
theorem Transition.not_isFresh_of_proceed (h : s.Transition (.step (.proceed c)) s') :
    ∃ call, s'.calls.get? c = some call ∧ ¬ call.IsFresh := by
  have hset : ∀ (calls : Table Nat Call) (call : Call), ¬ call.IsFresh →
      ∃ call', (calls.insert c call).get? c = some call' ∧ ¬ call'.IsFresh := by
    intro calls call hcall
    exact ⟨call, by rw [Table.get?_insert, if_pos rfl], hcall⟩
  cases h with
  | answer | openLoop | drain | endStop => exact hset _ _ id
  | enterStart =>
    rcases s.enterStart_cases c with he | ⟨records, journal, ⟨fault, he⟩ | he⟩ <;> rw [he]
    · exact hset _ _ id
    · rw [calls_breakCall]
      exact hset _ _ id
    · exact hset _ _ id
  | enterStop =>
    simp only [State.enterStop]
    split <;> exact hset _ _ id

/-- A call that is as it was opened has taken no step of its own. -/
theorem not_occurs_proceed_of_isFresh (hstart : start.Reachable) (h : start.replay? events = some s)
    (hfresh : ∀ call, s.calls.get? c = some call → call.IsFresh) :
    ¬ start.Occurs events (.step (.proceed c)) t t' after := by
  refine history_induction (motive := fun events s =>
    (∀ call, s.calls.get? c = some call → call.IsFresh) →
      ∀ t t' after, ¬ start.Occurs events (.step (.proceed c)) t t' after)
    (fun _ _ _ _ => not_occurs_nil) ?_ h hfresh t t' after
  intro before event u u' hu hfire ih hfresh t t' after hoccurs
  have htransition := transition_of_fire? hfire
  have hproceed : event ≠ .step (.proceed c) := by
    rintro rfl
    obtain ⟨call, hcall, hnot⟩ := htransition.not_isFresh_of_proceed
    exact hnot (hfresh call hcall)
  rcases hoccurs.snoc_cases hu hfire with ⟨rest, hearlier⟩ | ⟨he, -, -⟩
  · refine ih (fun call hcall => ?_) t t' rest hearlier
    rcases htransition.call_cases (hstart.replay? hu) hcall with he | ⟨change, hhears, hcalls⟩ |
      ⟨-, -, fault, hbroken⟩
    · exact absurd he hproceed
    · exact (hhears.isFresh_iff call).1 (hfresh _ hcalls)
    · exact (hfresh _ hbroken).elim
  · exact hproceed he.symm

/-- A start that is refused has found a handle at its first step, which changed nothing but the
call. -/
theorem Transition.changesOnlyCall_of_alreadyRunning (h : s.Transition (.step (.proceed c)) s')
    (hrefused : s'.calls.get? c = some (.returned (.refused .alreadyRunning))) :
    s.calls.get? c = some .starting ∧ s.ChangesOnlyCall c s' := by
  cases h with
  | enterStart hcall hnext =>
    obtain ⟨hfree, hfirst⟩ := Lock.isNext_iff.1 hnext
    rcases s.enterStart_cases c with he | ⟨records, journal, ⟨fault, he⟩ | he⟩
    · rw [he]
      exact ⟨hcall, changesOnlyCall_of_first hfree hfirst⟩
    · simp [he, calls_breakCall] at hrefused
    · simp [he, setCall] at hrefused
  | answer | openLoop | drain | endStop =>
    simp [State.openLoop, State.drain, State.endStop, State.reply, setCall] at hrefused
  | enterStop =>
    simp only [State.enterStop] at hrefused
    split at hrefused <;> simp [State.reply, setCall] at hrefused

/-- Whatever happened in between, no step of a start that is refused changed anything but the
call. -/
theorem changesOnlyCall_of_refused_start (hstart : start.Reachable)
    (h : start.replay? events = some s)
    (hrefused : s.calls.get? c = some (.returned (.refused .alreadyRunning)))
    (hoccurs : start.Occurs events (.step (.proceed c)) t t' after) : t.ChangesOnlyCall c t' := by
  refine history_induction (motive := fun events s =>
    s.calls.get? c = some (.returned (.refused .alreadyRunning)) →
      ∀ t t' after, start.Occurs events (.step (.proceed c)) t t' after → t.ChangesOnlyCall c t')
    (fun _ _ _ _ hoccurs => absurd hoccurs not_occurs_nil) ?_ h hrefused t t' after hoccurs
  intro before event u u' hu hfire ih hrefused t t' after hoccurs
  have htransition := transition_of_fire? hfire
  by_cases hevent : event = .step (.proceed c)
  · subst hevent
    obtain ⟨hcall, honly⟩ := htransition.changesOnlyCall_of_alreadyRunning hrefused
    rcases hoccurs.snoc_cases hu hfire with ⟨rest, hearlier⟩ | ⟨-, rfl, rfl⟩
    · refine absurd hearlier (not_occurs_proceed_of_isFresh hstart hu fun call hcall' => ?_)
      rw [hcall] at hcall'
      cases hcall'
      trivial
    · exact honly
  · rcases hoccurs.snoc_cases hu hfire with ⟨rest, hearlier⟩ | ⟨he, -, -⟩
    · rcases htransition.returned_cases (hstart.replay? hu) hrefused with he | hbefore | ⟨fault, he⟩
      · exact absurd he hevent
      · exact ih hbefore t t' rest hearlier
      · cases he
    · exact absurd he.symm hevent

/-- A refused operation has no effect. A request that is answered at once is refused exactly with
the first cause in the order of the checks, and leaves the state as it is. A trigger of ids that are
not registered, a start while a loop handle is stored and a stop while none is stored are answered
in two steps that leave nothing but the call behind. Where other events come in between, the call is
opened and answered all the same, as soon as it has its turn, and changes nothing but itself; a
start that was refused has never changed more. -/
theorem refusals_change_nothing {options : Options} {now : Instant}
    (hcreate : create? options now = some start) (hreplay : start.replay? events = some s) :
    (∀ request error, s.serve request = .error error ↔ s.Refuses request error) ∧
    (∀ request error, s.Refuses request error → s.fire? (.request request) = some s) ∧
    (∀ request reply, s.Answers request reply →
      s.replay? [.request request, .step (.proceed s.nextId)] = some (s.answered reply)) ∧
    (∀ request call, s.Opens request call → ∃ s', s.fire? (.request request) = some s' ∧
      s'.calls.get? s.nextId = some call ∧ s.ChangesOnlyCall s.nextId s') ∧
    (∀ c reply, s.Declines c reply → ∃ s', s.step? (.proceed c) = some s' ∧
      s'.calls.get? c = some (.returned reply) ∧ s.ChangesOnlyCall c s') ∧
    (∀ c, s.calls.get? c = some (.returned (.refused .alreadyRunning)) → ∀ t t' after,
      start.Occurs events (.step (.proceed c)) t t' after → t.ChangesOnlyCall c t') := by
  have hstart : start.Reachable := .of_create? hcreate
  have hs : s.Reachable := hstart.replay? hreplay
  refine ⟨fun request error => hs.serve_eq_error_iff, fun request error hrefuses => ?_,
    fun request reply => Answers.replays hs, fun request call => Opens.fires,
    fun c reply => Declines.proceeds hs,
    fun c hrefused t t' after => changesOnlyCall_of_refused_start hstart hreplay hrefused⟩
  simp only [State.fire?, hs.serve_eq_error_iff.2 hrefuses]

/-- A scheduler is started while a run of its task executes. -/
def startedWhileExecuting : List (Event Unit) :=
  [.request (.register (.new "backup" ())), .request (.runNow true "backup"), .step (.begin 1),
    .request .start, .step (.proceed 2), .step (.proceed 2)]

/-- After `startedWhileExecuting` a registration of the running task with a bad schedule leaves the
state as it is, and a second start leaves nothing but its refusal. -/
theorem refusals_change_nothing_of_startedWhileExecuting :
    ∃ start s, create? Options.standard someMorning = some start ∧
      start.replay? startedWhileExecuting = some s ∧ s.nextId = 4 ∧ s.handle = some 3 ∧
      (s.task? "backup").map (·.2.status) = some .running ∧
      s.serve (.register { TaskSpec.new "backup" () with schedule := some "hourly" }) =
        .error (.invalidSchedule "backup" (.fieldCount 1)) ∧
      s.fire? (.request (.register { TaskSpec.new "backup" () with schedule := some "hourly" })) =
        some s ∧
      s.replay? [.request .start, .step (.proceed 4)] =
        some (s.answered (.refused .alreadyRunning)) := by
  have hcreate : create? Options.standard someMorning =
      some (initial Options.standard someMorning : State Unit) := rfl
  obtain ⟨s, hs⟩ : ∃ s, (initial Options.standard someMorning).replay? startedWhileExecuting =
    some s := Option.isSome_iff_exists.1 (by decide)
  have hfacts : ((initial Options.standard someMorning).replay? startedWhileExecuting).map
      (fun s => (s.nextId, s.handle, s.lock.waiting, (s.task? "backup").map (·.2.status))) =
        some (4, some 3, [], some .running) := by decide
  rw [hs, Option.map_some, Option.some.injEq, Prod.mk.injEq, Prod.mk.injEq, Prod.mk.injEq] at hfacts
  obtain ⟨hnext, hhandle, hwaiting, hrunning⟩ := hfacts
  have hdefect : Record.Defect s.options.zone s.reading
      { TaskSpec.new "backup" () with schedule := some "hourly" }
      (.invalidSchedule "backup" (.fieldCount 1)) :=
    .invalidSchedule (by decide) (by simp [TaskSpec.new]) rfl (by decide) (by decide)
  obtain ⟨hserve, hfire, hanswer, -⟩ := refusals_change_nothing hcreate hs
  have hagain := hanswer .start _ (.start hhandle hwaiting)
  rw [hnext] at hagain
  exact ⟨_, s, hcreate, hs, hnext, hhandle, hrunning, (hserve _ _).2 (.register hdefect),
    hfire _ _ (.register hdefect), hagain⟩

end State

end CronDaemon.Scheduler
