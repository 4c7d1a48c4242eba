import CronDaemon.Proofs.Scheduler.Awaiting
import CronDaemon.Proofs.Scheduler.Transition

/-!
# What an event does to other runs and records

An event goes on with at most one run, and every other one stays as it is, save that a run goes or
breaks off together with the call that waits for it. A dispatched run belongs to no call, so that
nothing but its own events can end it, and a run of a call lasts as long as the call does not break
off. A run touches no record but its own; besides, a record changes only with a request that enables
or disables its task, and with a start that gets the lock.
-/

namespace CronDaemon.Scheduler

open Job

/-- What becomes of a run that a change is not about: it may go or break off, if its owner does. -/
inductive Run.Left (breaks : Owner → Prop) : Option Run → Option Run → Prop
  | same (run : Option Run) : Left breaks run run
  | gone {run : Run} (howner : breaks run.owner) : Left breaks (some run) none
  | stranded {run : Run} (howner : breaks run.owner) :
      Left breaks (some run) (some { run with phase := .stranded })

/-- A run that is left by two changes in a row is left by both together. -/
theorem Run.Left.trans {breaks : Owner → Prop} {run run' run'' : Option Run}
    (h : Run.Left breaks run run')
    (h' : Run.Left breaks run' run'') : Run.Left breaks run run'' := by
  cases h with
  | same => exact h'
  | gone howner =>
    cases h' with
    | same => exact .gone howner
  | stranded howner =>
    cases h' with
    | same | stranded => exact .stranded howner
    | gone => exact .gone howner

/-- The run that an event goes on with. -/
def Event.run? {H : Type} : Event H → Option Nat
  | .step (.begin id) | .step (.acquire id) | .step (.endAttempt id _) | .step (.retry id)
  | .step (.giveUp id) | .step (.revoke id _) => some id
  | .step (.tick _) | .step (.leave _) | .step (.proceed _) | .request _ | .hangUp _
  | .elapse _ => none

namespace State

variable {H : Type} {s s' s'' : State H} {id k : Nat} {run run' other : Run} {event : Event H}

/-- The state after a run has passed the guard, before it gets a permit or waits for one. -/
def letPass (s : State H) (id : Nat) (run : Run) : State H :=
  { s with
    records := s.records.modify run.record fun record => { record with status := .running } }.note
      (.admitted id run.record run.trigger s.clock s.now)

/-- A run that is accepted while a permit is to spare is launched. -/
theorem accept_of_spare (h : s.hasSparePermit = true) :
    s.accept id run = (s.letPass id run).launch id run ⟨s.lifetime, false⟩ := if_pos h

/-- A run that is accepted while none is to spare waits for one. -/
theorem accept_of_not_spare (h : s.hasSparePermit = false) :
    s.accept id run = ((s.letPass id run).setPhase id (.queued ⟨s.lifetime, false⟩)).enqueue id :=
  if_neg (Bool.eq_false_iff.1 h)

/-- A run that is looked at for the first time is refused and dropped if its task is running
already, and is accepted otherwise. -/
theorem begin_cases (s : State H) (id : Nat) (run : Run) :
    s.begin id run = s ∨
      s.begin id run = (s.note (.refused id run.record)).finish id run .alreadyRunning ∨
      s.begin id run = s.accept id run := by
  unfold State.begin
  split
  · exact .inl rfl
  · split
    · exact .inr (.inl rfl)
    · exact .inr (.inr rfl)

/-- A run that is put into a phase is in it. -/
theorem get?_runs_setPhase (hrun : s.runs.get? id = some run) (phase : Phase)
    (h : s'.runs = (s.setPhase id phase).runs) :
    s'.runs.get? id = some { run with phase := phase } := by
  rw [h, setPhase, Table.get?_modify, if_pos rfl, hrun, Option.map_some]

/-- A call that breaks off changes no run but its own. -/
theorem runs_breakCall (s : State H) (call : Nat) (fault : Fault) :
    (s.breakCall call fault).runs = (s.abandonAll call s.runs.entries).runs := by
  rw [breakCall_eq]

/-- A dispatched run that breaks off changes no other. -/
theorem runs_breakRun_of_dispatched (s : State H) (k : Nat) (howner : run.owner = .dispatched)
    (fault : Fault) : (s.breakRun k run fault).runs = (s.abandon k).runs := by
  simp only [State.breakRun, howner]
  exact congrArg Ledger.runs (ledger_wakeStops _)

/-- The owner is a call that has broken off. -/
def Breaks (s : State H) (owner : Owner) : Prop :=
  ∃ call fault, owner = .call call ∧ s.calls.get? call = some (.returned (.refused (.broken fault)))

/-- A change is not about the run with this number, which may go or break off only with its
owner. -/
def Leaves (breaks : Owner → Prop) (s s' : State H) (id : Nat) : Prop :=
  Run.Left breaks (s.runs.get? id) (s'.runs.get? id)

variable {breaks : Owner → Prop}

/-- A change that leaves all runs leaves each of them. -/
theorem Leaves.of_eq (h : s'.runs = s.runs) : Leaves breaks s s' id := by
  rw [Leaves, h]
  exact .same _

/-- Two changes in a row leave a run if each of them does. -/
theorem Leaves.trans (h : Leaves breaks s s' id) (h' : Leaves breaks s' s'' id) :
    Leaves breaks s s'' id :=
  Run.Left.trans h h'

/-- The runs before a change are all it needs of the state before. -/
theorem Leaves.of_runs_eq (h : Leaves breaks s' s'' id) (hruns : s'.runs = s.runs) :
    Leaves breaks s s'' id :=
  (Leaves.of_eq hruns).trans h

/-- A run that is left belongs to the same owner. -/
theorem Leaves.owner (h : Leaves breaks s s' id) (hrun' : s'.runs.get? id = some run') :
    ∃ run, s.runs.get? id = some run ∧ run'.owner = run.owner := by
  rw [Leaves, hrun'] at h
  cases hrun : s.runs.get? id with
  | none =>
    rw [hrun] at h
    cases h
  | some run =>
    rw [hrun] at h
    cases h with
    | same | stranded => exact ⟨_, rfl, rfl⟩

/-- A run that is left stays as it is as long as its owner does not break off. -/
theorem Leaves.eq_of_not_breaks (h : Leaves breaks s s' id) (hrun : s.runs.get? id = some run)
    (hnot : ¬ breaks run.owner) : s'.runs.get? id = some run := by
  rw [Leaves, hrun] at h
  generalize s'.runs.get? id = run' at h
  cases h with
  | same => rfl
  | gone hbreaks | stranded hbreaks => exact absurd hbreaks hnot

/-- A dispatched run has no owner that could break off. -/
theorem not_breaks_dispatched (s : State H) : ¬ s.Breaks .dispatched := by
  rintro ⟨call, fault, howner, -⟩
  cases howner

/-- To put a run into a phase leaves every other. -/
theorem Leaves.setPhase (s : State H) (hne : k ≠ id) (phase : Phase)
    (h : s'.runs = (s.setPhase k phase).runs) : Leaves breaks s s' id := by
  rw [Leaves, h, State.setPhase, Table.get?_modify, if_neg hne]
  exact .same _

/-- To drop a run leaves every other. -/
theorem Leaves.erase (hne : k ≠ id) (h : s'.runs = s.runs.erase k) : Leaves breaks s s' id := by
  rw [Leaves, h, Table.get?_erase, if_neg hne]
  exact .same _

/-- To add runs leaves those that are there. -/
theorem Leaves.adds {kind : Nat → Run → Prop} (h : Adds kind s s') (hlt : id < s.nextId) :
    Leaves breaks s s' id := by
  rw [Leaves, h.old id hlt]
  exact .same _

/-- A run that is abandoned stays, goes or breaks off. -/
theorem runs_abandon_cases (s : State H) (k : Nat) :
    (s.abandon k).runs = s.runs ∨ (s.abandon k).runs = s.runs.erase k ∨
      (s.abandon k).runs = (s.setPhase k .stranded).runs := by
  unfold State.abandon
  cases s.runs.get? k with
  | none => exact .inl rfl
  | some run =>
    obtain ⟨record, trigger, owner, phase⟩ := run
    cases phase with
    | spawned => exact .inr (.inl rfl)
    | queued | executing | resting => exact .inr (.inr rfl)
    | stranded => exact .inl rfl

/-- To abandon a run is not about any other, and it takes no more from a run than this may lose with
its owner anyway. -/
theorem Leaves.abandon (s : State H) (k : Nat)
    (h : ∀ run, s.runs.get? id = some run → k = id → breaks run.owner) :
    Leaves breaks s (s.abandon k) id := by
  by_cases he : k = id
  · subst he
    cases hrun : s.runs.get? k with
    | none =>
      refine Leaves.of_eq ?_
      simp only [State.abandon, hrun]
    | some run =>
      have howner : breaks run.owner := h run hrun rfl
      rcases s.runs_abandon_cases k with hruns | hruns | hruns
      · exact Leaves.of_eq hruns
      · rw [Leaves, hruns, Table.get?_erase, if_pos rfl, hrun]
        exact .gone howner
      · rw [Leaves, get?_runs_setPhase hrun .stranded hruns, hrun]
        exact .stranded howner
  · rcases s.runs_abandon_cases k with hruns | hruns | hruns
    · exact Leaves.of_eq hruns
    · exact Leaves.erase he hruns
    · exact Leaves.setPhase s he .stranded hruns

/-- Only runs of the call are abandoned with it. -/
theorem Leaves.abandonAll {call : Nat} (hbreaks : breaks (.call call)) (entries : List (Nat × Run))
    (s : State H) (h : ∀ e ∈ entries, ∀ run, s.runs.get? e.1 = some run → run.owner = e.2.owner) :
    Leaves breaks s (s.abandonAll call entries) id := by
  unfold State.abandonAll
  induction entries generalizing s with
  | nil => exact Leaves.of_eq rfl
  | cons e entries ih =>
    rw [List.foldl_cons]
    split
    · next howner =>
      have hleaves : ∀ i, Leaves breaks s (s.abandon e.1) i := by
        intro i
        refine Leaves.abandon s e.1 fun run hrun he => ?_
        rwa [h e List.mem_cons_self run (he ▸ hrun), howner]
      refine (hleaves id).trans (ih _ fun e' he' run' hrun' => ?_)
      obtain ⟨run, hrun, hsame⟩ := (hleaves e'.1).owner hrun'
      exact hsame.trans (h e' (List.mem_cons_of_mem _ he') run hrun)
    · exact ih s fun e' he' => h e' (List.mem_cons_of_mem _ he')

/-- A call that breaks off is an owner that has broken off. -/
theorem breaks_breakCall (s : State H) (call : Nat) (fault : Fault) :
    (s.breakCall call fault).Breaks (.call call) :=
  ⟨call, fault, rfl, by rw [calls_breakCall, Table.get?_insert, if_pos rfl]⟩

/-- A call that breaks off leaves every run, which may go or break off only if it belongs to the
call. -/
theorem Leaves.breakCall {call : Nat} (hbreaks : breaks (.call call)) (s : State H)
    (fault : Fault) : Leaves breaks s (s.breakCall call fault) id := by
  rw [Leaves, runs_breakCall]
  refine Leaves.abandonAll hbreaks s.runs.entries s fun e he run hrun => ?_
  rw [Table.mem_entries_iff (k := e.1) (v := e.2)] at he
  rw [hrun] at he
  cases he
  rfl

/-- A run that breaks off leaves every other, as far as its call does not break off with it. -/
theorem Leaves.breakRun (s : State H) (hne : k ≠ id) (fault : Fault) :
    Leaves (s.breakRun k other fault).Breaks s (s.breakRun k other fault) id := by
  cases howner : other.owner with
  | dispatched =>
    have hleaves : Leaves (s.breakRun k other fault).Breaks s (s.abandon k) id :=
      Leaves.abandon s k fun _ _ he => absurd he hne
    exact hleaves.trans (Leaves.of_eq (runs_breakRun_of_dispatched s k howner fault))
  | call call =>
    simp only [State.breakRun, howner]
    exact Leaves.breakCall (s.breaks_breakCall call fault) s fault

/-- A run that is dropped with its outcome leaves every other. -/
theorem Leaves.finish (s : State H) (hne : k ≠ id) (outcome : RunOutcome) :
    Leaves breaks s (s.finish k other outcome) id :=
  Leaves.erase hne (congrArg Ledger.runs (ledger_finish s k other outcome))

/-- A run that ends leaves every other, as far as no call breaks off. -/
theorem Leaves.conclude (s : State H) (hne : k ≠ id) (result : Except JobError Unit) :
    Leaves (s.conclude k other result).Breaks s (s.conclude k other result) id := by
  rcases s.conclude_cases k other result with
    ⟨-, he⟩ | ⟨fault, -, he⟩ | ⟨_, now, after, -, -, -, he⟩
  · rw [he]
    exact Leaves.of_eq rfl
  · rw [he]
    exact Leaves.breakRun s hne fault
  · rw [he]
    exact Leaves.erase hne (congrArg Ledger.runs (ledger_putDown s k other result now after))

/-- A run that is launched leaves every other, as far as no call breaks off. -/
theorem Leaves.launch (s : State H) (hne : k ≠ id) (token : Token) :
    Leaves (s.launch k other token).Breaks s (s.launch k other token) id := by
  unfold State.launch
  split
  · exact Leaves.setPhase s hne _ rfl
  · exact (Leaves.setPhase s hne (.queued token) rfl).trans (Leaves.breakRun _ hne _)

/-- The first look at a run leaves every other, as far as no call breaks off. -/
theorem Leaves.begin (s : State H) (hne : k ≠ id) :
    Leaves (s.begin k other).Breaks s (s.begin k other) id := by
  rcases begin_cases s k other with h | h | h <;> rw [h]
  · exact Leaves.of_eq rfl
  · exact (Leaves.finish _ hne _).of_runs_eq rfl
  · cases hspare : s.hasSparePermit with
    | true =>
      rw [accept_of_spare hspare]
      exact (Leaves.launch (s.letPass k other) hne _).of_runs_eq rfl
    | false =>
      rw [accept_of_not_spare hspare]
      exact Leaves.setPhase s hne _ rfl

/-- The end of an attempt leaves every other run, as far as no call breaks off. -/
theorem Leaves.endAttempt (s : State H) (hne : k ≠ id) (token : Token) (deadline : Moment)
    (number : Nat) (ending : Ending) :
    Leaves (s.endAttempt k other token deadline number ending).Breaks s
      (s.endAttempt k other token deadline number ending) id := by
  simp only [State.endAttempt]
  split
  · exact (Leaves.conclude _ hne _).of_runs_eq rfl
  · split
    · exact Leaves.setPhase s hne _ rfl
    · exact (Leaves.conclude _ hne _).of_runs_eq rfl

/-- A start that gets the lock leaves every run that is there, as far as it does not break off. -/
theorem Leaves.enterStart (s : State H) (call : Nat) (hlt : id < s.nextId) :
    Leaves (s.enterStart call).Breaks s (s.enterStart call) id := by
  rcases s.enterStart_cases call with he | ⟨records, journal, ⟨fault, he⟩ | he⟩
  · rw [he]
    exact Leaves.of_eq rfl
  · rw [he]
    exact (Leaves.breakCall (breaks_breakCall _ call fault) _ fault).of_runs_eq rfl
  · have hadds := adds_catchUp { s with
      lock := s.lock.take call, records := records, journal := journal } call
    rw [he]
    exact ((Leaves.adds hadds hlt).trans (Leaves.of_eq rfl)).of_runs_eq rfl

/-- An event leaves every run that it does not go on with, unless it makes the owner of the run
break off. -/
theorem Transition.leaves (h : s.Transition event s') (hlt : id < s.nextId)
    (hne : event.run? ≠ some id) : Leaves s'.Breaks s s' id := by
  -- What goes on with a run goes on with another one.
  have hother : ∀ {k}, event.run? = some k → k ≠ id := fun hk he => hne (he ▸ hk)
  cases h with
  | refuse | register | remove | setEnabled | start | stop | setClock | leave | answer | openLoop
  | endStop | elapse => exact Leaves.of_eq rfl
  | @runNow _ number =>
    have hadds : Adds (fun _ _ => True) s (s.spawn number .manual .dispatched) := Adds.spawn trivial
    exact Leaves.adds hadds hlt
  | trigger names =>
    have hadds := adds_askFor s.nextId names { s with nextId := s.nextId + 1 }
    exact ((Leaves.adds hadds (Nat.lt_succ_of_lt hlt)).trans (Leaves.of_eq rfl)).of_runs_eq rfl
  | begin => exact Leaves.begin s (hother rfl)
  | cancel => exact (Leaves.conclude _ (hother rfl) _).of_runs_eq rfl
  | acquire => exact (Leaves.launch _ (hother rfl) _).of_runs_eq rfl
  | endAttempt => exact Leaves.endAttempt s (hother rfl) _ _ _ _
  | giveUp => exact Leaves.conclude s (hother rfl) _
  | retry | revokeExecuting | revokeResting => exact Leaves.setPhase s (hother rfl) _ rfl
  | @tick loop =>
    unfold State.tick
    split
    · exact Leaves.of_eq rfl
    · next now _ =>
      have hadds := adds_dispatchAll s.due (s.note (.ticked loop s.due s.clock now))
      exact ((Leaves.adds hadds hlt).trans (Leaves.of_eq rfl)).of_runs_eq rfl
  | enterStart => exact Leaves.enterStart s _ hlt
  | enterStop =>
    simp only [State.enterStop]
    split <;> exact Leaves.of_eq rfl
  | drain => exact Leaves.of_eq (congrArg Ledger.runs (ledger_wakeStops _))
  | hangUp => exact (Leaves.breakCall (breaks_breakCall _ _ .hungUp) _ .hungUp).of_runs_eq rfl

/-- A change leaves all records but one as they are. -/
def EditsOnly (number : Nat) (s s' : State H) : Prop :=
  ∀ other, other ≠ number → s'.records.get? other = s.records.get? other

variable {number : Nat}

/-- A change that leaves the records edits none. -/
theorem EditsOnly.of_eq (h : s'.records = s.records) : EditsOnly number s s' := by
  intro other _
  rw [h]

/-- Two changes in a row edit one record if each of them edits no other. -/
theorem EditsOnly.trans (h : EditsOnly number s s') (h' : EditsOnly number s' s'') :
    EditsOnly number s s'' :=
  fun other hne => (h' other hne).trans (h other hne)

/-- To put in a record edits no other. -/
theorem EditsOnly.insert {record : Record H} (h : s'.records = s.records.insert number record) :
    EditsOnly number s s' := by
  intro other hne
  rw [h, Table.get?_insert, if_neg (Ne.symm hne)]

/-- To change a record edits no other. -/
theorem EditsOnly.modify (change : Record H → Record H)
    (h : s'.records = s.records.modify number change) : EditsOnly number s s' := by
  intro other hne
  rw [h, Table.get?_modify, if_neg (Ne.symm hne)]

/-- A run that breaks off leaves its record as it is. -/
theorem records_breakRun (s : State H) (id : Nat) (run : Run) (fault : Fault) :
    (s.breakRun id run fault).records = s.records := by
  cases howner : run.owner with
  | dispatched =>
    obtain ⟨_, _, he⟩ := s.abandon_eq id
    simp only [State.breakRun, howner, he]
    exact congrArg Ledger.records (ledger_wakeStops _)
  | call call => simp only [State.breakRun, howner, breakCall_eq]

/-- A run that ends edits only its own record. -/
theorem EditsOnly.conclude (s : State H) (id : Nat) (run : Run) (result : Except JobError Unit) :
    EditsOnly run.record s (s.conclude id run result) := by
  rcases s.conclude_cases id run result with ⟨-, he⟩ | ⟨fault, -, he⟩ | ⟨_, now, after, -, -, -, he⟩
  · rw [he]
    exact .of_eq rfl
  · rw [he]
    exact .of_eq (s.records_breakRun id run fault)
  · rw [he]
    exact .insert (congrArg Ledger.records (ledger_putDown s id run result now after))

/-- A run that is launched edits only its own record. -/
theorem EditsOnly.launch (s : State H) (id : Nat) (run : Run) (token : Token) :
    EditsOnly run.record s (s.launch id run token) := by
  unfold State.launch
  split
  · exact .modify (fun record => { record with calls := record.calls + 1 }) rfl
  · exact .of_eq (records_breakRun _ id run _)

/-- The first look at a run edits only its own record. -/
theorem EditsOnly.begin (s : State H) (id : Nat) (run : Run) :
    EditsOnly run.record s (s.begin id run) := by
  rcases begin_cases s id run with h | h | h <;> rw [h]
  · exact .of_eq rfl
  · exact .of_eq (congrArg Ledger.records (ledger_finish (s.note _) id run _))
  · have hpassed : EditsOnly run.record s (s.letPass id run) :=
      .modify (fun record => { record with status := .running }) rfl
    cases hspare : s.hasSparePermit with
    | true =>
      rw [accept_of_spare hspare]
      exact hpassed.trans (EditsOnly.launch _ id run _)
    | false =>
      rw [accept_of_not_spare hspare]
      exact hpassed.trans (.of_eq rfl)

/-- The end of an attempt edits only the record of its run. -/
theorem EditsOnly.endAttempt (s : State H) (id : Nat) (run : Run) (token : Token)
    (deadline : Moment) (attempt : Nat) (ending : Ending) :
    EditsOnly run.record s (s.endAttempt id run token deadline attempt ending) := by
  simp only [State.endAttempt]
  split
  · exact EditsOnly.conclude (s.note _) id run _
  · split
    · exact .of_eq rfl
    · exact EditsOnly.conclude (s.note _) id run _

/-- The event may change the record: it goes on with a run of it, enables or disables its task, or
lets a start get the lock. -/
inductive Touches (s : State H) (number : Nat) : Event H → Prop
  | run {event : Event H} {id : Nat} {run : Run} (hevent : event.run? = some id)
      (hrun : s.runs.get? id = some run) (hlive : run.phase ≠ .stranded)
      (hrecord : run.record = number) : Touches s number event
  | enabled {name : String} (enabled : Bool) (hname : s.registry.get? name = some number) :
      Touches s number (.request (.setEnabled name enabled))
  | start {call : Nat} (hfree : s.lock.holder = none) : Touches s number (.step (.proceed call))

/-- Every other event leaves the record as it is. -/
theorem Transition.record_of_not_touches (h : s.Transition event s') (hlt : number < s.nextId)
    (hnot : ¬ s.Touches number event) : s'.records.get? number = s.records.get? number := by
  have hother : ∀ {id run}, event.run? = some id → s.runs.get? id = some run →
      run.phase ≠ .stranded →
      number ≠ run.record := fun hevent hrun hlive he => hnot (.run hevent hrun hlive he.symm)
  cases h with
  | refuse | remove | runNow | start | stop | setClock | leave | answer | openLoop | endStop
  | revokeExecuting | revokeResting | elapse => rfl
  | register => exact EditsOnly.insert rfl number (Nat.ne_of_lt hlt)
  | @setEnabled name k enabled hk =>
    refine EditsOnly.modify (fun record => { record with enabled := enabled }) rfl number fun he =>
      ?_
    exact hnot (he ▸ .enabled enabled hk)
  | trigger names =>
    obtain ⟨_, _, he⟩ := askFor_eq s.nextId names { s with nextId := s.nextId + 1 }
    simp only [State.trigger, State.setCall, he]
  | begin hrun hphase =>
    exact EditsOnly.begin s _ _ number (hother rfl hrun (by rw [hphase]; simp))
  | cancel hrun hphase =>
    exact EditsOnly.conclude (s.dequeue _) _ _ _ number (hother rfl hrun (by rw [hphase]; simp))
  | acquire hrun hphase =>
    exact EditsOnly.launch (s.dequeue _) _ _ _ number (hother rfl hrun (by rw [hphase]; simp))
  | endAttempt _ hrun hphase =>
    exact EditsOnly.endAttempt s _ _ _ _ _ _ number (hother rfl hrun (by rw [hphase]; simp))
  | retry hrun hphase =>
    exact EditsOnly.modify (fun record => { record with calls := record.calls + 1 }) rfl number
      (hother rfl hrun (by rw [hphase]; simp))
  | giveUp hrun hphase =>
    exact EditsOnly.conclude s _ _ _ number (hother rfl hrun (by rw [hphase]; simp))
  | tick =>
    simp only [State.tick]
    split
    · rfl
    · obtain ⟨_, _, he⟩ := dispatchAll_eq s.due (s.note (.ticked _ s.due s.clock _))
      rw [he]
      rfl
  | enterStart _ hnext => exact absurd (.start (holder_of_isNext hnext)) hnot
  | enterStop =>
    simp only [State.enterStop]
    split <;> rfl
  | drain => exact congrArg (fun l : Ledger H => l.records.get? number) (ledger_wakeStops _)
  | hangUp => simp only [State.hangUp, breakCall_eq]

end State

end CronDaemon.Scheduler
