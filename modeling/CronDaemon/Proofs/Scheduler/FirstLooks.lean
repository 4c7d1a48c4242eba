import CronDaemon.Proofs.Scheduler.CatchUp
import Mathlib.Logic.Relation

/-!
# First looks of a start

A start looks at its catch-up runs in the poll in which it spawns them. Only its own step leaves it
with runs that it has still to look at. So where the runs of a call are looked at as soon as the
call has gone on, and nobody else's run in between, each start looks at its runs first.
-/

namespace CronDaemon.Scheduler

open Job

namespace State

variable {H : Type} {start s s' t t' u u' : State H} {event : Event H}
  {events during : List (Event H)} {c k : Nat} {turn : Option Nat}

/-- A start is at its catch-up runs and has still to look at this one. -/
structure IsPending (s : State H) (c k : Nat) : Prop where
  waits : s.calls.get? c = some .catchingUp
  spawned : ∃ run, s.runs.get? k = some run ∧ run.owner = .call c ∧ run.phase = .spawned

/-- No start has a run that it has still to look at. -/
def HasLooked (s : State H) : Prop := ∀ c k, ¬ s.IsPending c k

/-- Only its own step leaves a start with a run that it has still to look at. -/
theorem Transition.isPending_of (h : s.Transition event s') (hs : s.Reachable)
    (hne : event ≠ .step (.proceed c)) (hpending : s'.IsPending c k) : s.IsPending c k := by
  obtain ⟨hwaits', run, hrun, howner, hspawned⟩ := hpending
  have hwaits := (h.stood_of_waits hs hwaits' (.inl rfl)).resolve_left hne
  rcases h.run_cases hs hrun with ⟨before, hbefore, hcontinues⟩ | ⟨-, hspawns⟩
  · exact ⟨hwaits, before, hbefore, hcontinues.owner.symm.trans howner,
      hcontinues.spawned hspawned⟩
  · -- The start holds the lock, and a catch-up run is spawned only where the lock is free.
    obtain ⟨call, hcall, hawaits⟩ :=
      (hs.isAwaited.transition h).awaited k run c hrun (by rw [hspawned]; simp) howner
    rw [hwaits'] at hcall
    cases hcall
    have hholder := hs.holdsLock c hwaits
    rw [(hspawns.caughtUp hawaits).1] at hholder
    cases hholder

/-- What has been looked at is not to be looked at any more. -/
theorem Reachable.not_isPending_of_begin (hs : s.Reachable)
    (hstep : s.step? (.begin k) = some s') : ¬ s'.IsPending c k := by
  rintro ⟨-, run', hrun', -, hspawned⟩
  have hfire : s.fire? (.step (.begin k)) = some s' := hstep
  have hs' := hs.fire? hfire
  obtain ⟨run, hrun, hphase⟩ : ∃ run, s.runs.get? k = some run ∧ run.phase = .spawned := by
    cases transition_of_step? hstep with
    | begin hrun hphase => exact ⟨_, hrun, hphase⟩
  obtain ⟨record, hrecord⟩ := hs.record_of_run hrun
  have hlooks : s.LooksAt [.step (.begin k)] k run s s' record :=
    ⟨⟨[], ⟨[], rfl, rfl⟩, hfire⟩, hrun, hphase, hrecord⟩
  by_cases hrunning : record.status = .running
  · obtain ⟨hnone, -⟩ := hs'.not_hasPassed_of_refused (hlooks.refused hrunning).2
    rw [hnone] at hrun'
    cases hrun'
  · exact hs'.isSound.kept.not_passed (Ledger.standing?_of_spawned hrun' hspawned)
      ⟨_, _, _, hlooks.admitted hrunning⟩

/-- While a start has still to look at runs, the event looks at no run of anybody else. -/
def LooksInTurn (s : State H) (event : Event H) : Prop :=
  ∀ c j k run, s.IsPending c j → event = .step (.begin k) → s.runs.get? k = some run →
    run.owner = .call c

/-- Where everybody looks in turn, a start looks at its runs first. -/
theorem Starts.looksFirst (h : start.Starts events c during t t' u u')
    (hturn : ∀ event v v' after, start.Occurs events event v v' after → v.LooksInTurn event) :
    t'.LooksFirst c during := by
  intro k v v' after other id own hoccurs hother hforeign hown howner hspawned
  obtain ⟨rest, hstarts⟩ := h.occurs
  obtain ⟨before, hbefore, -⟩ := h.catchesUp.exists_before hoccurs
  exact hforeign (hturn _ v v' _ (hstarts.within hoccurs) c id k other
    ⟨hbefore.waits, own, hown, howner, hspawned⟩ rfl hother)

/-- In a turn no call goes on, and in the turn of a call no run is looked at but its own. -/
structure Allows (s : State H) (turn : Option Nat) (step : Step) : Prop where
  stays : ∀ c, step ≠ .proceed c
  own : ∀ c k run, turn = some c → step = .begin k → s.runs.get? k = some run → run.owner = .call c

/-- Steps that look at no run and let no call go on are allowed in every turn. -/
theorem Allows.of_ne {step : Step} (hstays : ∀ c, step ≠ .proceed c)
    (hlooks : ∀ k, step ≠ .begin k) : s.Allows turn step :=
  ⟨hstays, fun _ k _ _ he => absurd he (hlooks k)⟩

/-- Steps of a turn lead from one state to another. -/
def Drives (turn : Option Nat) : State H → State H → Prop :=
  Relation.ReflTransGen fun s s' => ∃ step, s.step? step = some s' ∧ s.Allows turn step

theorem Drives.reachable (h : s.Drives turn s') (hs : s.Reachable) : s'.Reachable := by
  induction h with
  | refl => exact hs
  | tail _ hlast ih =>
    obtain ⟨step, hstep, -⟩ := hlast
    exact ih.step? hstep

/-- In a turn no start gets runs that it has still to look at. -/
theorem Drives.isPending_of (h : s.Drives turn s') (hs : s.Reachable)
    (hpending : s'.IsPending c k) : s.IsPending c k := by
  induction h with
  | refl => exact hpending
  | tail hbefore hlast ih =>
    obtain ⟨step, hstep, hallows⟩ := hlast
    refine ih ((transition_of_step? hstep).isPending_of (Drives.reachable hbefore hs) ?_ hpending)
    rintro ⟨⟩
    exact hallows.stays c rfl

/-- The call is no start that has still to get the lock. -/
def HasBegun (s : State H) (c : Nat) : Prop :=
  ∃ call, s.calls.get? c = some call ∧ call ≠ .starting

/-- A call that has gone on has begun. -/
theorem Transition.hasBegun_of_proceed (h : s.Transition (.step (.proceed c)) s') :
    s'.HasBegun c := by
  cases h with
  | enterStart =>
    rcases s.enterStart_cases c with he | ⟨records, journal, ⟨fault, he⟩ | he⟩ <;>
      simp [HasBegun, he, calls_breakCall, reply, setCall]
  | enterStop =>
    simp only [State.enterStop]
    split <;> simp [HasBegun, reply, setCall]
  | answer | openLoop | drain | endStop =>
    simp [HasBegun, State.openLoop, State.drain, State.endStop, reply, setCall]

/-- A call that has begun does not begin anew. -/
theorem Transition.hasBegun (h : s.Transition event s') (hs : s.Reachable)
    (hbegun : s.HasBegun c) : s'.HasBegun c := by
  obtain ⟨call, hcall, hne⟩ := hbegun
  rcases h.call_cases hs hcall with rfl | ⟨change, hhears, hcalls⟩ | ⟨-, -, fault, hbroken⟩
  · exact h.hasBegun_of_proceed
  · refine ⟨change call, hcalls, fun he => hne ?_⟩
    exact hhears.eq_of_apply he nofun nofun
  · exact ⟨_, hbroken, by simp⟩

/-- A call that has begun before a turn does not begin anew in it. -/
theorem Drives.hasBegun (h : s.Drives turn s') (hs : s.Reachable) (hbegun : s.HasBegun c) :
    s'.HasBegun c := by
  induction h with
  | refl => exact hbegun
  | tail hbefore hlast ih =>
    obtain ⟨step, hstep, -⟩ := hlast
    exact (transition_of_step? hstep).hasBegun (Drives.reachable hbefore hs) ih

/-- Whatever stands under this number in the turn of a call is a run of the call. -/
def IsOwn (s : State H) (turn : Option Nat) (id : Nat) : Prop :=
  ∀ c, turn = some c → id < s.nextId ∧ ∀ run, s.runs.get? id = some run → run.owner = .call c

theorem isOwn_none (s : State H) (id : Nat) : s.IsOwn none id := by
  intro c hnone
  cases hnone

/-- Steps move the ledger. -/
theorem Drives.moves (h : s.Drives turn s') : Ledger.Moves True s.ledger s'.ledger := by
  induction h with
  | refl => exact .refl
  | tail _ hlast ih =>
    obtain ⟨step, hstep, -⟩ := hlast
    exact ih.trans ((transition_of_step? hstep).moves.mono fun _ => trivial)

/-- Runs keep their owners, and numbers are not used again. -/
theorem Drives.isOwn {turn' : Option Nat} {id : Nat} (h : s.Drives turn s')
    (hown : s.IsOwn turn' id) : s'.IsOwn turn' id := by
  intro c hc
  obtain ⟨hlt, howner⟩ := hown c hc
  refine ⟨Nat.lt_of_lt_of_le hlt (Ledger.Moves.nextId_le h.moves), fun run' hrun' => ?_⟩
  obtain ⟨run, hrun, hcontinues⟩ := Ledger.Moves.run_continues h.moves hlt hrun'
  exact hcontinues.owner.trans (howner run hrun)

end State

end CronDaemon.Scheduler
