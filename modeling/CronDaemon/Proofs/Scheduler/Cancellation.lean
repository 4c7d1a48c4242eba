import CronDaemon.Proofs.Scheduler.OverlapGuard
import CronDaemon.Proofs.Scheduler.Regime

/-!
# When a run is cancelled

A run takes the current lifetime when it passes the guard, and its deadline when it gets a permit,
or passes the guard where there is no pool; it keeps both through its retries. Once its watchdog has
done what it can, a run whose time counts is cancelled exactly if its deadline is past, or a stop
has taken the loop handle since the run passed the guard, or its own handler has cancelled it. While
it waits for a permit, only a stop can cancel it.

That a run passes the guard, joins the current lifetime, takes a permit that is at hand and calls
its handler is one poll, and so is that a waiting run gets its permit and calls its handler. So no
stop comes between the look at the token and the first call.
-/

namespace CronDaemon.Scheduler

open Job

/-- The deadline of a run whose time counts. -/
def Phase.deadline? : Phase → Option Moment
  | .executing _ deadline _ | .resting _ deadline .. => some deadline
  | .spawned | .queued _ | .stranded => none

/-- The run is cancelled on its own only if its time counts, and its deadline is past or its handler
has done it. -/
def Phase.IsTimely (phase : Phase) (clock : Moment) (revoked : Prop) : Prop :=
  ∀ token, phase.token? = some token → token.cancelled = true →
    ∃ deadline, phase.deadline? = some deadline ∧ (deadline ≤ clock ∨ revoked)

theorem Phase.IsTimely.mono {phase : Phase} {clock clock' : Moment} {revoked revoked' : Prop}
    (h : phase.IsTimely clock revoked) (hle : clock ≤ clock') (himp : revoked → revoked') :
    phase.IsTimely clock' revoked' := by
  intro token htoken hcancelled
  obtain ⟨deadline, hdeadline, hcause⟩ := h token htoken hcancelled
  exact ⟨deadline, hdeadline, hcause.imp (Nat.le_trans · hle) himp⟩

/-- A token of a run as it may be later: it may have been cancelled on its own. -/
def Token.Continues (later token : Token) : Prop :=
  later.lifetime = token.lifetime ∧ (token.cancelled = true → later.cancelled = true)

theorem eq_add_of_momentAfter? {moment deadline : Moment} {d : Duration}
    (h : momentAfter? moment d = some deadline) : deadline = moment + d.nanos := by
  unfold momentAfter? at h
  split at h
  · exact (Option.some.inj h).symm
  · cases h

namespace Frame

variable {H : Type} {f f' : Frame H} {event : Event H}

end Frame

namespace State

variable {H : Type} {start s s' t u : State H} {events after : List (Event H)} {event : Event H}
  {id : Nat} {run run' : Run} {phase phase' : Phase} {token : Token} {deadline : Moment}

/-- A stop takes the loop handle in the course of the events. -/
def IsStoppedIn (s : State H) (events : List (Event H)) : Prop :=
  ∃ call t t' after, s.Occurs events (.step (.proceed call)) t t' after ∧ t.TakesHandle call

/-- A run whose time counts keeps its deadline, or breaks off. -/
theorem Goes.deadline?_eq (h : s.Goes id event phase phase')
    (hdeadline : phase.deadline? = some deadline) :
    phase'.deadline? = some deadline ∨ phase' = .stranded := by
  cases h with
  | stay => exact .inl hdeadline
  | strand => exact .inr rfl
  | queue | launch | acquire => cases hdeadline
  | rest | retry | revokeExecuting | revokeResting => exact .inl hdeadline

/-- A run behind the guard keeps its token, which may be cancelled, or breaks off. -/
theorem Goes.token_continues (h : s.Goes id event phase phase')
    (hbefore : ∃ later, phase.token? = some later ∧ later.Continues token) :
    (∃ later, phase'.token? = some later ∧ later.Continues token) ∨ phase' = .stranded := by
  obtain ⟨later, hlater, hlifetime, hstill⟩ := hbefore
  cases h with
  | stay => exact .inl ⟨later, hlater, hlifetime, hstill⟩
  | strand => exact .inr rfl
  | queue | launch => cases hlater
  | acquire | rest | retry =>
    cases hlater
    exact .inl ⟨_, rfl, hlifetime, hstill⟩
  | revokeExecuting | revokeResting =>
    cases hlater
    exact .inl ⟨_, rfl, hlifetime, fun _ => rfl⟩

/-- A token is that of the phase before, cancelled or not, or is taken from the current lifetime
when the run passes the guard. -/
theorem Goes.lifetime_cases (h : s.Goes id event phase phase')
    (htoken : phase'.token? = some token) :
    (∃ before, phase.token? = some before ∧ token.lifetime = before.lifetime) ∨
      event = .step (.begin id) ∧ token = ⟨s.lifetime, false⟩ := by
  cases h with
  | stay => exact .inl ⟨token, htoken, rfl⟩
  | strand => cases htoken
  | queue | launch =>
    cases htoken
    exact .inr ⟨rfl, rfl⟩
  | acquire | rest | retry | revokeExecuting | revokeResting =>
    cases htoken
    exact .inl ⟨_, rfl, rfl⟩

/-- A run whose time counts keeps its deadline for as long as it goes on. -/
theorem Reachable.deadline_eq (hs : s.Reachable) (hrun : s.runs.get? id = some run)
    (hdeadline : run.phase.deadline? = some deadline) (h : s.replay? after = some u)
    (hrun' : u.runs.get? id = some run') {later : Moment}
    (hlater : run'.phase.deadline? = some later) : later = deadline := by
  rcases hs.phase_kept hrun hdeadline (fun _ _ _ _ hgoes => hgoes.deadline?_eq) h hrun' with he | he
  · rw [hlater] at he
    exact Option.some.inj he
  · rw [he] at hlater
    cases hlater

/-- A run behind the guard keeps its token, which may be cancelled, for as long as it goes on. -/
theorem Reachable.token_continues (hs : s.Reachable) (hrun : s.runs.get? id = some run)
    (htoken : run.phase.token? = some token) (h : s.replay? after = some u)
    (hrun' : u.runs.get? id = some run') :
    (∃ later, run'.phase.token? = some later ∧ later.Continues token) ∨ run'.phase = .stranded :=
  hs.phase_kept (motive := fun phase => ∃ later, phase.token? = some later ∧
    later.Continues token) hrun
    ⟨token, htoken, rfl, fun h => h⟩ (fun _ _ _ _ hgoes => hgoes.token_continues) h hrun'

/-- A run that is cancelled stays so. -/
theorem Reachable.isCancelled_of_continues (hs : s.Reachable) (h : s.replay? after = some u)
    {later : Token} (hcontinues : later.Continues token) (hcancelled : s.isCancelled token = true) :
    u.isCancelled later = true := by
  obtain ⟨hlifetime, hown⟩ := hcontinues
  have hstill := hs.isCancelled_of_replay? h hcancelled
  rw [isCancelled, Bool.or_eq_true] at hstill ⊢
  exact hstill.imp hown fun hended => hlifetime ▸ hended

/-- Where there is no pool, no run waits for a permit. -/
theorem Reachable.not_queued_of_no_pool (hs : s.Reachable) (hpool : s.pool = none)
    (hrun : s.runs.get? id = some run) : run.phase ≠ .queued token := by
  refine hs.step_induction (motive := fun s => s.pool = none → ∀ run, s.runs.get? id = some run →
    run.phase ≠ .queued token) (fun _ _ _ run hrun => nomatch hrun) ?_ hpool run hrun
  intro s event s' hs h ih hpool run' hrun' hqueued
  have hnone : s.pool = none := by
    have hsame := h.isSome_pool
    rw [hpool, Option.isSome_none] at hsame
    rwa [eq_comm, Option.isSome_eq_false_iff, Option.isNone_iff_eq_none] at hsame
  rcases h.run_cases hs hrun' with ⟨run, hrun, -⟩ | ⟨-, hspawns⟩
  · have hgoes := h.goes hs hrun hrun'
    have hbefore := ih hnone run hrun
    rw [hqueued] at hgoes
    generalize run.phase = phase at hgoes hbefore
    cases hgoes with
    | stay => exact hbefore rfl
    | queue hspare => simp [hasSparePermit, hnone] at hspare
  · rw [hspawns.phase] at hqueued
    cases hqueued

/-- In the course of the events the run passed the guard in state `t`, took the lifetime of that
moment, and left state `t'`. -/
structure PassesGuard (start : State H) (events : List (Event H)) (id : Nat) (t t' : State H)
    (after : List (Event H)) : Prop where
  occurs : start.Occurs events (.step (.begin id)) t t' after
  token : ∃ run, t'.runs.get? id = some run ∧ run.phase.token? = some ⟨t.lifetime, false⟩

/-- The lifetime of a run is over exactly when a stop has taken the loop handle since it passed the
guard. -/
theorem PassesGuard.lifetime_lt_iff (h : start.PassesGuard events id t t' after)
    (hreplay : start.replay? events = some s) : t.lifetime < s.lifetime ↔ t'.IsStoppedIn after := by
  have hsame : t'.lifetime = t.lifetime := by
    rcases (transition_of_fire? h.occurs.fires).lifetime_cases with ⟨hsame, -⟩ | ⟨_, hevent, -⟩
    · exact hsame
    · cases hevent
  rw [← hsame]
  exact State.lifetime_lt_iff (h.occurs.replay? hreplay)

/-- A run that has a token and had none before took it when it passed the guard in between, from the
lifetime of that moment. -/
theorem Reachable.passesGuard_since (hs : start.Reachable)
    (hbefore : ∀ run, start.runs.get? id = some run → run.phase.token? = none)
    (h : start.replay? events = some s) (hrun : s.runs.get? id = some run)
    (htoken : run.phase.token? = some token) :
    ∃ t t' after, start.PassesGuard events id t t' after ∧ token.lifetime = t.lifetime := by
  refine history_induction (motive := fun events s => ∀ run token, s.runs.get? id = some run →
    run.phase.token? = some token → ∃ t t' after, start.PassesGuard events id t t' after ∧
      token.lifetime = t.lifetime) ?_ ?_ h run token hrun htoken
  · intro run token hrun htoken
    rw [hbefore run hrun] at htoken
    cases htoken
  · intro before event t t' ht hfire ih run' token hrun' htoken
    have hreach : t.Reachable := hs.replay? ht
    have htransition := transition_of_fire? hfire
    rcases htransition.run_cases hreach hrun' with ⟨run, hrun, -⟩ | ⟨-, hspawns⟩
    · rcases (htransition.goes hreach hrun hrun').lifetime_cases htoken with
        ⟨first, hfirst, hlifetime⟩ | ⟨rfl, rfl⟩
      · obtain ⟨u, u', after, hpasses, hsame⟩ := ih run first hrun hfirst
        exact ⟨u, u', after ++ [event], ⟨hpasses.occurs.snoc event, hpasses.token⟩,
          hlifetime.trans hsame⟩
      · exact ⟨t, t', [], ⟨Occurs.last ht hfire, run', hrun', htoken⟩, rfl⟩
    · rw [hspawns.phase] at htoken
      cases htoken

/-- Every run that has a token took it when it passed the guard, from the lifetime of that
moment. -/
theorem exists_passesGuard (hstart : start.Reachable) (hnone : ∀ k, start.runs.get? k = none)
    (h : start.replay? events = some s) (hrun : s.runs.get? id = some run)
    (htoken : run.phase.token? = some token) :
    ∃ t t' after, start.PassesGuard events id t t' after ∧ token.lifetime = t.lifetime := by
  refine hstart.passesGuard_since (fun first hfirst => ?_) h hrun htoken
  rw [hnone] at hfirst
  cases hfirst

end State

end CronDaemon.Scheduler
