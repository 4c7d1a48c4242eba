import CronDaemon.Proofs.Cron.Succession
import CronDaemon.Proofs.Scheduler.Calls
import CronDaemon.Proofs.Scheduler.DueDispatch
import CronDaemon.Proofs.Scheduler.Regime

/-!
# From when the next run counts

The next run of a record is computed at its registration, by a start that finds no loop handle, and
when a run of it is recorded; each time from what the clock shows, and the journal tells of it. It
is therefore what the schedule gives after the latest of these instants, and nothing else changes
it. A start computes the next runs before its catch-up runs, so one that breaks off later has
changed them too.
-/

namespace CronDaemon

namespace Scheduler

open Job

/-- The instant from which, as the entry tells, the next run of the record counts. -/
def Entry.reference? (number : Nat) : Entry → Option Instant
  | .registered record now | .refreshed record now | .recorded _ record _ now =>
    if record = number then some now else none
  | .ticked .. | .admitted .. | .refused .. | .began .. | .ended .. => none

/-- An entry names an instant for a record exactly if it recomputes its next run. -/
theorem Entry.isSome_reference? (number : Nat) (entry : Entry) :
    (entry.reference? number).isSome = entry.recomputes number := by
  cases entry with
  | registered | refreshed | recorded => simp only [reference?, recomputes]; split <;> simp_all
  | ticked | admitted | refused | began | ended => rfl

/-- Such an entry is a report. -/
theorem Entry.isReport_of_reference? {number : Nat} {entry : Entry} {reference : Instant}
    (h : entry.reference? number = some reference) : entry.isReport = true := by
  cases entry with
  | registered | refreshed | recorded => rfl
  | ticked | admitted | refused | began | ended => cases h

/-- The latest instant from which the next run of the record counts, as the journal tells. -/
def latestReference? (journal : List Entry) (number : Nat) : Option Instant :=
  journal.findSome? (Entry.reference? number)

/-- The latest instant is that of the latest entry which names one. -/
theorem latestReference?_cons (entry : Entry) (journal : List Entry) (number : Nat) :
    latestReference? (entry :: journal) number =
      (entry.reference? number).or (latestReference? journal number) := by
  rw [latestReference?, List.findSome?_cons]
  cases entry.reference? number <;> rfl

section Records

variable {H : Type} {record before after : Record H} {zone : Zone} {reference now : Instant}

/-- The next run of the record is the one that its schedule gives after the instant. -/
structure Record.IsPlanned (record : Record H) (zone : Zone) (reference : Instant) : Prop where
  next : Scheduler.nextRun zone record.schedule (.ok reference) = .ok record.nextRun
  advances : ∀ schedule, record.schedule = some schedule → schedule.Advances

/-- A record stays planned as long as its schedule and its next run do. -/
theorem Record.IsPlanned.congr (h : before.IsPlanned zone reference)
    (hnext : after.nextRun = before.nextRun) (hschedule : after.schedule = before.schedule) :
    after.IsPlanned zone reference :=
  ⟨by rw [hnext, hschedule]; exact h.next, hschedule ▸ h.advances⟩

/-- An edit leaves the schedule. -/
theorem Record.Edit.schedule_eq (h : before.Edit after) : after.schedule = before.schedule := by
  cases h with
  | enabled | called => rfl
  | passedOver =>
    unfold Record.passedOver
    split <;> rfl

/-- A fresh record has the schedule that was read, and the next run that was computed. -/
theorem Record.plan_ofSpec {clock : Except Fault Instant} {spec : TaskSpec H}
    (h : Record.ofSpec zone clock spec = .ok record) :
    (expression? spec).mapM Cron.Schedule.parse = .ok record.schedule ∧
      Scheduler.nextRun zone record.schedule clock = .ok record.nextRun := by
  unfold Record.ofSpec at h
  grind

/-- A new record is planned from the registration on. -/
theorem Record.isPlanned_ofSpec {clock : Except Fault Instant} {spec : TaskSpec H}
    (h : Record.ofSpec zone clock spec = .ok record)
    (hclock : ∀ reading, clock = .ok reading → now = reading) : record.IsPlanned zone now := by
  obtain ⟨hparse, hnext⟩ := plan_ofSpec h
  constructor
  · cases hschedule : record.schedule with
    | none =>
      rw [hschedule] at hnext
      exact hnext
    | some schedule =>
      rw [hschedule] at hnext
      obtain ⟨reading, rfl, hreading⟩ := bind_eq_ok_iff.1 hnext
      rw [hclock reading rfl]
      exact hreading
  · intro schedule hschedule
    rw [hschedule] at hparse
    cases htext : expression? spec with
    | none =>
      rw [htext] at hparse
      cases hparse
    | some text =>
      rw [htext] at hparse
      obtain ⟨parsed, hparsed, he⟩ := bind_eq_ok_iff.1 hparse
      cases he
      exact Cron.Schedule.advances_of_parse hparsed

/-- A record that is computed anew is planned from then on. -/
theorem Record.IsPlanned.refreshed (h : before.IsPlanned zone reference)
    (hafter : before.refreshed zone now = .ok after) : after.IsPlanned zone now := by
  unfold Record.refreshed at hafter
  split at hafter
  · next hschedule =>
    cases hafter
    have hnext := h.next
    refine ⟨?_, h.advances⟩
    rw [hschedule] at hnext ⊢
    exact hnext
  · obtain ⟨next, hnext, rfl⟩ := map_eq_ok_iff.1 hafter
    exact ⟨hnext, h.advances⟩

/-- A record on which a result is recorded is planned from then on. -/
theorem Record.IsPlanned.recorded (h : before.IsPlanned zone reference)
    {result : Except JobError Unit}
    (hafter : before.recorded zone now result = .ok after) : after.IsPlanned zone now := by
  obtain ⟨next, hnext, rfl⟩ := map_eq_ok_iff.1 hafter
  cases result with
  | ok => exact ⟨hnext, h.advances⟩
  | error => exact ⟨hnext, h.advances⟩

end Records

namespace Ledger

variable {H : Type} {l l' : Ledger H} {trouble : Prop} {number : Nat}

/-- The next run of every record is the one that its schedule gives after the latest instant of
which the journal tells. -/
def IsPlanned (l : Ledger H) : Prop :=
  ∀ number record, l.records.get? number = some record → ∃ reference,
    latestReference? l.journal number = some reference ∧ record.IsPlanned l.zone reference

/-- An entry that tells of no next run leaves the latest references as they are. -/
theorem IsPlanned.note (hl : l.IsPlanned) {entry : Entry}
    (h : ∀ number, entry.reference? number = none)
    (hzone : l'.zone = l.zone) (hrecords : l'.records = l.records)
    (hjournal : l'.journal = entry :: l.journal) : l'.IsPlanned := by
  intro number record hrecord
  rw [hjournal, latestReference?_cons, h, Option.none_or, hzone]
  exact hl number record (hrecords ▸ hrecord)

/-- A record that is put down with its next run is told of with the instant from which that
counts. -/
theorem IsPlanned.insert (hl : l.IsPlanned) {entry : Entry} {now : Instant} {record : Record H}
    (hentry : ∀ other, entry.reference? other = if number = other then some now else none)
    (hrecord : record.IsPlanned l.zone now) (hzone : l'.zone = l.zone)
    (hrecords : l'.records = l.records.insert number record)
    (hjournal : l'.journal = entry :: l.journal) : l'.IsPlanned := by
  intro other record' hrecord'
  rw [hrecords, Table.get?_insert] at hrecord'
  rw [hjournal, latestReference?_cons, hentry, hzone]
  split at hrecord'
  · next he =>
    cases hrecord'
    exact ⟨now, by rw [if_pos he, Option.some_or], hrecord⟩
  · next hne =>
    rw [if_neg hne, Option.none_or]
    exact hl other record' hrecord'

/-- A change of a record that leaves its schedule and its next run alone. -/
theorem IsPlanned.modify (hl : l.IsPlanned) (change : Record H → Record H)
    (hnext : ∀ record, (change record).nextRun = record.nextRun)
    (hschedule : ∀ record, (change record).schedule = record.schedule) (hzone : l'.zone = l.zone)
    (hrecords : l'.records = l.records.modify number change) (hjournal : l'.journal = l.journal) :
    l'.IsPlanned := by
  intro other record hrecord
  rw [hrecords, Table.get?_modify] at hrecord
  rw [hjournal, hzone]
  split at hrecord
  · obtain ⟨before, hbefore, rfl⟩ := Option.map_eq_some_iff.1 hrecord
    obtain ⟨reference, hlatest, hplanned⟩ := hl other before hbefore
    exact ⟨reference, hlatest, hplanned.congr (hnext before) (hschedule before)⟩
  · exact hl other record hrecord

/-- A move leaves all records planned from their latest instants on. -/
theorem Move.isPlanned (move : Move trouble l l') (hl : l.IsPlanned) : l'.IsPlanned := by
  cases move with
  | skip | spawn | drop | advance | strand => exact hl
  | remark entry h =>
    have hnone : ∀ number, entry.reference? number = none := by
      intro number
      cases entry <;> first | rfl | cases h
    exact hl.note hnone rfl rfl rfl
  | enroll record spec clock now h hclock =>
    exact hl.insert (fun _ => rfl) (Record.isPlanned_ofSpec h hclock) rfl rfl rfl
  | edit number change h =>
    exact hl.modify change (fun record => (h record).nextRun_eq)
      (fun record => (h record).schedule_eq) rfl rfl rfl
  | refresh number before after now hbefore h =>
    obtain ⟨reference, -, hplanned⟩ := hl number before hbefore
    exact hl.insert (fun _ => rfl) (hplanned.refreshed h) rfl rfl rfl
  | pass id run record phase moment now =>
    have hnoted : Ledger.IsPlanned { l with
        journal := .admitted id run.record run.trigger moment now :: l.journal } :=
      hl.note (fun _ => rfl) rfl rfl rfl
    exact hnoted.modify (fun record => { record with status := .running }) (fun _ => rfl)
      (fun _ => rfl) rfl rfl rfl
  | record id run result now before after hrun hactive hbefore h =>
    obtain ⟨reference, -, hplanned⟩ := hl run.record before hbefore
    exact hl.insert (fun _ => rfl) (hplanned.recorded h) rfl rfl rfl

/-- So do any number of moves. -/
theorem Moves.isPlanned (moves : Moves trouble l l') (hl : l.IsPlanned) : l'.IsPlanned := by
  induction moves with
  | refl => exact hl
  | tail _ move ih => exact move.isPlanned ih

end Ledger

namespace State

variable {H : Type} {start s s' t u : State H} {events after : List (Event H)} {event : Event H}
  {number call : Nat} {record : Record H}

/-- The change writes the entry into the journal. -/
def Writes (s s' : State H) (entry : Entry) : Prop :=
  ∃ new, s'.journal = new ++ s.journal ∧ entry ∈ new

/-- The event computes the next run of the record from what the clock shows: the record is
registered, or refreshed by a start while it is registered, or a run of it ends and is recorded. -/
inductive Times (s s' : State H) (number : Nat) : Event H → Prop
  | registered {spec : TaskSpec H} (hregister : s.register spec = .ok s')
      (hnumber : s.nextId = number)
      (hwrites : s.Writes s' (.registered number s.now)) :
      Times s s' number (.request (.register spec))
  | refreshed {call : Nat} (htakes : s.TakesLock call) (hregistered : s.IsRegistered number)
      (hwrites : s.Writes s' (.refreshed number s.now)) : Times s s' number (.step (.proceed call))
  | recorded {event : Event H} {id : Nat} {run : Run} {result : Except JobError Unit}
      (hrun : s.runs.get? id = some run) (hrecord : run.record = number)
      (hends : s.Ends id event run.phase result)
      (hwrites : s.Writes s' (.recorded id number result s.now)) : Times s s' number event

/-- An event that times a record writes down the instant. -/
theorem Times.writes (h : s.Times s' number event) :
    ∃ entry, s.Writes s' entry ∧ entry.reference? number = some s.now := by
  cases h with
  | registered _ _ hwrites => exact ⟨_, hwrites, if_pos rfl⟩
  | refreshed _ _ hwrites => exact ⟨_, hwrites, if_pos rfl⟩
  | recorded _ _ _ hwrites => exact ⟨_, hwrites, if_pos rfl⟩

/-- A report is written by a change if it is among those that the change adds. -/
theorem Transition.writes_iff (h : s.Transition event s') {entry : Entry}
    (hreport : entry.isReport = true)
    {told : List Entry} (htold : s'.regime.reports = told ++ s.regime.reports) :
    s.Writes s' entry ↔ entry ∈ told := by
  have hfilter : ∀ new, s'.journal = new ++ s.journal → new.filter Entry.isReport = told := by
    intro new hjournal
    have he : new.filter Entry.isReport ++ s.regime.reports = told ++ s.regime.reports := by
      rw [← htold]
      simp only [regime, hjournal, List.filter_append]
    exact List.append_cancel_right he
  constructor
  · rintro ⟨new, hjournal, hmem⟩
    exact hfilter new hjournal ▸ List.mem_filter.2 ⟨hmem, hreport⟩
  · intro hmem
    obtain ⟨new, hnew⟩ := h.journal_suffix
    rw [← hfilter new hnew.symm] at hmem
    exact ⟨new, hnew.symm, (List.mem_filter.1 hmem).1⟩

/-- An entry that tells of a next run is written by an event that computes it. -/
theorem Transition.times_of_writes (h : s.Transition event s') {entry : Entry} {reference : Instant}
    (hwrites : s.Writes s' entry) (hentry : entry.reference? number = some reference) :
    s.Times s' number event ∧ reference = s.now := by
  obtain ⟨told, htold, hreports⟩ := h.tells
  have hmem := (h.writes_iff (Entry.isReport_of_reference? hentry) htold).1 hwrites
  cases hreports entry hmem with
  | registered hregister =>
    obtain ⟨hnumber, hnow⟩ := Option.ite_none_right_eq_some.1 hentry
    subst hnumber
    exact ⟨.registered hregister rfl hwrites, (Option.some.inj hnow).symm⟩
  | refreshed htakes hregistered =>
    obtain ⟨hnumber, hnow⟩ := Option.ite_none_right_eq_some.1 hentry
    subst hnumber
    exact ⟨.refreshed htakes hregistered hwrites, (Option.some.inj hnow).symm⟩
  | recorded hrun hends hreading =>
    obtain ⟨hnumber, hnow⟩ := Option.ite_none_right_eq_some.1 hentry
    cases now_of_reading hreading
    subst hnumber
    exact ⟨.recorded hrun rfl hends hwrites, (Option.some.inj hnow).symm⟩
  | began | ended => cases hentry

/-- An event that computes the next run of a record is the latest from which it counts; any other
leaves the latest one as it is. -/
theorem Transition.latest_cases (h : s.Transition event s') (number : Nat) :
    s.Times s' number event ∧ latestReference? s'.journal number = some s.now ∨
      ¬ s.Times s' number event ∧
        latestReference? s'.journal number = latestReference? s.journal number := by
  obtain ⟨new, hnew⟩ := h.journal_suffix
  have hjournal : s'.journal = new ++ s.journal := hnew.symm
  rw [hjournal, latestReference?, List.findSome?_append]
  cases hfound : new.findSome? (Entry.reference? number) with
  | none =>
    refine .inr ⟨fun htimes => ?_, rfl⟩
    obtain ⟨entry, ⟨new', hjournal', hmem⟩, hentry⟩ := htimes.writes
    rw [hjournal] at hjournal'
    rw [List.append_cancel_right hjournal', List.findSome?_eq_none_iff] at hfound
    rw [hfound entry hmem] at hentry
    cases hentry
  | some reference =>
    obtain ⟨entry, hmem, hentry⟩ := List.exists_of_findSome?_eq_some hfound
    obtain ⟨htimes, rfl⟩ := h.times_of_writes ⟨new, hjournal, hmem⟩ hentry
    exact .inl ⟨htimes, rfl⟩

/-- In every reachable state all records are planned from their latest instants on. -/
theorem Reachable.isPlanned (hs : s.Reachable) : s.ledger.IsPlanned := by
  refine hs.induction (motive := fun s => s.ledger.IsPlanned)
    (fun options now number record h => ?_)
    fun _ _ _ hs htransition => Ledger.Moves.isPlanned htransition.moves hs
  cases h

/-- An event that does not compute the next run of a record leaves it as it is. -/
theorem Transition.nextRun_eq (h : s.Transition event s') (hs : s.Reachable)
    (hrecord : s.records.get? number = some record) (hnot : ¬ s.Times s' number event) :
    ∃ record', s'.records.get? number = some record' ∧ record'.nextRun = record.nextRun := by
  obtain ⟨new, hjournal, hkept⟩ := Ledger.Moves.nextRun?_eq (hs.record_lt hrecord) h.moves
  have hsame := hkept fun entry hmem => by
    refine Bool.eq_false_iff.2 fun hrecomputes => hnot ?_
    rw [← Entry.isSome_reference?] at hrecomputes
    obtain ⟨reference, hentry⟩ := Option.isSome_iff_exists.1 hrecomputes
    exact (h.times_of_writes ⟨new, hjournal, hmem⟩ hentry).1
  have hbefore : s.ledger.nextRun? number = some record.nextRun := congrArg (Option.map _) hrecord
  rw [hbefore] at hsame
  exact Option.map_eq_some_iff.1 hsame

/-- Whatever happens in an untroubled history happens in an untroubled state. -/
theorem StaysUntroubled.of_occurs (h : start.StaysUntroubled events)
    (hoccurs : start.Occurs events event t t' after) : t.IsUntroubled := by
  obtain ⟨n, hn, ht⟩ := hoccurs.exists_take
  exact h.states n hn t ht

/-- The last event of an untroubled history makes nothing break off. -/
theorem StaysUntroubled.not_isTroubledBy_last (h : start.StaysUntroubled (events ++ [event]))
    (hs : start.replay? events = some s) (hfire : s.fire? event = some s') :
    ¬ s.IsTroubledBy event := by
  rintro (hfault | ⟨call, rfl⟩)
  · exact hfault (h.of_occurs (Occurs.last hs hfire))
  · exact h.awaited call (List.mem_append_right _ List.mem_cons_self)

/-- The beginning of an untroubled history is untroubled. -/
theorem StaysUntroubled.of_snoc (h : start.StaysUntroubled (events ++ [event])) :
    start.StaysUntroubled events := by
  refine ⟨fun n hn s hs => h.states n (by simp; omega) s ?_,
    fun call hmem => h.awaited call (List.mem_append_left _ hmem)⟩
  rwa [List.take_append_of_le_length (Nat.le_of_lt hn)]

/-- A record that is there after an event that does not compute its next run was there before. -/
theorem Transition.record_of_not_times (h : s.Transition event s') {record' : Record H}
    (hrecord' : s'.records.get? number = some record') (hnot : ¬ s.Times s' number event) :
    ∃ record, s.records.get? number = some record := by
  cases hold : s.records.get? number with
  | some record => exact ⟨record, rfl⟩
  | none =>
    obtain ⟨spec, -, -, rfl, rfl, -, -⟩ :=
      h.change.profile_new (profile_of_get? hrecord') (by simp [frame, profilesOf, hold])
    cases h with
    | refuse => exact absurd hold (by simp [hrecord'])
    | register hfresh =>
      refine absurd (Times.registered ?_ rfl ⟨[_], rfl, List.mem_cons_self⟩) hnot
      simp only [State.register, hfresh]

/-- The next run of every record was computed by an event of the history, and the latest such event
is that of the latest instant of which the journal tells. -/
theorem exists_times (hnone : ∀ k, start.records.get? k = none) (h : start.replay? events = some s)
    (hrecord : s.records.get? number = some record) :
    ∃ event t t' after, start.Occurs events event t t' after ∧ t.Times t' number event ∧
      latestReference? s.journal number = some t.now ∧
      ∀ later u u' rest, t'.Occurs after later u u' rest → ¬ u.Times u' number later := by
  refine history_induction
    (motive := fun events s => ∀ record, s.records.get? number = some record →
    ∃ event t t' after, start.Occurs events event t t' after ∧ t.Times t' number event ∧
      latestReference? s.journal number = some t.now ∧
      ∀ later u u' rest, t'.Occurs after later u u' rest →
        ¬ u.Times u' number later) ?_ ?_ h record hrecord
  · intro record hrecord
    rw [hnone] at hrecord
    cases hrecord
  · intro before event s s' hs hfire ih record' hrecord'
    have htransition := transition_of_fire? hfire
    rcases htransition.latest_cases number with ⟨htimes, hlatest⟩ | ⟨hnot, hsame⟩
    · exact ⟨event, s, s', [], Occurs.last hs hfire, htimes, hlatest,
        fun later u u' rest hoccurs => (not_occurs_nil hoccurs).elim⟩
    · obtain ⟨record, hrecord⟩ := htransition.record_of_not_times hrecord' hnot
      obtain ⟨first, t, t', after, hoccurs, htimes, hlatest, hlast⟩ := ih record hrecord
      refine ⟨first, t, t', after ++ [event], hoccurs.snoc event, htimes, hsame.trans hlatest, ?_⟩
      intro later u u' rest hlater
      rcases hlater.snoc_cases (hoccurs.replay? hs) hfire with ⟨rest', hearlier⟩ | ⟨rfl, rfl, rfl⟩
      · exact hlast later u u' rest' hearlier
      · exact hnot

/-- A start that goes on to its catch-up runs has computed the next run of every registered
record. -/
theorem Reachable.times_of_catchingUp (hs : s.Reachable)
    (hcall : s.calls.get? call = some .starting)
    (hstep : s.step? (.proceed call) = some s') (hcall' : s'.calls.get? call = some .catchingUp)
    (hregistered : s.IsRegistered number) : s.Times s' number (.step (.proceed call)) := by
  have htransition := transition_of_step? hstep
  obtain ⟨name, hname⟩ := hregistered
  obtain ⟨record, hrecord, -⟩ := hs.id_of_registry hname
  have hcontains : s.records.contains number = true := by
    rw [Table.contains, hrecord]
    rfl
  have hproceed : s.proceed? call = some s' := hstep
  simp only [proceed?, hcall] at hproceed
  split at hproceed <;> cases hproceed
  obtain ⟨refreshed, hregime, -, hall⟩ := regime_enterStart s call
  have hmem := List.mem_map_of_mem (f := fun number => Entry.refreshed number s.now)
    (hall hcall' number ⟨name, hname⟩ hcontains)
  have hwrites := (htransition.writes_iff rfl (congrArg Regime.reports hregime)).2 hmem
  exact (htransition.times_of_writes hwrites (if_pos rfl)).1

/-- A start that finds no loop handle goes on to its catch-up runs where nothing makes it break
off. -/
theorem IsUntroubled.enterStart (h : s.IsUntroubled) (hhandle : s.handle = none) (call : Nat) :
    (s.enterStart call).calls.get? call = some .catchingUp := by
  obtain ⟨-, now, hreading, hnext⟩ := h
  simp only [State.enterStart]
  split
  · next hsome =>
    rw [hhandle] at hsome
    cases hsome
  · split
    · next fault hfault =>
      have hfault' : s.reading = .error fault := hfault
      rw [hreading] at hfault'
      cases hfault'
    · next now' hnow =>
      have hnow' : s.reading = .ok now' := hnow
      rw [hreading] at hnow'
      cases hnow'
      have hnone := refreshEach_eq_none now s.registry.values
        { s with lock := s.lock.take call } hnext
      split
      · next hrefresh =>
        simp only [refreshAll] at hrefresh
        rw [hrefresh] at hnone
        cases hnone
      · simp only [State.setCall, Table.get?_insert, if_true]

/-- As long as nothing makes a run break off, a start that finds no loop handle is at its catch-up
runs until it returns. -/
theorem started_of_staysUntroubled (hstart : start.Reachable)
    (huntroubled : start.StaysUntroubled events) (h : start.replay? events = some s) {t' : State H}
    (hoccurs : start.Occurs events (.step (.proceed call)) t t' after) (htakes : t.TakesLock call) :
    s.calls.get? call = some .catchingUp ∨ s.calls.get? call = some (.returned .started) := by
  refine history_induction (motive := fun events s => start.StaysUntroubled events → ∀ t t' after,
    start.Occurs events (.step (.proceed call)) t t' after → t.TakesLock call →
    s.calls.get? call = some .catchingUp ∨ s.calls.get? call = some (.returned .started))
    (fun _ _ _ _ hoccurs => (not_occurs_nil hoccurs).elim) ?_ h huntroubled t t' after
      hoccurs htakes
  intro before event s s' hs hfire ih huntroubled t t' after hoccurs htakes
  have hs' : s.Reachable := hstart.replay? hs
  have hcalm : s.IsUntroubled := huntroubled.of_occurs (Occurs.last hs hfire)
  have htransition := transition_of_fire? hfire
  rcases hoccurs.snoc_cases hs hfire with ⟨rest, hearlier⟩ | ⟨rfl, rfl, rfl⟩
  · rcases ih huntroubled.of_snoc t t' rest hearlier htakes with hcall | hcall
    · rcases htransition.catchingUp_cases hs' hcall with hreturned | hsame | ⟨htrouble, -⟩
      · exact .inr hreturned
      · exact .inl hsame
      · exact absurd htrouble (huntroubled.not_isTroubledBy_last hs hfire)
    · exact .inr (htransition.returned_stays hs' hcall)
  · obtain ⟨hcall, hnext, hhandle⟩ := htakes
    have hproceed : t.proceed? call = some t' := hfire
    simp only [proceed?, hcall, hnext, if_true, Option.some.injEq] at hproceed
    exact .inl (hproceed ▸ hcalm.enterStart hhandle call)

/-- The next run of every record is what its schedule gives in the zone of the scheduler after the
latest instant at which it was computed: at the registration, by a start, or when a run was
recorded. A task without a schedule has none, and a next run lies later than that instant. Nothing
else changes it. A start that finds a loop handle changes no record; one that goes on to its
catch-up runs has computed the next run of every registered record, and as long as nothing makes a
run break off, a start that finds no loop handle goes on and returns as started. -/
theorem nextRun_eq_after_latest_reference {options : Options} {now : Instant}
    (hcreate : create? options now = some start) (hreplay : start.replay? events = some s) :
    (∀ number record, s.records.get? number = some record →
      ∃ event t t' after, start.Occurs events event t t' after ∧ t.Times t' number event ∧
        (∀ later u u' rest, t'.Occurs after later u u' rest → ¬ u.Times u' number later) ∧
        (record.schedule = none → record.nextRun = none) ∧
        (∀ schedule, record.schedule = some schedule →
          schedule.nextAfter options.zone t.now = .ok record.nextRun) ∧
        ∀ next, record.nextRun = some next → t.now < next) ∧
      (∀ event s', s.fire? event = some s' → ∀ number record, s.records.get? number = some record →
        ¬ s.Times s' number event →
        ∃ record', s'.records.get? number = some record' ∧ record'.nextRun = record.nextRun) ∧
      (∀ call s', s.step? (.proceed call) = some s' → s.calls.get? call = some .starting →
        (s.handle.isSome = true → s'.records = s.records ∧
          s'.calls.get? call = some (.returned (.refused .alreadyRunning))) ∧
        (s'.calls.get? call = some .catchingUp → ∀ number, s.IsRegistered number →
          s.Times s' number (.step (.proceed call)))) ∧
      (start.StaysUntroubled events → ∀ call t t' after,
        start.Occurs events (.step (.proceed call)) t t' after → t.TakesLock call →
        s.calls.get? call = some .catchingUp ∨ s.calls.get? call = some (.returned .started)) := by
  have hstart : start.Reachable := .of_create? hcreate
  have hs : s.Reachable := hstart.replay? hreplay
  have hnone : ∀ k, start.records.get? k = none := eq_initial_of_create? hcreate ▸ fun _ => rfl
  refine ⟨fun number record hrecord => ?_, fun event s' hfire number record hrecord hnot => ?_,
    fun call s' hstep hcall => ⟨fun hhandle => ?_, fun hcall' number hregistered => ?_⟩,
    fun huntroubled call t t' after => started_of_staysUntroubled hstart huntroubled hreplay⟩
  · obtain ⟨event, t, t', after, hoccurs, htimes, hlatest, hlast⟩ :=
      exists_times hnone hreplay hrecord
    obtain ⟨reference, hreference, hnext, hadvances⟩ := hs.isPlanned number record hrecord
    -- The instant that the next run is computed from is the one that the journal tells last.
    have he : latestReference? s.journal number = some reference := hreference
    rw [hlatest] at he
    cases he
    have hzone : s.options.zone = options.zone := by
      rw [(options_of_replay? hcreate hreplay).1, Options.normalized_zone]
    have hnext' : nextRun options.zone record.schedule (.ok t.now) = .ok record.nextRun :=
      hzone ▸ hnext
    refine ⟨event, t, t', after, hoccurs, htimes, hlast, fun hschedule => ?_,
      fun schedule hschedule => ?_, fun next hsome => ?_⟩
    · rw [hschedule] at hnext'
      exact (Except.ok.inj hnext').symm
    · rw [hschedule] at hnext'
      exact hnext'
    · cases hschedule : record.schedule with
      | none =>
        rw [hschedule] at hnext'
        rw [← Except.ok.inj hnext'] at hsome
        cases hsome
      | some schedule =>
        rw [hschedule, hsome] at hnext'
        exact (hadvances schedule hschedule).lt_of_nextAfter hnext'
  · exact (transition_of_fire? hfire).nextRun_eq hs hrecord hnot
  · have hproceed : s.proceed? call = some s' := hstep
    simp only [proceed?, hcall] at hproceed
    split at hproceed <;> cases hproceed
    obtain ⟨loop, hloop⟩ := Option.isSome_iff_exists.1 hhandle
    simp only [State.enterStart, hloop, reply, setCall, Table.get?_insert, if_true, and_self]
  · exact hs.times_of_catchingUp hcall hstep hcall' hregistered

/-- A task that is to run every hour, and last ran two days ago. -/
def everyHour : TaskSpec Unit :=
  { TaskSpec.new "backup" () with
    schedule := some "@every 1h", lastRun := some (.ofNanos 1718272800000000000) }

/-- The task is registered, and a run of it ends ten minutes later. -/
def endsLater : List (Event Unit) :=
  [.request (.register everyHour), .request (.runNow true "backup"), .step (.begin 1),
    .elapse (600 * Duration.second), .step (.endAttempt 1 (.completed "done"))]

/-- The next run comes an hour after the end of the run. -/
theorem nextRun_eq_after_latest_reference_of_endsLater :
    ∃ start s record event t t' after, create? Options.standard someMorning = some start ∧
      start.replay? endsLater = some s ∧ s.records.get? 0 = some record ∧
      record.nextRun = some (.ofNanos 1718449800000000000) ∧
      start.Occurs endsLater event t t' after ∧ t.Times t' 0 event ∧
      t.now < .ofNanos 1718449800000000000 ∧
      (.every (.ofSecs 3600) : Cron.Schedule).nextAfter Options.standard.zone t.now =
        .ok (some (.ofNanos 1718449800000000000)) := by
  have hcreate : create? Options.standard someMorning =
      some (initial Options.standard someMorning : State Unit) := rfl
  obtain ⟨s, hs⟩ : ∃ s, (initial Options.standard someMorning).replay? endsLater = some s :=
    Option.isSome_iff_exists.1 (by decide)
  have hlook : ((initial Options.standard someMorning).replay? endsLater).bind (fun s =>
      (s.records.get? 0).map fun record => (record.schedule, record.nextRun)) =
      some (some (.every (.ofSecs 3600)), some (.ofNanos 1718449800000000000)) := by decide
  rw [hs, Option.bind_some] at hlook
  obtain ⟨record, hrecord, hplan⟩ := Option.map_eq_some_iff.1 hlook
  obtain ⟨hschedule, hnext⟩ := Prod.mk.inj hplan
  obtain ⟨hplanned, -⟩ := nextRun_eq_after_latest_reference hcreate hs
  obtain ⟨event, t, t', after, hoccurs, htimes, -, -, hafter, hlater⟩ := hplanned 0 record hrecord
  have hgives := hafter _ hschedule
  rw [hnext] at hgives
  exact ⟨_, s, record, event, t, t', after, hcreate, hs, hrecord, hnext, hoccurs, htimes,
    hlater _ hnext, hgives⟩

/-- The task is registered, and a start is asked for. -/
def startRequested : List (Event Unit) := [.request (.register everyHour), .request .start]

/-- Half an hour later the start gets the lock, and the run that it catches up on is looked at. -/
def startBreaksOff : List (Event Unit) :=
  [.elapse (1800 * Duration.second), .step (.proceed 1), .step (.begin 2)]

/-- A start that fails may change a next run: one that breaks off with a catch-up run, whose
deadline lies past the end of the steady clock, has computed the next runs before. -/
theorem not_forall_nextRun_eq_of_refused_start :
    ¬ ∀ (s t : State Unit) (call : Nat) (after : List (Event Unit)), s.Reachable →
      s.calls.get? call = some .starting → s.replay? after = some t →
      (∃ error, t.calls.get? call = some (.returned (.refused error))) →
      (∀ id, ¬ IsRecorded t.journal id) → ∀ number record record',
      s.records.get? number = some record → t.records.get? number = some record' →
      record'.nextRun = record.nextRun := by
  intro hall
  have hcreate : create? boundless someMorning =
      some (initial boundless someMorning : State Unit) := rfl
  obtain ⟨t, ht⟩ : ∃ t, (initial boundless someMorning).replay? (startRequested ++ startBreaksOff) =
    some t := Option.isSome_iff_exists.1 (by decide)
  obtain ⟨s, hs, hafter⟩ := replay?_append_iff.1 ht
  have hcall : ((initial boundless someMorning).replay? startRequested).bind
      (fun s => s.calls.get? 1) = some .starting := rfl
  have hbroken : ((initial boundless someMorning).replay? (startRequested ++ startBreaksOff)).bind
      (fun t => t.calls.get? 1) = some (.returned (.refused (.broken .unreachableDeadline))) := rfl
  have hbefore : ((initial boundless someMorning).replay? startRequested).bind
      (fun s => (s.records.get? 0).map (·.nextRun)) =
        some (some (.ofNanos 1718449200000000000)) := by
    decide
  have hlater : ((initial boundless someMorning).replay? (startRequested ++ startBreaksOff)).bind
      (fun t => (t.records.get? 0).map (·.nextRun)) =
        some (some (.ofNanos 1718451000000000000)) := by
    decide
  have hunrecorded :
      ((initial boundless someMorning).replay? (startRequested ++ startBreaksOff)).map
      (fun t => t.journal.all fun entry => match entry with | .recorded .. => false | _ => true) =
      some true := by decide
  rw [hs, Option.bind_some] at hcall hbefore
  rw [ht, Option.bind_some] at hbroken hlater
  rw [ht, Option.map_some, Option.some.injEq, List.all_eq_true] at hunrecorded
  obtain ⟨record, hrecord, hnext⟩ := Option.map_eq_some_iff.1 hbefore
  obtain ⟨record', hrecord', hnext'⟩ := Option.map_eq_some_iff.1 hlater
  have hnot : ∀ id, ¬ IsRecorded t.journal id := by
    rintro id ⟨number, result, finished, hmem⟩
    cases hunrecorded _ hmem
  have hsame := hall s t 1 startBreaksOff ⟨_, _, _, _, hcreate, hs⟩ hcall hafter ⟨_, hbroken⟩ hnot 0
    record record' hrecord hrecord'
  rw [hnext, hnext'] at hsame
  cases hsame

end State

end Scheduler

end CronDaemon
