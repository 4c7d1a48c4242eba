import CronDaemon.Cron.Search
import CronDaemon.Proofs.Cron.FieldValues

/-!
# Successive runs

The next run of a schedule that was read lies later than the time after which it is looked for. A
list of runs is a chain of next runs, so that it ascends; it is as long as it may be, or ends where
there is no next run, or is missing because a search breaks off.
-/

namespace CronDaemon

open Calendar

theorem Instant.lt_trans {a b c : Instant} (hab : a < b) (hbc : b < c) : a < c :=
  Int.lt_trans hab hbc

/-- Adding a duration of some length gives a later instant, also from within a leap second. -/
theorem Instant.lt_of_add? {a b : Instant} {d : Duration} (hd : 0 < d.nanos)
    (h : a.add? d = some b) : a < b := by
  rw [add?] at h
  split at h
  · rw [checked] at h
    split at h
    · cases h
      obtain ⟨nanos, leap⟩ := a
      rw [lt_def]
      cases leap with
      | false =>
        simp only [rank, Bool.false_and, Bool.false_eq_true, if_false]
        omega
      | true =>
        simp only [rank, subsec, Bool.true_and, if_true]
        split
        · omega
        · next hout =>
          have hpast := mt decide_eq_true hout
          simp only [Duration.second] at hpast
          omega
    · cases h
  · cases h

namespace Cron

open CronFields

variable {schedule : Schedule} {fields : CronFields} {zone : Zone} {after next : Instant}
  {list : List Instant}

theorem CronFields.lt_of_searchInstant {limit start : LocalTime}
    (h : fields.searchInstant zone after limit start = .ok (some next)) : after < next := by
  fun_induction CronFields.searchInstant fields zone after limit start with
  | case1 | case2 | case3 => cases h
  | case4 _ _ _ _ t hfind =>
    cases h
    simpa using List.find?_some hfind
  | case5 _ _ _ _ _ ih => exact ih h

/-- The interval of a schedule, if it has one, is positive. -/
def Schedule.Advances (schedule : Schedule) : Prop :=
  ∀ d, schedule.interval? = some d → 0 < d.nanos

/-- The next run lies later than the time after which it is looked for. -/
theorem Schedule.Advances.lt_of_nextAfter (h : schedule.Advances)
    (hnext : schedule.nextAfter zone after = .ok (some next)) : after < next := by
  cases schedule with
  | every d => exact Instant.lt_of_add? (h d rfl) (Except.ok.inj hnext)
  | cron fields =>
    simp only [Schedule.nextAfter, CronFields.nextAfter] at hnext
    split at hnext
    · exact CronFields.lt_of_searchInstant hnext
    · cases hnext

/-- What reading gives: fields that admit a value each, or an interval of some length. -/
def Schedule.IsValid : Schedule → Prop
  | .cron fields => fields.HasValues
  | .every d => 0 < d.nanos

theorem Schedule.isValid_of_parse {text : String} (h : Schedule.parse text = .ok schedule) :
    schedule.IsValid := by
  simp only [Schedule.parse, Schedule.parseWith, Schedule.parseChars] at h
  split at h
  · cases h
  · split at h
    · split at h
      · next d hd =>
        cases h
        exact Schedule.parseEvery_pos hd
      · cases h
    · obtain ⟨fields, hfields, rfl⟩ := map_eq_ok_iff.1 h
      exact hasValues_of_parse hfields

theorem Schedule.IsValid.advances (h : schedule.IsValid) : schedule.Advances := by
  cases schedule with
  | cron fields => exact nofun
  | every d =>
    intro d' hd'
    cases hd'
    exact h

theorem Schedule.advances_of_parse {text : String} (h : Schedule.parse text = .ok schedule) :
    schedule.Advances := (Schedule.isValid_of_parse h).advances

/-- A list of successive runs after an instant. -/
inductive Schedule.Runs (schedule : Schedule) (zone : Zone) : Instant → List Instant → Prop
  | nil (after : Instant) : schedule.Runs zone after []
  | cons {after next : Instant} {list : List Instant}
      (h : schedule.nextAfter zone after = .ok (some next)) (rest : schedule.Runs zone next list) :
      schedule.Runs zone after (next :: list)

/-- Successive runs ascend from the instant on. -/
theorem Schedule.Runs.pairwise (hadvances : schedule.Advances) (h : schedule.Runs zone after list) :
    (after :: list).Pairwise (· < ·) := by
  induction h with
  | nil after => exact List.pairwise_singleton _ _
  | @cons after next list hnext _ ih =>
    have hlt : after < next := hadvances.lt_of_nextAfter hnext
    refine List.pairwise_cons.2 ⟨fun t ht => ?_, ih⟩
    rcases List.mem_cons.1 ht with rfl | ht
    · exact hlt
    · exact Instant.lt_trans hlt ((List.pairwise_cons.1 ih).1 t ht)

theorem Schedule.Runs.le_getLastD (hadvances : schedule.Advances)
    (h : schedule.Runs zone after list) : after ≤ list.getLastD after := by
  induction h with
  | nil after => exact Int.le_refl _
  | cons hnext _ ih =>
    rw [List.getLastD_cons]
    exact Int.le_trans (Int.le_of_lt (hadvances.lt_of_nextAfter hnext)) ih

/-- A list of runs is as long as it may be or ends where there is no next run; otherwise the search
from the last run that was found breaks off. -/
theorem Schedule.runsAfter_cases (schedule : Schedule) (zone : Zone) (after : Instant)
    (count : Nat) :
    (∃ list, schedule.runsAfter zone after count = .ok list ∧ schedule.Runs zone after list ∧
      list.length ≤ count ∧
      (list.length < count → schedule.nextAfter zone (list.getLastD after) = .ok none)) ∨
    ∃ list fault, schedule.runsAfter zone after count = .error fault ∧
      schedule.Runs zone after list ∧ list.length < count ∧
      schedule.nextAfter zone (list.getLastD after) = .error fault := by
  induction count generalizing after with
  | zero => exact .inl ⟨[], rfl, .nil after, Nat.le_refl 0, fun h => absurd h (Nat.lt_irrefl 0)⟩
  | succ count ih =>
    rw [Schedule.runsAfter]
    cases hnext : schedule.nextAfter zone after with
    | error fault => exact .inr ⟨[], fault, rfl, .nil after, Nat.zero_lt_succ count, hnext⟩
    | ok next? =>
      cases next? with
      | none => exact .inl ⟨[], rfl, .nil after, Nat.zero_le _, fun _ => hnext⟩
      | some next =>
        rcases ih next with
          ⟨list, hlist, hruns, hle, hend⟩ | ⟨list, fault, hlist, hruns, hlt, hfault⟩
        · refine .inl ⟨next :: list, ?_, .cons hnext hruns, Nat.succ_le_succ hle, fun h => ?_⟩
          · simp only [hlist, bind, Except.bind]
            rfl
          · rw [List.getLastD_cons]
            exact hend (Nat.lt_of_succ_lt_succ h)
        · refine .inr ⟨next :: list, fault, ?_, .cons hnext hruns, Nat.succ_lt_succ hlt, ?_⟩
          · simp only [hlist, bind, Except.bind]
          · rw [List.getLastD_cons]
            exact hfault

end Cron

end CronDaemon
