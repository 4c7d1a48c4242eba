import CronDaemon.Proofs.Cron.EarliestRun
import CronDaemon.Proofs.Cron.Succession

/-!
# Lists of runs

A list of up to so many runs ends early only where there is no next run. Where the clock never
changes it leaves no matching instant out, and the runs of an interval are its multiples, as long as
these lie in the calendar.
-/

namespace CronDaemon

open Calendar

/-- The clocks of the zone never change. -/
def Zone.IsFixed (zone : Zone) : Prop := zone.changes = []

/-- A search that sets out from an instant stays inside the calendar. -/
def Zone.HasRoom (zone : Zone) (t : Instant) : Prop :=
  holds (zone.localTime t).nanos = true ∧
    holdsMinute ((zone.localTime t).minute + 1 + 2 * Cron.horizonMinutes) = true

theorem Instant.lt_of_le_of_ne {a b : Instant} (hle : a ≤ b) (hne : a ≠ b) : a < b :=
  Int.lt_iff_le_and_ne.2 ⟨hle, fun h => hne (rank_inj.1 h)⟩

/-- A later instant outside leap seconds has a greater count of nanoseconds. -/
theorem Instant.nanos_lt {a b : Instant} (h : a < b) (hb : b.leap = false) : a.nanos < b.nanos := by
  rw [lt_def] at h
  simp only [rank, hb] at h
  split at h <;> simp only [Bool.false_eq_true, if_false] at h <;> omega

/-- The instant so many nanoseconds later. A leap second is left as if it were the second before
it. -/
def Instant.plus (t : Instant) (nanos : Nat) : Instant :=
  ⟨t.nanos + nanos, t.leap && t.subsec + nanos < Duration.second⟩

theorem Instant.subsec_plus {t : Instant} {nanos : Nat} (h : t.subsec + nanos < Duration.second) :
    (t.plus nanos).subsec = t.subsec + nanos := by
  simp only [subsec, plus, Duration.second] at *
  omega

theorem Instant.plus_zero (t : Instant) : t.plus 0 = t := by
  have hsubsec : t.subsec + 0 < Duration.second := by
    simp only [subsec, Duration.second]
    omega
  rw [plus, decide_eq_true hsubsec, Bool.and_true]
  exact congrArg (Instant.mk · t.leap) (Int.add_zero _)

theorem Instant.plus_plus (t : Instant) (a b : Nat) : (t.plus a).plus b = t.plus (a + b) := by
  refine congrArg₂ Instant.mk (by simp only [plus]; omega) ?_
  change ((t.leap && decide (t.subsec + a < Duration.second)) &&
    decide ((t.plus a).subsec + b < Duration.second)) =
    (t.leap && decide (t.subsec + (a + b) < Duration.second))
  rw [Bool.and_assoc]
  congr 1
  by_cases ha : t.subsec + a < Duration.second
  · rw [subsec_plus ha, decide_eq_true ha, Bool.true_and, Nat.add_assoc]
  · have hab : ¬ t.subsec + (a + b) < Duration.second := by omega
    rw [decide_eq_false ha, decide_eq_false hab, Bool.false_and]

theorem Instant.checked_eq_some_iff {a b : Instant} :
    a.checked = some b ↔ holds a.nanos = true ∧ a = b := by
  rw [checked]
  split <;> simp_all

/-- Adding a duration that is longer than any step leaves the calendar as well. -/
theorem Instant.add?_eq_checked {t : Instant} (ht : holds t.nanos = true) (d : Duration) :
    t.add? d = (t.plus d.nanos).checked := by
  rw [add?]
  split
  · rfl
  · next hlong =>
    have hout : holds (t.plus d.nanos).nanos = false := by
      rw [holds_iff] at ht
      rw [← Bool.not_eq_true, holds_iff]
      have hspan : endDay * dayNanos - firstDay * dayNanos ≤ (longestStep : Int) := by decide
      simp only [plus]
      omega
    rw [checked, hout]
    rfl

theorem Instant.checked_eq_none_iff {a : Instant} : a.checked = none ↔ holds a.nanos = false := by
  rw [checked]
  split <;> simp_all

/-- A sum that has left the calendar stays outside of it. -/
theorem Instant.checked_plus_eq_none {t : Instant} (ht : holds t.nanos = true) {a b : Nat}
    (hab : a ≤ b) (h : (t.plus a).checked = none) : (t.plus b).checked = none := by
  rw [checked_eq_none_iff, ← Bool.not_eq_true, holds_iff] at h ⊢
  rw [holds_iff] at ht
  simp only [plus] at h ⊢
  omega

namespace Cron

open CronFields

variable {schedule : Schedule} {fields : CronFields} {zone : Zone} {after next t : Instant}
  {list : List Instant} {d : Duration} {count : Nat}

section Fixed

/-- An answer of the inner search is the first match, wherever it sets out. -/
theorem isFirstMatch_of_nextLocal (hf : fields.HasValues) {start : LocalTime} {r : Option Int}
    (h : fields.nextLocal start = .ok r) :
    fields.IsFirstMatch (start.minute + 1) (start.minute + 1 + horizonMinutes) r := by
  have hbounds : holdsMinute (start.minute + 1) = true ∧
      holdsMinute (start.minute + 1 + horizonMinutes) = true := by
    rw [nextLocal] at h
    split at h
    · next hboth => exact Bool.and_eq_true_iff.1 hboth
    · cases h
  obtain ⟨r', hr', hfirst⟩ := nextLocal_isFirstMatch hf hbounds.1 hbounds.2
  rw [h] at hr'
  cases hr'
  exact hfirst

theorem localTime_of_isFixed (hz : zone.IsFixed) (t : Instant) :
    zone.localTime t = ⟨t.nanos + zone.base * Zone.secondNanos, t.leap⟩ := by
  rw [Zone.localTime, Zone.offsetAt, hz]
  rfl

/-- A matching minute that lies after the start of the inner search is no earlier than the one that
it finds. -/
theorem le_of_nextLocal (hf : fields.HasValues) {start : LocalTime} {found k : Int}
    (h : fields.nextLocal start = .ok (some found))
    (hk : start.nanos < (LocalTime.ofMinute k).nanos)
    (hadmits : fields.admits (.ofMinute k) = true) : found ≤ k := by
  obtain ⟨-, -, -, hfirst⟩ := isFirstMatch_of_nextLocal hf h
  rw [LocalTime.lt_ofMinute_iff] at hk
  rw [admits, LocalTime.minute_ofMinute] at hadmits
  by_contra hlt
  rw [hfirst k (by omega) (by omega)] at hadmits
  cases hadmits

/-- Where the clock never changes, an instant that shows an earlier minute is no later one. -/
theorem le_of_isFixed (hz : zone.IsFixed) {t u : Instant} {found k : Int} (ht : t.leap = false)
    (hu : u.leap = false) (hshown : zone.localTime t = .ofMinute found)
    (hshown' : zone.localTime u = .ofMinute k) (hle : found ≤ k) : t ≤ u := by
  have hnanos := congrArg LocalTime.nanos hshown
  have hnanos' := congrArg LocalTime.nanos hshown'
  rw [localTime_of_isFixed hz] at hnanos hnanos'
  have hnot : ¬ u < t := by
    rw [Instant.lt_iff_nanos hu ht]
    simp only [LocalTime.ofMinute, minuteNanos] at hnanos hnanos'
    omega
  exact Int.not_lt.1 hnot

/-- Where the clock never changes, the search answers by the earliest matching instant, and by none
when all of them lie behind its limit. -/
theorem searchInstant_of_isFixed (hf : fields.HasValues) (hz : zone.IsFixed)
    {limit start : LocalTime}
    {r : Option Instant} (hreach : limit.minute ≤ start.minute + horizonMinutes)
    (hstart : ∀ u ∈ fields.runInstants zone after, start.nanos < (zone.localTime u).nanos)
    (h : fields.searchInstant zone after limit start = .ok r) :
    (∀ t, r = some t → IsLeast (fields.runInstants zone after) t) ∧
      (r = none → ∀ u ∈ fields.runInstants zone after, limit.nanos ≤ (zone.localTime u).nanos) := by
  fun_induction fields.searchInstant zone after limit start with
  | case1 => cases h
  | case2 start hnext =>
    cases h
    refine ⟨fun t hsome => absurd hsome.symm (Option.some_ne_none t), fun _ u hu => ?_⟩
    by_contra hlt
    have hlater := hstart u hu
    obtain ⟨k, ⟨-, hshown, -⟩, hadmits⟩ := hu
    rw [hshown] at hlt hlater
    obtain ⟨h₁, h₂⟩ := mem_horizon hreach hlater (Int.not_le.1 hlt)
    rw [admits, LocalTime.minute_ofMinute, isFirstMatch_of_nextLocal hf hnext k h₁ h₂] at hadmits
    cases hadmits
  | case3 start found hnext hlimit =>
    cases h
    refine ⟨fun t hsome => absurd hsome.symm (Option.some_ne_none t), fun _ u hu => ?_⟩
    have hlater := hstart u hu
    obtain ⟨k, ⟨-, hshown, -⟩, hadmits⟩ := hu
    rw [hshown] at hlater ⊢
    have hfound : found ≤ k := le_of_nextLocal hf hnext hlater hadmits
    simp only [LocalTime.ofMinute, minuteNanos] at *
    omega
  | case4 start found hnext hlimit t hfind =>
    cases h
    refine ⟨?_, fun hnone => absurd hnone (Option.some_ne_none t)⟩
    rintro _ ⟨⟩
    have ht := Zone.isLeast_of_find hfind
    have hadmits : fields.admits (.ofMinute found) = true := by
      rw [admits, LocalTime.minute_ofMinute]
      exact (isFirstMatch_of_nextLocal hf hnext).2.2.1
    have hrun : t ∈ fields.runInstants zone after := ⟨found, ht.1, hadmits⟩
    refine ⟨hrun, fun u hu => ?_⟩
    have hlater := hstart u hu
    have hleap := leap_of_mem_runInstants hu
    obtain ⟨k, ⟨-, hshown, -⟩, hadmits'⟩ := hu
    rw [hshown] at hlater
    exact le_of_isFixed hz (leap_of_mem_runInstants hrun) hleap ht.1.2.1 hshown
      (le_of_nextLocal hf hnext hlater hadmits')
  | case5 start found hnext hlimit hfind ih =>
    -- No instant shows the minute that was found, so each one that matches shows a later one.
    have hgrow := (isFirstMatch_of_nextLocal hf hnext).1
    refine ih ?_ ?_ h
    · rw [LocalTime.minute_ofMinute]
      omega
    · intro u hu
      have hlater := hstart u hu
      obtain ⟨k, hk, hadmits⟩ := hu
      have hne : k ≠ found := by
        rintro rfl
        have hempty := Zone.laterInstants_of_find_eq_none hfind
        rw [Set.eq_empty_iff_forall_notMem] at hempty
        exact hempty u hk
      rw [hk.2.1] at hlater ⊢
      have hfound : found ≤ k := le_of_nextLocal hf hnext hlater hadmits
      rw [LocalTime.lt_ofMinute_iff, LocalTime.minute_ofMinute]
      omega

/-- Where the clock never changes, the next run is the earliest matching instant, and there is none
only when no instant of the next four years of 366 days matches. -/
theorem nextAfter_of_isFixed (hf : fields.HasValues) (hz : zone.IsFixed) {r : Option Instant}
    (h : fields.nextAfter zone after = .ok r) :
    (∀ t, r = some t → IsLeast (fields.runInstants zone after) t) ∧
      (r = none → ∀ u ∈ fields.runInstants zone after,
        after.nanos + 4 * 366 * dayNanos ≤ u.nanos) := by
  have hlocal : ∀ u, (zone.localTime u).nanos = u.nanos + zone.base * Zone.secondNanos := fun u =>
    congrArg LocalTime.nanos (localTime_of_isFixed hz u)
  rw [CronFields.nextAfter] at h
  split at h
  · obtain ⟨hsome, hnone⟩ := searchInstant_of_isFixed hf hz (by
      simp only [LocalTime.minute, horizonMinutes, dayMinutes, minuteNanos, dayNanos]
      omega) (fun u hu => by
      obtain ⟨k, hk, -⟩ := id hu
      have hlt := Instant.nanos_lt hk.2.2 (leap_of_mem_runInstants hu)
      rw [hlocal, hlocal]
      omega) h
    refine ⟨hsome, fun hr u hu => ?_⟩
    have hlimit := hnone hr u hu
    rw [hlocal] at hlimit
    simp only [hlocal] at hlimit
    omega
  · cases h

/-- Where the clock never changes, a list of runs holds every matching instant up to its last
one. -/
theorem Schedule.Runs.mem_iff (hf : fields.HasValues) (hz : zone.IsFixed)
    (h : (Schedule.cron fields).Runs zone after list) :
    ∀ t, t ∈ list ↔ t ∈ fields.runInstants zone after ∧ t ≤ list.getLastD after := by
  have hadvances : (Schedule.cron fields).Advances := Schedule.IsValid.advances hf
  intro t
  induction h with
  | nil after =>
    refine ⟨fun ht => absurd ht List.not_mem_nil, fun ⟨ht, hle⟩ => ?_⟩
    obtain ⟨m, hlater, -⟩ := ht
    exact absurd hlater.2.2 (Int.not_lt.2 hle)
  | @cons after next list hnext hrest ih =>
    have hleast : IsLeast (fields.runInstants zone after) next :=
      (nextAfter_of_isFixed hf hz hnext).1 next rfl
    have hlt : after < next := hadvances.lt_of_nextAfter hnext
    have hlast : next ≤ list.getLastD next := hrest.le_getLastD hadvances
    rw [List.mem_cons, List.getLastD_cons, ih]
    constructor
    · rintro (rfl | ⟨⟨m, ⟨hholds, hshown, hlater⟩, hadmits⟩, hle⟩)
      · exact ⟨hleast.1, hlast⟩
      · exact ⟨⟨m, ⟨hholds, hshown, Instant.lt_trans hlt hlater⟩, hadmits⟩, hle⟩
    · rintro ⟨ht, hle⟩
      by_cases hfirst : t = next
      · exact .inl hfirst
      · have hlater : next < t := Instant.lt_of_le_of_ne (hleast.2 ht) (Ne.symm hfirst)
        obtain ⟨m, ⟨hholds, hshown, -⟩, hadmits⟩ := ht
        exact .inr ⟨⟨m, ⟨hholds, hshown, hlater⟩, hadmits⟩, hle⟩

end Fixed

/-- The runs of an interval lie at its multiples. -/
theorem Schedule.Runs.of_every (hafter : holds after.nanos = true)
    (h : (Schedule.every d).Runs zone after list) :
    holds (list.getLastD after).nanos = true ∧
      list.getLastD after = after.plus (list.length * d.nanos) ∧
      ∀ i < list.length, list[i]? = (after.plus ((i + 1) * d.nanos)).checked := by
  induction h with
  | nil after =>
    exact ⟨hafter, by rw [List.length_nil, Nat.zero_mul, Instant.plus_zero]; rfl, nofun⟩
  | @cons after next list hnext _ ih =>
    obtain ⟨hholds, rfl⟩ : holds (after.plus d.nanos).nanos = true ∧ after.plus d.nanos = next := by
      rw [← Instant.checked_eq_some_iff, ← Instant.add?_eq_checked hafter]
      exact Except.ok.inj hnext
    obtain ⟨hlast, hsum, hget⟩ := ih hholds
    have hplus : ∀ i : Nat, (after.plus d.nanos).plus (i * d.nanos) =
        after.plus ((i + 1) * d.nanos) := by
      intro i
      rw [Instant.plus_plus, Nat.succ_mul, Nat.add_comm]
    rw [List.getLastD_cons]
    refine ⟨hlast, hsum.trans (hplus _), fun i hi => ?_⟩
    cases i with
    | zero =>
      rw [List.getElem?_cons_zero, Nat.zero_add, Nat.one_mul, Instant.checked, if_pos hholds]
    | succ i =>
      rw [List.getElem?_cons_succ, hget i (Nat.lt_of_succ_lt_succ hi), hplus]

section Faults

variable {fault : Fault}

theorem fault_of_search {minute horizon : Int} (h : fields.search minute horizon = .error fault) :
    fault = .calendarEnd := by
  fun_induction CronFields.search fields minute horizon with
  | case1 | case3 | case6 => cases h
  | case2 _ _ _ _ _ ih => exact ih h
  | case4 _ _ _ _ _ ih => exact ih h
  | case5 =>
    cases h
    rfl

theorem fault_of_nextLocal {start : LocalTime} (h : fields.nextLocal start = .error fault) :
    fault = .calendarEnd := by
  rw [nextLocal] at h
  split at h
  · exact fault_of_search h
  · cases h
    rfl

theorem fault_of_searchInstant {limit start : LocalTime}
    (h : fields.searchInstant zone after limit start = .error fault) : fault = .calendarEnd := by
  fun_induction CronFields.searchInstant fields zone after limit start with
  | case1 _ _ hnext =>
    cases h
    exact fault_of_nextLocal hnext
  | case2 | case3 | case4 => cases h
  | case5 _ _ _ _ _ ih => exact ih h

/-- The search for a next run breaks off only at the end of the calendar, and not with room
ahead. -/
theorem not_hasRoom_of_nextAfter (hvalid : schedule.IsValid)
    (h : schedule.nextAfter zone after = .error fault) :
    fault = .calendarEnd ∧ ¬ zone.HasRoom after ∧ ∃ fields, schedule = .cron fields := by
  cases schedule with
  | every d => cases h
  | cron fields =>
    refine ⟨?_, fun ⟨hlocal, hroom⟩ => ?_, fields, rfl⟩
    · simp only [Schedule.nextAfter, CronFields.nextAfter] at h
      split at h
      · exact fault_of_searchInstant h
      · cases h
        rfl
    · obtain ⟨r, hr, -⟩ := nextAfter_isFirstRun hvalid hlocal hroom
      rw [show fields.nextAfter zone after = .error fault from h] at hr
      cases hr

end Faults

/-- What a list of up to `count` runs after an instant has to be. -/
structure Schedule.Lists (schedule : Schedule) (zone : Zone) (after : Instant) (count : Nat)
    (list : List Instant) : Prop where
  length_le : list.length ≤ count
  ascends : (after :: list).Pairwise (· < ·)
  /-- A shorter list ends where there is no next run. -/
  ends : list.length < count → schedule.nextAfter zone (list.getLastD after) = .ok none
  /-- Where the clock never changes, no matching instant is left out. -/
  complete : ∀ fields, schedule = .cron fields → zone.IsFixed →
    ∀ t, t ∈ list ↔ t ∈ fields.runInstants zone after ∧ t ≤ list.getLastD after
  /-- And a shorter list ends where nothing matches for four years of 366 days. -/
  reaches : ∀ fields, schedule = .cron fields → zone.IsFixed → list.length < count →
    ∀ t ∈ fields.runInstants zone (list.getLastD after),
      (list.getLastD after).nanos + 4 * 366 * dayNanos ≤ t.nanos
  /-- The runs of an interval are its multiples, as long as they lie in the calendar. -/
  multiples : ∀ d, schedule = .every d → holds after.nanos = true →
    ∀ i < count, list[i]? = (after.plus ((i + 1) * d.nanos)).checked

theorem Schedule.Runs.lists (hvalid : schedule.IsValid) (h : schedule.Runs zone after list)
    (hle : list.length ≤ count)
    (hend : list.length < count → schedule.nextAfter zone (list.getLastD after) = .ok none) :
    schedule.Lists zone after count list where
  length_le := hle
  ascends := h.pairwise hvalid.advances
  ends := hend
  complete := by
    rintro fields rfl hz
    exact h.mem_iff hvalid hz
  reaches := by
    rintro fields rfl hz hlt
    exact (nextAfter_of_isFixed hvalid hz (hend hlt)).2 rfl
  multiples := by
    rintro d rfl hafter i hi
    obtain ⟨hlast, hsum, hget⟩ := h.of_every hafter
    by_cases hin : i < list.length
    · exact hget i hin
    · -- The multiple after the last run has left the calendar, and so have all later ones.
      have hnone : (after.plus ((list.length + 1) * d.nanos)).checked = none := by
        rw [Nat.succ_mul, ← Instant.plus_plus, ← hsum, ← Instant.add?_eq_checked hlast]
        exact Except.ok.inj (hend (by omega))
      rw [List.getElem?_eq_none (by omega),
        Instant.checked_plus_eq_none hafter (Nat.mul_le_mul_right _ (by omega)) hnone]

/-- Up to as many runs as there is room for are listed one after the other. A list is missing only
where a run is reached that lies too near the end of the calendar to search on from it, and a
preview adds nothing but the errors of reading. -/
theorem Schedule.upcoming_lists (hvalid : schedule.IsValid) (zone : Zone) (after : Instant)
    (hcount : count ≤ Schedule.longestList) :
    ((∃ list, schedule.upcoming zone after count = .ok list ∧
        schedule.Lists zone after count list) ∨
      ∃ fields list, schedule = .cron fields ∧
        schedule.upcoming zone after count = .error .calendarEnd ∧ schedule.Runs zone after list ∧
        list.length < count ∧ ¬ zone.HasRoom (list.getLastD after)) ∧
    (∀ text, Schedule.parse text = .ok schedule →
      Schedule.preview text zone after count = .ok (schedule.upcoming zone after count)) ∧
    ∀ text e, Schedule.parse text = .error e →
      Schedule.preview text zone after count = .error e := by
  refine ⟨?_, fun text h => by rw [Schedule.preview, h]; rfl,
    fun text e h => by rw [Schedule.preview, h]; rfl⟩
  rw [Schedule.upcoming, if_pos hcount]
  rcases schedule.runsAfter_cases zone after count with
    ⟨list, hlist, hruns, hle, hend⟩ | ⟨list, fault, hlist, hruns, hlt, hfault⟩
  · exact .inl ⟨list, hlist, hruns.lists hvalid hle hend⟩
  · obtain ⟨rfl, hroom, fields, hcron⟩ := not_hasRoom_of_nextAfter hvalid hfault
    exact .inr ⟨fields, list, hcron, hlist, hruns, hlt, hroom⟩

/-- A zone whose clocks are a quarter of an hour and seven seconds ahead. -/
def quarterAhead : Zone := .fixed "+00:15:07" 907

/-- Ten o'clock on 15 June 2024. -/
def midJune : Instant := .ofNanos 1718445600000000000

/-- The quarters of an hour after ten o'clock, where they come seven seconds early. -/
theorem upcoming_lists_of_quarterHours :
    (Schedule.cron quarterHours).IsValid ∧ 3 ≤ Schedule.longestList ∧
      (Schedule.cron quarterHours).Lists quarterAhead midJune 3
        [.ofNanos 1718446493000000000, .ofNanos 1718447393000000000,
          .ofNanos 1718448293000000000] := by
  have hcount : 3 ≤ Schedule.longestList := by decide
  have hlist : (Schedule.cron quarterHours).upcoming quarterAhead midJune 3 =
      .ok [.ofNanos 1718446493000000000, .ofNanos 1718447393000000000,
        .ofNanos 1718448293000000000] := by decide +kernel
  have hvalid : (Schedule.cron quarterHours).IsValid := quarterHours_hasValues
  refine ⟨hvalid, hcount, ?_⟩
  obtain ⟨⟨list, hlist', hlists⟩ | ⟨_, _, _, hbroken, -⟩, -⟩ :=
    Schedule.upcoming_lists hvalid quarterAhead midJune hcount
  · rw [hlist] at hlist'
    cases hlist'
    exact hlists
  · rw [hlist] at hbroken
    cases hbroken

/-- Midnight on every 30 February, as `0 0 30 2 *` has it. -/
def neverMidnights : CronFields :=
  ⟨.ofList [0], .ofList [0], .ofList [30], .ofList [2], .full .dayOfWeek⟩

/-- A number of runs that fits 64 bits is not always listed: the room for them is taken in advance,
even for a schedule that never runs. -/
theorem not_forall_upcoming_eq_ok :
    ¬ ∀ (text : String) (schedule : Schedule) (zone : Zone) (after : Instant) (count : Nat),
      Schedule.parse text = .ok schedule → zone.HasRoom after → count ≤ Text.max64 →
      ∃ list, schedule.upcoming zone after count = .ok list ∧ list.length ≤ count := by
  intro hall
  obtain ⟨list, hlist, -⟩ := hall "0 0 30 2 *" (.cron neverMidnights) .utc midJune Text.max64
    (by decide +kernel) ⟨by decide, by decide⟩ (by decide)
  rw [Schedule.upcoming, if_neg (by decide)] at hlist
  cases hlist

end Cron

end CronDaemon
