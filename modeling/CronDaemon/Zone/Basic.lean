import CronDaemon.Calendar.Instant

/-!
# Time zones

A zone is a history of distances from universal time. Every instant has one local time, but a
local time may belong to no instant, when the clock was put forward over it, or to several, when
the clock was put back. `mem_instantsAt_iff` says that `instantsAt` lists exactly the instants
of the calendar that a clock of the zone shows in the given way, and `instantsAt_sorted` that it
lists them in order.
-/

namespace CronDaemon

/-- A history of distances from universal time. -/
structure Zone where
  /-- The name under which the zone was asked for. -/
  name : String
  /-- The seconds ahead of universal time before the first change. -/
  base : Int
  /-- The changes in order: the second of universal time since 1970, and the distance from then
  on. -/
  changes : List (Int × Int) := []
  deriving DecidableEq, Repr, Inhabited

namespace Zone

/-- The zones that can be asked for by name. Names are compared exactly. -/
abbrev Database := String → Option Zone

/-- Universal time. -/
def utc : Zone := ⟨"UTC", 0, []⟩

/-- A zone whose clocks never change. -/
def fixed (name : String) (offset : Int) : Zone := ⟨name, offset, []⟩

/-- Nanoseconds in a second. -/
def secondNanos : Int := 1000000000

/-- The seconds ahead of universal time at an instant. -/
def offsetAt (z : Zone) (t : Instant) : Int :=
  z.changes.foldl (fun offset (second, next) =>
    if second * secondNanos ≤ t.nanos then next else offset) z.base

/-- What a clock of the zone shows at an instant. -/
def localTime (z : Zone) (t : Instant) : LocalTime :=
  ⟨t.nanos + z.offsetAt t * secondNanos, t.leap⟩

/-- All distances of the history, each once. -/
def offsets (z : Zone) : List Int := (z.base :: z.changes.map (·.2)).eraseDups

/-- The instants at which a clock of the zone shows a local time, in order. -/
def instantsAt (z : Zone) (l : LocalTime) : List Instant :=
  ((z.offsets.map fun offset => Instant.mk (l.nanos - offset * secondNanos) l.leap).filter fun t =>
    Calendar.holds t.nanos && z.localTime t == l).mergeSort fun a b => a ≤ b

theorem offsetAt_mem_offsets (z : Zone) (t : Instant) : z.offsetAt t ∈ z.offsets := by
  have key : ∀ (changes : List (Int × Int)) (o : Int),
      changes.foldl (fun offset (second, next) =>
        if second * secondNanos ≤ t.nanos then next else offset) o ∈ o :: changes.map (·.2) := by
    intro changes
    induction changes with
    | nil => simp
    | cons c cs ih =>
      intro o
      obtain ⟨second, next⟩ := c
      simp only [List.foldl_cons, List.map_cons, List.mem_cons]
      split
      · exact Or.inr (List.mem_cons.1 (ih next))
      · rcases List.mem_cons.1 (ih o) with h | h
        · exact Or.inl h
        · exact Or.inr (Or.inr h)
  rw [offsets, List.mem_eraseDups]
  exact key z.changes z.base

/-- The listed instants are those that show the local time. -/
theorem mem_instantsAt_iff {z : Zone} {l : LocalTime} {t : Instant} :
    t ∈ z.instantsAt l ↔ Calendar.holds t.nanos = true ∧ z.localTime t = l := by
  simp only [instantsAt, List.mem_mergeSort, List.mem_filter, List.mem_map, Bool.and_eq_true,
    beq_iff_eq]
  constructor
  · exact fun h => h.2
  · rintro ⟨hin, rfl⟩
    exact ⟨⟨z.offsetAt t, z.offsetAt_mem_offsets t, by simp [localTime]⟩, hin, rfl⟩

/-- The listed instants ascend. -/
theorem instantsAt_sorted (z : Zone) (l : LocalTime) :
    (z.instantsAt l).Pairwise fun a b => a ≤ b := by
  have h := @List.pairwise_mergeSort Instant (fun a b => decide (a ≤ b))
    (fun a b c h₁ h₂ => by simp only [decide_eq_true_eq, Instant.le_def] at *; omega)
    (fun a b => by simp only [Bool.or_eq_true, decide_eq_true_eq, Instant.le_def]; omega)
    ((z.offsets.map fun offset => Instant.mk (l.nanos - offset * secondNanos) l.leap).filter
      fun t =>
      Calendar.holds t.nanos && z.localTime t == l)
  simpa [instantsAt] using h

end Zone

end CronDaemon
