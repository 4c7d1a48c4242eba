/-!
# Cron fields

The five positions of a cron expression, each with its bound, and sets of field values. A set is
a word of 64 bits, since every bound ends below 64; `mem_values` and `values_ascending` describe
the listing of its values.
-/

namespace CronDaemon.Cron

/-- A position of a cron expression. -/
inductive Field where
  | minute
  | hour
  | dayOfMonth
  | month
  | dayOfWeek
  deriving DecidableEq, Repr

namespace Field

/-- The positions in the order of an expression. -/
def all : List Field := [minute, hour, dayOfMonth, month, dayOfWeek]

/-- The least value of a field. -/
def min : Field → Nat
  | minute | hour | dayOfWeek => 0
  | dayOfMonth | month => 1

/-- The greatest value of a field. -/
def max : Field → Nat
  | minute => 59
  | hour => 23
  | dayOfMonth => 31
  | month => 12
  | dayOfWeek => 6

/-- The name of a field in messages. -/
def name : Field → String
  | minute => "minute"
  | hour => "hour"
  | dayOfMonth => "day-of-month"
  | month => "month"
  | dayOfWeek => "day-of-week"

/-- The name of a field in the structured form of an error. -/
def tag : Field → String
  | minute => "Minute"
  | hour => "Hour"
  | dayOfMonth => "DayOfMonth"
  | month => "Month"
  | dayOfWeek => "DayOfWeek"

/-- The field of a name. -/
def ofName? (name : String) : Option Field := all.find? fun field => field.name == name

theorem max_lt (field : Field) : field.max < 64 := by cases field <;> decide

end Field

/-- A set of values below 64. -/
structure FieldSet where
  /-- Bit `v` is set when `v` belongs to the set. -/
  bits : BitVec 64
  deriving DecidableEq, Repr

namespace FieldSet

/-- The set without values. -/
def empty : FieldSet := ⟨0⟩

/-- Add a value. -/
def insert (set : FieldSet) (value : Nat) : FieldSet := ⟨set.bits ||| BitVec.twoPow 64 value⟩

/-- Whether a value belongs to a set. -/
def contains (set : FieldSet) (value : Nat) : Bool := set.bits.getLsbD value

/-- The values of a set, ascending. -/
def values (set : FieldSet) : List Nat := (List.range 64).filter set.contains

/-- The number of values. -/
def size (set : FieldSet) : Nat := set.values.length

/-- Whether a set has no values. -/
def isEmpty (set : FieldSet) : Bool := set.bits == 0

/-- The set of the given values. -/
def ofList (values : List Nat) : FieldSet := values.foldl insert empty

/-- The numbers from `lo` to `hi` in steps of `step`. -/
def stepped (lo hi step : Nat) : List Nat := List.range' lo ((hi - lo) / step + 1) step

/-- All values in the bound of a field. -/
def full (field : Field) : FieldSet := ofList (stepped field.min field.max 1)

@[simp] theorem contains_empty (v : Nat) : empty.contains v = false := by
  simp [contains, empty]

@[simp] theorem contains_insert (set : FieldSet) (a v : Nat) :
    (set.insert a).contains v = (set.contains v || (decide (v < 64) && decide (a = v))) := by
  simp only [contains, insert, BitVec.getLsbD_or, BitVec.getLsbD_twoPow]
  by_cases h : a = v
  · subst h; simp
  · simp [h]

theorem contains_eq_false {set : FieldSet} {v : Nat} (h : 64 ≤ v) : set.contains v = false :=
  BitVec.getLsbD_of_ge _ _ h

/-- The listed values are those that belong to the set. -/
theorem mem_values {set : FieldSet} {v : Nat} : v ∈ set.values ↔ set.contains v = true := by
  simp only [values, List.mem_filter, List.mem_range, and_iff_right_iff_imp]
  intro h
  exact Nat.lt_of_not_le fun hv => by simp [contains_eq_false hv] at h

/-- The listed values ascend. -/
theorem values_ascending (set : FieldSet) : set.values.Pairwise (· < ·) :=
  List.Pairwise.filter _ List.pairwise_lt_range

/-- A set is its values. -/
theorem ext_contains {a b : FieldSet} (h : ∀ v < 64, a.contains v = b.contains v) : a = b := by
  obtain ⟨a⟩ := a
  obtain ⟨b⟩ := b
  congr 1
  exact BitVec.eq_of_getLsbD_eq h

theorem isEmpty_iff {set : FieldSet} : set.isEmpty = true ↔ ∀ v, set.contains v = false := by
  simp only [isEmpty, beq_iff_eq]
  constructor
  · intro h v; simp [contains, h]
  · intro h
    exact BitVec.eq_of_getLsbD_eq fun i _ => by simpa [contains] using h i

/-- A set built from a list holds the values of the list below 64. -/
theorem contains_ofList (vs : List Nat) (v : Nat) :
    (ofList vs).contains v = (decide (v < 64) && decide (v ∈ vs)) := by
  have key : ∀ set : FieldSet, (vs.foldl insert set).contains v =
      (set.contains v || (decide (v < 64) && decide (v ∈ vs))) := by
    induction vs with
    | nil => simp
    | cons a vs ih =>
      intro set
      rw [List.foldl_cons, ih, contains_insert]
      by_cases hv : v < 64 <;> by_cases ha : a = v <;> simp [hv, ha]
      have : v ≠ a := fun h => ha h.symm
      simp [this]
  simpa [ofList] using key empty

end FieldSet

end CronDaemon.Cron
