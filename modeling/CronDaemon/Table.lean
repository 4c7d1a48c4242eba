/-!
# Tables

A table assigns values to finitely many keys and keeps the keys in the order in which they came.
`get?` is the view of a table: every operation is described by what it does to it. No key stands
twice, so that listing a table names each key once.
-/

namespace CronDaemon

/-- A finite map that keeps its keys in order of arrival. -/
structure Table (κ α : Type) where
  /-- The keys with their values. -/
  entries : List (κ × α)
  /-- No key stands twice. -/
  nodup : (entries.map (·.1)).Nodup

namespace Table

variable {κ α : Type}

/-- The table without keys. -/
def empty : Table κ α := ⟨[], List.nodup_nil⟩

instance : Inhabited (Table κ α) := ⟨empty⟩

/-- The keys in order of arrival. -/
def keys (t : Table κ α) : List κ := t.entries.map (·.1)

/-- The values in the order of their keys. -/
def values (t : Table κ α) : List α := t.entries.map (·.2)

/-- The number of keys. -/
def size (t : Table κ α) : Nat := t.entries.length

theorem ext_entries {a b : Table κ α} (h : a.entries = b.entries) : a = b := by
  cases a; cases b; simp_all

instance [DecidableEq κ] [DecidableEq α] : DecidableEq (Table κ α) := fun a b =>
  decidable_of_iff (a.entries = b.entries) ⟨ext_entries, fun h => h ▸ rfl⟩

variable [DecidableEq κ]

/-- The value that stands first for a key. -/
def lookup (k : κ) : List (κ × α) → Option α
  | [] => none
  | (a, v) :: r => if a = k then some v else lookup k r

/-- The value of a key. -/
def get? (t : Table κ α) (k : κ) : Option α := lookup k t.entries

/-- Whether a key has a value. -/
def contains (t : Table κ α) (k : κ) : Bool := (t.get? k).isSome

/-- Replace the value of a key in its place, or put the key at the end. -/
def put (k : κ) (v : α) : List (κ × α) → List (κ × α)
  | [] => [(k, v)]
  | (a, w) :: r => if a = k then (k, v) :: r else (a, w) :: put k v r

/-- A new key comes last. -/
theorem map_fst_put (k : κ) (v : α) (es : List (κ × α)) :
    (put k v es).map (·.1) =
      if k ∈ es.map (·.1) then es.map (·.1) else es.map (·.1) ++ [k] := by
  induction es with
  | nil => simp [put]
  | cons e es ih =>
    obtain ⟨a, w⟩ := e
    by_cases h : a = k
    · simp [put, h]
    · have hk : k ≠ a := fun e => h e.symm
      simp only [put, h, if_false, List.map_cons, ih, List.mem_cons, hk, false_or]
      split <;> simp

/-- What is put under a key is found there. -/
theorem lookup_put (k : κ) (v : α) (es : List (κ × α)) (k' : κ) :
    lookup k' (put k v es) = if k = k' then some v else lookup k' es := by
  induction es with
  | nil => simp [put, lookup]
  | cons e es ih =>
    obtain ⟨a, w⟩ := e
    by_cases h : a = k
    · by_cases hk : k = k' <;> simp_all [put, lookup]
    · by_cases hk : k = k' <;> by_cases ha : a = k' <;> simp_all [put, lookup]

/-- What is put later stays. -/
theorem put_put (k : κ) (v w : α) (es : List (κ × α)) : put k v (put k w es) = put k v es := by
  induction es with
  | nil => simp [put]
  | cons e es ih =>
    obtain ⟨a, u⟩ := e
    by_cases h : a = k <;> simp [put, h, ih]

theorem lookup_eq_none_iff {k : κ} {es : List (κ × α)} :
    lookup k es = none ↔ k ∉ es.map (·.1) := by
  induction es with
  | nil => simp [lookup]
  | cons e es ih =>
    obtain ⟨a, w⟩ := e
    by_cases h : a = k
    · simp [lookup, h]
    · have hk : k ≠ a := fun e => h e.symm
      simp [lookup, h, ih, hk]

/-- A change of all values changes what is found. -/
theorem lookup_map (f : α → α) (k : κ) (es : List (κ × α)) :
    lookup k (es.map fun e => (e.1, f e.2)) = (lookup k es).map f := by
  induction es with
  | nil => rfl
  | cons e es ih =>
    simp only [List.map_cons, lookup, ih]
    split <;> rfl

/-- Give a key a value. A new key comes last. -/
def insert (t : Table κ α) (k : κ) (v : α) : Table κ α where
  entries := put k v t.entries
  nodup := by
    rw [map_fst_put]
    split
    · exact t.nodup
    · next h =>
      refine List.nodup_append.2 ⟨t.nodup, by simp, fun a ha b hb e => h ?_⟩
      rw [← List.mem_singleton.1 hb, ← e]
      exact ha

/-- Drop a key. -/
def erase (t : Table κ α) (k : κ) : Table κ α where
  entries := t.entries.filter fun e => e.1 ≠ k
  nodup := t.nodup.sublist (List.filter_sublist.map _)

/-- Change the value of a key, if it has one. -/
def modify (t : Table κ α) (k : κ) (f : α → α) : Table κ α where
  entries := t.entries.map fun e => if e.1 = k then (e.1, f e.2) else e
  nodup := by
    have h : (t.entries.map fun e => if e.1 = k then (e.1, f e.2) else e).map (·.1) =
        t.entries.map (·.1) := by
      rw [List.map_map]
      exact List.map_congr_left fun e _ => by simp only [Function.comp]; split <;> rfl
    rw [h]
    exact t.nodup

/-- The table of the given keys and values, the last value of a key counting. -/
def ofList (es : List (κ × α)) : Table κ α := es.foldl (fun t e => t.insert e.1 e.2) empty

/-- Take over a single entry; where the key has a value already, the two are combined. -/
def combine (f : α → α → α) (t : Table κ α) (e : κ × α) : Table κ α :=
  t.insert e.1 (match t.get? e.1 with | some v => f v e.2 | none => e.2)

/-- Take over the entries of another table; where both have a key, its values are combined. -/
def mergeWith (f : α → α → α) (t u : Table κ α) : Table κ α := u.entries.foldl (combine f) t

@[simp] theorem get?_empty (k : κ) : (empty : Table κ α).get? k = none := rfl

@[simp] theorem get?_insert (t : Table κ α) (k : κ) (v : α) (k' : κ) :
    (t.insert k v).get? k' = if k = k' then some v else t.get? k' :=
  lookup_put k v t.entries k'

/-- Of two values given to a key the later one counts. -/
@[simp] theorem insert_insert (t : Table κ α) (k : κ) (v w : α) :
    (t.insert k w).insert k v = t.insert k v :=
  ext_entries (put_put k v w t.entries)

@[simp] theorem get?_erase (t : Table κ α) (k k' : κ) :
    (t.erase k).get? k' = if k = k' then none else t.get? k' := by
  simp only [get?, erase]
  induction t.entries with
  | nil => simp [lookup]
  | cons e es ih =>
    obtain ⟨a, w⟩ := e
    by_cases h : a = k <;> by_cases hk : k = k' <;> by_cases ha : a = k' <;>
      simp_all [lookup]

@[simp] theorem get?_modify (t : Table κ α) (k : κ) (f : α → α) (k' : κ) :
    (t.modify k f).get? k' = if k = k' then (t.get? k').map f else t.get? k' := by
  simp only [get?, modify]
  induction t.entries with
  | nil => simp [lookup]
  | cons e es ih =>
    obtain ⟨a, w⟩ := e
    by_cases h : a = k <;> by_cases hk : k = k' <;> by_cases ha : a = k' <;>
      simp_all [lookup]

@[simp] theorem contains_modify (t : Table κ α) (k : κ) (f : α → α) (k' : κ) :
    (t.modify k f).contains k' = t.contains k' := by
  rw [contains, contains, get?_modify]
  split
  · next h =>
    subst h
    exact Option.isSome_map
  · rfl

/-- A key is there exactly if it has a value. -/
theorem mem_keys_iff {t : Table κ α} {k : κ} : k ∈ t.keys ↔ ∃ v, t.get? k = some v := by
  rw [← Option.isSome_iff_exists, Option.isSome_iff_ne_none, ne_eq, get?, lookup_eq_none_iff,
    Classical.not_not, keys]

/-- Tables with the same keys in the same order and the same values are equal. -/
theorem ext_get? {t u : Table κ α} (hkeys : t.keys = u.keys) (h : ∀ k, t.get? k = u.get? k) :
    t = u := by
  have key : ∀ es fs : List (κ × α), es.map (·.1) = fs.map (·.1) → (es.map (·.1)).Nodup →
      (∀ k, lookup k es = lookup k fs) → es = fs := by
    intro es
    induction es with
    | nil =>
      intro fs hsame _ _
      exact (List.map_eq_nil_iff.1 hsame.symm).symm
    | cons e es ih =>
      intro fs hsame hnodup hlookup
      obtain ⟨a, v⟩ := e
      cases fs with
      | nil => cases hsame
      | cons e' fs =>
        obtain ⟨b, w⟩ := e'
        obtain ⟨rfl, hrest⟩ := List.cons.inj hsame
        have hvalue := hlookup a
        rw [lookup, lookup, if_pos rfl, if_pos rfl, Option.some.injEq] at hvalue
        obtain ⟨hfresh, hnodup⟩ := List.nodup_cons.1 hnodup
        rw [hvalue, ih fs hrest hnodup fun k => ?_]
        by_cases hk : a = k
        · subst hk
          rw [lookup_eq_none_iff.2 hfresh, lookup_eq_none_iff.2 (hrest ▸ hfresh)]
        · have hothers := hlookup k
          rwa [lookup, lookup, if_neg hk, if_neg hk] at hothers
  exact ext_entries (key _ _ hkeys t.nodup h)

theorem keys_combine (f : α → α → α) (t : Table κ α) (e : κ × α) :
    (t.combine f e).keys = if e.1 ∈ t.keys then t.keys else t.keys ++ [e.1] :=
  map_fst_put ..

/-- To combine a value merges it with what is under its key. -/
theorem get?_combine (f : α → α → α) (t : Table κ α) (e : κ × α) (k : κ) :
    (t.combine f e).get? k = if e.1 = k then (t.get? k).merge f (some e.2) else t.get? k := by
  rw [combine, get?_insert]
  split
  · next he =>
    subst he
    cases t.get? e.1 <;> rfl
  · rfl

/-- The value of a key in a merged table is made from its values in the two. -/
@[simp] theorem get?_mergeWith (f : α → α → α) (t u : Table κ α) (k : κ) :
    (t.mergeWith f u).get? k = (t.get? k).merge f (u.get? k) := by
  have key : ∀ (es : List (κ × α)) (t : Table κ α), (es.map (·.1)).Nodup →
      (es.foldl (combine f) t).get? k = (t.get? k).merge f (lookup k es) := by
    intro es
    induction es with
    | nil =>
      intro t _
      exact Option.merge_none_right.symm
    | cons e es ih =>
      intro t hnodup
      obtain ⟨hfresh, hnodup⟩ := List.nodup_cons.1 hnodup
      rw [List.foldl_cons, ih _ hnodup, get?_combine, lookup]
      split
      · next hk => rw [lookup_eq_none_iff.2 (hk ▸ hfresh), Option.merge_none_right]
      · rfl
  exact key u.entries t u.nodup

/-- A merged table has the keys of the lower one, and then the others of the upper one. -/
theorem keys_mergeWith (f : α → α → α) (t u : Table κ α) :
    (t.mergeWith f u).keys = t.keys ++ u.keys.filter (· ∉ t.keys) := by
  have key : ∀ (es : List (κ × α)) (t : Table κ α), (es.map (·.1)).Nodup →
      (es.foldl (combine f) t).keys = t.keys ++ (es.map (·.1)).filter (· ∉ t.keys) := by
    intro es
    induction es with
    | nil => simp
    | cons e es ih =>
      intro t hnodup
      obtain ⟨hfresh, hnodup⟩ := List.nodup_cons.1 hnodup
      rw [List.foldl_cons, ih _ hnodup, keys_combine, List.map_cons]
      split
      · next hmem => rw [List.filter_cons_of_neg (by simpa using hmem)]
      · next hnot =>
        -- No later entry has the key of this one, which makes no difference to them.
        have hsame : (es.map (·.1)).filter (· ∉ t.keys ++ [e.1]) =
            (es.map (·.1)).filter (· ∉ t.keys) := by
          refine List.filter_congr fun k hk => ?_
          have hne : k ≠ e.1 := by
            rintro rfl
            exact hfresh hk
          simp [hne]
        rw [List.filter_cons_of_pos (by simpa using hnot), hsame, List.append_assoc,
          List.singleton_append]
  exact key u.entries t u.nodup

/-- Tables are merged in a row in whatever way, if their values can be. -/
theorem mergeWith_assoc (f : α → α → α) [Std.Associative f] (t u v : Table κ α) :
    (t.mergeWith f u).mergeWith f v = t.mergeWith f (u.mergeWith f v) := by
  refine ext_get? ?_ fun k => ?_
  · rw [keys_mergeWith, keys_mergeWith, keys_mergeWith, keys_mergeWith, List.filter_append,
      List.filter_filter, List.append_assoc]
    refine congrArg (t.keys ++ ·)
      (congrArg (u.keys.filter _ ++ ·) (List.filter_congr fun k _ => ?_))
    by_cases ht : k ∈ t.keys <;> by_cases hu : k ∈ u.keys <;> simp [ht, hu]
  · simp only [get?_mergeWith]
    exact Std.Associative.assoc _ _ _

/-- A table that is merged with itself stays the same, if its values do. -/
theorem mergeWith_self (f : α → α → α) [Std.IdempotentOp f] (t : Table κ α) :
    t.mergeWith f t = t := by
  refine ext_get? ?_ fun k => ?_
  · rw [keys_mergeWith, List.filter_eq_nil_iff.2 (by simp), List.append_nil]
  · rw [get?_mergeWith]
    exact Std.IdempotentOp.idempotent _

/-- A key and a value stand together in a table exactly when the key has that value. -/
theorem mem_entries_iff {t : Table κ α} {k : κ} {v : α} :
    (k, v) ∈ t.entries ↔ t.get? k = some v := by
  have key : ∀ es : List (κ × α), (es.map (·.1)).Nodup →
      ((k, v) ∈ es ↔ lookup k es = some v) := by
    intro es
    induction es with
    | nil => simp [lookup]
    | cons e es ih =>
      obtain ⟨a, w⟩ := e
      intro hn
      rw [List.map_cons, List.nodup_cons] at hn
      by_cases h : a = k
      · subst h
        have : (a, v) ∉ es := fun hm => hn.1 (List.mem_map_of_mem (f := (·.1)) hm)
        simp [lookup, this, eq_comm]
      · have hk : k ≠ a := fun e => h e.symm
        simp [lookup, h, hk, ih hn.2]
  exact key t.entries t.nodup

end Table

end CronDaemon
