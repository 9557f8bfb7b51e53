/-!
Tables in order of insertion.

A table holds at most one value under a key and remembers the order in which
keys came in. Overwriting and editing a value keep its place, erasing closes
the gap. `get?` is the view: each operation has one equation for it.
-/

namespace ArcGraph

universe u v

/-- Values under distinct keys, in order of insertion. -/
structure Table (Key : Type u) (Value : Type v) where
  entries : List (Key × Value)
  nodup : (entries.map Prod.fst).Nodup

namespace Table

variable {Key : Type u} {Value : Type v}

@[ext]
theorem ext {left right : Table Key Value} (entries : left.entries = right.entries) :
    left = right := by
  cases left
  cases right
  cases entries
  rfl

def empty : Table Key Value :=
  ⟨[], List.nodup_nil⟩

def keys (table : Table Key Value) : List Key :=
  table.entries.map Prod.fst

def values (table : Table Key Value) : List Value :=
  table.entries.map Prod.snd

def size (table : Table Key Value) : Nat :=
  table.entries.length

/-- Change every value by a function of it, leaving its key and its place. -/
def mapValues (change : Value → Value) (table : Table Key Value) : Table Key Value where
  entries := table.entries.map fun entry => (entry.1, change entry.2)
  nodup := by
    have same : (table.entries.map fun entry => (entry.1, change entry.2)).map Prod.fst =
        table.entries.map Prod.fst := by simp
    exact same ▸ table.nodup

@[simp] theorem keys_mapValues (change : Value → Value) (table : Table Key Value) :
    (table.mapValues change).keys = table.keys := by
  simp [mapValues, keys]

@[simp] theorem values_mapValues (change : Value → Value) (table : Table Key Value) :
    (table.mapValues change).values = table.values.map change := by
  simp [mapValues, values]

variable [DecidableEq Key]

/-- The value under a key. -/
def get? (table : Table Key Value) (key : Key) : Option Value :=
  (table.entries.find? fun entry => entry.1 = key).map Prod.snd

def contains (table : Table Key Value) (key : Key) : Bool :=
  (table.get? key).isSome

/-- Change the value under one key, if there is one. -/
def modify (table : Table Key Value) (key : Key) (change : Value → Value) :
    Table Key Value where
  entries := table.entries.map fun entry =>
    if entry.1 = key then (entry.1, change entry.2) else entry
  nodup := by
    have same : (table.entries.map fun entry =>
        if entry.1 = key then (entry.1, change entry.2) else entry).map Prod.fst =
        table.entries.map Prod.fst := by
      simp only [List.map_map]
      refine List.map_congr_left fun entry _ => ?_
      by_cases found : entry.1 = key <;> simp [found]
    exact same ▸ table.nodup

/-- Take out the value under a key; the others keep their order. -/
def erase (table : Table Key Value) (key : Key) : Table Key Value where
  entries := table.entries.filter fun entry => !decide (entry.1 = key)
  nodup := List.Nodup.sublist (List.filter_sublist.map _) table.nodup

/-- Put a value under a key, in the place of an old value or else at the end. -/
def insert (table : Table Key Value) (key : Key) (value : Value) : Table Key Value :=
  if present : key ∈ table.keys then table.modify key fun _ => value
  else {
    entries := table.entries ++ [(key, value)]
    nodup := by
      rw [List.map_append, List.nodup_append]
      refine ⟨table.nodup, by simp, ?_⟩
      rintro old oldPresent new newPresent rfl
      simp only [List.map_cons, List.map_nil, List.mem_singleton] at newPresent
      exact present (newPresent ▸ oldPresent) }

theorem get?_eq_none_iff (table : Table Key Value) (key : Key) :
    table.get? key = none ↔ key ∉ table.keys := by
  simp only [get?, keys, Option.map_eq_none_iff, List.find?_eq_none, decide_eq_true_eq,
    List.mem_map, not_exists, not_and]

theorem contains_iff_mem_keys (table : Table Key Value) (key : Key) :
    table.contains key = true ↔ key ∈ table.keys := by
  have absent := table.get?_eq_none_iff key
  cases found : table.get? key with
  | none => simp [contains, found, absent.mp found]
  | some value =>
      have present : key ∈ table.keys := by
        refine Decidable.byContradiction fun missing => ?_
        simp [absent.mpr missing] at found
      simp [contains, found, present]

@[simp] theorem get?_empty (key : Key) : (empty : Table Key Value).get? key = none := rfl

@[simp] theorem get?_mapValues (change : Value → Value) (table : Table Key Value) (key : Key) :
    (table.mapValues change).get? key = (table.get? key).map change := by
  simp [get?, mapValues, List.find?_map, Function.comp_def]

@[simp] theorem keys_modify (table : Table Key Value) (key : Key) (change : Value → Value) :
    (table.modify key change).keys = table.keys := by
  simp only [keys, modify, List.map_map]
  refine List.map_congr_left fun entry _ => ?_
  by_cases found : entry.1 = key <;> simp [found]

theorem keys_erase (table : Table Key Value) (key : Key) :
    (table.erase key).keys = table.keys.filter fun other => decide (other ≠ key) := by
  simp [keys, erase, List.filter_map, Function.comp_def]

theorem keys_insert_of_notMem {table : Table Key Value} {key : Key} (new : key ∉ table.keys)
    (value : Value) : (table.insert key value).keys = table.keys ++ [key] := by
  rw [insert, dif_neg new]
  simp [keys]

theorem get?_modify (table : Table Key Value) (key other : Key) (change : Value → Value) :
    (table.modify key change).get? other =
      if other = key then (table.get? other).map change else table.get? other := by
  obtain ⟨entries, nodup⟩ := table
  simp only [get?, modify]
  clear nodup
  induction entries with
  | nil => simp
  | cons entry rest inductionHypothesis =>
      by_cases atKey : entry.1 = key <;> by_cases atOther : entry.1 = other <;>
        by_cases same : other = key <;> simp_all

theorem get?_erase (table : Table Key Value) (key other : Key) :
    (table.erase key).get? other = if other = key then none else table.get? other := by
  obtain ⟨entries, nodup⟩ := table
  simp only [get?, erase]
  clear nodup
  induction entries with
  | nil => simp
  | cons entry rest inductionHypothesis =>
      by_cases atKey : entry.1 = key <;> by_cases atOther : entry.1 = other <;>
        by_cases same : other = key <;> simp_all

theorem get?_insert (table : Table Key Value) (key other : Key) (value : Value) :
    (table.insert key value).get? other = if other = key then some value else table.get? other := by
  by_cases present : key ∈ table.keys
  · have found : table.get? key ≠ none := fun missing =>
      (table.get?_eq_none_iff key).mp missing present
    rw [insert, dif_pos present, get?_modify]
    by_cases same : other = key
    · subst same
      cases held : table.get? other with
      | none => exact absurd held found
      | some old => simp
    · simp [same]
  · rw [insert, dif_neg present]
    by_cases same : other = key
    · subst same
      have missing := (table.get?_eq_none_iff other).mpr present
      simp only [get?, Option.map_eq_none_iff] at missing
      simp [get?, List.find?_append, missing]
    · have apart : ¬ key = other := fun equal => same equal.symm
      simp [get?, List.find?_append, same, apart]

theorem mem_entries_iff (table : Table Key Value) (key : Key) (value : Value) :
    (key, value) ∈ table.entries ↔ table.get? key = some value := by
  obtain ⟨entries, nodup⟩ := table
  simp only [get?]
  induction entries with
  | nil => simp
  | cons entry rest inductionHypothesis =>
      obtain ⟨fresh, nodupRest⟩ := List.nodup_cons.mp nodup
      by_cases atKey : entry.1 = key
      · have absent : (key, value) ∉ rest := fun member =>
          fresh (atKey ▸ List.mem_map_of_mem member)
        obtain ⟨own, held⟩ := entry
        obtain rfl : own = key := atKey
        simp [absent, eq_comm]
      · have other : (key, value) ≠ entry := fun same => atKey (same ▸ rfl)
        simp only [List.mem_cons, other, false_or, List.find?_cons, atKey, decide_false]
        exact inductionHypothesis nodupRest

theorem mem_values_iff (table : Table Key Value) (value : Value) :
    value ∈ table.values ↔ ∃ key, table.get? key = some value := by
  simp only [values, List.mem_map, ← mem_entries_iff]
  constructor
  · rintro ⟨entry, member, rfl⟩
    exact ⟨entry.1, member⟩
  · rintro ⟨key, member⟩
    exact ⟨(key, value), member, rfl⟩

theorem entries_eq (table : Table Key Value) :
    table.entries = table.keys.filterMap fun key => (table.get? key).map (Prod.mk key) := by
  have held : ∀ entry ∈ table.entries,
      (table.get? entry.1).map (Prod.mk entry.1) = some entry := by
    intro entry member
    rw [(table.mem_entries_iff entry.1 entry.2).mp member, Option.map_some]
  rw [keys, List.filterMap_map]
  generalize table.entries = entries at held
  induction entries with
  | nil => rfl
  | cons entry rest inductionHypothesis =>
      obtain ⟨first, others⟩ := List.forall_mem_cons.mp held
      rw [List.filterMap_cons, ← inductionHypothesis others, Function.comp_apply, first]

/-- The keys in their order and the view of a table determine it. -/
theorem ext_get? {left right : Table Key Value} (keys : left.keys = right.keys)
    (view : ∀ key, left.get? key = right.get? key) : left = right := by
  apply Table.ext
  rw [left.entries_eq, right.entries_eq, keys]
  simp only [view]

end Table

end ArcGraph
