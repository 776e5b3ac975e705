import PowerBlockade.Lib.KeyedTable

/-!
# Tables with serial ids

Every row has an id that is given out once, above all that were given out before.
-/

namespace PowerBlockade.Lib

structure SerialTable (α : Type*) where
  keyed : KeyedTable (Prod.fst : Nat × α → Nat)
  lastId : Nat
  bounded : ∀ row ∈ keyed.rows, row.1 ≤ lastId

namespace SerialTable

variable {α : Type*}

def empty : SerialTable α := ⟨KeyedTable.empty, 0, by simp [KeyedTable.empty]⟩

abbrev rows (table : SerialTable α) : List (Nat × α) := table.keyed.rows

/-- In the order of their ids. -/
def values (table : SerialTable α) : List α := table.rows.map Prod.snd

def get (table : SerialTable α) (id : Nat) : Option α := (table.keyed.find? id).map Prod.snd

def nextId (table : SerialTable α) : Nat := table.lastId + 1

def insert (table : SerialTable α) (a : α) : SerialTable α where
  keyed :=
    { rows := table.rows ++ [(table.nextId, a)]
      unique := by
        rw [List.map_append, List.nodup_append]
        refine ⟨table.keyed.unique, List.nodup_singleton _, ?_⟩
        rintro id old new here rfl
        obtain ⟨row, stored, rfl⟩ := List.mem_map.mp old
        have below := table.bounded row stored
        rw [List.mem_singleton.mp here] at below
        exact absurd below (Nat.not_succ_le_self _) }
  lastId := table.nextId
  bounded := by
    intro row member
    rcases List.mem_append.mp member with old | new
    · exact Nat.le_succ_of_le (table.bounded row old)
    · exact Nat.le_of_eq (congrArg Prod.fst (List.mem_singleton.mp new))

/-- An id is given out to a row that does not stay. -/
def skip (table : SerialTable α) : SerialTable α :=
  { table with
    lastId := table.nextId
    bounded := fun row member => Nat.le_succ_of_le (table.bounded row member) }

/-- Each row keeps its id. -/
def map (table : SerialTable α) (f : Nat → α → α) : SerialTable α where
  keyed :=
    { rows := table.rows.map fun row => (row.1, f row.1 row.2)
      unique := by
        rw [List.map_map]
        exact table.keyed.unique }
  lastId := table.lastId
  bounded := by
    intro row member
    obtain ⟨old, stored, rfl⟩ := List.mem_map.mp member
    exact table.bounded old stored

def set (table : SerialTable α) (id : Nat) (a : α) : SerialTable α :=
  table.map fun other old => if other = id then a else old

def filter (table : SerialTable α) (keeps : Nat → α → Bool) : SerialTable α where
  keyed :=
    { rows := table.rows.filter fun row => keeps row.1 row.2
      unique := (List.filter_sublist.map _).nodup table.keyed.unique }
  lastId := table.lastId
  bounded := fun row member => table.bounded row (List.mem_filter.mp member).1

def erase (table : SerialTable α) (id : Nat) : SerialTable α := table.filter fun other _ => other ≠ id

/-! ## The row of an id -/

variable {table : SerialTable α} {id : Nat} {a : α}

theorem get_eq_some_iff : table.get id = some a ↔ (id, a) ∈ table.rows := by
  rw [get, Option.map_eq_some_iff]
  constructor
  · rintro ⟨row, found, rfl⟩
    obtain ⟨member, rfl⟩ := KeyedTable.find?_eq_some_iff.mp found
    exact member
  · intro member
    exact ⟨(id, a), KeyedTable.find?_eq_some_iff.mpr ⟨member, rfl⟩, rfl⟩

theorem le_lastId (found : table.get id = some a) : id ≤ table.lastId :=
  table.bounded (id, a) (get_eq_some_iff.mp found)

@[simp] theorem get_empty (id : Nat) : (empty : SerialTable α).get id = none := rfl

theorem get_nextId : table.get table.nextId = none := by
  rw [Option.eq_none_iff_forall_ne_some]
  intro a found
  exact absurd (le_lastId found) (Nat.not_succ_le_self _)

theorem get_insert (table : SerialTable α) (a : α) :
    (table.insert a).get = Function.update table.get table.nextId (some a) := by
  funext id
  rw [Function.update_apply]
  split
  · rename_i same
    exact get_eq_some_iff.mpr (List.mem_append_right _ (by rw [same]; exact List.mem_singleton_self _))
  · rename_i other
    apply Option.ext
    intro found
    rw [get_eq_some_iff, get_eq_some_iff, insert, rows, List.mem_append, List.mem_singleton]
    exact or_iff_left fun new => other (congrArg Prod.fst new)

@[simp] theorem get_skip (table : SerialTable α) (id : Nat) : table.skip.get id = table.get id := rfl

@[simp] theorem get_map (table : SerialTable α) (f : Nat → α → α) (id : Nat) :
    (table.map f).get id = (table.get id).map (f id) := by
  apply Option.ext
  intro found
  rw [get_eq_some_iff, Option.map_eq_some_iff, map, rows, List.mem_map]
  constructor
  · rintro ⟨⟨other, old⟩, member, same⟩
    cases same
    exact ⟨old, get_eq_some_iff.mpr member, rfl⟩
  · rintro ⟨old, stored, rfl⟩
    exact ⟨(id, old), get_eq_some_iff.mp stored, rfl⟩

theorem get_set (a : α) {old : α} (stored : table.get id = some old) :
    (table.set id a).get = Function.update table.get id (some a) := by
  funext other
  rw [set, get_map, Function.update_apply]
  by_cases same : other = id
  · simp [same, stored]
  · simp [same]

@[simp] theorem get_filter (table : SerialTable α) (keeps : Nat → α → Bool) (id : Nat) :
    (table.filter keeps).get id = (table.get id).filter (keeps id) := by
  apply Option.ext
  intro found
  rw [get_eq_some_iff, Option.filter_eq_some_iff, get_eq_some_iff, filter, rows, List.mem_filter]

theorem get_erase (table : SerialTable α) (id : Nat) :
    (table.erase id).get = Function.update table.get id none := by
  funext other
  rw [erase, get_filter, Function.update_apply]
  cases table.get other <;> by_cases same : other = id <;> simp [same]

/-! ## The rows as values -/

theorem mem_values {a : α} : a ∈ table.values ↔ ∃ id, table.get id = some a := by
  simp only [values, List.mem_map, get_eq_some_iff, Prod.exists, exists_eq_right]

@[simp] theorem values_insert (table : SerialTable α) (a : α) :
    (table.insert a).values = table.values ++ [a] := List.map_append

theorem values_map {β : Type*} {g : α → β} {f : Nat → α → α}
    (same : ∀ id a, table.get id = some a → g (f id a) = g a) :
    (table.map f).values.map g = table.values.map g := by
  simp only [values, map, rows, List.map_map]
  apply List.map_congr_left
  intro row member
  exact same row.1 row.2 (get_eq_some_iff.mpr member)

theorem values_filter_sublist (table : SerialTable α) (keeps : Nat → α → Bool) :
    (table.filter keeps).values.Sublist table.values := List.filter_sublist.map _

end SerialTable

end PowerBlockade.Lib
