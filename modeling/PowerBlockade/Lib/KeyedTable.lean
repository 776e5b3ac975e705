import Mathlib.Data.List.Nodup
import Mathlib.Data.List.Perm.Basic

/-!
# Tables with a key

At most one row for each key; an upsert replaces the row of its key or adds one.
-/

namespace PowerBlockade.Lib

structure KeyedTable {α κ : Type*} (key : α → κ) where
  rows : List α
  unique : (rows.map key).Nodup

namespace KeyedTable

variable {α κ : Type*} {key : α → κ}

def empty : KeyedTable key := ⟨[], List.nodup_nil⟩

variable [DecidableEq κ]

def replaceOn (key : α → κ) (row : α) (rows : List α) : List α :=
  rows.map fun old => if key old = key row then row else old

theorem map_key_replaceOn (row : α) (rows : List α) :
    (replaceOn key row rows).map key = rows.map key := by
  simp only [replaceOn, List.map_map]
  apply List.map_congr_left
  intro old _
  simp only [Function.comp_apply]
  split <;> simp_all

def upsert (table : KeyedTable key) (row : α) : KeyedTable key :=
  if stored : key row ∈ table.rows.map key then
    ⟨replaceOn key row table.rows, by
      rw [map_key_replaceOn]
      exact table.unique⟩
  else
    ⟨table.rows ++ [row], by
      rw [List.map_append, List.nodup_append]
      refine ⟨table.unique, List.nodup_singleton _, ?_⟩
      rintro old there new here rfl
      exact stored (List.mem_singleton.1 here ▸ there)⟩

def upsertAll (table : KeyedTable key) (rows : List α) : KeyedTable key := rows.foldl upsert table

def rowsWithout (key : α → κ) (keys : List κ) (rows : List α) : List α := rows.filter (key · ∉ keys)

theorem mem_rowsWithout {keys : List κ} {rows : List α} {row : α} :
    row ∈ rowsWithout key keys rows ↔ row ∈ rows ∧ key row ∉ keys := by
  simp [rowsWithout]

theorem filter_rowsWithout {keys : List κ} {rows : List α} {p : α → Bool}
    (outside : ∀ row, p row = true → key row ∉ keys) : (rowsWithout key keys rows).filter p = rows.filter p := by
  rw [rowsWithout, List.filter_filter]
  apply List.filter_congr
  intro row _
  simpa using outside row

theorem replaceOn_perm {row : α} {rows : List α} (unique : (rows.map key).Nodup)
    (stored : key row ∈ rows.map key) :
    (replaceOn key row rows).Perm (row :: rows.filter (key · ≠ key row)) := by
  obtain ⟨old, member, same⟩ := List.mem_map.1 stored
  obtain ⟨before, after, rfl⟩ := List.append_of_mem member
  rw [List.map_append, List.map_cons, List.nodup_middle, List.nodup_cons, List.mem_append] at unique
  have kept : ∀ part : List α, key old ∉ part.map key →
      replaceOn key row part = part ∧ part.filter (key · ≠ key row) = part := by
    intro part absent
    have different : ∀ other ∈ part, key other ≠ key row := fun other there equal =>
      absent (List.mem_map.2 ⟨other, there, equal.trans same.symm⟩)
    refine ⟨?_, List.filter_eq_self.2 (by simpa using different)⟩
    exact (List.map_congr_left fun other there => if_neg (different other there)).trans (List.map_id' part)
  obtain ⟨firstKept, firstAll⟩ := kept before fun there => unique.1 (Or.inl there)
  obtain ⟨lastKept, lastAll⟩ := kept after fun there => unique.1 (Or.inr there)
  have here : replaceOn key row (old :: after) = row :: after := by
    rw [replaceOn, List.map_cons, if_pos same, ← replaceOn, lastKept]
  rw [replaceOn, List.map_append, ← replaceOn, ← replaceOn, firstKept, here, List.filter_append, firstAll,
    List.filter_cons_of_neg (by simpa using same), lastAll]
  exact List.perm_middle

theorem upsert_perm (table : KeyedTable key) (row : α) :
    (table.upsert row).rows.Perm (row :: table.rows.filter (key · ≠ key row)) := by
  unfold upsert
  split
  · rename_i stored
    exact replaceOn_perm table.unique stored
  · rename_i absent
    have others : table.rows.filter (key · ≠ key row) = table.rows := by
      refine List.filter_eq_self.2 fun old member => ?_
      simpa using fun same => absent (List.mem_map.2 ⟨old, member, same⟩)
    rw [others]
    exact List.perm_append_singleton row table.rows

theorem upsertAll_perm (table : KeyedTable key) {rows : List α} (distinct : (rows.map key).Nodup) :
    (table.upsertAll rows).rows.Perm (rows ++ rowsWithout key (rows.map key) table.rows) := by
  induction rows generalizing table with
  | nil => simp [upsertAll, rowsWithout]
  | cons row rest ih =>
      obtain ⟨fresh, distinctRest⟩ := List.nodup_cons.1 distinct
      have split : rowsWithout key (rest.map key) (row :: table.rows.filter (key · ≠ key row)) =
          row :: rowsWithout key ((row :: rest).map key) table.rows := by
        rw [rowsWithout, rowsWithout, List.filter_cons_of_pos (by simpa using fresh), List.filter_filter]
        congr 1
        apply List.filter_congr
        intro old _
        simp only [List.map_cons, List.mem_cons, not_or, Bool.decide_and, decide_not]
        exact Bool.and_comm _ _
      calc ((table.upsert row).upsertAll rest).rows
        _ |>.Perm (rest ++ rowsWithout key (rest.map key) (table.upsert row).rows) := ih _ distinctRest
        _ |>.Perm (rest ++ row :: rowsWithout key ((row :: rest).map key) table.rows) :=
            split ▸ ((upsert_perm table row).filter _).append_left rest
        _ |>.Perm (row :: rest ++ rowsWithout key ((row :: rest).map key) table.rows) :=
            List.perm_middle

/-! ### Upserts again and in another order -/

theorem upsert_of_mem {table : KeyedTable key} {row : α} (member : row ∈ table.rows) :
    table.upsert row = table := by
  have same : replaceOn key row table.rows = table.rows := by
    rw [replaceOn, List.map_congr_left (g := id), List.map_id]
    intro old there
    rw [id_eq, ite_eq_right_iff]
    exact fun equal => (List.inj_on_of_nodup_map table.unique there member equal).symm
  simp only [upsert, List.mem_map_of_mem member, dif_pos, same]

theorem upsertAll_of_mem {table : KeyedTable key} {rows : List α} (stored : ∀ row ∈ rows, row ∈ table.rows) :
    table.upsertAll rows = table := by
  induction rows with
  | nil => rfl
  | cons row rest ih =>
      obtain ⟨first, others⟩ := List.forall_mem_cons.1 stored
      rw [upsertAll, List.foldl_cons, upsert_of_mem first]
      exact ih others

theorem upsertAll_twice (table : KeyedTable key) {rows : List α} (distinct : (rows.map key).Nodup) :
    (table.upsertAll rows).upsertAll rows = table.upsertAll rows :=
  upsertAll_of_mem fun _ member =>
    (table.upsertAll_perm distinct).mem_iff.2 (List.mem_append_left _ member)

theorem upsertAll_congr (table : KeyedTable key) {rows others : List α}
    (distinct : (rows.map key).Nodup) (same : rows.Perm others) :
    (table.upsertAll rows).rows.Perm (table.upsertAll others).rows := by
  have keys : rowsWithout key (rows.map key) table.rows = rowsWithout key (others.map key) table.rows := by
    apply List.filter_congr
    intro old _
    simp only [(same.map key).mem_iff]
  have left := table.upsertAll_perm distinct
  have right := table.upsertAll_perm ((same.map key).nodup_iff.1 distinct)
  rw [keys] at left
  exact left.trans ((same.append_right _).trans right.symm)

/-- Rows that are all overwritten leave nothing. -/
theorem upsertAll_upsertAll (table : KeyedTable key) {rows others : List α}
    (first : (rows.map key).Nodup) (second : (others.map key).Nodup)
    (covered : ∀ row ∈ rows, key row ∈ others.map key) :
    ((table.upsertAll rows).upsertAll others).rows.Perm (table.upsertAll others).rows := by
  have overwritten : rowsWithout key (others.map key) rows = [] :=
    List.filter_eq_nil_iff.2 fun row member => by simpa using covered row member
  have left : rowsWithout key (others.map key) (rowsWithout key (rows.map key) table.rows) =
      rowsWithout key (others.map key) table.rows := by
    refine filter_rowsWithout fun old kept stored => ?_
    obtain ⟨row, member, same⟩ := List.mem_map.1 stored
    exact absurd (same ▸ covered row member) (by simpa using kept)
  have remaining := ((table.upsertAll_perm first).filter fun row => key row ∉ others.map key)
  rw [List.filter_append, ← rowsWithout, ← rowsWithout, ← rowsWithout, overwritten, left,
    List.nil_append] at remaining
  exact ((table.upsertAll rows).upsertAll_perm second).trans
    ((remaining.append_left others).trans (table.upsertAll_perm second).symm)

/-! ## The row of a key -/

def find? (table : KeyedTable key) (k : κ) : Option α := table.rows.find? (key · = k)

theorem find?_eq_some_iff {table : KeyedTable key} {k : κ} {row : α} :
    table.find? k = some row ↔ row ∈ table.rows ∧ key row = k := by
  constructor
  · intro found
    exact ⟨List.mem_of_find?_eq_some found, by simpa using List.find?_some found⟩
  · rintro ⟨member, rfl⟩
    obtain ⟨other, found⟩ : ∃ other, table.find? (key row) = some other := by
      apply Option.isSome_iff_exists.mp
      exact List.find?_isSome.mpr ⟨row, member, decide_eq_true rfl⟩
    have same : key other = key row := by simpa using List.find?_some found
    rw [found, List.inj_on_of_nodup_map table.unique (List.mem_of_find?_eq_some found) member same]

theorem find?_upsert (table : KeyedTable key) (row : α) (k : κ) :
    (table.upsert row).find? k = if key row = k then some row else table.find? k := by
  have stored (found : α) : found ∈ (table.upsert row).rows ↔
      found = row ∨ found ∈ table.rows ∧ key found ≠ key row := by
    rw [(upsert_perm table row).mem_iff, List.mem_cons, List.mem_filter, decide_eq_true_iff]
  split
  · rename_i same
    exact find?_eq_some_iff.mpr ⟨(stored row).mpr (.inl rfl), same⟩
  · rename_i other
    apply Option.ext
    intro found
    rw [find?_eq_some_iff, find?_eq_some_iff, stored]
    constructor
    · rintro ⟨rfl | ⟨member, -⟩, same⟩
      · exact absurd same other
      · exact ⟨member, same⟩
    · rintro ⟨member, rfl⟩
      exact ⟨.inr ⟨member, Ne.symm other⟩, rfl⟩

/-- The last row of a key is the one that stays. -/
theorem find?_upsertAll (table : KeyedTable key) (rows : List α) (k : κ) :
    (table.upsertAll rows).find? k = (rows.reverse.find? (key · = k)).or (table.find? k) := by
  induction rows generalizing table with
  | nil => rfl
  | cons row rest ih =>
      have tail : (table.upsertAll (row :: rest)).find? k =
          (rest.reverse.find? (key · = k)).or ((table.upsert row).find? k) := ih _
      rw [tail, find?_upsert, List.reverse_cons, List.find?_append, Option.or_assoc]
      by_cases same : key row = k <;> simp [same]

end KeyedTable

end PowerBlockade.Lib
