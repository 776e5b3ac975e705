import Mathlib.Data.List.Sort
import PowerBlockade.Lib.SerialTable

/-!
# Ids that are given out before the commit

A row has its id as soon as a transaction inserts it and is seen once that transaction commits, so rows
come into sight in another order than that of their ids. A reader that goes by the ids keeps the
largest one that it has read.
-/

namespace PowerBlockade.Lib

inductive TxStatus
  | opened
  | committed
  | aborted
deriving DecidableEq

structure CommitOrder (α : Type*) where
  drawn : SerialTable (Nat × α)
  status : Nat → TxStatus

namespace CommitOrder

variable {α : Type*}

def empty : CommitOrder α := ⟨SerialTable.empty, fun _ => .opened⟩

def rowsOf (table : CommitOrder α) (tx : Nat) : List (Nat × α) :=
  (table.drawn.rows.filter fun row => row.2.1 = tx).map fun row => (row.1, row.2.2)

def visible (table : CommitOrder α) : List (Nat × α) :=
  (table.drawn.rows.filter fun row => table.status row.2.1 = .committed).map fun row => (row.1, row.2.2)

def insert (table : CommitOrder α) (tx : Nat) (a : α) : CommitOrder α :=
  if table.status tx = .opened then { table with drawn := table.drawn.insert (tx, a) } else table

/-- A row that did not come to stay; its id is lost. -/
def discard (table : CommitOrder α) (id : Nat) : CommitOrder α :=
  { table with drawn := table.drawn.filter fun other row => other ≠ id ∨ table.status row.1 ≠ .opened }

def finish (table : CommitOrder α) (tx : Nat) (outcome : TxStatus) : CommitOrder α :=
  if table.status tx = .opened then { table with status := Function.update table.status tx outcome }
  else table

/-! ## What is in sight -/

variable {table : CommitOrder α} {id tx : Nat} {a : α}

theorem mem_rowsOf : (id, a) ∈ table.rowsOf tx ↔ table.drawn.get id = some (tx, a) := by
  rw [SerialTable.get_eq_some_iff, rowsOf, List.mem_map]
  constructor
  · rintro ⟨⟨other, owner, row⟩, member, same⟩
    cases same
    obtain ⟨there, owned⟩ := List.mem_filter.mp member
    exact of_decide_eq_true owned ▸ there
  · intro there
    exact ⟨_, List.mem_filter.mpr ⟨there, decide_eq_true rfl⟩, rfl⟩

theorem mem_visible : (id, a) ∈ table.visible ↔
    ∃ tx, table.drawn.get id = some (tx, a) ∧ table.status tx = .committed := by
  simp only [SerialTable.get_eq_some_iff, visible, List.mem_map]
  constructor
  · rintro ⟨⟨other, owner, row⟩, member, same⟩
    cases same
    obtain ⟨there, done⟩ := List.mem_filter.mp member
    exact ⟨owner, there, of_decide_eq_true done⟩
  · rintro ⟨owner, there, done⟩
    exact ⟨_, List.mem_filter.mpr ⟨there, decide_eq_true done⟩, rfl⟩

theorem visible_ids_nodup (table : CommitOrder α) : (table.visible.map Prod.fst).Nodup := by
  rw [visible, List.map_map]
  exact (List.filter_sublist.map _).nodup table.drawn.keyed.unique

/-- An id has one row, and that row one transaction. -/
theorem not_mem_visible_of_opened (opened : table.status tx = .opened) (drawn : (id, a) ∈ table.rowsOf tx)
    (b : α) : (id, b) ∉ table.visible := by
  intro member
  obtain ⟨owner, there, done⟩ := mem_visible.mp member
  rw [mem_rowsOf.mp drawn] at there
  cases there
  rw [opened] at done
  contradiction

@[simp] theorem visible_insert (table : CommitOrder α) (tx : Nat) (a : α) :
    (table.insert tx a).visible = table.visible := by
  rw [insert]
  split
  · rename_i opened
    have rows : (table.drawn.insert (tx, a)).rows = table.drawn.rows ++ [(table.drawn.nextId, tx, a)] := rfl
    simp only [visible, rows, List.filter_append, List.filter_singleton, opened, reduceCtorEq,
      decide_false, cond_false, List.append_nil]
  · rfl

@[simp] theorem visible_discard (table : CommitOrder α) (id : Nat) :
    (table.discard id).visible = table.visible := by
  refine congrArg (List.map _) (List.filter_filter.trans (List.filter_congr fun row _ => ?_))
  change (decide (table.status row.2.1 = .committed) && _) = decide (table.status row.2.1 = .committed)
  by_cases done : table.status row.2.1 = .committed
  · simp [done]
  · simp [done]

theorem finish_of_opened (opened : table.status tx = .opened) (outcome : TxStatus) :
    table.finish tx outcome = { table with status := Function.update table.status tx outcome } :=
  if_pos opened

@[simp] theorem visible_abort (table : CommitOrder α) (tx : Nat) :
    (table.finish tx .aborted).visible = table.visible := by
  by_cases opened : table.status tx = .opened
  · rw [finish_of_opened opened]
    refine congrArg (List.map _) (List.filter_congr fun row _ => ?_)
    by_cases own : row.2.1 = tx
    · simp [own, opened]
    · simp [own]
  · rw [finish, if_neg opened]

theorem mem_visible_commit (opened : table.status tx = .opened) (row : Nat × α) :
    row ∈ (table.finish tx .committed).visible ↔ row ∈ table.visible ∨ row ∈ table.rowsOf tx := by
  obtain ⟨id, a⟩ := row
  rw [finish_of_opened opened, mem_visible, mem_visible, mem_rowsOf]
  constructor
  · rintro ⟨owner, there, done⟩
    by_cases own : owner = tx
    · exact .inr (own ▸ there)
    · exact .inl ⟨owner, there, (Function.update_of_ne own ..).symm.trans done⟩
  · rintro (⟨owner, there, done⟩ | there)
    · refine ⟨owner, there, ?_⟩
      have other : owner ≠ tx := by
        rintro rfl
        rw [opened] at done
        contradiction
      exact (Function.update_of_ne other ..).trans done
    · exact ⟨tx, there, Function.update_self ..⟩

/-! ## Reading by the ids -/

/-- The first rows above the id `after`. -/
def page (table : CommitOrder α) (wanted : α → Bool) (after limit : Nat) : List (Nat × α) :=
  ((table.visible.filter fun row => after < row.1 ∧ wanted row.2).insertionSort fun a b =>
    a.1 ≤ b.1).take limit

def advance (after : Nat) (page : List (Nat × α)) : Nat := (page.getLast?.map Prod.fst).getD after

variable {wanted : α → Bool} {after limit : Nat} {row : Nat × α}

theorem mem_unread {row : Nat × α} :
    row ∈ (table.visible.filter fun row => after < row.1 ∧ wanted row.2).insertionSort
        (fun a b => a.1 ≤ b.1) ↔
      row ∈ table.visible ∧ after < row.1 ∧ wanted row.2 = true := by
  rw [List.mem_insertionSort, List.mem_filter, decide_eq_true_iff]

theorem unread_increasing (table : CommitOrder α) (wanted : α → Bool) (after : Nat) :
    ((table.visible.filter fun row => after < row.1 ∧ wanted row.2).insertionSort fun a b =>
      a.1 ≤ b.1).Pairwise fun a b => a.1 < b.1 := by
  have sorted := List.pairwise_insertionSort (fun a b : Nat × α => a.1 ≤ b.1)
    (table.visible.filter fun row => after < row.1 ∧ wanted row.2)
  have distinct := ((List.perm_insertionSort (fun a b : Nat × α => a.1 ≤ b.1)
    (table.visible.filter fun row => after < row.1 ∧ wanted row.2)).map Prod.fst).nodup_iff.mpr
      ((List.filter_sublist.map _).nodup table.visible_ids_nodup)
  exact sorted.imp₂ (fun _ _ => Nat.lt_of_le_of_ne) (List.pairwise_map.mp distinct)

theorem mem_page (member : row ∈ table.page wanted after limit) :
    row ∈ table.visible ∧ after < row.1 ∧ wanted row.2 = true :=
  mem_unread.mp (List.mem_of_mem_take member)

theorem page_increasing (table : CommitOrder α) (wanted : α → Bool) (after limit : Nat) :
    (table.page wanted after limit).Pairwise fun a b => a.1 < b.1 :=
  (unread_increasing table wanted after).sublist (List.take_sublist _ _)

theorem le_advance_of_mem {rows : List (Nat × α)} (increasing : rows.Pairwise fun a b => a.1 < b.1)
    (member : row ∈ rows) : row.1 ≤ advance after rows := by
  obtain ⟨init, last, rfl⟩ := rows.eq_nil_or_concat'.resolve_left (List.ne_nil_of_mem member)
  rw [advance, List.getLast?_concat, Option.map_some, Option.getD_some]
  rcases List.mem_append.mp member with earlier | same
  · exact ((List.pairwise_append.mp increasing).2.2 row earlier last (List.mem_singleton_self _)).le
  · rw [List.mem_singleton.mp same]

theorem advance_eq_or_mem (after : Nat) (rows : List (Nat × α)) :
    rows = [] ∧ advance after rows = after ∨ ∃ row ∈ rows, advance after rows = row.1 := by
  rcases rows.eq_nil_or_concat' with rfl | ⟨init, last, rfl⟩
  · exact .inl ⟨rfl, rfl⟩
  · refine .inr ⟨last, List.mem_append_right _ (List.mem_singleton_self _), ?_⟩
    rw [advance, List.getLast?_concat, Option.map_some, Option.getD_some]

theorem le_advance_page (table : CommitOrder α) (wanted : α → Bool) (after limit : Nat) :
    after ≤ advance after (table.page wanted after limit) := by
  rcases advance_eq_or_mem after (table.page wanted after limit) with ⟨-, same⟩ | ⟨row, member, same⟩
  · exact same.ge
  · rw [same]
    exact (mem_page member).2.1.le

/-- A reader passes no row in sight: it reads it, or comes nearer and stays below. -/
theorem mem_page_or_advance (positive : 0 < limit) (seen : row ∈ table.visible) (above : after < row.1)
    (want : wanted row.2 = true) :
    row ∈ table.page wanted after limit ∨
      after < advance after (table.page wanted after limit) ∧
        advance after (table.page wanted after limit) < row.1 := by
  have member := mem_unread.mpr ⟨seen, above, want⟩
  have increasing := unread_increasing table wanted after
  rw [← List.take_append_drop limit (List.insertionSort _ _)] at member increasing
  rcases List.mem_append.mp member with inside | beyond
  · exact .inl inside
  · refine .inr ?_
    rcases advance_eq_or_mem after (table.page wanted after limit) with ⟨none, -⟩ | ⟨last, there, same⟩
    · have all := List.take_eq_nil_iff.mp none
      rw [all.resolve_left positive.ne', List.drop_nil] at beyond
      exact absurd beyond List.not_mem_nil
    · rw [same]
      exact ⟨(mem_page there).2.1, (List.pairwise_append.mp increasing).2.2 last there row beyond⟩

end CommitOrder

end PowerBlockade.Lib
