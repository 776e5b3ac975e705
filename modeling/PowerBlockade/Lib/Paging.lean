import Mathlib.Data.List.Induction
import Mathlib.Data.List.Perm.Basic
import Mathlib.Data.List.Sort
import Mathlib.Data.List.Count

/-!
# Pages of a sorted listing

Rows are listed from the greatest key down, ties in any order, and cut into pages of one size. Where
the row of a key that no other row has stands does not depend on the ties.
-/

namespace PowerBlockade.Lib

variable {α κ : Type*} [LinearOrder κ]

/-- What an `ORDER BY key DESC` may answer. -/
structure Listing (key : α → κ) where
  sort : List α → List α
  perm : ∀ rows, (sort rows).Perm rows
  sorted : ∀ rows, (sort rows).Pairwise fun a b => key b ≤ key a

def pageOf (size page : Nat) (rows : List α) : List α := (rows.drop ((page - 1) * size)).take size

def pageCount (size total : Nat) : Nat := (total + size - 1) / size

/-- The number of rows that are listed before a key's. -/
def rank (key : α → κ) (k : κ) (rows : List α) : Nat := rows.countP fun row => k < key row

theorem lt_pageCount {size : Nat} (positive : 0 < size) {total place : Nat} (inside : place < total) :
    place < pageCount size total * size := by
  have whole := Nat.div_add_mod (total + size - 1) size
  have rest := Nat.mod_lt (total + size - 1) positive
  rw [pageCount, Nat.mul_comm]
  omega

theorem rank_append (key : α → κ) (k : κ) (rows more : List α) :
    rank key k (rows ++ more) = rank key k rows + rank key k more := List.countP_append

theorem rank_lt_length {key : α → κ} {k : κ} {rows : List α} {row : α} (member : row ∈ rows)
    (same : key row = k) : rank key k rows < rows.length := by
  refine lt_of_le_of_ne List.countP_le_length fun full => ?_
  have every := List.countP_eq_length.1 full row member
  rw [same] at every
  exact lt_irrefl k (of_decide_eq_true every)

variable {key : α → κ} {k : κ}

/-- In a listing, a row of the key stands after what is greater. -/
theorem getElem?_rank {rows : List α} (sorted : rows.Pairwise fun a b => key b ≤ key a) {row : α}
    (member : row ∈ rows) (same : key row = k) :
    ∃ other, rows[rank key k rows]? = some other ∧ key other = k := by
  induction rows with
  | nil => contradiction
  | cons first rest ih =>
      obtain ⟨above, tail⟩ := List.pairwise_cons.1 sorted
      have atMost : key row ≤ key first := by
        rcases List.mem_cons.1 member with rfl | later
        · exact le_rfl
        · exact above row later
      by_cases greater : k < key first
      · have later : row ∈ rest := by
          rcases List.mem_cons.1 member with rfl | later
          · exact absurd same greater.ne'
          · exact later
        obtain ⟨other, found, named⟩ := ih tail later
        refine ⟨other, ?_, named⟩
        rw [rank, List.countP_cons_of_pos (by simpa using greater), List.getElem?_cons_succ]
        exact found
      · have none_greater : rank key k (first :: rest) = 0 := List.countP_eq_zero.2 fun other listed => by
          rcases List.mem_cons.1 listed with rfl | later
          · simpa using greater
          · simpa using (above other later).trans (not_lt.1 greater)
        refine ⟨first, by rw [none_greater]; rfl, le_antisymm (not_lt.1 greater) ?_⟩
        rwa [same] at atMost

theorem mem_pageOf {rows : List α} {place size page : Nat} {row : α} (found : rows[place]? = some row)
    (after : (page - 1) * size ≤ place) (before : place < (page - 1) * size + size) :
    row ∈ pageOf size page rows := by
  refine List.mem_of_getElem? (i := place - (page - 1) * size) ?_
  rw [pageOf, List.getElem?_take_of_lt (by omega), List.getElem?_drop, Nat.add_sub_cancel' after]
  exact found

/-! ## Turning the pages -/

/-- The pages of a walk that starts at the first one show the key, unless a page comes before it: each
place is at least the one before, and the last page covers its place. -/
theorem exists_page_of_grows {size : Nat} {places : List Nat} (grows : places.Pairwise (· ≤ ·)) {last : Nat}
    (ends : places.getLast? = some last) (covered : last < places.length * size) :
    ∃ page place, places[page]? = some place ∧ page * size ≤ place ∧ place < page * size + size := by
  induction places using List.reverseRecOn generalizing last with
  | nil => simp at ends
  | append_singleton earlier place ih =>
      obtain rfl : place = last := by simpa using ends
      by_cases reached : earlier.length * size ≤ place
      · refine ⟨earlier.length, place, by simp, reached, ?_⟩
        simpa [Nat.succ_mul] using covered
      · have grown := List.pairwise_append.1 grows
        cases final : earlier.getLast? with
        | none =>
            obtain rfl := List.getLast?_eq_none_iff.1 final
            simp at reached
        | some before =>
            have less : before ≤ place := grown.2.2 before (List.mem_of_getLast? final) place (by simp)
            obtain ⟨page, other, found, after, inside⟩ := ih grown.1 final (by omega)
            have early := (List.getElem?_eq_some_iff.1 found).1
            exact ⟨page, other, by rwa [List.getElem?_append_left early], after, inside⟩

end PowerBlockade.Lib
