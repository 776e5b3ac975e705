import Mathlib.Data.List.Nodup
import Mathlib.Order.Lattice
import Mathlib.Tactic.Tauto

/-!
# Ordered maps

A finite map as its entries in increasing order of their keys, which is how a cursor meets them.
-/

namespace PowerBlockade.Lib

structure OrderedMap (κ ν : Type*) [LinearOrder κ] where
  entries : List (κ × ν)
  sorted : entries.Pairwise (·.1 < ·.1)

namespace OrderedMap

variable {κ ν : Type*} [LinearOrder κ]

def empty : OrderedMap κ ν := ⟨[], List.Pairwise.nil⟩

def put (map : OrderedMap κ ν) (key : κ) (value : ν) : OrderedMap κ ν where
  entries := map.entries.filter (·.1 < key) ++ (key, value) :: map.entries.filter (key < ·.1)
  sorted := by
    rw [List.pairwise_append, List.pairwise_cons]
    refine ⟨map.sorted.filter _, ⟨?_, map.sorted.filter _⟩, ?_⟩
    · intro entry member
      simpa using (List.mem_filter.1 member).2
    · intro low below high above
      have lowKey : low.1 < key := by simpa using (List.mem_filter.1 below).2
      rcases List.mem_cons.1 above with rfl | above
      · exact lowKey
      · have highKey : key < high.1 := by simpa using (List.mem_filter.1 above).2
        exact lt_trans lowKey highKey

def retain (map : OrderedMap κ ν) (keeps : κ × ν → Bool) : OrderedMap κ ν :=
  ⟨map.entries.filter keeps, map.sorted.filter _⟩

def lastKey (map : OrderedMap κ ν) : Option κ := map.entries.getLast?.map (·.1)

instance : Membership (κ × ν) (OrderedMap κ ν) := ⟨fun map entry => entry ∈ map.entries⟩

theorem mem_def {map : OrderedMap κ ν} {entry : κ × ν} : entry ∈ map ↔ entry ∈ map.entries := Iff.rfl

@[simp] theorem not_mem_empty (entry : κ × ν) : entry ∉ (empty : OrderedMap κ ν) := List.not_mem_nil

@[simp] theorem mem_put {map : OrderedMap κ ν} {key : κ} {value : ν} {entry : κ × ν} :
    entry ∈ map.put key value ↔ entry = (key, value) ∨ entry ∈ map ∧ entry.1 ≠ key := by
  have apart : entry.1 ≠ key ↔ entry.1 < key ∨ key < entry.1 := lt_or_lt_iff_ne.symm
  simp only [mem_def, put, List.mem_append, List.mem_cons, List.mem_filter, decide_eq_true_eq, apart]
  tauto

@[simp] theorem mem_retain {map : OrderedMap κ ν} {keeps : κ × ν → Bool} {entry : κ × ν} :
    entry ∈ map.retain keeps ↔ entry ∈ map ∧ keeps entry = true := List.mem_filter

theorem entries_put_last {map : OrderedMap κ ν} {key : κ} (value : ν)
    (beyond : ∀ entry ∈ map.entries, entry.1 < key) :
    (map.put key value).entries = map.entries ++ [(key, value)] := by
  have low : map.entries.filter (·.1 < key) = map.entries :=
    List.filter_eq_self.2 fun entry member => decide_eq_true (beyond entry member)
  have high : map.entries.filter (key < ·.1) = [] :=
    List.filter_eq_nil_iff.2 fun entry member above =>
      lt_asymm (beyond entry member) (of_decide_eq_true above)
  exact congrArg₂ (fun low high => low ++ (key, value) :: high) low high

/-- A cursor from the first entry that removes entries up to a key and stops after it. -/
theorem dropWhile_le_key {entries : List (κ × ν)} (sorted : entries.Pairwise (·.1 < ·.1)) (key : κ) :
    entries.dropWhile (·.1 ≤ key) = entries.filter (key < ·.1) := by
  induction entries with
  | nil => rfl
  | cons entry rest ih =>
      obtain ⟨before, sortedRest⟩ := List.pairwise_cons.1 sorted
      by_cases le : entry.1 ≤ key
      · rw [List.dropWhile_cons_of_pos (by simpa using le), List.filter_cons_of_neg (by simpa using le)]
        exact ih sortedRest
      · rw [List.dropWhile_cons_of_neg (by simpa using le)]
        refine (List.filter_eq_self.2 fun other member => decide_eq_true ?_).symm
        rcases List.mem_cons.1 member with rfl | later
        · exact not_le.1 le
        · exact lt_trans (not_le.1 le) (before other later)

theorem eq_of_key {map : OrderedMap κ ν} {a b : κ × ν} (left : a ∈ map) (right : b ∈ map)
    (same : a.1 = b.1) : a = b := by
  have keys : (map.entries.map Prod.fst).Nodup :=
    List.pairwise_map.2 (map.sorted.imp fun before => ne_of_lt before)
  exact List.inj_on_of_nodup_map keys left right same

theorem le_lastKey (map : OrderedMap κ ν) {entry : κ × ν} (member : entry ∈ map) :
    ∃ last, map.lastKey = some last ∧ entry.1 ≤ last := by
  cases final : map.entries.getLast? with
  | none =>
      rw [mem_def, List.getLast?_eq_none_iff.1 final] at member
      contradiction
  | some last =>
      refine ⟨last.1, by simp [lastKey, final], ?_⟩
      obtain ⟨before, split⟩ := List.getLast?_eq_some_iff.1 final
      have sorted := map.sorted
      rw [mem_def, split] at member
      rw [split] at sorted
      rcases List.mem_append.1 member with earlier | here
      · exact le_of_lt ((List.pairwise_append.1 sorted).2.2 entry earlier last (List.mem_singleton_self _))
      · rw [List.mem_singleton.1 here]

end OrderedMap

theorem mem_take_of_le {α κ : Type*} [LinearOrder κ] {key : α → κ} {xs : List α}
    (sorted : xs.Pairwise fun a b => key a < key b) {limit : Nat} {last : α}
    (final : (xs.take limit).getLast? = some last) {x : α} (member : x ∈ xs) (le : key x ≤ key last) :
    x ∈ xs.take limit := by
  rw [← List.take_append_drop limit xs] at sorted member
  rcases List.mem_append.1 member with taken | dropped
  · exact taken
  · have beyond := (List.pairwise_append.1 sorted).2.2 last (List.mem_of_getLast? final) x dropped
    exact absurd le (not_le.2 beyond)

end PowerBlockade.Lib
