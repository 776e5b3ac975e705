import Mathlib.Algebra.BigOperators.Group.List.Basic
import Mathlib.Algebra.Ring.Nat
import Mathlib.Data.Finset.Card
import Mathlib.Data.List.Dedup
import Mathlib.Data.List.Perm.Basic

/-!
# Groups of a list

A `GROUP BY` splits a list into the fibers of a key. Sums over the groups are sums over the list;
counts of distinct values are not, unless the groups have no value in common.
-/

namespace PowerBlockade.Lib

variable {α κ ν : Type*} [DecidableEq κ] [DecidableEq ν]

def groupsOn (key : α → κ) (keys : List κ) (xs : List α) : List (List α) :=
  keys.map fun k => xs.filter (key · = k)

def groupBy (key : α → κ) (xs : List α) : List (κ × List α) :=
  (xs.map key).dedup.map fun k => (k, xs.filter (key · = k))

theorem mem_groupBy {key : α → κ} {xs : List α} {group : κ × List α} :
    group ∈ groupBy key xs ↔ group.1 ∈ xs.map key ∧ group.2 = xs.filter (key · = group.1) := by
  simp only [groupBy, List.mem_map (f := fun k => (k, _)), List.mem_dedup]
  constructor
  · rintro ⟨k, used, rfl⟩
    exact ⟨used, rfl⟩
  · rintro ⟨used, whole⟩
    exact ⟨group.1, used, Prod.ext rfl whole.symm⟩

theorem map_fst_groupBy (key : α → κ) (xs : List α) :
    (groupBy key xs).map Prod.fst = (xs.map key).dedup := by
  simp [groupBy, Function.comp_def]

theorem map_snd_groupBy (key : α → κ) (xs : List α) :
    (groupBy key xs).map Prod.snd = groupsOn key (xs.map key).dedup xs := by
  simp [groupBy, groupsOn, Function.comp_def]

theorem flatten_groupsOn_perm {key : α → κ} {keys : List κ} {xs : List α} (distinct : keys.Nodup)
    (covers : ∀ x ∈ xs, key x ∈ keys) : (groupsOn key keys xs).flatten.Perm xs := by
  induction keys generalizing xs with
  | nil =>
      obtain rfl : xs = [] := List.eq_nil_iff_forall_not_mem.2 fun x member =>
        List.not_mem_nil (covers x member)
      exact List.Perm.refl _
  | cons k rest ih =>
      obtain ⟨fresh, distinctRest⟩ := List.nodup_cons.1 distinct
      have others : groupsOn key rest xs = groupsOn key rest (xs.filter (key · ≠ k)) := by
        apply List.map_congr_left
        intro later member
        have different : later ≠ k := fun same => fresh (same ▸ member)
        rw [List.filter_filter]
        apply List.filter_congr
        intro x _
        grind
      have remaining : (groupsOn key rest xs).flatten.Perm (xs.filter (key · ≠ k)) := by
        rw [others]
        refine ih distinctRest fun x member => ?_
        have ⟨listed, different⟩ := List.mem_filter.1 member
        exact (List.mem_cons.1 (covers x listed)).resolve_left (by simpa using different)
      calc (groupsOn key (k :: rest) xs).flatten
          = xs.filter (key · = k) ++ (groupsOn key rest xs).flatten := rfl
        _ |>.Perm (xs.filter (key · = k) ++ xs.filter (key · ≠ k)) := remaining.append_left _
        _ |>.Perm xs := by simpa using List.filter_append_perm (key · = k) xs

theorem flatten_groupBy_perm (key : α → κ) (xs : List α) :
    ((groupBy key xs).map Prod.snd).flatten.Perm xs := by
  rw [map_snd_groupBy]
  exact flatten_groupsOn_perm (List.nodup_dedup _) fun x member =>
    List.mem_dedup.2 (List.mem_map_of_mem member)

theorem filter_groupBy (key : α → κ) (xs : List α) (k : κ) :
    (groupBy key xs).filter (·.1 = k) =
      if k ∈ xs.map key then [(k, xs.filter (key · = k))] else [] := by
  have one : (xs.map key).dedup.filter (· = k) = if k ∈ xs.map key then [k] else [] := by
    rw [List.filter_eq, List.count_dedup]
    split <;> rfl
  have grouped : (groupBy key xs).filter (·.1 = k) =
      ((xs.map key).dedup.filter (· = k)).map fun k => (k, xs.filter (key · = k)) := List.filter_map
  rw [grouped, one]
  split <;> rfl

/-! ## Distinct values -/

def countDistinct (value : α → ν) (xs : List α) : Nat := (xs.map value).dedup.length

theorem countDistinct_eq_card (value : α → ν) (xs : List α) :
    countDistinct value xs = (xs.map value).toFinset.card := (List.card_toFinset _).symm

theorem countDistinct_perm {value : α → ν} {xs ys : List α} (same : xs.Perm ys) :
    countDistinct value xs = countDistinct value ys := by
  rw [countDistinct_eq_card, countDistinct_eq_card, List.toFinset_eq_of_perm _ _ (same.map value)]

def ValuesDisjoint (value : α → ν) (parts : List (List α)) : Prop :=
  parts.Pairwise fun xs ys => ∀ x ∈ xs, ∀ y ∈ ys, value x ≠ value y

theorem disjoint_toFinset_iff {value : α → ν} {xs : List α} {parts : List (List α)} :
    Disjoint (xs.map value).toFinset (parts.flatten.map value).toFinset ↔
      ∀ ys ∈ parts, ∀ x ∈ xs, ∀ y ∈ ys, value x ≠ value y := by
  simp only [Finset.disjoint_left, List.mem_toFinset, List.mem_map, List.mem_flatten]
  grind

theorem countDistinct_flatten_le (value : α → ν) (parts : List (List α)) :
    countDistinct value parts.flatten ≤ (parts.map (countDistinct value)).sum := by
  induction parts with
  | nil => simp [countDistinct]
  | cons xs rest ih =>
      rw [List.flatten_cons, List.map_cons, List.sum_cons, countDistinct_eq_card, List.map_append,
        List.toFinset_append]
      refine (Finset.card_union_le _ _).trans (Nat.add_le_add (countDistinct_eq_card _ _).ge ?_)
      exact (countDistinct_eq_card _ _).ge.trans ih

theorem countDistinct_flatten_eq_iff (value : α → ν) (parts : List (List α)) :
    (parts.map (countDistinct value)).sum = countDistinct value parts.flatten ↔
      ValuesDisjoint value parts := by
  induction parts with
  | nil => simp [countDistinct, ValuesDisjoint]
  | cons xs rest ih =>
      have whole := Finset.card_union_eq_card_add_card (s := (xs.map value).toFinset)
        (t := (rest.flatten.map value).toFinset)
      have bound := Finset.card_union_le (xs.map value).toFinset (rest.flatten.map value).toFinset
      have least := countDistinct_flatten_le value rest
      rw [ValuesDisjoint, List.pairwise_cons, ← ValuesDisjoint, ← ih, ← disjoint_toFinset_iff, ← whole,
        List.map_cons, List.sum_cons, List.flatten_cons, countDistinct_eq_card value (xs ++ _),
        List.map_append, List.toFinset_append]
      simp only [countDistinct_eq_card] at least ⊢
      omega

/-! ## Sums -/

theorem sum_map_flatten {M : Type*} [AddCommMonoid M] (measure : List α → M) (nil : measure [] = 0)
    (append : ∀ xs ys, measure (xs ++ ys) = measure xs + measure ys) (parts : List (List α)) :
    (parts.map measure).sum = measure parts.flatten := by
  induction parts with
  | nil => exact nil.symm
  | cons xs rest ih => rw [List.map_cons, List.sum_cons, ih, List.flatten_cons, append]

theorem sum_flatMap {M : Type*} [AddCommMonoid M] (f : α → List M) (xs : List α) :
    (xs.flatMap f).sum = (xs.map fun x => (f x).sum).sum := by
  induction xs with
  | nil => rfl
  | cons x rest ih => rw [List.flatMap_cons, List.sum_append, ih, List.map_cons, List.sum_cons]

end PowerBlockade.Lib
