import Mathlib.Data.List.Basic

/-!
# The first entry with each key

Entries whose key was there before are left out; an entry without a key stays.
-/

namespace PowerBlockade.Lib

variable {α κ : Type*} [DecidableEq κ] {key : α → Option κ}

def keepFirst (key : α → Option κ) : List κ → List α → List α
  | _, [] => []
  | seen, x :: xs => match key x with
      | none => x :: keepFirst key seen xs
      | some k => if k ∈ seen then keepFirst key seen xs else x :: keepFirst key (k :: seen) xs

theorem keepFirst_cons_none {x : α} (keyless : key x = none) (seen : List κ) (xs : List α) :
    keepFirst key seen (x :: xs) = x :: keepFirst key seen xs := by
  rw [keepFirst, keyless]

theorem keepFirst_cons_seen {x : α} {k : κ} (keyed : key x = some k) {seen : List κ} (known : k ∈ seen)
    (xs : List α) : keepFirst key seen (x :: xs) = keepFirst key seen xs := by
  rw [keepFirst, keyed]
  exact if_pos known

theorem keepFirst_cons_new {x : α} {k : κ} (keyed : key x = some k) {seen : List κ} (unknown : k ∉ seen)
    (xs : List α) : keepFirst key seen (x :: xs) = x :: keepFirst key (k :: seen) xs := by
  rw [keepFirst, keyed]
  exact if_neg unknown

theorem keepFirst_sublist (seen : List κ) (xs : List α) : (keepFirst key seen xs).Sublist xs := by
  induction xs generalizing seen with
  | nil => exact List.Sublist.slnil
  | cons x xs ih =>
      cases keyed : key x with
      | none =>
          rw [keepFirst_cons_none keyed]
          exact (ih seen).cons_cons x
      | some k =>
          by_cases known : k ∈ seen
          · rw [keepFirst_cons_seen keyed known]
            exact (ih seen).cons x
          · rw [keepFirst_cons_new keyed known]
            exact (ih (k :: seen)).cons_cons x

theorem filter_none_keepFirst (seen : List κ) (xs : List α) :
    (keepFirst key seen xs).filter (key · = none) = xs.filter (key · = none) := by
  induction xs generalizing seen with
  | nil => rfl
  | cons x xs ih =>
      cases keyed : key x with
      | none => rw [keepFirst_cons_none keyed, List.filter_cons, List.filter_cons, ih]
      | some k =>
          by_cases known : k ∈ seen
          · rw [keepFirst_cons_seen keyed known, ih]
            simp [keyed]
          · rw [keepFirst_cons_new keyed known, List.filter_cons, List.filter_cons, ih]

theorem filter_some_keepFirst (seen : List κ) (xs : List α) (k : κ) :
    (keepFirst key seen xs).filter (key · = some k) =
      if k ∈ seen then [] else (xs.filter (key · = some k)).take 1 := by
  induction xs generalizing seen with
  | nil => simp [keepFirst]
  | cons x xs ih =>
      cases keyed : key x with
      | none =>
          rw [keepFirst_cons_none keyed, List.filter_cons, List.filter_cons, ih]
          simp [keyed]
      | some j =>
          by_cases same : j = k
          · subst same
            by_cases known : j ∈ seen
            · rw [keepFirst_cons_seen keyed known, ih, if_pos known, if_pos known]
            · rw [keepFirst_cons_new keyed known, List.filter_cons, List.filter_cons, ih, if_neg known]
              simp [keyed]
          · by_cases known : j ∈ seen
            · rw [keepFirst_cons_seen keyed known, ih, List.filter_cons]
              simp [keyed, same]
            · rw [keepFirst_cons_new keyed known, List.filter_cons, List.filter_cons, ih]
              simp [keyed, same, Ne.symm same]

theorem keepFirst_keepFirst (seen : List κ) (xs : List α) :
    keepFirst key seen (keepFirst key seen xs) = keepFirst key seen xs := by
  induction xs generalizing seen with
  | nil => rfl
  | cons x xs ih =>
      cases keyed : key x with
      | none => rw [keepFirst_cons_none keyed, keepFirst_cons_none keyed, ih]
      | some k =>
          by_cases known : k ∈ seen
          · rw [keepFirst_cons_seen keyed known, ih]
          · rw [keepFirst_cons_new keyed known, keepFirst_cons_new keyed known, ih]

end PowerBlockade.Lib
