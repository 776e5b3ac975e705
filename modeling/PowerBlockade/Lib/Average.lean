import Mathlib.Algebra.BigOperators.Group.List.Basic
import Mathlib.Algebra.Order.Field.Basic
import Mathlib.Data.Rat.Cast.Order
import Mathlib.Tactic.FieldSimp
import Mathlib.Tactic.Linarith

/-!
# Averages of integers

How far a truncated average may be from the average, and how such errors add up.
-/

namespace PowerBlockade.Lib

variable {α : Type*}

def mean (xs : List Int) : ℚ := xs.sum / xs.length

theorem abs_sub_div_lt {a s : Int} {n k : Nat} (pos : 0 < n) (near : |a * n - s| < k * n) :
    |(a : ℚ) - s / n| < k := by
  have positive : (0 : ℚ) < n := Nat.cast_pos.2 pos
  have scaled : (a : ℚ) - s / n = (a * n - s) / n := by field_simp
  rw [scaled, abs_div, abs_of_pos positive, div_lt_iff₀ positive]
  exact_mod_cast near

theorem abs_tdiv_mul_sub_lt (a : Int) {n : Nat} (pos : 0 < n) : |a.tdiv n * n - a| < n := by
  have split := Int.tdiv_mul_add_tmod a n
  have above : a.tmod n < n := Int.tmod_lt_of_pos a (by omega)
  have below : -(n : Int) < a.tmod n := Int.lt_tmod_of_pos a (by omega)
  rw [abs_lt]
  omega

theorem abs_tdiv_sub_mean_lt (xs : List Int) : |((xs.sum.tdiv xs.length : Int) : ℚ) - mean xs| < 1 := by
  rcases List.eq_nil_or_concat xs with rfl | ⟨_, _, rfl⟩
  · simp [mean]
  · rw [mean, ← Nat.cast_one]
    refine abs_sub_div_lt (by simp) ?_
    rw [Nat.cast_one, one_mul]
    exact abs_tdiv_mul_sub_lt _ (by simp)

theorem abs_sum_sub_sum_le (xs : List α) {f g h : α → Int} (near : ∀ x ∈ xs, |f x - g x| ≤ h x) :
    |(xs.map f).sum - (xs.map g).sum| ≤ (xs.map h).sum := by
  induction xs with
  | nil => simp
  | cons x rest ih =>
      have first := near x List.mem_cons_self
      have later := ih fun y member => near y (List.mem_cons_of_mem _ member)
      simp only [List.map_cons, List.sum_cons]
      rw [abs_le] at first later ⊢
      omega

theorem sum_filterMap (f : α → Option Int) (xs : List α) :
    (xs.filterMap f).sum = (xs.map fun x => (f x).getD 0).sum := by
  induction xs with
  | nil => rfl
  | cons x rest ih => cases value : f x <;> simp [value, ih]

end PowerBlockade.Lib
