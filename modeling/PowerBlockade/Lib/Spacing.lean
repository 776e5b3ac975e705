import Mathlib.Algebra.Order.Floor.Semiring
import Mathlib.Algebra.Order.Ring.Rat
import Mathlib.Data.Rat.Floor
import Mathlib.Tactic.FieldSimp
import Mathlib.Tactic.Linarith

/-!
# Instants that are some time apart
-/

namespace PowerBlockade.Lib

def Spaced (d : ℚ) (instants : List ℚ) : Prop := instants.Pairwise fun s t => s + d ≤ t

variable {d : ℚ} {instants : List ℚ} {s t : ℚ}

theorem spaced_append_singleton :
    Spaced d (instants ++ [t]) ↔ Spaced d instants ∧ ∀ s ∈ instants, s + d ≤ t := by
  simp [Spaced, List.pairwise_append]

theorem Spaced.of_lt (spaced : Spaced d instants) (nonneg : 0 ≤ d) (first : s ∈ instants)
    (second : t ∈ instants) (before : s < t) : s + d ≤ t := by
  induction instants with
  | nil => exact absurd first List.not_mem_nil
  | cons x rest ih =>
      obtain ⟨here, later⟩ := List.pairwise_cons.mp spaced
      rcases List.mem_cons.mp first with rfl | left
      · rcases List.mem_cons.mp second with rfl | right
        · exact absurd before (lt_irrefl _)
        · exact here t right
      · rcases List.mem_cons.mp second with rfl | right
        · have after : t + d ≤ s := here s left
          linarith
        · exact ih later left right

theorem Spaced.last (spaced : Spaced d (s :: instants)) (bounded : ∀ t ∈ s :: instants, t ≤ b) :
    s + instants.length * d ≤ b := by
  induction instants generalizing s with
  | nil => simpa using bounded s List.mem_cons_self
  | cons t rest ih =>
      obtain ⟨here, later⟩ := List.pairwise_cons.mp spaced
      have next : s + d ≤ t := here t List.mem_cons_self
      have rest' := ih later fun u member => bounded u (List.mem_cons_of_mem _ member)
      push_cast [List.length_cons]
      linarith

/-- A window of a given length holds one instant more than it has room for the gaps. -/
theorem Spaced.window (spaced : Spaced (1 / rate) instants) (positive : 0 < rate) (a L : ℚ) :
    (instants.filter fun t => a ≤ t ∧ t ≤ a + L).length ≤ ⌊L * rate⌋₊ + 1 := by
  have kept : Spaced (1 / rate) (instants.filter fun t => a ≤ t ∧ t ≤ a + L) := spaced.filter _
  have inside : ∀ t ∈ instants.filter fun t => a ≤ t ∧ t ≤ a + L, a ≤ t ∧ t ≤ a + L := by
    intro t member
    simpa using (List.mem_filter.mp member).2
  cases window : instants.filter fun t => a ≤ t ∧ t ≤ a + L with
  | nil => simp
  | cons s rest =>
      rw [window] at kept inside
      have last := kept.last fun t member => (inside t member).2
      have first := (inside s List.mem_cons_self).1
      have gaps : (rest.length : ℚ) * (1 / rate) ≤ L := by linarith
      have count : (rest.length : ℚ) ≤ L * rate := by
        calc (rest.length : ℚ) = rest.length * (1 / rate) * rate := by field_simp
          _ ≤ L * rate := mul_le_mul_of_nonneg_right gaps positive.le
      exact Nat.succ_le_succ (Nat.le_floor count)

end PowerBlockade.Lib
