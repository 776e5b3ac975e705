import Mathlib.Algebra.Order.Group.Int
import Mathlib.Tactic.Ring

/-!
# Windows that open on chosen days

Time is an integer that counts from the start of day 0, and every day has the same length. A window
opens at `start` on each chosen day and lasts until the clock next shows `stop`, which may be on
the day after.
-/

namespace PowerBlockade.Lib

variable {length start stop lasting t day : ℤ} {chosen : ℤ → Prop}

/-- Some window that opened on a chosen day contains `t`. -/
def InWindow (length : ℤ) (chosen : ℤ → Prop) (start stop t : ℤ) : Prop :=
  ∃ day, chosen day ∧ day * length + start ≤ t ∧
    t < day * length + start + (stop - start) % length

/-- A window reaches no further than into the day after the one on which it opened. -/
theorem within_iff (startLow : 0 ≤ start) (startHigh : start < length) (short : lasting < length) :
    day * length + start ≤ t ∧ t < day * length + start + lasting ↔
      t / length = day ∧ start ≤ t % length ∧ t % length < start + lasting ∨
        t / length - 1 = day ∧ t % length + length < start + lasting := by
  have positive : 0 < length := by omega
  have clock := Int.mul_ediv_add_emod t length
  have low := Int.emod_nonneg t (by omega : length ≠ 0)
  have next : (day + 1) * length = day * length + length := by ring
  constructor
  · intro ⟨opened, open'⟩
    by_cases sameDay : t < (day + 1) * length
    · have today : t / length = day := (Int.ediv_eq_iff_of_pos positive).2 ⟨by omega, by omega⟩
      rw [today, mul_comm] at clock
      exact Or.inl ⟨today, by omega, by omega⟩
    · have tomorrow : t / length = day + 1 :=
        (Int.ediv_eq_iff_of_pos positive).2 ⟨by omega, by omega⟩
      rw [tomorrow, mul_comm] at clock
      exact Or.inr ⟨by omega, by omega⟩
  · intro side
    cases side with
    | inl today =>
        obtain ⟨rfl, opened, open'⟩ := today
        rw [mul_comm] at clock
        omega
    | inr yesterday =>
        obtain ⟨rfl, open'⟩ := yesterday
        have before : (t / length - 1) * length = length * (t / length) - length := by ring
        omega

theorem inWindow_iff (startLow : 0 ≤ start) (startHigh : start < length) :
    InWindow length chosen start stop t ↔
      chosen (t / length) ∧ start ≤ t % length ∧ t % length < start + (stop - start) % length ∨
        chosen (t / length - 1) ∧ t % length + length < start + (stop - start) % length := by
  have short : (stop - start) % length < length := Int.emod_lt_of_pos _ (by omega)
  simp only [InWindow, within_iff startLow startHigh short]
  constructor
  · intro ⟨day, isChosen, side⟩
    cases side with
    | inl today => exact Or.inl ⟨today.1 ▸ isChosen, today.2⟩
    | inr yesterday => exact Or.inr ⟨yesterday.1 ▸ isChosen, yesterday.2⟩
  · intro side
    cases side with
    | inl today => exact ⟨_, today.1, Or.inl ⟨rfl, today.2⟩⟩
    | inr yesterday => exact ⟨_, yesterday.1, Or.inr ⟨rfl, yesterday.2⟩⟩

theorem inWindow_sameDay (startLow : 0 ≤ start) (stopHigh : stop < length) (ordered : start ≤ stop) :
    InWindow length chosen start stop t ↔
      chosen (t / length) ∧ start ≤ t % length ∧ t % length < stop := by
  have lasts : (stop - start) % length = stop - start := Int.emod_eq_of_lt (by omega) (by omega)
  have low := Int.emod_nonneg t (by omega : length ≠ 0)
  have wrapped : ¬ t % length + length < stop := by omega
  rw [inWindow_iff startLow (by omega), lasts, add_sub_cancel]
  simp [wrapped]

theorem inWindow_overnight (stopLow : 0 ≤ stop) (startHigh : start < length) (crosses : stop < start) :
    InWindow length chosen start stop t ↔
      chosen (t / length) ∧ start ≤ t % length ∨ chosen (t / length - 1) ∧ t % length < stop := by
  have lasts : (stop - start) % length = stop - start + length := by
    rw [← Int.add_emod_right]
    exact Int.emod_eq_of_lt (by omega) (by omega)
  have high := Int.emod_lt_of_pos t (by omega : 0 < length)
  have reach : start + (stop - start + length) = stop + length := by ring
  have all : t % length < stop + length := by omega
  rw [inWindow_iff (by omega) startHigh, lasts, reach]
  simp [all]

end PowerBlockade.Lib
