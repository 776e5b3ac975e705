import Mathlib.Algebra.Order.Ring.Int
import Mathlib.Data.Nat.Cast.Basic
import Mathlib.Data.Nat.Size

/-!
# The integer part of a floating-point quotient

True division of two integers gives the binary64 number nearest to their quotient, ties to even. It
may be the next integer above the quotient, so the integer part is not always the floor.
-/

namespace PowerBlockade.Lib

def nearest (n d : Nat) : Nat :=
  if 2 * (n % d) < d ∨ 2 * (n % d) = d ∧ n / d % 2 = 0 then n / d else n / d + 1

/-- The quotient is scaled to 53 bits, rounded there, and cut off. Below one half it is rounded to
fewer bits, and is cut off to 0 all the same. -/
def truncatedQuotient (a b : Nat) : Nat :=
  let size := (a / b).size
  if size ≤ 53 then nearest (a * 2 ^ (53 - size)) b / 2 ^ (53 - size)
  else nearest a (b * 2 ^ (size - 53)) * 2 ^ (size - 53)

/-- `int(a / b)`. -/
def intTrueDiv (a : Int) (b : Nat) : Int :=
  if a < 0 then -truncatedQuotient a.natAbs b else truncatedQuotient a.natAbs b

theorem nearest_cases (n d : Nat) : nearest n d = n / d ∨ nearest n d = n / d + 1 ∧ n % d ≠ 0 := by
  unfold nearest
  split
  · exact Or.inl rfl
  · rename_i far
    refine Or.inr ⟨rfl, fun exact => far ?_⟩
    rw [exact]
    rcases Nat.eq_zero_or_pos d with rfl | pos
    · exact Or.inr ⟨rfl, by simp⟩
    · exact Or.inl (by omega)

theorem truncatedQuotient_cases {a b : Nat} (small : a / b < 2 ^ 53) :
    truncatedQuotient a b = a / b ∨ truncatedQuotient a b = a / b + 1 ∧ a % b ≠ 0 := by
  have size : (a / b).size ≤ 53 := Nat.size_le.2 small
  simp only [truncatedQuotient, if_pos size]
  generalize 53 - (a / b).size = s
  have floor : a * 2 ^ s / b / 2 ^ s = a / b := by
    rw [Nat.div_div_eq_div_mul, Nat.mul_div_mul_right _ _ (Nat.two_pow_pos s)]
  rcases nearest_cases (a * 2 ^ s) b with down | ⟨up, inexact⟩
  · left
    rw [down, floor]
  · rw [up, Nat.succ_div, floor]
    split
    · refine Or.inr ⟨rfl, fun exact => inexact ?_⟩
      obtain ⟨c, rfl⟩ := Nat.dvd_of_mod_eq_zero exact
      rw [Nat.mul_assoc, Nat.mul_mod_right]
    · exact Or.inl rfl

theorem truncatedQuotient_error {a b : Nat} (pos : 0 < b) (small : a / b < 2 ^ 53) :
    truncatedQuotient a b * b < a + b ∧ a < truncatedQuotient a b * b + b := by
  have split := Nat.div_add_mod a b
  have below := Nat.mod_lt a pos
  rw [Nat.mul_comm] at split
  rcases truncatedQuotient_cases small with down | ⟨up, inexact⟩
  · rw [down]
    omega
  · rw [up, Nat.succ_mul]
    omega

theorem intTrueDiv_error {a : Int} {b : Nat} (pos : 0 < b) (small : a.natAbs / b < 2 ^ 53) :
    |intTrueDiv a b * b - a| < b := by
  obtain ⟨above, below⟩ := truncatedQuotient_error pos small
  have product : (truncatedQuotient a.natAbs b : Int) * b = ↑(truncatedQuotient a.natAbs b * b) :=
    (Nat.cast_mul _ _).symm
  rw [abs_lt]
  unfold intTrueDiv
  split
  · rw [neg_mul, product]
    omega
  · rw [product]
    omega

end PowerBlockade.Lib
