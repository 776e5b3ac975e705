import Mathlib.Algebra.Group.Int.Defs
import PowerBlockade.Python

/-!
# What a column takes

PostgreSQL refuses the character NUL in any text, text longer than its column, and an integer
outside the column's range.
-/

namespace PowerBlockade

def fitsText (length : Nat) (text : String) : Bool :=
  text.length ≤ length ∧ '\x00' ∉ text.toList

def storableText (text : String) : Bool := '\x00' ∉ text.toList

def fitsInteger (bits : Nat) (n : Int) : Bool := -2 ^ (bits - 1) ≤ n ∧ n < 2 ^ (bits - 1)

end PowerBlockade
