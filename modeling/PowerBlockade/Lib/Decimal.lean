import Mathlib.Data.List.Basic

/-!
# Integers in decimal

The text that `toString` gives an integer: a sign where it is negative, and its digits. A numeral
may have either sign, and zeros before its digits.
-/

namespace PowerBlockade.Lib

theorem toList_natCast (n : Nat) : (toString (n : Int)).toList = Nat.toDigits 10 n := by
  rw [← Nat.toList_repr]
  rfl

theorem toList_negSucc (n : Nat) :
    (toString (Int.negSucc n)).toList = '-' :: Nat.toDigits 10 (n + 1) := by
  have text : toString (Int.negSucc n) = "-" ++ (n + 1).repr := rfl
  rw [text, String.toList_append, Nat.toList_repr]
  rfl

theorem mem_toDigits {b n : Nat} (base : 1 < b) {c : Char} (member : c ∈ Nat.toDigits b n) :
    ∃ d < b, c = Nat.digitChar d := by
  induction n using Nat.base_induction b base with
  | single n small =>
      rw [Nat.toDigits_of_lt_base small] at member
      exact ⟨n, small, List.mem_singleton.mp member⟩
  | digit n d small positive ih =>
      rw [← Nat.toDigits_append_toDigits base positive small] at member
      rcases List.mem_append.mp member with high | low
      · exact ih high
      · rw [Nat.toDigits_of_lt_base small] at low
        exact ⟨d, small, List.mem_singleton.mp low⟩

/-- Only zero begins with a zero. -/
theorem eq_zero_of_head_toDigits {n : Nat} (lead : (Nat.toDigits 10 n).head? = some '0') : n = 0 := by
  induction n using Nat.base_induction 10 (by decide) with
  | single n small =>
      rw [Nat.toDigits_of_lt_base small, List.head?_singleton, Option.some_inj] at lead
      have all : ∀ n < 10, Nat.digitChar n = '0' → n = 0 := by decide
      exact all n small lead
  | digit n d small positive ih =>
      rw [← Nat.toDigits_append_toDigits (by decide) positive small, List.head?_append_of_ne_nil _
        Nat.toDigits_ne_nil] at lead
      have nothing := ih lead
      omega

theorem toDigits_injective : Function.Injective (Nat.toDigits 10) := by
  intro m n same
  rw [← Nat.ofDigitChars_ten_toDigits (n := m), same, Nat.ofDigitChars_ten_toDigits]

theorem isDigit_of_mem_toDigits {n : Nat} {c : Char} (member : c ∈ Nat.toDigits 10 n) : c.isDigit = true :=
  Nat.isDigit_of_mem_toDigits (by decide) (by decide) member

theorem dash_not_mem_toDigits (n : Nat) : '-' ∉ Nat.toDigits 10 n := fun member =>
  absurd (isDigit_of_mem_toDigits member) (by decide)

theorem toString_int_injective : Function.Injective fun n : Int => (toString n).toList := by
  intro m n same
  cases m <;> cases n <;> simp only [Int.ofNat_eq_natCast, toList_natCast, toList_negSucc] at same
  · rw [toDigits_injective same]
  · exact absurd (same ▸ List.mem_cons_self) (dash_not_mem_toDigits _)
  · exact absurd (same ▸ List.mem_cons_self) (dash_not_mem_toDigits _)
  · rw [Nat.succ.inj (toDigits_injective (List.tail_eq_of_cons_eq same))]

theorem mem_toString_int {n : Int} {c : Char} (member : c ∈ (toString n).toList) :
    c = '-' ∨ c.isDigit = true := by
  cases n with
  | ofNat n =>
      rw [Int.ofNat_eq_natCast, toList_natCast] at member
      exact Or.inr (isDigit_of_mem_toDigits member)
  | negSucc n =>
      rw [toList_negSucc] at member
      exact (List.mem_cons.mp member).imp_right isDigit_of_mem_toDigits

/-! ## Numerals -/

def Digits (text : List Char) : Prop := text ≠ [] ∧ ∀ c ∈ text, c.isDigit = true

instance (text : List Char) : Decidable (Digits text) :=
  @instDecidableAnd _ _ _ (List.decidableBAll (fun c => c.isDigit = true) text)

inductive Numeral : List Char → Int → Prop
  | unsigned {digits : List Char} : Digits digits → Numeral digits (Nat.ofDigitChars 10 digits 0)
  | plus {digits : List Char} : Digits digits → Numeral ('+' :: digits) (Nat.ofDigitChars 10 digits 0)
  | minus {digits : List Char} : Digits digits → Numeral ('-' :: digits) (-Nat.ofDigitChars 10 digits 0)

def readNatural (text : List Char) : Option Int :=
  if Digits text then some (Nat.ofDigitChars 10 text 0) else none

def readNumeral : List Char → Option Int
  | '-' :: rest => (readNatural rest).map (-·)
  | '+' :: rest => readNatural rest
  | text => readNatural text

theorem readNatural_eq_some {text : List Char} {n : Int} :
    readNatural text = some n ↔ Digits text ∧ n = Nat.ofDigitChars 10 text 0 := by
  unfold readNatural
  split
  · rename_i digits
    rw [Option.some_inj, eq_comm]
    exact (and_iff_right digits).symm
  · rename_i other
    exact ⟨nofun, fun digits => absurd digits.1 other⟩

theorem readNumeral_digits {text : List Char} (digits : Digits text) : readNumeral text = readNatural text := by
  unfold readNumeral
  split
  · exact absurd (digits.2 '-' List.mem_cons_self) (by decide)
  · exact absurd (digits.2 '+' List.mem_cons_self) (by decide)
  · rfl

theorem readNumeral_eq_some {text : List Char} {n : Int} : readNumeral text = some n ↔ Numeral text n := by
  constructor
  · intro read
    unfold readNumeral at read
    split at read
    · obtain ⟨m, magnitude, rfl⟩ := Option.map_eq_some_iff.mp read
      obtain ⟨digits, rfl⟩ := readNatural_eq_some.mp magnitude
      exact .minus digits
    · obtain ⟨digits, rfl⟩ := readNatural_eq_some.mp read
      exact .plus digits
    · obtain ⟨digits, rfl⟩ := readNatural_eq_some.mp read
      exact .unsigned digits
  · intro numeral
    cases numeral with
    | unsigned digits => rw [readNumeral_digits digits, readNatural, if_pos digits]
    | plus digits => rw [readNumeral, readNatural, if_pos digits]
    | minus digits =>
        rw [readNumeral, readNatural, if_pos digits]
        rfl

theorem Digits.getLast?_isDigit {text : List Char} (digits : Digits text) :
    ∃ c, text.getLast? = some c ∧ c.isDigit = true :=
  ⟨_, List.getLast?_eq_some_getLast digits.1, digits.2 _ (List.getLast_mem digits.1)⟩

theorem Numeral.getLast?_isDigit {text : List Char} {n : Int} (numeral : Numeral text n) :
    ∃ c, text.getLast? = some c ∧ c.isDigit = true := by
  cases numeral with
  | unsigned digits => exact digits.getLast?_isDigit
  | plus digits | minus digits =>
      obtain ⟨c, last, digit⟩ := digits.getLast?_isDigit
      exact ⟨c, by rw [List.getLast?_cons, last]; rfl, digit⟩

theorem Numeral.mem {text : List Char} {n : Int} (numeral : Numeral text n) {c : Char} (member : c ∈ text) :
    c = '+' ∨ c = '-' ∨ c.isDigit = true := by
  cases numeral with
  | unsigned digits => exact Or.inr (Or.inr (digits.2 c member))
  | plus digits =>
      rcases List.mem_cons.mp member with sign | digit
      · exact Or.inl sign
      · exact Or.inr (Or.inr (digits.2 c digit))
  | minus digits =>
      rcases List.mem_cons.mp member with sign | digit
      · exact Or.inr (Or.inl sign)
      · exact Or.inr (Or.inr (digits.2 c digit))

end PowerBlockade.Lib
