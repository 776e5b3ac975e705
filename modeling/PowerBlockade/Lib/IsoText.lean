import Mathlib.Data.List.DropRight
import Mathlib.Data.List.TakeDrop
import PowerBlockade.Lib.Gregorian
import PowerBlockade.Lib.Separated

/-!
# The text of dates and times

Writers and readers for the extended ISO 8601 forms `YYYY-MM-DD`, `HH:MM:SS`, a decimal fraction of
a second and an offset from UTC, on lists of characters. A reader returns what it read and the rest
of the text.
-/

namespace PowerBlockade.Lib

/-! ## Decimal digits -/

def fixedDigits : Nat → Nat → List Nat
  | 0, _ => []
  | width + 1, n => fixedDigits width (n / 10) ++ [n % 10]

def digitsValue (digits : List Nat) : Nat := digits.foldl (fun value d => value * 10 + d) 0

@[simp] theorem length_fixedDigits (width n : Nat) : (fixedDigits width n).length = width := by
  induction width generalizing n with
  | zero => rfl
  | succ width ih => simp [fixedDigits, ih]

theorem fixedDigits_lt (width n : Nat) : ∀ d ∈ fixedDigits width n, d < 10 := by
  induction width generalizing n with
  | zero => simp [fixedDigits]
  | succ width ih =>
      intro d member
      rcases List.mem_append.1 member with high | low
      · exact ih _ d high
      · rw [List.mem_singleton.1 low]
        exact Nat.mod_lt _ (by omega)

@[simp] theorem digitsValue_append_singleton (digits : List Nat) (d : Nat) :
    digitsValue (digits ++ [d]) = digitsValue digits * 10 + d := by
  simp [digitsValue]

theorem digitsValue_fixedDigits (width n : Nat) (fits : n < 10 ^ width) :
    digitsValue (fixedDigits width n) = n := by
  induction width generalizing n with
  | zero => simp only [pow_zero, Nat.lt_one_iff] at fits; simp [fixedDigits, digitsValue, fits]
  | succ width ih =>
      have high : n / 10 < 10 ^ width := by rw [pow_succ] at fits; omega
      rw [fixedDigits, digitsValue_append_singleton, ih _ high]
      omega

theorem take_fixedDigits (width extra n : Nat) :
    (fixedDigits (width + extra) n).take width = fixedDigits width (n / 10 ^ extra) := by
  induction extra generalizing n with
  | zero => simp
  | succ extra ih =>
      rw [← add_assoc, fixedDigits, List.take_append_of_le_length (by simp), ih, Nat.div_div_eq_div_mul,
        pow_succ, mul_comm]

def digitValue? (c : Char) : Option Nat :=
  if c.isDigit then some (c.toNat - '0'.toNat) else none

theorem digitValue_digitChar {d : Nat} (digit : d < 10) : digitValue? (Nat.digitChar d) = some d := by
  have all : ∀ d < 10, digitValue? (Nat.digitChar d) = some d := by decide
  exact all d digit

def readDigits : Nat → List Char → Option (List Nat × List Char)
  | 0, text => some ([], text)
  | _ + 1, [] => none
  | width + 1, c :: text => do
      let d ← digitValue? c
      let (digits, rest) ← readDigits width text
      return (d :: digits, rest)

def readNumber (width : Nat) (text : List Char) : Option (Nat × List Char) := do
  let (digits, rest) ← readDigits width text
  return (digitsValue digits, rest)

def spanDigits : List Char → List Nat × List Char
  | [] => ([], [])
  | c :: text => match digitValue? c with
      | none => ([], c :: text)
      | some d => (d :: (spanDigits text).1, (spanDigits text).2)

def digitChars (digits : List Nat) : List Char := digits.map Nat.digitChar

theorem readDigits_digitChars (digits : List Nat) (small : ∀ d ∈ digits, d < 10) (rest : List Char) :
    readDigits digits.length (digitChars digits ++ rest) = some (digits, rest) := by
  induction digits with
  | nil => rfl
  | cons d digits ih =>
      obtain ⟨digit, small'⟩ := List.forall_mem_cons.1 small
      simp only [digitChars, List.map_cons, List.cons_append, List.length_cons, readDigits,
        digitValue_digitChar digit]
      simp only [digitChars] at ih
      simp [ih small']

theorem spanDigits_digitChars (digits : List Nat) (small : ∀ d ∈ digits, d < 10) (rest : List Char)
    (stops : ∀ c ∈ rest.head?, digitValue? c = none) :
    spanDigits (digitChars digits ++ rest) = (digits, rest) := by
  induction digits with
  | nil =>
      cases rest with
      | nil => rfl
      | cons c rest => simp [digitChars, spanDigits, stops c rfl]
  | cons d digits ih =>
      obtain ⟨digit, small'⟩ := List.forall_mem_cons.1 small
      have tail := ih small'
      simp only [digitChars] at tail
      simp [digitChars, spanDigits, digitValue_digitChar digit, tail]

def padded (width n : Nat) : List Char :=
  if n < 10 ^ width then digitChars (fixedDigits width n) else Nat.toDigits 10 n

theorem readNumber_padded (width n : Nat) (fits : n < 10 ^ width) (rest : List Char) :
    readNumber width (padded width n ++ rest) = some (n, rest) := by
  have read := readDigits_digitChars (fixedDigits width n) (fixedDigits_lt width n) rest
  rw [length_fixedDigits] at read
  simp [readNumber, padded, fits, read, digitsValue_fixedDigits width n fits]

theorem isDigit_of_mem_digitChars {digits : List Nat} (small : ∀ d ∈ digits, d < 10) :
    ∀ c ∈ digitChars digits, c.isDigit = true := by
  have all : ∀ d < 10, (Nat.digitChar d).isDigit = true := by decide
  intro c member
  obtain ⟨d, digit, rfl⟩ := List.mem_map.1 member
  exact all d (small d digit)

theorem isDigit_of_mem_padded (width n : Nat) : ∀ c ∈ padded width n, c.isDigit = true := by
  unfold padded
  split
  · exact isDigit_of_mem_digitChars (fixedDigits_lt width n)
  · exact fun c member => Nat.isDigit_of_mem_toDigits (by decide) (by decide) member

theorem ofDigitChars_digitChars {digits : List Nat} (small : ∀ d ∈ digits, d < 10) :
    Nat.ofDigitChars 10 (digitChars digits) 0 = digitsValue digits := by
  induction digits using List.reverseRecOn with
  | nil => rfl
  | append_singleton digits d ih =>
      have digit : d < 10 := small d (by simp)
      have before : Nat.ofDigitChars 10 (digits.map Nat.digitChar) 0 = digitsValue digits :=
        ih fun e member => small e (List.mem_append_left _ member)
      rw [digitChars, List.map_append, List.map_singleton, Nat.ofDigitChars_append, before,
        Nat.ofDigitChars_cons_digitChar_of_lt_ten digit, Nat.ofDigitChars_nil, digitsValue_append_singleton,
        Nat.mul_comm]

theorem ofDigitChars_padded (width n : Nat) : Nat.ofDigitChars 10 (padded width n) 0 = n := by
  unfold padded
  split
  · rename_i fits
    rw [ofDigitChars_digitChars (fixedDigits_lt width n), digitsValue_fixedDigits width n fits]
  · exact Nat.ofDigitChars_ten_toDigits

theorem padded_injective (width : Nat) : Function.Injective (padded width) := by
  intro m n same
  rw [← ofDigitChars_padded width m, same, ofDigitChars_padded]

theorem dash_not_mem_padded (width n : Nat) : '-' ∉ padded width n := by
  intro member
  have digit := isDigit_of_mem_padded width n '-' member
  contradiction

theorem readDigits_isDigit {width : Nat} {text digits rest : List Char} {read : List Nat}
    (all : ∀ c ∈ digits, c.isDigit = true) (longer : width < digits.length)
    (found : readDigits width (digits ++ text) = some (read, rest)) :
    ∃ c ∈ rest.head?, c.isDigit = true := by
  induction width generalizing digits read with
  | zero =>
      obtain ⟨c, more, rfl⟩ := List.exists_cons_of_length_pos longer
      simp only [readDigits, Option.some.injEq, Prod.mk.injEq] at found
      obtain ⟨-, rfl⟩ := found
      exact ⟨c, rfl, all c List.mem_cons_self⟩
  | succ width ih =>
      obtain ⟨c, more, rfl⟩ := List.exists_cons_of_length_pos (Nat.zero_lt_of_lt longer)
      simp only [List.cons_append, readDigits, Option.bind_eq_bind, Option.bind_eq_some_iff] at found
      obtain ⟨d, -, ⟨later, rest'⟩, tail, same⟩ := found
      simp only [Option.pure_def, Option.some.injEq, Prod.mk.injEq] at same
      obtain ⟨-, rfl⟩ := same
      exact ih (fun c member => all c (List.mem_cons_of_mem _ member)) (by simpa using longer) tail

/-! ## Dates and times of day -/

def expect (c : Char) : List Char → Option (List Char)
  | [] => none
  | d :: rest => if d = c then some rest else none

@[simp] theorem expect_cons (c : Char) (rest : List Char) : expect c (c :: rest) = some rest := by
  simp [expect]

def dateChars (date : Date) : List Char :=
  (if date.year < 0 then ['-'] else []) ++ padded 4 date.year.natAbs ++
    '-' :: (padded 2 date.month ++ '-' :: padded 2 date.day)

def readDate (text : List Char) : Option (Date × List Char) := do
  let (year, text) ← readNumber 4 text
  let text ← expect '-' text
  let (month, text) ← readNumber 2 text
  let text ← expect '-' text
  let (day, text) ← readNumber 2 text
  let date : Date := ⟨year, month, day⟩
  if 1 ≤ year ∧ date.Valid then some (date, text) else none

theorem readDate_dateChars (date : Date) (valid : date.Valid) (first : 1 ≤ date.year)
    (last : date.year ≤ 9999) (rest : List Char) :
    readDate (dateChars date ++ rest) = some (date, rest) := by
  have small : date.day ≤ 31 := valid.2.2.2.trans (Date.daysInMonth_le _ _)
  have day := readNumber_padded 2 date.day (by omega) rest
  have month := readNumber_padded 2 date.month (by have := valid.2.1; omega)
    ('-' :: (padded 2 date.day ++ rest))
  have year := readNumber_padded 4 date.year.natAbs (by omega)
    ('-' :: (padded 2 date.month ++ '-' :: (padded 2 date.day ++ rest)))
  have abs : ((date.year.natAbs : Nat) : Int) = date.year := by omega
  have nonneg : ¬ date.year < 0 := by omega
  simp only [readDate, dateChars, nonneg, if_false, List.nil_append, List.append_assoc, List.cons_append,
    year, month, day, expect_cons, abs, Option.bind_eq_bind, Option.bind_some]
  rw [if_pos ⟨by omega, valid⟩]

/-- The month and the day are read from the right, before the year with its sign. -/
theorem dateChars_injective : Function.Injective dateChars := by
  intro a b same
  simp only [dateChars, ← List.cons_append, ← List.append_assoc] at same
  obtain ⟨same, day⟩ := append_cons_inj_right (dash_not_mem_padded 2 _) (dash_not_mem_padded 2 _) same
  obtain ⟨same, month⟩ := append_cons_inj_right (dash_not_mem_padded 2 _) (dash_not_mem_padded 2 _) same
  have year : a.year = b.year := by
    by_cases left : a.year < 0 <;> by_cases right : b.year < 0 <;>
      simp only [left, right, if_true, if_false, List.nil_append, List.singleton_append] at same
    · have abs := padded_injective 4 (List.tail_eq_of_cons_eq same)
      omega
    · exact absurd (same ▸ List.mem_cons_self) (dash_not_mem_padded 4 b.year.natAbs)
    · exact absurd (same ▸ List.mem_cons_self) (dash_not_mem_padded 4 a.year.natAbs)
    · have abs := padded_injective 4 same
      omega
  cases a
  cases b
  exact Date.mk.injEq .. ▸ ⟨year, padded_injective 2 month, padded_injective 2 day⟩

theorem expect_eq_some {c : Char} {text rest : List Char} (found : expect c text = some rest) :
    text = c :: rest := by
  cases text with
  | nil => contradiction
  | cons d text =>
      simp only [expect] at found
      split at found
      · rename_i same
        rw [same, Option.some.inj found]
      · contradiction

theorem readDate_dateChars_none (date : Date) (outside : date.year < 1 ∨ 9999 < date.year)
    (rest : List Char) : readDate (dateChars date ++ rest) = none := by
  by_cases negative : date.year < 0
  · have sign : digitValue? '-' = none := by decide
    simp [readDate, readNumber, dateChars, negative, readDigits, sign]
  by_contra found
  obtain ⟨⟨read, tail⟩, found⟩ := Option.ne_none_iff_exists'.1 found
  simp only [readDate, Option.bind_eq_bind, Option.bind_eq_some_iff] at found
  obtain ⟨⟨year, afterYear⟩, readYear, afterDash, dash, month, -, -, -, day, -, kept⟩ := found
  dsimp only at dash kept
  simp only [dateChars, negative, if_false, List.nil_append, List.append_assoc, List.cons_append]
    at readYear
  rcases outside with low | high
  · have zero : date.year.natAbs = 0 := by omega
    rw [zero, readNumber_padded 4 0 (by decide)] at readYear
    obtain ⟨rfl, -⟩ := Prod.mk.inj (Option.some.inj readYear)
    simp at kept
  · have wide : ¬ date.year.natAbs < 10 ^ 4 := by omega
    have long : 4 < (padded 4 date.year.natAbs).length := by
      rw [padded, if_neg wide]
      exact not_le.1 fun short => wide ((Nat.length_toDigits_le_iff (by decide) (by decide)).1 short)
    simp only [readNumber, Option.bind_eq_bind, Option.bind_eq_some_iff] at readYear
    obtain ⟨⟨digits, afterDigits⟩, readYear, same⟩ := readYear
    obtain ⟨-, rfl⟩ := Prod.mk.inj (Option.some.inj same)
    dsimp only at dash readYear
    -- four digits are read and a fifth one stands where the dash should
    obtain ⟨c, head, digit⟩ := readDigits_isDigit (isDigit_of_mem_padded 4 _) long readYear
    rw [expect_eq_some dash] at head
    obtain rfl := Option.some.inj head
    contradiction

def clockChars (seconds : Nat) : List Char :=
  padded 2 (seconds / 3600) ++ ':' :: (padded 2 (seconds / 60 % 60) ++ ':' :: padded 2 (seconds % 60))

def readClock (text : List Char) : Option (Nat × List Char) := do
  let (hour, text) ← readNumber 2 text
  let text ← expect ':' text
  let (minute, text) ← readNumber 2 text
  let text ← expect ':' text
  let (second, text) ← readNumber 2 text
  if hour < 24 ∧ minute < 60 ∧ second < 60 then some (hour * 3600 + minute * 60 + second, text)
  else none

theorem readClock_clockChars (seconds : Nat) (bound : seconds < 86400) (rest : List Char) :
    readClock (clockChars seconds ++ rest) = some (seconds, rest) := by
  have second := readNumber_padded 2 (seconds % 60) (by omega) rest
  have minute := readNumber_padded 2 (seconds / 60 % 60) (by omega)
    (':' :: (padded 2 (seconds % 60) ++ rest))
  have hour := readNumber_padded 2 (seconds / 3600) (by omega)
    (':' :: (padded 2 (seconds / 60 % 60) ++ ':' :: (padded 2 (seconds % 60) ++ rest)))
  simp only [readClock, clockChars, List.append_assoc, List.cons_append, hour, minute, second,
    expect_cons, Option.bind_eq_bind, Option.bind_some]
  rw [if_pos (by omega)]
  congr 2
  omega

/-! ## Fractions of a second -/

def fractionValue (width : Nat) (digits : List Nat) : Nat :=
  digitsValue ((digits ++ List.replicate width 0).take width)

def fractionChars (digits : List Nat) : List Char :=
  match digits.rdropWhile (· = 0) with
  | [] => []
  | shortened => '.' :: digitChars shortened

def readFraction : List Char → Option (List Nat × List Char)
  | '.' :: text => match spanDigits text with
      | ([], _) => none
      | found => some found
  | text => some ([], text)

theorem take_append_zeros (width : Nat) (digits : List Nat) :
    (digits ++ List.replicate (width + 1) 0).take width =
      (digits ++ List.replicate width 0).take width := by
  rw [List.replicate_succ', ← List.append_assoc, List.take_append_of_le_length (by simp)]

theorem fractionValue_rdropWhile (width : Nat) (digits : List Nat) :
    fractionValue width (digits.rdropWhile (· = 0)) = fractionValue width digits := by
  induction digits using List.reverseRecOn with
  | nil => rfl
  | append_singleton digits d ih =>
      by_cases zero : d = 0
      · rw [List.rdropWhile_concat_pos _ _ _ (by simpa using zero), ih, zero]
        unfold fractionValue
        rw [← take_append_zeros, List.replicate_succ, List.append_assoc, List.singleton_append]
      · rw [List.rdropWhile_concat_neg _ _ _ (by simpa using zero)]

theorem fractionValue_fixedDigits (width extra n : Nat) (fits : n < 10 ^ (width + extra)) :
    fractionValue width (fixedDigits (width + extra) n) = n / 10 ^ extra := by
  rw [fractionValue, List.take_append_of_le_length (by simp), take_fixedDigits]
  apply digitsValue_fixedDigits
  rw [Nat.div_lt_iff_lt_mul (Nat.pow_pos (by norm_num)), ← pow_add]
  exact fits

theorem readFraction_fractionChars (digits : List Nat) (small : ∀ d ∈ digits, d < 10)
    (rest : List Char) (stops : ∀ c ∈ rest.head?, c ≠ '.' ∧ digitValue? c = none) :
    readFraction (fractionChars digits ++ rest) = some (digits.rdropWhile (· = 0), rest) := by
  unfold fractionChars
  split
  · rename_i nothing
    rw [nothing, List.nil_append]
    cases rest with
    | nil => rfl
    | cons c rest =>
        have point := (stops c rfl).1
        unfold readFraction
        split
        · simp_all
        · rfl
  · rename_i shortened nonempty
    have kept : ∀ d ∈ digits.rdropWhile (· = 0), d < 10 := fun d member =>
      small d ((List.rdropWhile_prefix _ _).subset member)
    simp only [List.cons_append, readFraction]
    rw [spanDigits_digitChars _ kept rest fun c h => (stops c h).2]
    split
    · rename_i empty
      exact absurd (Prod.mk.inj empty).1 nonempty
    · rfl

theorem readFraction_padded (width n : Nat) (fits : n < 10 ^ (width + 1)) (rest : List Char)
    (stops : ∀ c ∈ rest.head?, digitValue? c = none) :
    readFraction ('.' :: padded (width + 1) n ++ rest) = some (fixedDigits (width + 1) n, rest) := by
  simp only [List.cons_append, readFraction, padded, if_pos fits]
  rw [spanDigits_digitChars _ (fixedDigits_lt _ n) rest stops]
  split
  · rename_i empty
    have := congrArg List.length (Prod.mk.inj empty).1
    simp at this
  · rfl

/-! ## Which characters occur -/

theorem mem_dateChars {date : Date} {c : Char} (member : c ∈ dateChars date) :
    c.isDigit = true ∨ c = '-' := by
  simp only [dateChars, List.mem_append, List.mem_cons] at member
  rcases member with (sign | year) | dash | month | dash | day
  · split at sign <;> simp_all
  · exact Or.inl (isDigit_of_mem_padded _ _ c year)
  · exact Or.inr dash
  · exact Or.inl (isDigit_of_mem_padded _ _ c month)
  · exact Or.inr dash
  · exact Or.inl (isDigit_of_mem_padded _ _ c day)

theorem mem_clockChars {seconds : Nat} {c : Char} (member : c ∈ clockChars seconds) :
    c.isDigit = true ∨ c = ':' := by
  simp only [clockChars, List.mem_append, List.mem_cons] at member
  rcases member with hour | colon | minute | colon | second
  · exact Or.inl (isDigit_of_mem_padded _ _ c hour)
  · exact Or.inr colon
  · exact Or.inl (isDigit_of_mem_padded _ _ c minute)
  · exact Or.inr colon
  · exact Or.inl (isDigit_of_mem_padded _ _ c second)

theorem mem_fractionChars {digits : List Nat} (small : ∀ d ∈ digits, d < 10) {c : Char}
    (member : c ∈ fractionChars digits) : c.isDigit = true ∨ c = '.' := by
  unfold fractionChars at member
  split at member
  · contradiction
  · rcases List.mem_cons.1 member with point | digit
    · exact Or.inr point
    · exact Or.inl (isDigit_of_mem_digitChars (fun d kept =>
        small d ((List.rdropWhile_prefix _ _).subset kept)) c digit)

/-! ## Offsets from UTC -/

/-- An optional offset in seconds: nothing, `Z`, or `±HH:MM` to the end of the text. -/
def readOffset : List Char → Option (Option Int)
  | [] => some none
  | ['Z'] => some (some 0)
  | sign :: text => do
      let (hour, text) ← readNumber 2 text
      let text ← expect ':' text
      let (minute, text) ← readNumber 2 text
      let seconds : Int := hour * 3600 + minute * 60
      if text = [] ∧ hour < 24 ∧ minute < 60 then
        if sign = '+' then some (some seconds) else if sign = '-' then some (some (-seconds)) else none
      else none

end PowerBlockade.Lib
