import Mathlib.Data.List.Infix

/-!
# Python's text functions

`str.strip`, `str.lower`, `int` and the substring test, as far as the modelled code uses them.
Letter case is that of ASCII.
-/

namespace PowerBlockade.Python

def isSpace (c : Char) : Bool :=
  c.toNat ∈ [9, 10, 11, 12, 13, 28, 29, 30, 31, 32, 133, 160, 5760, 8232, 8233, 8239, 8287, 12288] ∨
    8192 ≤ c.toNat ∧ c.toNat ≤ 8202

def stripChars (text : List Char) : List Char :=
  ((text.dropWhile isSpace).reverse.dropWhile isSpace).reverse

def strip (text : String) : String := String.ofList (stripChars text.toList)

def lower (text : String) : String := String.ofList (text.toList.map Char.toLower)

def isIn (part text : String) : Bool := decide (part.toList <:+: text.toList)

/-- Decimal digits with single underscores between them. -/
def digitsOf : List Char → Option (List Char)
  | [] => none
  | [c] => if c.isDigit then some [c] else none
  | c :: '_' :: rest => if c.isDigit then (digitsOf rest).map (c :: ·) else none
  | c :: rest => if c.isDigit then (digitsOf rest).map (c :: ·) else none

/-- `sys.get_int_max_str_digits()`. -/
def maxStrDigits : Nat := 4300

def decimal (text : List Char) : Option Int := do
  let digits ← digitsOf text
  if digits.length ≤ maxStrDigits then
    return digits.foldl (fun n c => n * 10 + (c.toNat - 48 : Nat)) 0
  else none

/-- `int(text)`; `none` is its `ValueError`, of a text that is no number or has too many digits. -/
def int (text : String) : Option Int :=
  match stripChars text.toList with
  | '-' :: digits => (decimal digits).map (- ·)
  | '+' :: digits => decimal digits
  | digits => decimal digits

section
variable {digits : List Char}

theorem isSpace_digit {c : Char} (digit : c.isDigit = true) : isSpace c = false := by
  have range : 48 ≤ c.toNat ∧ c.toNat ≤ 57 := by
    simpa [Char.isDigit, UInt32.le_iff_toNat_le] using digit
  simp [isSpace]
  omega

theorem stripChars_of_not_isSpace {text : List Char} (solid : ∀ c ∈ text, isSpace c = false) :
    stripChars text = text := by
  have kept (chars : List Char) (solid : ∀ c ∈ chars, isSpace c = false) :
      chars.dropWhile isSpace = chars := by
    cases chars with
    | nil => rfl
    | cons c rest => simp [List.dropWhile, solid c List.mem_cons_self]
  rw [stripChars, kept text solid, kept text.reverse (by simpa using solid), List.reverse_reverse]

theorem digitsOf_digits (nonempty : digits ≠ []) (all : ∀ c ∈ digits, c.isDigit = true) :
    digitsOf digits = some digits := by
  induction digits with
  | nil => exact absurd rfl nonempty
  | cons c rest ih =>
      obtain ⟨first, others⟩ := List.forall_mem_cons.1 all
      cases rest with
      | nil => simp [digitsOf, first]
      | cons d rest =>
          have plain : d ≠ '_' := by
            intro same
            have digit := others d List.mem_cons_self
            exact absurd (same ▸ digit) (by decide)
          rw [digitsOf.eq_4 _ _ (by simp) (by simpa using plain), first, ih (List.cons_ne_nil d rest) others]
          rfl

theorem int_of_digit {text rest : List Char} {c : Char} (stripped : stripChars text = c :: rest)
    (digit : c.isDigit = true) : int (String.ofList text) = decimal (c :: rest) := by
  have plain : c ≠ '-' ∧ c ≠ '+' :=
    ⟨fun same => absurd (same ▸ digit) (by decide), fun same => absurd (same ▸ digit) (by decide)⟩
  rw [int, String.toList_ofList, stripped]
  split
  · rename_i same
    exact absurd (List.cons.inj same).1 plain.1
  · rename_i same
    exact absurd (List.cons.inj same).1 plain.2
  · rfl

theorem int_digits (nonempty : digits ≠ []) (all : ∀ c ∈ digits, c.isDigit = true) :
    int (String.ofList digits) = if digits.length ≤ maxStrDigits then
      some (digits.foldl (fun (n : Int) c => n * 10 + (c.toNat - 48 : Nat)) 0) else none := by
  have solid : stripChars digits = digits :=
    stripChars_of_not_isSpace fun c member => isSpace_digit (all c member)
  have found := digitsOf_digits nonempty all
  cases digits with
  | nil => exact absurd rfl nonempty
  | cons c rest =>
      rw [int_of_digit solid (all c List.mem_cons_self), decimal, found]
      rfl

end

def rstrip (c : Char) (text : String) : String :=
  String.ofList (text.toList.reverse.dropWhile (· = c)).reverse

def replace (c : Char) (by' : String) (text : String) : String :=
  String.ofList (text.toList.flatMap fun d => if d = c then by'.toList else [d])

theorem flatMap_of_not_mem {c : Char} {chars by' : List Char} (absent : c ∉ chars) :
    (chars.flatMap fun d => if d = c then by' else [d]) = chars := by
  induction chars with
  | nil => rfl
  | cons d rest ih =>
      have other : d ≠ c := fun same => absent (same ▸ List.mem_cons_self)
      rw [List.flatMap_cons, if_neg other, ih fun member => absent (List.mem_cons_of_mem _ member)]
      rfl

/-- The line ends that a file opened as text shows to its reader. -/
def universalNewlines : List Char → List Char
  | '\r' :: '\n' :: rest => '\n' :: universalNewlines rest
  | '\r' :: rest => '\n' :: universalNewlines rest
  | c :: rest => c :: universalNewlines rest
  | [] => []

theorem carriageReturn_not_mem_universalNewlines (text : List Char) :
    '\r' ∉ universalNewlines text := by
  fun_induction universalNewlines text with
  | case1 rest ih => simp [ih]
  | case2 rest _ ih => simp [ih]
  | case3 c rest _ plain ih =>
      have other : '\r' ≠ c := fun same => plain same.symm
      simp [ih, other]
  | case4 => simp

theorem universalNewlines_eq_self {text : List Char} (plain : '\r' ∉ text) :
    universalNewlines text = text := by
  fun_induction universalNewlines text with
  | case1 rest ih => simp at plain
  | case2 rest _ ih => simp at plain
  | case3 c rest _ _ ih => rw [ih fun member => plain (List.mem_cons_of_mem _ member)]
  | case4 => rfl

def take (n : Nat) (text : String) : String := String.ofList (text.toList.take n)

end PowerBlockade.Python
