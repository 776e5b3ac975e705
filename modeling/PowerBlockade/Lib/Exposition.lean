import Mathlib.Data.Rat.Defs
import Mathlib.Algebra.Order.Field.Rat
import PowerBlockade.Lib.Decimal
import PowerBlockade.Lib.Fields
import PowerBlockade.Lib.IsoText

/-!
# The text format of metrics

Readers for version 0.0.4 of the exposition format. A text is a list of lines, each ended by a line
feed; a line is empty, a comment, or a sample: a name, labels in braces, a number and perhaps a time.
-/

namespace PowerBlockade.Lib.Exposition

/-! ## Numbers -/

inductive Sign
  | plus | minus
deriving DecidableEq

structure Decimal where
  sign : Option Sign
  whole : List Nat
  fraction : List Nat
  exponent : Option Int
deriving DecidableEq

inductive Value
  | nan
  | infinite (negative : Bool)
  | decimal (d : Decimal)
deriving DecidableEq

/-- The number without its sign and its exponent. -/
def Decimal.mantissa (d : Decimal) : ℚ := digitsValue (d.whole ++ d.fraction) / 10 ^ d.fraction.length

def Decimal.value (d : Decimal) : ℚ :=
  (if d.sign = some .minus then -1 else 1) * d.mantissa * 10 ^ d.exponent.getD 0

def Value.number : Value → Option ℚ
  | .decimal d => some d.value
  | _ => none

def readSign : List Char → Option Sign × List Char
  | '+' :: rest => (some .plus, rest)
  | '-' :: rest => (some .minus, rest)
  | text => (none, text)

def readPoint : List Char → List Nat × List Char
  | '.' :: rest => spanDigits rest
  | text => ([], text)

def signed (sign : Option Sign) (n : Nat) : Int := if sign = some .minus then -n else n

/-- What stands behind the digits, to the end of the token. -/
def readExponent : List Char → Option (Option Int)
  | [] => some none
  | c :: rest =>
      if c = 'e' ∨ c = 'E' then
        let (sign, rest) := readSign rest
        match spanDigits rest with
        | ([], _) => none
        | (digits, []) => some (some (signed sign (digitsValue digits)))
        | _ => none
      else none

def readDecimal (token : List Char) : Option Decimal :=
  let (sign, rest) := readSign token
  let (whole, rest) := spanDigits rest
  let (fraction, rest) := readPoint rest
  if whole = [] ∧ fraction = [] then none
  else (readExponent rest).map fun exponent => ⟨sign, whole, fraction, exponent⟩

def readValue (token : List Char) : Option Value :=
  let (sign, word) := readSign token
  let word := word.map Char.toLower
  if sign = none ∧ word = ['n', 'a', 'n'] then some .nan
  else if word = ['i', 'n', 'f'] ∨ word = ['i', 'n', 'f', 'i', 'n', 'i', 't', 'y'] then
    some (.infinite (sign = some .minus))
  else (readDecimal token).map .decimal

/-! ## Names and labels -/

def isBlank (c : Char) : Bool := c = ' ' ∨ c = '\t'

def isLabelStart (c : Char) : Bool := c.isAlpha || c = '_'
def isLabelChar (c : Char) : Bool := isLabelStart c || c.isDigit
def isNameStart (c : Char) : Bool := isLabelStart c || c = ':'
def isNameChar (c : Char) : Bool := isNameStart c || c.isDigit

def readName (starts continues : Char → Bool) : List Char → Option (List Char × List Char)
  | [] => none
  | c :: rest => if starts c then some (c :: rest.takeWhile continues, rest.dropWhile continues) else none

def unescaped : Char → Option Char
  | '\\' => some '\\'
  | '"' => some '"'
  | 'n' => some '\n'
  | _ => none

/-- The value of a label up to its closing quote, and the rest of the line. -/
def readQuoted : List Char → Option (List Char × List Char)
  | [] => none
  | '"' :: rest => some ([], rest)
  | ['\\'] => none
  | '\\' :: c :: rest => do
      let d ← unescaped c
      let (value, rest) ← readQuoted rest
      return (d :: value, rest)
  | c :: rest => do
      let (value, rest) ← readQuoted rest
      return (c :: value, rest)

abbrev Label := List Char × List Char

def readLabel (text : List Char) : Option (Label × List Char) := do
  let (name, rest) ← readName isLabelStart isLabelChar text
  let rest ← expect '=' (rest.dropWhile isBlank)
  let rest ← expect '"' (rest.dropWhile isBlank)
  let (value, rest) ← readQuoted rest
  return ((name, value), rest.dropWhile isBlank)

/-- The labels up to the closing brace; every one but the last ends in a comma. -/
def readLabels : Nat → List Char → Option (List Label × List Char)
  | 0, _ => none
  | fuel + 1, text => match text.dropWhile isBlank with
      | '}' :: rest => some ([], rest)
      | text => do
          let (label, rest) ← readLabel text
          match rest with
          | ',' :: rest => do
              let (labels, rest) ← readLabels fuel rest
              return (label :: labels, rest)
          | '}' :: rest => some ([label], rest)
          | _ => none

/-! ## Lines -/

structure Sample where
  name : List Char
  labels : List Label
  value : Value
  timestamp : Option Int
deriving DecidableEq

def readTimestamp (text : List Char) : Option (Option Int) :=
  if text = [] then some none
  else
    let (sign, rest) := readSign text
    let (digits, rest) := spanDigits rest
    let n := signed sign (digitsValue digits)
    if digits ≠ [] ∧ (∀ c ∈ rest, isBlank c = true) ∧ -2 ^ 63 ≤ n ∧ n < 2 ^ 63 then some (some n) else none

def readBraces : List Char → Option (List Label × List Char)
  | '{' :: rest => readLabels rest.length rest
  | text => some ([], text)

def readSample (text : List Char) : Option Sample := do
  let (name, rest) ← readName isNameStart isNameChar text
  let (labels, rest) ← readBraces (rest.dropWhile isBlank)
  let rest := rest.dropWhile isBlank
  let value ← readValue (rest.takeWhile (!isBlank ·))
  let timestamp ← readTimestamp ((rest.dropWhile (!isBlank ·)).dropWhile isBlank)
  return ⟨name, labels, value, timestamp⟩

inductive Kind
  | counter | gauge | histogram | summary | untyped
deriving DecidableEq

def readKind (word : List Char) : Option Kind :=
  if word = "counter".toList then some .counter
  else if word = "gauge".toList then some .gauge
  else if word = "histogram".toList then some .histogram
  else if word = "summary".toList then some .summary
  else if word = "untyped".toList then some .untyped
  else none

inductive Line
  | empty
  | comment
  | help (name : List Char)
  | type (name : List Char) (kind : Kind)
  | sample (s : Sample)
deriving DecidableEq

def isMetricName (word : List Char) : Bool := readName isNameStart isNameChar word = some (word, [])

/-- What follows the `#`. -/
def readComment (text : List Char) : Option Line :=
  match fields isBlank text with
  | [] => some .comment
  | first :: words =>
      if first = "HELP".toList then match words with
        | name :: _ => if isMetricName name then some (.help name) else none
        | [] => none
      else if first = "TYPE".toList then match words with
        | [name, kind] => if isMetricName name then (readKind kind).map (.type name) else none
        | _ => none
      else some .comment

def readLine (text : List Char) : Option Line :=
  match text.dropWhile isBlank with
  | [] => some .empty
  | '#' :: rest => readComment rest
  | text => (readSample text).map .sample

/-- A type is told once for a name, before its first sample. -/
def typesFirst : List (List Char) → List Line → Bool
  | _, [] => true
  | seen, .type name _ :: rest => name ∉ seen && typesFirst (name :: seen) rest
  | seen, .sample s :: rest => typesFirst (s.name :: seen) rest
  | seen, _ :: rest => typesFirst seen rest

def Line.sample? : Line → Option Sample
  | .sample s => some s
  | _ => none

/-- The samples of a text, if it is well-formed. -/
def read (text : List Char) : Option (List Sample) := do
  let lines ← (text.splitOn '\n').mapM readLine
  if (text = [] ∨ text.getLast? = some '\n') ∧ typesFirst [] lines = true then
    some (lines.filterMap Line.sample?)
  else none

/-- Lines, each with its line feed. -/
def textOf (lines : List (List Char)) : List Char := lines.flatMap (· ++ ['\n'])

/-! ## Digits -/

def digitOf (c : Char) : Nat := c.toNat - '0'.toNat

theorem spanDigits_eq (text : List Char) :
    spanDigits text = ((text.takeWhile Char.isDigit).map digitOf, text.dropWhile Char.isDigit) := by
  induction text with
  | nil => rfl
  | cons c rest ih =>
      by_cases digit : c.isDigit = true
      · have value : digitValue? c = some (digitOf c) := if_pos digit
        simp [spanDigits, value, ih, digit]
      · have value : digitValue? c = none := if_neg digit
        simp [spanDigits, value, digit]

/-! ## The characters of a sample without labels -/

def Plain (c : Char) : Prop := isBlank c = true ∨ isNameChar c = true ∨ c ∈ ['{', '}', '+', '-', '.']

theorem plain_digit {c : Char} (digit : c.isDigit = true) : Plain c :=
  Or.inr (Or.inl (by simp [isNameChar, digit]))

theorem ascii_of_isAlpha {c : Char} (letter : c.isAlpha = true) : c.toNat < 128 := by
  change (decide (c.val ≥ 'A'.val ∧ c.val ≤ 'Z'.val) ||
    (decide (c.val ≥ 'a'.val) && decide (c.val ≤ 'z'.val))) = true at letter
  simp only [Bool.or_eq_true, Bool.and_eq_true, decide_eq_true_eq, ge_iff_le, UInt32.le_iff_toNat_le] at letter
  have code : c.val.toNat = c.toNat := rfl
  rw [code] at letter
  simp at letter
  omega

theorem ascii_of_isDigit {c : Char} (digit : c.isDigit = true) : c.toNat < 128 := by
  simp only [Char.isDigit, Bool.and_eq_true, decide_eq_true_eq, ge_iff_le, UInt32.le_iff_toNat_le] at digit
  have code : c.val.toNat = c.toNat := rfl
  rw [code] at digit
  simp at digit
  omega

theorem isNameChar_iff {c : Char} :
    isNameChar c = true ↔ c.isAlpha = true ∨ c.isDigit = true ∨ c ∈ ['_', ':'] := by
  simp [isNameChar, isNameStart, isLabelStart]
  tauto

theorem ascii_of_plain {c : Char} (plain : Plain c) : c.toNat < 128 := by
  rcases plain with blank | name | mark
  · have listed : c ∈ [' ', '\t'] := by simpa [isBlank] using blank
    have all : ∀ c ∈ [' ', '\t'], c.toNat < 128 := by decide
    exact all c listed
  · rcases isNameChar_iff.mp name with letter | digit | mark
    · exact ascii_of_isAlpha letter
    · exact ascii_of_isDigit digit
    · have all : ∀ c ∈ ['_', ':'], c.toNat < 128 := by decide
      exact all c mark
  · have all : ∀ c ∈ ['{', '}', '+', '-', '.'], c.toNat < 128 := by decide
    exact all c mark

variable {text rest : List Char}

theorem plain_of_takeWhile {p : Char → Bool} (kept : ∀ c, p c = true → Plain c)
    (later : ∀ c ∈ text.dropWhile p, Plain c) : ∀ c ∈ text, Plain c := by
  intro c member
  rw [← List.takeWhile_append_dropWhile (p := p) (l := text), List.mem_append] at member
  rcases member with here | there
  · exact kept c (List.mem_takeWhile_imp here)
  · exact later c there

theorem plain_of_readSign (later : ∀ c ∈ (readSign text).2, Plain c) : ∀ c ∈ text, Plain c := by
  unfold readSign at later
  split at later
  · exact List.forall_mem_cons.mpr ⟨Or.inr (Or.inr (by decide)), later⟩
  · exact List.forall_mem_cons.mpr ⟨Or.inr (Or.inr (by decide)), later⟩
  · exact later

theorem plain_of_spanDigits (later : ∀ c ∈ (spanDigits text).2, Plain c) : ∀ c ∈ text, Plain c := by
  rw [spanDigits_eq] at later
  exact plain_of_takeWhile (fun c digit => plain_digit digit) later

theorem plain_of_readPoint (later : ∀ c ∈ (readPoint text).2, Plain c) : ∀ c ∈ text, Plain c := by
  unfold readPoint at later
  split at later
  · exact List.forall_mem_cons.mpr ⟨Or.inr (Or.inr (by decide)), plain_of_spanDigits later⟩
  · exact later

theorem plain_of_readExponent {exponent : Option Int} (found : readExponent text = some exponent) :
    ∀ c ∈ text, Plain c := by
  cases text with
  | nil => simp
  | cons c rest =>
      simp only [readExponent] at found
      split at found
      · rename_i letter
        have first : Plain c := by
          rcases letter with rfl | rfl <;> exact Or.inr (Or.inl (by decide))
        refine List.forall_mem_cons.mpr ⟨first, plain_of_readSign (plain_of_spanDigits ?_)⟩
        split at found
        · contradiction
        · rename_i digits ended
          simp [ended]
        · contradiction
      · contradiction

theorem plain_of_readDecimal {d : Decimal} (found : readDecimal text = some d) : ∀ c ∈ text, Plain c := by
  simp only [readDecimal] at found
  split at found
  · contradiction
  · obtain ⟨exponent, ended, -⟩ := Option.map_eq_some_iff.mp found
    exact plain_of_readSign (plain_of_spanDigits (plain_of_readPoint (plain_of_readExponent ended)))

theorem readValue_eq_decimal {d : Decimal} (found : readValue text = some (.decimal d)) :
    readDecimal text = some d := by
  simp only [readValue] at found
  split at found
  · simp at found
  · split at found
    · simp at found
    · simpa using found

theorem plain_of_readTimestamp {timestamp : Option Int} (found : readTimestamp text = some timestamp) :
    ∀ c ∈ text, Plain c := by
  simp only [readTimestamp] at found
  split at found
  · rename_i nothing
    simp [nothing]
  · split at found
    · rename_i ended
      exact plain_of_readSign (plain_of_spanDigits fun c member => Or.inl (ended.2.1 c member))
    · contradiction

theorem plain_of_readBraces (found : readBraces text = some ([], rest)) (later : ∀ c ∈ rest, Plain c) :
    ∀ c ∈ text, Plain c := by
  unfold readBraces at found
  split at found
  · rename_i inside
    refine List.forall_mem_cons.mpr ⟨Or.inr (Or.inr (by decide)), ?_⟩
    apply plain_of_takeWhile (p := isBlank) fun c blank => Or.inl blank
    generalize inside.length = fuel at found
    cases fuel with
    | zero => contradiction
    | succ fuel =>
        simp only [readLabels] at found
        split at found
        · rename_i closed
          obtain ⟨-, rfl⟩ := Prod.mk.inj (Option.some.inj found)
          rw [closed]
          exact List.forall_mem_cons.mpr ⟨Or.inr (Or.inr (by decide)), later⟩
        · simp only [Option.bind_eq_bind, Option.bind_eq_some_iff] at found
          obtain ⟨⟨label, more⟩, -, found⟩ := found
          split at found
          · obtain ⟨labels, -, same⟩ := Option.bind_eq_some_iff.mp found
            simp at same
          · simp at found
          · contradiction
  · obtain ⟨-, rfl⟩ := Prod.mk.inj (Option.some.inj found)
    exact later

theorem plain_of_readSample {s : Sample} {d : Decimal} (found : readSample text = some s)
    (unlabelled : s.labels = []) (decimal : s.value = .decimal d) : ∀ c ∈ text, Plain c := by
  simp only [readSample, Option.bind_eq_bind, Option.bind_eq_some_iff] at found
  obtain ⟨⟨name, afterName⟩, named, ⟨labels, afterBraces⟩, braces, value, valued, timestamp, timed, same⟩ := found
  obtain rfl := Option.some.inj same
  dsimp only at unlabelled decimal braces valued timed
  subst unlabelled decimal
  cases text with
  | nil => simp
  | cons c text =>
      simp only [readName] at named
      split at named
      · rename_i starts
        obtain ⟨-, rfl⟩ := Prod.mk.inj (Option.some.inj named)
        refine List.forall_mem_cons.mpr ⟨Or.inr (Or.inl (by simp [isNameChar, starts])), ?_⟩
        apply plain_of_takeWhile fun c continues => Or.inr (Or.inl continues)
        apply plain_of_takeWhile fun c blank => Or.inl blank
        apply plain_of_readBraces braces
        apply plain_of_takeWhile fun c blank => Or.inl blank
        intro c member
        rw [← List.takeWhile_append_dropWhile (p := (!isBlank ·)) (l := afterBraces.dropWhile isBlank),
          List.mem_append] at member
        rcases member with token | more
        · exact plain_of_readDecimal (readValue_eq_decimal valued) c token
        · exact plain_of_takeWhile (fun c blank => Or.inl blank) (plain_of_readTimestamp timed) c more
      · contradiction

/-! ## The parts of a sample -/

def isNumeral (c : Char) : Bool := c.isDigit || c = '.'

theorem readName_eq_some {starts continues : Char → Bool} {name : List Char}
    (kept : ∀ c, starts c = true → continues c = true)
    (found : readName starts continues text = some (name, rest)) :
    name = text.takeWhile continues ∧ rest = text.dropWhile continues := by
  cases text with
  | nil => contradiction
  | cons c text =>
      simp only [readName] at found
      split at found
      · rename_i first
        obtain ⟨rfl, rfl⟩ := Prod.mk.inj (Option.some.inj found)
        simp [kept c first]
      · contradiction

theorem readExponent_head {exponent : Option Int} (found : readExponent text = some exponent) :
    ∀ c ∈ text.head?, isNumeral c = false := by
  cases text with
  | nil => simp
  | cons c text =>
      simp only [readExponent] at found
      split at found
      · rename_i letter
        rintro _ ⟨⟩
        rcases letter with rfl | rfl <;> decide
      · contradiction

theorem isNumeral_digit {c : Char} (digit : c.isDigit = true) : isNumeral c = true := by
  simp [isNumeral, digit]

theorem readPoint_cases (text : List Char) :
    (∃ after, text = '.' :: after ∧ readPoint text = spanDigits after) ∨
      (∀ c ∈ text.head?, c ≠ '.') ∧ readPoint text = ([], text) := by
  unfold readPoint
  split
  · exact Or.inl ⟨_, rfl, rfl⟩
  · rename_i other
    refine Or.inr ⟨?_, rfl⟩
    cases text with
    | nil => simp
    | cons c text =>
        rintro _ ⟨⟩ rfl
        exact other text rfl

/-- The digits on both sides of the point, as the text of an unsigned number has them. -/
theorem readDecimal_unsigned {d : Decimal} (found : readDecimal text = some d)
    (unsigned : readSign text = (none, text)) :
    ∃ whole fraction point, text.takeWhile isNumeral = whole ++ point ++ fraction ∧
      (point = ['.'] ∨ point = [] ∧ fraction = []) ∧ (∀ c ∈ whole ++ fraction, c.isDigit = true) ∧
      ¬ (whole = [] ∧ fraction = []) ∧ d.whole = whole.map digitOf ∧ d.fraction = fraction.map digitOf := by
  have digits {l : List Char} : ∀ c ∈ l.takeWhile Char.isDigit, c.isDigit = true := fun c member =>
    List.mem_takeWhile_imp member
  have split := List.takeWhile_append_dropWhile (p := Char.isDigit) (l := text)
  simp only [readDecimal, unsigned, spanDigits_eq] at found
  rcases readPoint_cases (text.dropWhile Char.isDigit) with ⟨after, pointed, same⟩ | ⟨stops, same⟩
  · rw [same, spanDigits_eq] at found
    split at found
    · contradiction
    · rename_i some
      obtain ⟨exponent, ended, rfl⟩ := Option.map_eq_some_iff.mp found
      have tail := List.takeWhile_append_dropWhile (p := Char.isDigit) (l := after)
      have whole : text = text.takeWhile Char.isDigit ++ '.' :: after.takeWhile Char.isDigit ++
          after.dropWhile Char.isDigit := by
        rw [List.append_assoc, List.cons_append, tail, ← pointed, split]
      have numerals : ∀ c ∈ text.takeWhile Char.isDigit ++ '.' :: after.takeWhile Char.isDigit,
          isNumeral c = true := by
        simp only [List.forall_mem_append, List.forall_mem_cons]
        exact ⟨fun c member => isNumeral_digit (digits c member), by decide,
          fun c member => isNumeral_digit (digits c member)⟩
      refine ⟨_, _, ['.'], ?_, Or.inl rfl, List.forall_mem_append.mpr ⟨digits, digits⟩,
        by simpa only [List.map_eq_nil_iff] using some, rfl, rfl⟩
      calc text.takeWhile isNumeral
        _ = _ := congrArg (List.takeWhile isNumeral) whole
        _ = text.takeWhile Char.isDigit ++ '.' :: after.takeWhile Char.isDigit :=
            takeWhile_append_stop numerals (readExponent_head ended)
        _ = _ := by simp
  · rw [same] at found
    split at found
    · contradiction
    · rename_i some
      obtain ⟨exponent, ended, rfl⟩ := Option.map_eq_some_iff.mp found
      refine ⟨_, [], [], ?_, Or.inr ⟨rfl, rfl⟩, by rw [List.append_nil]; exact digits,
        by simpa only [List.map_eq_nil_iff] using some, rfl, rfl⟩
      calc text.takeWhile isNumeral
        _ = _ := congrArg (List.takeWhile isNumeral) split.symm
        _ = text.takeWhile Char.isDigit :=
            takeWhile_append_stop (fun c member => isNumeral_digit (digits c member))
              (readExponent_head ended)
        _ = _ := by simp

theorem numeral_ne {c d : Char} (numeral : isNumeral c = true) (other : isNumeral d = false) : c ≠ d := by
  rintro rfl
  simp [numeral] at other

theorem isBlank_numeral {c : Char} (numeral : isNumeral c = true) : isBlank c = false := by
  simp [isBlank, numeral_ne numeral (d := ' ') (by decide), numeral_ne numeral (d := '\t') (by decide)]

theorem readSign_numeral {c : Char} (numeral : isNumeral c = true) (rest : List Char) :
    readSign (c :: rest) = (none, c :: rest) := by
  unfold readSign
  split
  · rename_i same
    exact absurd (List.head_eq_of_cons_eq same) (numeral_ne numeral (by decide))
  · rename_i same
    exact absurd (List.head_eq_of_cons_eq same) (numeral_ne numeral (by decide))
  · rfl

theorem readBraces_numeral {c : Char} (numeral : isNumeral c = true) (rest : List Char) :
    readBraces (c :: rest) = some ([], c :: rest) := by
  unfold readBraces
  split
  · rename_i same
    exact absurd (List.head_eq_of_cons_eq same) (numeral_ne numeral (by decide))
  · rfl

theorem isNameChar_blank {c : Char} (blank : isBlank c = true) : isNameChar c = false := by
  have listed : c ∈ [' ', '\t'] := by simpa [isBlank] using blank
  have all : ∀ c ∈ [' ', '\t'], isNameChar c = false := by decide
  exact all c listed

theorem readComment_ne_sample (text : List Char) (s : Sample) : readComment text ≠ some (.sample s) := by
  intro found
  unfold readComment at found
  repeat' split at found
  all_goals simp at found

end PowerBlockade.Lib.Exposition
