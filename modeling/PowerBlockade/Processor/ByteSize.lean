import PowerBlockade.Lib.Decimal
import PowerBlockade.Nodes.LocalKey
import PowerBlockade.Processor.Dnstap

/-!
# Byte sizes

`parseBytes` of the processor's configuration, and the bound that `Load` takes from it.
-/

namespace PowerBlockade.Processor
open Lib
open Zones (isSpace)
open Nodes (trimmedEnv)

/-! ## The parser -/

/-- `strings.TrimSuffix` -/
def trimSuffix (ending s : List Char) : List Char :=
  if ending <:+ s then s.take (s.length - ending.length) else s

/-- `strconv.ParseInt(s, 10, 64)`; `none` is its error. -/
def parseInt64 (s : List Char) : Option GoInt :=
  (readNumeral s).bind fun n => if fits : fitsInteger 64 n = true then some ⟨n, fits⟩ else none

/-- `toUpper` is `unicode.ToUpper`; what is no UTF-8 in a string reads as U+FFFD. -/
def upperTrimmed (toUpper : Char → Char) (s : String) : List Char := trim isSpace (s.toList.map toUpper)

/-- The multiplier, and what is left before the unit. -/
def splitUnit (s : List Char) : Int × List Char :=
  if ['G', 'B'] <:+ s ∨ ['G'] <:+ s then
    (1024 * 1024 * 1024, trimSuffix ['G'] (trimSuffix ['G', 'B'] s))
  else if ['M', 'B'] <:+ s ∨ ['M'] <:+ s then
    (1024 * 1024, trimSuffix ['M'] (trimSuffix ['M', 'B'] s))
  else if ['K', 'B'] <:+ s ∨ ['K'] <:+ s then
    (1024, trimSuffix ['K'] (trimSuffix ['K', 'B'] s))
  else (1, s)

def parseBytes (toUpper : Char → Char) (s : String) : Option GoInt :=
  let (multiplier, s) := splitUnit (upperTrimmed toUpper s)
  (parseInt64 (trim isSpace s)).map fun n => GoInt.ofInt (n.1 * multiplier)

/-- `cfg.Buffer.MaxBytes` after `Load`; `configured` is the default, or that of the YAML file. -/
def loadMaxBytes (toUpper : Char → Char) (configured : GoInt) (value : Option String) : GoInt :=
  if trimmedEnv value ≠ "" then (parseBytes toUpper (trimmedEnv value)).getD configured else configured

/-! ## Sizes -/

def units : List (List Char × Int) :=
  [([], 1), (['K'], 1024), (['K', 'B'], 1024), (['M'], 1024 * 1024), (['M', 'B'], 1024 * 1024),
    (['G'], 1024 * 1024 * 1024), (['G', 'B'], 1024 * 1024 * 1024)]

def doubledUnits : List (List Char × Int) :=
  [(['K', 'K', 'B'], 1024), (['M', 'M', 'B'], 1024 * 1024), (['G', 'G', 'B'], 1024 * 1024 * 1024)]

/-- A numeral of 64 bits, blanks and one of the names. -/
def Written (names : List (List Char × Int)) (text : List Char) (n factor : Int) : Prop :=
  ∃ numeral blanks name, text = numeral ++ (blanks ++ name) ∧ Numeral numeral n ∧ fitsInteger 64 n = true ∧
    (∀ c ∈ blanks, isSpace c = true) ∧ (name, factor) ∈ names

structure BytesExact (toUpper : Char → Char) (s : String) : Prop where
  sound : ∀ r, parseBytes toUpper s = some r →
    ∃ n factor, Written units (upperTrimmed toUpper s) n factor ∧ r.1 = n * factor
  complete : ∀ n factor, Written units (upperTrimmed toUpper s) n factor →
    fitsInteger 64 (n * factor) = true → ∃ r, parseBytes toUpper s = some r ∧ r.1 = n * factor
  overflow : ∀ n factor, Written units (upperTrimmed toUpper s) n factor →
    fitsInteger 64 (n * factor) = false → parseBytes toUpper s = none

/-- A character that is of no numeral and no blank. -/
def isUnit (c : Char) : Bool := !c.isDigit && !isSpace c

theorem isUnit_of_mem {name : List Char} {factor : Int} (known : (name, factor) ∈ units ++ doubledUnits) :
    ∀ c ∈ name, isUnit c = true := by
  have all : ∀ unit ∈ units ++ doubledUnits, ∀ c ∈ unit.1, isUnit c = true := by decide
  exact all _ known

/-- What stands before a unit ends with a digit or a blank. -/
theorem isUnit_stem {numeral blanks : List Char} {n : Int} (number : Numeral numeral n)
    (all : ∀ c ∈ blanks, isSpace c = true) : ∀ c ∈ (numeral ++ blanks).getLast?, isUnit c = false := by
  intro c last
  obtain ⟨d, lastDigit, digit⟩ := number.getLast?_isDigit
  rw [List.getLast?_append, lastDigit] at last
  cases blank : blanks.getLast? with
  | none =>
      rw [blank] at last
      rw [← Option.some.inj last]
      simp [isUnit, digit]
  | some b =>
      rw [blank] at last
      rw [← Option.some.inj last]
      simp [isUnit, all b (List.mem_of_getLast? blank)]

theorem trimSuffix_append {stem name ending : List Char} (stop : ∀ c ∈ stem.getLast?, isUnit c = false)
    (letters : ∀ c ∈ ending, isUnit c = true) :
    trimSuffix ending (stem ++ name) = stem ++ trimSuffix ending name := by
  simp only [trimSuffix, suffix_append_iff stop letters]
  split
  · rename_i ends
    have shorter := ends.length_le
    rw [List.length_append, Nat.add_sub_assoc shorter, List.take_length_add_append]
  · rfl

theorem splitUnit_append {stem : List Char} (stop : ∀ c ∈ stem.getLast?, isUnit c = false) (name : List Char) :
    splitUnit (stem ++ name) = ((splitUnit name).1, stem ++ (splitUnit name).2) := by
  simp (disch := decide) only [splitUnit, suffix_append_iff stop, trimSuffix_append stop]
  split_ifs <;> rfl

theorem splitUnit_name {name : List Char} {factor : Int} (known : (name, factor) ∈ units ++ doubledUnits) :
    splitUnit name = (factor, []) := by
  have all : ∀ unit ∈ units ++ doubledUnits, splitUnit unit.1 = (unit.2, []) := by decide
  exact all _ known

theorem trimSuffix_of_suffix {ending s : List Char} (ends : ending <:+ s) : trimSuffix ending s ++ ending = s := by
  rw [trimSuffix, if_pos ends]
  exact List.suffix_iff_eq_append.mp ends

theorem trimSuffix_trimSuffix {c : Char} {s : List Char} (ends : [c, 'B'] <:+ s ∨ [c] <:+ s) :
    ∃ name ∈ [[c], [c, 'B'], [c, c, 'B']], s = trimSuffix [c] (trimSuffix [c, 'B'] s) ++ name := by
  by_cases long : [c, 'B'] <:+ s
  · have first := trimSuffix_of_suffix long
    by_cases again : [c] <:+ trimSuffix [c, 'B'] s
    · have second := trimSuffix_of_suffix again
      refine ⟨[c, c, 'B'], by simp, ?_⟩
      calc s = trimSuffix [c, 'B'] s ++ [c, 'B'] := first.symm
        _ = (trimSuffix [c] (trimSuffix [c, 'B'] s) ++ [c]) ++ [c, 'B'] := by rw [second]
        _ = trimSuffix [c] (trimSuffix [c, 'B'] s) ++ [c, c, 'B'] := by simp
    · refine ⟨[c, 'B'], by simp, ?_⟩
      have kept : trimSuffix [c] (trimSuffix [c, 'B'] s) = trimSuffix [c, 'B'] s := if_neg again
      rw [kept, first]
  · have kept : trimSuffix [c, 'B'] s = s := if_neg long
    exact ⟨[c], by simp, by rw [kept, trimSuffix_of_suffix (ends.resolve_left long)]⟩

theorem splitUnit_cut (s : List Char) :
    ∃ name, s = (splitUnit s).2 ++ name ∧ (name, (splitUnit s).1) ∈ units ++ doubledUnits := by
  unfold splitUnit
  split_ifs with giga mega kilo
  · obtain ⟨name, known, whole⟩ := trimSuffix_trimSuffix giga
    have listed : ∀ name ∈ [['G'], ['G', 'B'], ['G', 'G', 'B']],
        (name, (1024 * 1024 * 1024 : Int)) ∈ units ++ doubledUnits := by decide
    exact ⟨name, whole, listed name known⟩
  · obtain ⟨name, known, whole⟩ := trimSuffix_trimSuffix mega
    have listed : ∀ name ∈ [['M'], ['M', 'B'], ['M', 'M', 'B']],
        (name, (1024 * 1024 : Int)) ∈ units ++ doubledUnits := by decide
    exact ⟨name, whole, listed name known⟩
  · obtain ⟨name, known, whole⟩ := trimSuffix_trimSuffix kilo
    have listed : ∀ name ∈ [['K'], ['K', 'B'], ['K', 'K', 'B']],
        (name, (1024 : Int)) ∈ units ++ doubledUnits := by decide
    exact ⟨name, whole, listed name known⟩
  · have listed : ([], (1 : Int)) ∈ units ++ doubledUnits := by decide
    exact ⟨[], (List.append_nil s).symm, listed⟩

theorem parseInt64_eq_some {s : List Char} {n : GoInt} : parseInt64 s = some n ↔ Numeral s n.1 := by
  unfold parseInt64
  rw [← readNumeral_eq_some]
  constructor
  · intro parsed
    obtain ⟨m, read, parsed⟩ := Option.bind_eq_some_iff.mp parsed
    split at parsed
    · rw [← Option.some.inj parsed, read]
    · exact nomatch parsed
  · intro read
    rw [read, Option.bind_some, dif_pos n.2]

/-- Where a text does not begin with a blank, a trimmed part of it that is left does not either. -/
theorem eq_trim_append {s name : List Char} (first : ∀ c ∈ (s ++ name).head?, isSpace c = false) :
    ∃ blanks, s = trim isSpace s ++ blanks ∧ ∀ c ∈ blanks, isSpace c = true := by
  refine ⟨s.rtakeWhile isSpace, ?_, fun c => List.mem_rtakeWhile_imp⟩
  have solid : ∀ c ∈ s.head?, isSpace c = false := by
    intro c head
    apply first
    rw [List.head?_append, head]
    rfl
  rw [trim, dropWhile_of_solid solid, List.rdropWhile_append_rtakeWhile]

theorem numeral_solid {numeral : List Char} {n : Int} (number : Numeral numeral n) :
    ∀ c ∈ numeral, isSpace c = false := by
  intro c member
  have blank : Python.isSpace c = false := by
    rcases number.mem member with rfl | rfl | digit
    · decide
    · decide
    · exact Python.isSpace_digit digit
  rw [isSpace, blank, Bool.false_and]

/-- The parser takes what is written with a unit or with a doubled one, and lets the product wrap. -/
theorem parseBytes_eq_some {toUpper : Char → Char} {s : String} {r : GoInt} : parseBytes toUpper s = some r ↔
    ∃ n factor, Written (units ++ doubledUnits) (upperTrimmed toUpper s) n factor ∧
      r = GoInt.ofInt (n * factor) := by
  constructor
  · intro parsed
    obtain ⟨name, whole, known⟩ := splitUnit_cut (upperTrimmed toUpper s)
    cases split : splitUnit (upperTrimmed toUpper s) with
    | mk factor stem =>
        rw [parseBytes, split] at parsed
        rw [split] at whole known
        obtain ⟨n, number, rfl⟩ := Option.map_eq_some_iff.mp parsed
        have first : ∀ c ∈ (stem ++ name).head?, isSpace c = false := by
          rw [← whole]
          exact fun _ => head?_trim
        obtain ⟨blanks, cut, all⟩ := eq_trim_append first
        refine ⟨n.1, factor, ⟨trim isSpace stem, blanks, name, ?_, parseInt64_eq_some.mp number, n.2, all, known⟩, rfl⟩
        rw [← List.append_assoc, ← cut]
        exact whole
  · rintro ⟨n, factor, ⟨numeral, blanks, name, whole, number, fits, all, known⟩, rfl⟩
    have split : splitUnit (upperTrimmed toUpper s) = (factor, numeral ++ blanks) := by
      rw [whole, ← List.append_assoc, splitUnit_append (isUnit_stem number all), splitUnit_name known,
        List.append_nil]
    have parsed : parseInt64 (trim isSpace (numeral ++ blanks)) = some ⟨n, fits⟩ := by
      rw [trim_append_blank _ all, trim_of_solid (numeral_solid number)]
      exact parseInt64_eq_some.mpr number
    rw [parseBytes, split]
    simp only [parsed, Option.map_some]

/-- The name is what stands after the last digit or blank. -/
theorem Written.unit {names : List (List Char × Int)} {text : List Char} {n factor : Int}
    (written : Written names text n factor) (known : names ⊆ units ++ doubledUnits) :
    (text.rtakeWhile isUnit, factor) ∈ names := by
  obtain ⟨numeral, blanks, name, whole, number, -, all, listed⟩ := written
  have unit : text.rtakeWhile isUnit = name := by
    have letters : ∀ c ∈ name.reverse, isUnit c = true := fun c member =>
      isUnit_of_mem (known listed) c (List.mem_reverse.mp member)
    have stop : ∀ c ∈ (numeral ++ blanks).reverse.head?, isUnit c = false := by
      rw [List.head?_reverse]
      exact isUnit_stem number all
    rw [whole, ← List.append_assoc, List.rtakeWhile, List.reverse_append, takeWhile_append_stop letters stop,
      List.reverse_reverse]
  rw [unit]
  exact listed

theorem Written.mono {names others : List (List Char × Int)} {text : List Char} {n factor : Int}
    (written : Written names text n factor) (within : names ⊆ others) : Written others text n factor := by
  obtain ⟨numeral, blanks, name, whole, number, fits, all, known⟩ := written
  exact ⟨numeral, blanks, name, whole, number, fits, all, within known⟩

theorem written_append {names others : List (List Char × Int)} {text : List Char} {n factor : Int} :
    Written (names ++ others) text n factor ↔ Written names text n factor ∨ Written others text n factor := by
  constructor
  · rintro ⟨numeral, blanks, name, whole, number, fits, all, known⟩
    rcases List.mem_append.mp known with left | right
    · exact Or.inl ⟨numeral, blanks, name, whole, number, fits, all, left⟩
    · exact Or.inr ⟨numeral, blanks, name, whole, number, fits, all, right⟩
  · rintro (left | right)
    · exact left.mono (List.subset_append_left _ _)
    · exact right.mono (List.subset_append_right _ _)

/-- No unit is doubled, and the size is one of 64 bits. -/
def Plain (text : List Char) : Prop :=
  (∀ n factor, ¬ Written doubledUnits text n factor) ∧
    ∀ n factor, Written units text n factor → fitsInteger 64 (n * factor) = true

theorem bytes_exact_iff (toUpper : Char → Char) (s : String) :
    BytesExact toUpper s ↔ Plain (upperTrimmed toUpper s) := by
  constructor
  · intro exact
    constructor
    · intro n factor doubled
      have parsed := parseBytes_eq_some.mpr ⟨n, factor, written_append.mpr (Or.inr doubled), rfl⟩
      obtain ⟨m, unit, written, -⟩ := exact.sound _ parsed
      have single := written.unit (List.subset_append_left _ _)
      have double := doubled.unit (List.subset_append_right _ _)
      have apart : ∀ unit ∈ units, ∀ doubled ∈ doubledUnits, unit.1 ≠ doubled.1 := by decide
      exact apart _ single _ double rfl
    · intro n factor written
      have parsed := parseBytes_eq_some.mpr ⟨n, factor, written_append.mpr (Or.inl written), rfl⟩
      by_contra wraps
      rw [exact.overflow n factor written (eq_false_of_ne_true wraps)] at parsed
      exact nomatch parsed
  · rintro ⟨single, fits⟩
    refine ⟨?_, ?_, ?_⟩
    · intro r parsed
      obtain ⟨n, factor, written, rfl⟩ := parseBytes_eq_some.mp parsed
      have written := (written_append.mp written).resolve_right (single n factor)
      exact ⟨n, factor, written, GoInt.ofInt_of_fits (fits n factor written)⟩
    · intro n factor written fits
      exact ⟨_, parseBytes_eq_some.mpr ⟨n, factor, written_append.mpr (Or.inl written), rfl⟩,
        GoInt.ofInt_of_fits fits⟩
    · intro n factor written wraps
      exact absurd (fits n factor written) (by simp [wraps])

/-- A doubled unit counts once, and a product of 64 bits and more wraps to a tiny size. -/
theorem bytes_inexact : ¬ BytesExact Char.toUpper "5GGB" ∧ ¬ BytesExact Char.toUpper "18014398509481985K" := by
  constructor
  · intro exact
    have parsed : parseBytes Char.toUpper "5GGB" = some (GoInt.ofInt 5368709120) := by decide +kernel
    obtain ⟨n, factor, written, -⟩ := exact.sound _ parsed
    have unit := written.unit (List.subset_append_left _ _)
    have doubled : (upperTrimmed Char.toUpper "5GGB").rtakeWhile isUnit = ['G', 'G', 'B'] := by decide +kernel
    have unknown : ∀ unit ∈ units, unit.1 ≠ ['G', 'G', 'B'] := by decide
    exact unknown _ unit doubled
  · intro exact
    have parsed : parseBytes Char.toUpper "18014398509481985K" = some (GoInt.ofInt 1024) := by decide +kernel
    have text : upperTrimmed Char.toUpper "18014398509481985K" = "18014398509481985".toList ++ ([] ++ ['K']) := by
      decide +kernel
    have number : Numeral "18014398509481985".toList 18014398509481985 :=
      readNumeral_eq_some.mp (by decide +kernel)
    have failed := exact.overflow 18014398509481985 1024
      ⟨_, [], ['K'], text, number, by decide, nofun, by decide⟩ (by decide)
    rw [failed] at parsed
    exact nomatch parsed

/-! ## The bound of the buffer -/

theorem loadMaxBytes_of_written {toUpper : Char → Char} {configured : GoInt} {value : Option String}
    {n factor : Int} (written : Written units (upperTrimmed toUpper (trimmedEnv value)) n factor)
    (fits : fitsInteger 64 (n * factor) = true) : (loadMaxBytes toUpper configured value).1 = n * factor := by
  have nonempty : trimmedEnv value ≠ "" := by
    intro empty
    obtain ⟨numeral, blanks, name, whole, number, -⟩ := written
    obtain ⟨c, last, -⟩ := number.getLast?_isDigit
    have nothing : upperTrimmed toUpper "" = [] := rfl
    rw [empty, nothing, List.nil_eq_append_iff] at whole
    rw [whole.1] at last
    exact nomatch last
  have parsed := parseBytes_eq_some.mpr ⟨n, factor, written_append.mpr (Or.inl written), rfl⟩
  rw [loadMaxBytes, if_pos nonempty, parsed, Option.getD_some, GoInt.ofInt_of_fits fits]

theorem loadMaxBytes_of_not_written {toUpper : Char → Char} {configured : GoInt} {value : Option String}
    (other : ∀ n factor, ¬ Written (units ++ doubledUnits) (upperTrimmed toUpper (trimmedEnv value)) n factor) :
    loadMaxBytes toUpper configured value = configured := by
  have failed : parseBytes toUpper (trimmedEnv value) = none := by
    rw [Option.eq_none_iff_forall_ne_some]
    intro r parsed
    obtain ⟨n, factor, written, -⟩ := parseBytes_eq_some.mp parsed
    exact other n factor written
  unfold loadMaxBytes
  split
  · rw [failed, Option.getD_none]
  · rfl

end PowerBlockade.Processor
