import Mathlib.Data.List.Forall2
import PowerBlockade.Lib.Exposition
import PowerBlockade.Lib.Lists

/-!
# Metrics that were written

What the readers of the text format make of numbers, labels, samples and comments as a writer puts them.
-/

namespace PowerBlockade.Lib.Exposition

variable {rest : List Char}

/-! ## Numbers that were written -/

theorem digitsValue_digits (text : List Char) : digitsValue (text.map digitOf) = Nat.ofDigitChars 10 text 0 := by
  have same : (fun (value : Nat) (c : Char) => value * 10 + digitOf c) =
      fun value c => 10 * value + (c.toNat - '0'.toNat) := by
    funext value c
    rw [Nat.mul_comm]
    rfl
  rw [digitsValue, List.foldl_map, same]
  rfl

def signChars : Option Sign → List Char
  | none => []
  | some .plus => ['+']
  | some .minus => ['-']

def pointChars (fraction : List Char) : List Char := if fraction = [] then [] else '.' :: fraction

theorem readSign_signChars (sign : Option Sign) {c : Char} (numeral : isNumeral c = true) (rest : List Char) :
    readSign (signChars sign ++ c :: rest) = (sign, c :: rest) := by
  cases sign with
  | none => exact readSign_numeral numeral rest
  | some sign => cases sign <;> rfl

theorem readPoint_pointChars {fraction : List Char} (digits : ∀ c ∈ fraction, c.isDigit = true) :
    readPoint (pointChars fraction) = (fraction.map digitOf, []) := by
  unfold pointChars
  split
  · rename_i nothing
    rw [nothing]
    rfl
  · rw [readPoint, spanDigits_eq, List.takeWhile_eq_self_iff.mpr digits, List.dropWhile_eq_nil_iff.mpr digits]

theorem readDecimal_written (sign : Option Sign) (whole fraction : List Char) (nonempty : whole ≠ [])
    (wholeDigits : ∀ c ∈ whole, c.isDigit = true) (fractionDigits : ∀ c ∈ fraction, c.isDigit = true) :
    readDecimal (signChars sign ++ (whole ++ pointChars fraction)) =
      some ⟨sign, whole.map digitOf, fraction.map digitOf, none⟩ := by
  obtain ⟨c, later, rfl⟩ := List.exists_cons_of_ne_nil nonempty
  have numeral : isNumeral c = true := isNumeral_digit (wholeDigits c List.mem_cons_self)
  have stops : ∀ d ∈ (pointChars fraction).head?, d.isDigit = false := by
    unfold pointChars
    split
    · simp
    · rintro _ ⟨⟩
      decide
  rw [readDecimal, List.cons_append, readSign_signChars sign numeral, ← List.cons_append]
  simp only [spanDigits_eq, takeWhile_append_stop wholeDigits stops, dropWhile_append_stop wholeDigits stops,
    readPoint_pointChars fractionDigits]
  simp [readExponent]

theorem readValue_written (sign : Option Sign) (whole fraction : List Char) (nonempty : whole ≠ [])
    (wholeDigits : ∀ c ∈ whole, c.isDigit = true) (fractionDigits : ∀ c ∈ fraction, c.isDigit = true) :
    readValue (signChars sign ++ (whole ++ pointChars fraction)) =
      some (.decimal ⟨sign, whole.map digitOf, fraction.map digitOf, none⟩) := by
  have decimal := readDecimal_written sign whole fraction nonempty wholeDigits fractionDigits
  obtain ⟨c, later, rfl⟩ := List.exists_cons_of_ne_nil nonempty
  have digit := wholeDigits c List.mem_cons_self
  have letter : c.toLower ≠ 'n' ∧ c.toLower ≠ 'i' := by
    have all : ∀ n < 128, (Char.ofNat n).isDigit = true →
        (Char.ofNat n).toLower ≠ 'n' ∧ (Char.ofNat n).toLower ≠ 'i' := by decide
    have here := all c.toNat (ascii_of_isDigit digit)
    rw [Char.ofNat_toNat] at here
    exact here digit
  rw [readValue, List.cons_append, readSign_signChars sign (isNumeral_digit digit), ← List.cons_append, decimal]
  simp [letter]

theorem readValue_digits (sign : Option Sign) (n : Nat) :
    readValue (signChars sign ++ Nat.toDigits 10 n) =
      some (.decimal ⟨sign, (Nat.toDigits 10 n).map digitOf, [], none⟩) := by
  have read := readValue_written sign (Nat.toDigits 10 n) [] Nat.toDigits_ne_nil
    (fun c member => isDigit_of_mem_toDigits member) (by simp)
  rwa [pointChars, if_pos rfl, List.append_nil] at read

def Decimal.ofDigits (sign : Option Sign) (n : Nat) : Decimal :=
  ⟨sign, (Nat.toDigits 10 n).map digitOf, [], none⟩

def Decimal.ofInt : Int → Decimal
  | .ofNat n => ofDigits none n
  | .negSucc n => ofDigits (some .minus) (n + 1)

theorem mantissa_ofDigits (sign : Option Sign) (n : Nat) : (Decimal.ofDigits sign n).mantissa = n := by
  simp [Decimal.ofDigits, Decimal.mantissa, digitsValue_digits]

@[simp] theorem value_ofInt (n : Int) : (Decimal.ofInt n).value = n := by
  cases n with
  | ofNat n =>
      rw [Decimal.value, Decimal.ofInt, mantissa_ofDigits]
      simp [Decimal.ofDigits]
  | negSucc n =>
      rw [Decimal.value, Decimal.ofInt, mantissa_ofDigits]
      simp [Decimal.ofDigits, Int.negSucc_eq]

theorem readValue_int (n : Int) : readValue (toString n).toList = some (.decimal (Decimal.ofInt n)) := by
  cases n with
  | ofNat n =>
      rw [Int.ofNat_eq_natCast, toList_natCast]
      exact readValue_digits none n
  | negSucc n =>
      rw [toList_negSucc]
      exact readValue_digits (some .minus) (n + 1)

/-! ## Labels that were written -/

def Clean (text : List Char) : Prop := ∀ c ∈ text, c ≠ '"' ∧ c ≠ '\\' ∧ c ≠ '\n'

instance (text : List Char) : Decidable (Clean text) := List.decidableBAll _ text

theorem readQuoted_plain {c : Char} (quote : c ≠ '"') (escape : c ≠ '\\') (rest : List Char) :
    readQuoted (c :: rest) = (readQuoted rest).map fun found => (c :: found.1, found.2) := by
  rw [readQuoted]
  · cases readQuoted rest <;> rfl
  · exact quote
  · rintro rfl
    contradiction
  · intro d later same
    exact absurd same escape

theorem readQuoted_clean {text : List Char} (clean : Clean text) (rest : List Char) :
    readQuoted (text ++ '"' :: rest) = some (text, rest) := by
  induction text with
  | nil => rfl
  | cons c text ih =>
      obtain ⟨⟨quote, escape, -⟩, others⟩ := List.forall_mem_cons.mp clean
      rw [List.cons_append, readQuoted_plain quote escape, ih others]
      rfl

theorem quote_mem_of_readQuoted {text : List Char} {found : List Char × List Char} (read : readQuoted text = some found) :
    '"' ∈ text := by
  fun_induction readQuoted text generalizing found with
  | case1 => contradiction
  | case2 rest => exact List.mem_cons_self
  | case3 => contradiction
  | case4 c rest ih =>
      simp only [Option.bind_eq_bind, Option.bind_eq_some_iff] at read
      obtain ⟨d, -, later, more, -⟩ := read
      exact List.mem_cons_of_mem _ (List.mem_cons_of_mem _ (ih more))
  | case5 c rest _ _ _ ih =>
      simp only [Option.bind_eq_bind, Option.bind_eq_some_iff] at read
      obtain ⟨later, more, -⟩ := read
      exact List.mem_cons_of_mem _ (ih more)

theorem length_readQuoted_lt {text value : List Char} (read : readQuoted text = some (value, rest)) :
    value.length < text.length := by
  fun_induction readQuoted text generalizing value with
  | case1 => contradiction
  | case2 rest =>
      obtain ⟨rfl, -⟩ := Prod.mk.inj (Option.some.inj read)
      simp
  | case3 => contradiction
  | case4 c rest ih =>
      simp only [Option.bind_eq_bind, Option.bind_eq_some_iff] at read
      obtain ⟨d, -, later, more, same⟩ := read
      obtain ⟨rfl, rfl⟩ := Prod.mk.inj (Option.some.inj same)
      have shorter := ih more
      simp only [List.length_cons]
      omega
  | case5 c rest _ _ _ ih =>
      simp only [Option.bind_eq_bind, Option.bind_eq_some_iff] at read
      obtain ⟨later, more, same⟩ := read
      obtain ⟨rfl, rfl⟩ := Prod.mk.inj (Option.some.inj same)
      have shorter := ih more
      simp only [List.length_cons]
      omega

/-- Between the quotes the value is no longer than its text, and shorter unless nothing in it had to be
escaped. -/
theorem length_readQuoted_le {value inside after : List Char} (single : '"' ∉ after)
    (read : readQuoted (inside ++ '"' :: after) = some (value, rest)) :
    value.length ≤ inside.length ∧ (value.length = inside.length → ∀ c ∈ inside, c ≠ '"' ∧ c ≠ '\\') := by
  induction size : inside.length using Nat.strong_induction_on generalizing inside value with
  | _ n ih =>
    cases inside with
    | nil =>
        obtain ⟨rfl, -⟩ := Prod.mk.inj (Option.some.inj read)
        simp
    | cons c inside =>
        simp only [List.length_cons] at size
        by_cases quote : c = '"'
        · subst quote
          obtain ⟨rfl, -⟩ := Prod.mk.inj (Option.some.inj read)
          simp only [List.length_nil]
          omega
        · by_cases escape : c = '\\'
          · subst escape
            cases inside with
            | nil =>
                -- the closing quote is taken for an escaped one, and there is no other
                simp only [List.cons_append, List.nil_append, readQuoted, Option.bind_eq_bind,
                  Option.bind_eq_some_iff] at read
                obtain ⟨d, -, later, more, -⟩ := read
                exact absurd (quote_mem_of_readQuoted more) single
            | cons d inside =>
                simp only [List.cons_append, readQuoted, Option.bind_eq_bind, Option.bind_eq_some_iff] at read
                obtain ⟨e, -, later, more, same⟩ := read
                obtain ⟨rfl, rfl⟩ := Prod.mk.inj (Option.some.inj same)
                simp only [List.length_cons] at size ⊢
                have shorter := (ih inside.length (by omega) more rfl).1
                omega
          · rw [List.cons_append, readQuoted_plain quote escape, Option.map_eq_some_iff] at read
            obtain ⟨later, more, same⟩ := read
            obtain ⟨rfl, rfl⟩ := Prod.mk.inj same
            obtain ⟨shorter, clean⟩ := ih inside.length (by omega) more rfl
            simp only [List.length_cons]
            refine ⟨by omega, fun whole => List.forall_mem_cons.mpr ⟨⟨quote, escape⟩, clean (by omega)⟩⟩

/-! ## Samples that were written -/

section
variable {starts continues : Char → Bool} {name : List Char}

theorem readName_append (named : readName starts continues name = some (name, []))
    (stops : ∀ c ∈ rest.head?, continues c = false) :
    readName starts continues (name ++ rest) = some (name, rest) := by
  cases name with
  | nil => contradiction
  | cons c name =>
      simp only [readName] at named
      split at named
      · rename_i first
        obtain ⟨whole, ended⟩ := Prod.mk.inj (Option.some.inj named)
        have all := List.takeWhile_eq_self_iff.mp (List.tail_eq_of_cons_eq whole)
        rw [List.cons_append, readName, if_pos first, takeWhile_append_stop all stops,
          dropWhile_append_stop all stops]
      · contradiction

theorem head_of_readName (named : readName starts continues name = some (name, [])) (rest : List Char) :
    ∃ c later, name ++ rest = c :: later ∧ starts c = true := by
  cases name with
  | nil => contradiction
  | cons c name =>
      refine ⟨c, name ++ rest, rfl, ?_⟩
      simp only [readName] at named
      split at named
      · assumption
      · contradiction

end

def isLabelName (word : List Char) : Bool := readName isLabelStart isLabelChar word = some (word, [])

def labelChars (label : Label) : List Char := label.1 ++ '=' :: '"' :: (label.2 ++ ['"'])

theorem readLabel_written {label : Label} (named : isLabelName label.1 = true) (clean : Clean label.2)
    (solid : ∀ c ∈ rest.head?, isBlank c = false) :
    readLabel (labelChars label ++ rest) = some (label, rest) := by
  have stops : ∀ c ∈ ('=' :: '"' :: (label.2 ++ '"' :: rest)).head?, isLabelChar c = false := by
    rintro _ ⟨⟩
    decide
  have equals : isBlank '=' = false := by decide
  have quote : isBlank '"' = false := by decide
  have whole : labelChars label ++ rest = label.1 ++ '=' :: '"' :: (label.2 ++ '"' :: rest) := by
    simp [labelChars]
  rw [whole, readLabel, readName_append (of_decide_eq_true named) stops]
  simp [equals, quote, readQuoted_clean clean, dropWhile_of_solid solid]

theorem isLabelStart_ne {c d : Char} (starts : isLabelStart c = true) (other : isLabelStart d = false) : c ≠ d := by
  rintro rfl
  simp [starts] at other

theorem isBlank_labelStart {c : Char} (starts : isLabelStart c = true) : isBlank c = false := by
  simp [isBlank, isLabelStart_ne starts (d := ' ') (by decide), isLabelStart_ne starts (d := '\t') (by decide)]

/-- One label at the front of more. -/
theorem readLabels_succ {label : Label} (named : isLabelName label.1 = true) (clean : Clean label.2)
    (fuel : Nat) (rest : List Char) : (∀ c ∈ rest.head?, isBlank c = false) →
    readLabels (fuel + 1) (labelChars label ++ rest) = match rest with
      | ',' :: rest => (readLabels fuel rest).map fun found => (label :: found.1, found.2)
      | '}' :: rest => some ([label], rest)
      | _ => none := by
  intro solid
  obtain ⟨c, later, first, starts⟩ := head_of_readName (of_decide_eq_true named)
    ('=' :: '"' :: (label.2 ++ ['"']) ++ rest)
  have whole : labelChars label ++ rest = c :: later := by
    rw [← first]
    simp [labelChars]
  have read := readLabel_written named clean solid
  rw [whole] at read ⊢
  rw [readLabels, List.dropWhile_cons_of_neg (by simp [isBlank_labelStart starts])]
  split
  · rename_i same
    exact absurd (List.head_eq_of_cons_eq same) (isLabelStart_ne starts (by decide))
  · rw [read]
    simp only [Option.bind_eq_bind, Option.bind_some]
    cases rest with
    | nil => rfl
    | cons d rest =>
        by_cases comma : d = ','
        · subst comma
          show ((readLabels fuel rest).bind fun found => some (label :: found.1, found.2)) =
            (readLabels fuel rest).map fun found => (label :: found.1, found.2)
          cases readLabels fuel rest <;> rfl
        · by_cases brace : d = '}'
          · subst brace
            rfl
          · simp [comma, brace]

theorem readLabels_written {labels : List Label} (nonempty : labels ≠ [])
    (each : ∀ label ∈ labels, isLabelName label.1 = true ∧ Clean label.2) {fuel : Nat}
    (enough : labels.length ≤ fuel) :
    readLabels fuel ([','].intercalate (labels.map labelChars) ++ '}' :: rest) = some (labels, rest) := by
  induction labels generalizing fuel with
  | nil => contradiction
  | cons label labels ih =>
      obtain ⟨⟨named, clean⟩, others⟩ := List.forall_mem_cons.mp each
      simp only [List.length_cons] at enough
      obtain ⟨fuel, rfl⟩ := Nat.exists_eq_add_of_lt (Nat.zero_lt_of_lt enough)
      rw [Nat.zero_add]
      cases labels with
      | nil =>
          have solid : ∀ c ∈ ('}' :: rest).head?, isBlank c = false := by
            rintro _ ⟨⟩
            decide
          rw [List.map_singleton, List.intercalate_singleton, readLabels_succ named clean fuel _ solid]
          rfl
      | cons second labels =>
          have solid : ∀ c ∈ (',' :: ([','].intercalate ((second :: labels).map labelChars) ++
              '}' :: rest)).head?, isBlank c = false := by
            rintro _ ⟨⟩
            decide
          have text : [','].intercalate ((label :: second :: labels).map labelChars) ++ '}' :: rest =
              labelChars label ++ ',' :: ([','].intercalate ((second :: labels).map labelChars) ++
                '}' :: rest) := by
            simp [List.intercalate_cons_cons]
          have more : (second :: labels).length ≤ fuel := by omega
          rw [text, readLabels_succ named clean fuel _ solid]
          show (readLabels fuel _).map _ = _
          rw [ih (List.cons_ne_nil _ _) others more]
          rfl

theorem length_le_intercalate (labels : List Label) :
    labels.length ≤ ([','].intercalate (labels.map labelChars)).length := by
  induction labels with
  | nil => simp
  | cons label labels ih =>
      cases labels with
      | nil =>
          simp only [List.map_cons, List.map_nil, List.intercalate_singleton, labelChars, List.length_append,
            List.length_cons]
          omega
      | cons second labels =>
          have text : [','].intercalate ((label :: second :: labels).map labelChars) =
              labelChars label ++ ',' :: [','].intercalate ((second :: labels).map labelChars) := by
            simp [List.intercalate_cons_cons]
          rw [text]
          simp only [List.length_cons, List.length_append] at ih ⊢
          omega

def bracesChars (labels : List Label) : List Char :=
  if labels = [] then [] else '{' :: ([','].intercalate (labels.map labelChars) ++ ['}'])

/-- A sample as a writer puts it: the name, the labels in braces if there are any, a blank, the number. -/
def sampleChars (name : List Char) (labels : List Label) (token : List Char) : List Char :=
  name ++ (bracesChars labels ++ ' ' :: token)

theorem readBraces_written {labels : List Label} {token : List Char}
    (each : ∀ label ∈ labels, isLabelName label.1 = true ∧ Clean label.2)
    (solid : ∀ c ∈ token.head?, isBlank c = false ∧ c ≠ '{') : ∃ after,
      readBraces ((bracesChars labels ++ ' ' :: token).dropWhile isBlank) = some (labels, after) ∧
        after.dropWhile isBlank = token := by
  have blank : isBlank ' ' = true := by decide
  have brace : isBlank '{' = false := by decide
  have stays : token.dropWhile isBlank = token := dropWhile_of_solid fun c first => (solid c first).1
  unfold bracesChars
  split
  · rename_i nothing
    refine ⟨token, ?_, stays⟩
    rw [List.nil_append, List.dropWhile_cons_of_pos blank, stays, nothing]
    unfold readBraces
    split
    · exact absurd rfl (solid '{' rfl).2
    · rfl
  · rename_i nonempty
    refine ⟨' ' :: token, ?_, by rw [List.dropWhile_cons_of_pos blank, stays]⟩
    have enough : labels.length ≤ ([','].intercalate (labels.map labelChars) ++ '}' :: ' ' :: token).length := by
      rw [List.length_append]
      exact (length_le_intercalate labels).trans (Nat.le_add_right _ _)
    rw [List.cons_append, List.dropWhile_cons_of_neg (by simp [brace]), readBraces, List.append_assoc,
      List.singleton_append]
    exact readLabels_written nonempty each enough

theorem readSample_written {name token : List Char} {labels : List Label} {v : Value}
    (named : isMetricName name = true)
    (each : ∀ label ∈ labels, isLabelName label.1 = true ∧ Clean label.2) (valued : readValue token = some v)
    (solid : ∀ c ∈ token, isBlank c = false ∧ c ≠ '{') :
    readSample (sampleChars name labels token) = some ⟨name, labels, v, none⟩ := by
  have stops : ∀ c ∈ (bracesChars labels ++ ' ' :: token).head?, isNameChar c = false := by
    unfold bracesChars
    split <;> rintro _ ⟨⟩ <;> decide
  obtain ⟨after, braces, behind⟩ := readBraces_written each fun c first => solid c (List.mem_of_mem_head? first)
  have all : ∀ c ∈ token, (!isBlank c) = true := fun c member => by simp [(solid c member).1]
  rw [readSample, sampleChars, readName_append (of_decide_eq_true named) stops]
  simp [braces, behind, List.takeWhile_eq_self_iff.mpr all, List.dropWhile_eq_nil_iff.mpr all, valued,
    readTimestamp]

/-! ## Lines that were written -/

theorem solid_of_readKind {kind : List Char} {k : Kind} (known : readKind kind = some k) :
    ∀ c ∈ kind, isBlank c = false ∧ c ≠ '\n' := by
  unfold readKind at known
  split_ifs at known with counter gauge histogram summary untyped
  · rw [counter]
    decide
  · rw [gauge]
    decide
  · rw [histogram]
    decide
  · rw [summary]
    decide
  · rw [untyped]
    decide

theorem isNameChar_of_isMetricName {name : List Char} (named : isMetricName name = true) :
    name ≠ [] ∧ ∀ c ∈ name, isNameChar c = true := by
  have kept : ∀ c, isNameStart c = true → isNameChar c = true := fun c starts => by simp [isNameChar, starts]
  obtain ⟨whole, -⟩ := readName_eq_some kept (of_decide_eq_true named)
  refine ⟨?_, List.takeWhile_eq_self_iff.mp whole.symm⟩
  rintro rfl
  exact absurd named (by decide)

theorem isBlank_of_isMetricName {name : List Char} (named : isMetricName name = true) :
    ∀ c ∈ name, isBlank c = false := by
  intro c member
  have continues := (isNameChar_of_isMetricName named).2 c member
  cases blank : isBlank c with
  | false => rfl
  | true => simp [isNameChar_blank blank] at continues

theorem fields_word {word : List Char} (nonempty : word ≠ []) (solid : ∀ c ∈ word, isBlank c = false)
    (rest : List Char) : fields isBlank (word ++ ' ' :: rest) = word :: fields isBlank rest := by
  have blank : isBlank ' ' = true := by decide
  have apart : ∀ c ∈ (' ' :: rest).head?, isBlank c = true := by
    rintro _ ⟨⟩
    exact blank
  rw [fields_append solid nonempty apart, fields_cons_blank blank]

theorem readLine_help {name : List Char} (named : isMetricName name = true) (help : List Char) :
    readLine ("# HELP ".toList ++ (name ++ ' ' :: help)) = some (.help name) := by
  have words : fields isBlank (' ' :: ("HELP".toList ++ ' ' :: (name ++ ' ' :: help))) =
      "HELP".toList :: name :: fields isBlank help := by
    rw [fields_cons_blank (by decide), fields_word (by decide) (by decide),
      fields_word (isNameChar_of_isMetricName named).1 (isBlank_of_isMetricName named)]
  show readComment (' ' :: ("HELP".toList ++ ' ' :: (name ++ ' ' :: help))) = _
  rw [readComment, words]
  simp [named]

theorem readLine_type {name kind : List Char} {k : Kind} (named : isMetricName name = true)
    (known : readKind kind = some k) :
    readLine ("# TYPE ".toList ++ (name ++ ' ' :: kind)) = some (.type name k) := by
  have solid : ∀ c ∈ kind, isBlank c = false := fun c member => (solid_of_readKind known c member).1
  have nonempty : kind ≠ [] := by
    rintro rfl
    have none : readKind [] = none := by decide
    simp [none] at known
  have last : fields isBlank kind = [kind] := by
    have ended : ∀ c ∈ ([] : List Char).head?, isBlank c = true := by simp
    have word := fields_append solid nonempty ended
    rwa [List.append_nil] at word
  have words : fields isBlank (' ' :: ("TYPE".toList ++ ' ' :: (name ++ ' ' :: kind))) =
      ["TYPE".toList, name, kind] := by
    rw [fields_cons_blank (by decide), fields_word (by decide) (by decide),
      fields_word (isNameChar_of_isMetricName named).1 (isBlank_of_isMetricName named), last]
  show readComment (' ' :: ("TYPE".toList ++ ' ' :: (name ++ ' ' :: kind))) = _
  rw [readComment, words]
  simp [named, known]

theorem readLine_of_name {name : List Char} (named : isMetricName name = true) (rest : List Char) :
    readLine (name ++ rest) = (readSample (name ++ rest)).map .sample := by
  obtain ⟨c, later, first, starts⟩ := head_of_readName (of_decide_eq_true named) rest
  have letter : isNameChar c = true := by simp [isNameChar, starts]
  have solid : isBlank c = false := by
    cases blank : isBlank c with
    | false => rfl
    | true => simp [isNameChar_blank blank] at letter
  have mark : c ≠ '#' := by
    rintro rfl
    contradiction
  rw [first, readLine, List.dropWhile_cons_of_neg (by simp [solid])]
  split
  · contradiction
  · rename_i same
    exact absurd (List.head_eq_of_cons_eq same) mark
  · rfl

theorem readLine_sample {name token : List Char} {labels : List Label} {v : Value}
    (named : isMetricName name = true)
    (each : ∀ label ∈ labels, isLabelName label.1 = true ∧ Clean label.2) (valued : readValue token = some v)
    (solid : ∀ c ∈ token, isBlank c = false ∧ c ≠ '{') :
    readLine (sampleChars name labels token) = some (.sample ⟨name, labels, v, none⟩) := by
  have read := readSample_written named each valued solid
  rw [sampleChars] at read ⊢
  rw [readLine_of_name named, read]
  rfl

theorem label_of_readLabels {fuel : Nat} {label inside after : List Char} {labels : List Label}
    (labelled : isLabelName label = true)
    (found : readLabels fuel (label ++ '=' :: '"' :: inside) = some (labels, after)) :
    ∃ value rest, labels.head? = some (label, value) ∧ readQuoted inside = some (value, rest) := by
  have ends : ∀ c ∈ ('=' :: '"' :: inside).head?, isLabelChar c = false := by
    rintro _ ⟨⟩
    decide
  have equals : isBlank '=' = false := by decide
  have quote : isBlank '"' = false := by decide
  have read : readLabel (label ++ '=' :: '"' :: inside) =
      (readQuoted inside).map fun found => ((label, found.1), found.2.dropWhile isBlank) := by
    rw [readLabel, readName_append (of_decide_eq_true labelled) ends]
    simp only [Option.bind_eq_bind, Option.bind_some, List.dropWhile_cons_of_neg, equals, quote, expect_cons,
      Bool.false_eq_true, not_false_eq_true]
    cases readQuoted inside <;> rfl
  obtain ⟨c, later, first, starts⟩ := head_of_readName (of_decide_eq_true labelled) ('=' :: '"' :: inside)
  rw [first] at found read
  cases fuel with
  | zero => contradiction
  | succ fuel =>
      rw [readLabels, List.dropWhile_cons_of_neg (by simp [isBlank_labelStart starts])] at found
      split at found
      · rename_i same
        exact absurd (List.head_eq_of_cons_eq same) (isLabelStart_ne starts (by decide))
      · simp only [read, Option.bind_eq_bind, Option.bind_eq_some_iff, Option.map_eq_some_iff] at found
        obtain ⟨⟨one, rest⟩, ⟨⟨value, more⟩, quoted, same⟩, found⟩ := found
        obtain ⟨rfl, rfl⟩ := Prod.mk.inj same
        refine ⟨value, more, ?_, quoted⟩
        split at found
        · obtain ⟨others, -, same⟩ := Option.bind_eq_some_iff.mp found
          obtain ⟨rfl, -⟩ := Prod.mk.inj (Option.some.inj same)
          rfl
        · obtain ⟨rfl, -⟩ := Prod.mk.inj (Option.some.inj found)
          rfl
        · contradiction

/-- A line that opens a label and reads is a sample with that label, whatever its value. -/
theorem label_of_readLine {name label inside : List Char} {result : Line} (named : isMetricName name = true)
    (labelled : isLabelName label = true)
    (found : readLine (name ++ '{' :: (label ++ '=' :: '"' :: inside)) = some result) :
    ∃ s value rest, result = .sample s ∧ s.name = name ∧ s.labels.head? = some (label, value) ∧
      readQuoted inside = some (value, rest) := by
  have stops : ∀ c ∈ ('{' :: (label ++ '=' :: '"' :: inside)).head?, isNameChar c = false := by
    rintro _ ⟨⟩
    decide
  have brace : isBlank '{' = false := by decide
  rw [readLine_of_name named, Option.map_eq_some_iff] at found
  obtain ⟨s, read, rfl⟩ := found
  rw [readSample, readName_append (of_decide_eq_true named) stops] at read
  simp only [Option.bind_eq_bind, Option.bind_some, Option.bind_eq_some_iff] at read
  obtain ⟨⟨labels, rest⟩, braces, v, -, timestamp, -, same⟩ := read
  obtain rfl := Option.some.inj same
  rw [List.dropWhile_cons_of_neg (by simp [brace]), readBraces] at braces
  obtain ⟨value, more, first, quoted⟩ := label_of_readLabels labelled braces
  exact ⟨_, value, more, rfl, rfl, first, quoted⟩

/-- What a reader of lines first sees of a line that may hold line feeds. -/
def opening (line : List Char) : List Char := line.takeWhile fun c => !(c == '\n')

theorem opening_append {front : List Char} (single : '\n' ∉ front) (rest : List Char) :
    opening (front ++ rest) = front ++ opening rest := by
  apply List.takeWhile_append_of_pos
  intro c member
  rw [Bool.not_eq_true', beq_eq_false_iff_ne]
  rintro rfl
  exact single member

theorem opening_of_single {line : List Char} (single : '\n' ∉ line) : opening line = line := by
  have whole := opening_append single []
  have nothing : opening [] = [] := rfl
  rwa [nothing, List.append_nil] at whole

theorem opening_broken {front : List Char} (broken : '\n' ∈ front) (rest : List Char) :
    opening (front ++ rest) = opening front := by
  have shorter : ¬ (front.takeWhile fun c => !(c == '\n')).length = front.length := by
    intro same
    have all := (List.takeWhile_prefix fun c => !(c == '\n')).eq_of_length same
    have last := List.takeWhile_eq_self_iff.mp all '\n' broken
    simp at last
  rw [opening, List.takeWhile_append, if_neg shorter]
  rfl

theorem map_opening_sublist (lines : List (List Char)) :
    (lines.map opening).Sublist (lines.flatMap (·.splitOn '\n')) := by
  induction lines with
  | nil => exact List.Sublist.slnil
  | cons line lines ih =>
      have first : (line.splitOn '\n').head? = some (opening line) := head?_splitOnP (· == '\n') line
      obtain ⟨rest, pieces⟩ := List.head?_eq_some_iff.mp first
      rw [List.map_cons, List.flatMap_cons, pieces, List.cons_append]
      exact (ih.trans (List.sublist_append_right _ _)).cons_cons _

/-- What is read between the quotes is as long as what was written there only if that is clean. -/
theorem length_readQuoted_opening {value inside after : List Char} (quote : '"' ∉ after) (single : '\n' ∉ after)
    (read : readQuoted (opening (inside ++ '"' :: after)) = some (value, rest)) :
    value.length ≤ inside.length ∧ (value.length = inside.length → Clean inside) := by
  by_cases broken : '\n' ∈ inside
  · rw [opening_broken broken] at read
    have shorter := length_readQuoted_lt read
    have part : (opening inside).length ≤ inside.length := (List.takeWhile_prefix _).length_le
    exact ⟨by omega, fun same => by omega⟩
  · have whole : '\n' ∉ inside ++ '"' :: after := by simp [broken, single]
    rw [opening_of_single whole] at read
    obtain ⟨le, clean⟩ := length_readQuoted_le quote read
    refine ⟨le, fun same c member => ?_⟩
    obtain ⟨notQuote, notEscape⟩ := clean same c member
    refine ⟨notQuote, notEscape, ?_⟩
    rintro rfl
    exact broken member

/-! ## Texts that were written -/

theorem samples_of_read {text : List Char} {samples : List Sample} (found : read text = some samples) :
    (∀ line ∈ text.splitOn '\n', ∃ result, readLine line = some result) ∧
      samples = (text.splitOn '\n').filterMap fun line => (readLine line).bind Line.sample? := by
  simp only [read, Option.bind_eq_bind, Option.bind_eq_some_iff] at found
  obtain ⟨results, looped, found⟩ := found
  split at found
  · constructor
    · intro line member
      obtain ⟨result, -, same⟩ := exists_of_mapM looped member
      exact ⟨result, same⟩
    · rw [← Option.some.inj found]
      refine filterMap_of_mapM ?_ looped
      intro line result same
      rw [same]
      rfl
  · contradiction

theorem intercalate_lines (lines : List (List Char)) : ['\n'].intercalate (lines ++ [[]]) = textOf lines := by
  cases lines with
  | nil => rfl
  | cons line lines =>
      rw [List.cons_append, intercalate_cons, textOf, List.flatMap_cons, List.append_assoc]
      congr 1
      induction lines with
      | nil => rfl
      | cons line lines ih =>
          rw [List.cons_append, List.flatMap_cons, List.flatMap_cons, ih]
          simp

theorem splitOn_textOf (lines : List (List Char)) :
    (textOf lines).splitOn '\n' = lines.flatMap (·.splitOn '\n') ++ [[]] := by
  have cut := splitOn_lines_append '\n' id lines []
  rwa [List.append_nil] at cut

theorem ends_textOf (lines : List (List Char)) : textOf lines = [] ∨ (textOf lines).getLast? = some '\n' := by
  rcases List.eq_nil_or_concat lines with rfl | ⟨before, last, rfl⟩
  · exact Or.inl rfl
  · right
    simp [textOf]

/-- A metric's lines: what it counts, its type, its samples. -/
structure Group where
  name : List Char
  kind : Kind
  samples : List Sample

def Group.lines (group : Group) : List Line :=
  .help group.name :: .type group.name group.kind :: group.samples.map .sample

theorem typesFirst_samples {name : List Char} {samples : List Sample} (own : ∀ s ∈ samples, s.name = name)
    (seen : List (List Char)) (rest : List Line) : typesFirst seen (samples.map .sample ++ rest) =
      typesFirst (List.replicate samples.length name ++ seen) rest := by
  induction samples generalizing seen with
  | nil => rfl
  | cons s samples ih =>
      obtain ⟨first, others⟩ := List.forall_mem_cons.mp own
      rw [List.map_cons, List.cons_append, typesFirst, first, ih others, List.length_cons, List.replicate_succ',
        List.append_assoc, List.singleton_append]

theorem typesFirst_groups {groups : List Group} (names : (groups.map (·.name)).Nodup)
    (own : ∀ group ∈ groups, ∀ s ∈ group.samples, s.name = group.name) {seen : List (List Char)}
    (fresh : ∀ group ∈ groups, group.name ∉ seen) :
    typesFirst seen (groups.flatMap fun group => [.empty] ++ group.lines) = true := by
  induction groups generalizing seen with
  | nil => rfl
  | cons group groups ih =>
      obtain ⟨unnamed, names⟩ := List.nodup_cons.mp names
      obtain ⟨here, later⟩ := List.forall_mem_cons.mp own
      obtain ⟨new, others⟩ := List.forall_mem_cons.mp fresh
      have unseen : ∀ next ∈ groups,
          next.name ∉ List.replicate group.samples.length group.name ++ group.name :: seen := by
        intro next member again
        have apart : next.name ≠ group.name := by
          rintro same
          exact unnamed (List.mem_map.mpr ⟨next, member, same⟩)
        rcases List.mem_append.mp again with copy | known
        · exact apart (List.eq_of_mem_replicate copy)
        · rcases List.mem_cons.mp known with same | known
          · exact apart same
          · exact others next member known
      rw [List.flatMap_cons, Group.lines]
      show (decide (group.name ∉ seen) && typesFirst (group.name :: seen)
        (group.samples.map .sample ++ _)) = true
      rw [typesFirst_samples here, ih names later unseen, decide_eq_true new, Bool.true_and]

theorem typesFirst_append_empty (seen : List (List Char)) (lines : List Line) :
    typesFirst seen (lines ++ [.empty]) = typesFirst seen lines := by
  induction lines generalizing seen with
  | nil => rfl
  | cons line lines ih => cases line <;> simp only [List.cons_append, typesFirst, ih]

theorem typesFirst_intercalate (groups : List Group) :
    typesFirst [] ([.empty].intercalate (groups.map Group.lines)) =
      typesFirst [] (groups.flatMap fun group => [.empty] ++ group.lines) := by
  cases groups with
  | nil => rfl
  | cons group groups =>
      rw [List.map_cons, intercalate_cons, List.flatMap_map]
      rfl

theorem filterMap_lines (group : Group) : group.lines.filterMap Line.sample? = group.samples := by
  show (group.samples.map Line.sample).filterMap Line.sample? = group.samples
  rw [List.filterMap_map]
  exact List.filterMap_some

theorem filterMap_intercalate (groups : List Group) :
    ([.empty].intercalate (groups.map Group.lines)).filterMap Line.sample? = groups.flatMap (·.samples) := by
  cases groups with
  | nil => rfl
  | cons group groups =>
      have rest : (groups.flatMap fun group => [.empty] ++ group.lines).filterMap Line.sample? =
          groups.flatMap (·.samples) := by
        induction groups with
        | nil => rfl
        | cons group groups ih =>
            rw [List.flatMap_cons, List.filterMap_append, List.filterMap_append, filterMap_lines, ih]
            rfl
      rw [List.map_cons, intercalate_cons, List.flatMap_map, List.filterMap_append, filterMap_lines, rest]
      rfl

/-- A text whose groups read, with an empty line between one and the next. -/
theorem read_textOf {blocks : List (List (List Char))} {groups : List Group}
    (each : List.Forall₂ (fun block group => block.mapM readLine = some group.lines) blocks groups)
    (single : ∀ block ∈ blocks, ∀ line ∈ block, '\n' ∉ line) (names : (groups.map (·.name)).Nodup)
    (own : ∀ group ∈ groups, ∀ s ∈ group.samples, s.name = group.name) :
    read (textOf ([[]].intercalate blocks)) = some (groups.flatMap (·.samples)) := by
  have whole : ∀ line ∈ [[]].intercalate blocks, '\n' ∉ line := forall_mem_intercalate (by simp) single
  have lines : ([[]].intercalate blocks).flatMap (·.splitOn '\n') = [[]].intercalate blocks := by
    calc ([[]].intercalate blocks).flatMap (·.splitOn '\n')
      _ = ([[]].intercalate blocks).flatMap fun line => [line] :=
          List.flatMap_congr fun line member => List.splitOn_eq_singleton (whole line member)
      _ = _ := List.flatMap_singleton' _
  have blank : [([] : List Char)].mapM readLine = some [.empty] := rfl
  have found : ([[]].intercalate blocks ++ [[]]).mapM readLine =
      some ([.empty].intercalate (groups.map Group.lines) ++ [.empty]) :=
    mapM_append_some (mapM_intercalate blank (List.forall₂_map_right_iff.mpr each)) blank
  have types : typesFirst [] ([.empty].intercalate (groups.map Group.lines) ++ [.empty]) = true := by
    rw [typesFirst_append_empty, typesFirst_intercalate]
    exact typesFirst_groups names own fun group _ => List.not_mem_nil
  rw [read, splitOn_textOf, lines, found]
  simp only [Option.bind_eq_bind, Option.bind_some]
  rw [if_pos ⟨ends_textOf _, types⟩, List.filterMap_append, filterMap_intercalate]
  exact congrArg some (List.append_nil _)

/-- The samples of a name are those of its group. -/
theorem filter_samples {groups : List Group} (names : (groups.map (·.name)).Nodup)
    (own : ∀ group ∈ groups, ∀ s ∈ group.samples, s.name = group.name) {group : Group} (member : group ∈ groups) :
    (groups.flatMap (·.samples)).filter (·.name = group.name) = group.samples := by
  induction groups with
  | nil => exact absurd member List.not_mem_nil
  | cons first groups ih =>
      obtain ⟨unnamed, names⟩ := List.nodup_cons.mp names
      obtain ⟨here, later⟩ := List.forall_mem_cons.mp own
      rw [List.flatMap_cons, List.filter_append]
      rcases List.mem_cons.mp member with rfl | listed
      · have all : group.samples.filter (·.name = group.name) = group.samples :=
          List.filter_eq_self.mpr fun s inside => decide_eq_true (here s inside)
        have none : (groups.flatMap (·.samples)).filter (·.name = group.name) = [] := by
          rw [List.filter_eq_nil_iff]
          intro s inside same
          obtain ⟨other, listed, inside⟩ := List.mem_flatMap.mp inside
          have named := later other listed s inside
          exact unnamed (List.mem_map.mpr ⟨other, listed, named.symm.trans (of_decide_eq_true same)⟩)
        rw [all, none, List.append_nil]
      · have none : first.samples.filter (·.name = group.name) = [] := by
          rw [List.filter_eq_nil_iff]
          intro s inside same
          have named := here s inside
          exact unnamed (List.mem_map.mpr ⟨group, listed, (of_decide_eq_true same).symm.trans named⟩)
        rw [none, List.nil_append, ih names later listed]

end PowerBlockade.Lib.Exposition
