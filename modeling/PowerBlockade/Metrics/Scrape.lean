import Mathlib.Data.Finmap
import PowerBlockade.Lib.Exposition
import PowerBlockade.Lib.TrueDivision
import PowerBlockade.Primary.Ingest
import PowerBlockade.Zones.Normalize

/-!
# Reading the recursor's metrics

`scrape_recursor_metrics` of the sync agent and `scrape_local_recursor_metrics` of the primary read the
text line by line, with one regular expression.
-/

namespace PowerBlockade.Metrics
open Lib Exposition Primary Zones

/-! ## The two readers -/

/-- `\w`, and `\d` with the value of each digit. -/
structure CharClasses where
  isWord : Char → Bool
  decimal : Char → Option Nat
  word_ascii : ∀ c, c.toNat < 128 → isWord c = (c.isAlphanum || c = '_')
  decimal_ascii : ∀ c, c.toNat < 128 → decimal c = digitValue? c

abbrev MetricMap := Finmap fun _ : String => Int

/-- `int(x)` of the double nearest to `q`; `none` is the overflow to infinity. -/
def wholePart (q : ℚ) : Option Int :=
  let n := truncatedQuotient q.num.natAbs q.den
  if n < 2 ^ 1024 then some (if q < 0 then -n else n) else none

def recursorMetric : List Char := "pdns_recursor_".toList

section
variable (classes : CharClasses)

def isNumberChar (c : Char) : Bool := (classes.decimal c).isSome || c = '.'

/-- `re.match(r"^pdns_recursor_(\w+)\s+([\d.]+)", line)`. The classes that meet have no character in
common, so every repetition takes all it can. -/
def matchLine (line : List Char) : Option (List Char × List Char) :=
  if recursorMetric <+: line then
    let rest := line.drop recursorMetric.length
    let name := rest.takeWhile classes.isWord
    let rest := rest.dropWhile classes.isWord
    let blanks := rest.takeWhile Python.isSpace
    let number := (rest.dropWhile Python.isSpace).takeWhile (isNumberChar classes)
    if name = [] ∨ blanks = [] ∨ number = [] then none else some (name, number)
  else none

def digits (text : List Char) : List Nat := text.filterMap classes.decimal

/-- `int(float(text))`; `none` is the exception of either. -/
def intFloat (text : List Char) : Option Int :=
  let whole := text.takeWhile (· ≠ '.')
  let fraction := (text.dropWhile (· ≠ '.')).tail
  if '.' ∈ fraction ∨ whole = [] ∧ fraction = [] then none
  else wholePart (digitsValue (digits classes (whole ++ fraction)) / 10 ^ fraction.length)

def readMetric (metrics : MetricMap) (line : List Char) : Option MetricMap :=
  if line.head? = some '#' ∨ Python.stripChars line = [] then some metrics
  else match matchLine classes line with
    | none => some metrics
    | some (name, number) =>
        (intFloat classes number).map fun value => metrics.insert (String.ofList name) value

/-- `metrics` after the loop. -/
def readMetrics (text : List Char) : Option MetricMap := (splitlines text).foldlM (readMetric classes) ∅

def report (metrics : MetricMap) : MetricsRequest :=
  let get name := (metrics.lookup name).getD 0
  { cacheHits := get "cache_hits"
    cacheMisses := get "cache_misses"
    cacheEntries := get "cache_entries"
    packetcacheHits := get "packetcache_hits"
    packetcacheMisses := get "packetcache_misses"
    answers0to1 := get "answers0_1"
    answers1to10 := get "answers1_10"
    answers10to100 := get "answers10_100"
    answers100to1000 := get "answers100_1000"
    answersSlow := get "answers_slow"
    concurrentQueries := get "concurrent_queries"
    outgoingTimeouts := get "outgoing_timeouts"
    servfailAnswers := get "servfail_answers"
    nxdomainAnswers := get "nxdomain_answers"
    questions := get "questions"
    allOutqueries := get "all_outqueries"
    uptimeSeconds := get "uptime" }

/-- The answer's text, and what becomes of it; `none` is `{}`. -/
def scrapeRecursorMetrics (statusCode : Nat) (text : List Char) : Option MetricsRequest :=
  if statusCode ≠ 200 then none else (readMetrics classes text).map report

/-- The counters of the row, if one is written. -/
def scrapeLocalRecursorMetrics (text : List Char) : Option MetricsRequest := do
  let metrics ← readMetrics classes text
  if metrics = ∅ then none else return report metrics

end

/-! ## What the text says -/

/-- A metric of the recursor without labels: its name, its number, and the number's whole part as a
double. -/
def sampleOf (line : List Char) : Option (List Char × Decimal × Int) :=
  match readLine line with
  | some (.sample ⟨name, [], .decimal d, _⟩) =>
      if recursorMetric <+: name ∧ recursorMetric ≠ name then
        (wholePart d.value).map fun whole => (name.drop recursorMetric.length, d, whole)
      else none
  | _ => none

def addSample (metrics : MetricMap) (line : List Char) : MetricMap :=
  match sampleOf line with
  | some (name, _, whole) => metrics.insert (String.ofList name) whole
  | none => metrics

def sampled (lines : List (List Char)) : MetricMap := lines.foldl addSample ∅

section
variable (classes : CharClasses)

structure ReadRight (lines : List (List Char)) : Prop where
  metrics : readMetrics classes (textOf lines) = some (sampled lines)
  agent : scrapeRecursorMetrics classes 200 (textOf lines) = some (report (sampled lines))
  primary : scrapeLocalRecursorMetrics classes (textOf lines) =
    if sampled lines = ∅ then none else some (report (sampled lines))

/-- The text is read right, and no line has a say in what the others are read as: so is every text that
has only some of its lines. -/
def Independent (lines : List (List Char)) : Prop :=
  ∀ part, part.Sublist lines → ReadRight classes part

/-- The line begins with the name, in letters, digits and underscores; blanks follow, and then the number
without a sign. -/
def writtenPlainly (line name : List Char) : Bool :=
  (recursorMetric ++ name).isPrefixOf line && ':' ∉ name &&
    match line.drop (recursorMetric ++ name).length with
    | [] => false
    | c :: rest => isBlank c && (rest.dropWhile isBlank).head?.any isNumeral

/-- A metric is written plainly, and its exponent, if it has one, does not change its whole part. Another
line matches nowhere. -/
def Legible (line : List Char) : Prop :=
  match sampleOf line with
  | some (name, d, whole) => writtenPlainly line name = true ∧ wholePart d.mantissa = some whole
  | none => ∀ piece ∈ splitlines line, matchLine classes piece = none

end

/-! ## Lines of lines -/

theorem takeWhile_universalNewlines (text : List Char) :
    (Python.universalNewlines text).takeWhile (!isLineBreak ·) = text.takeWhile (!isLineBreak ·) ∧
      fields isLineBreak ((Python.universalNewlines text).dropWhile (!isLineBreak ·)) =
        fields isLineBreak (text.dropWhile (!isLineBreak ·)) := by
  have feed : isLineBreak '\n' = true := by decide
  have carriage : isLineBreak '\r' = true := by decide
  have rest_eq {text : List Char}
      (ih : (Python.universalNewlines text).takeWhile (!isLineBreak ·) = text.takeWhile (!isLineBreak ·) ∧
        fields isLineBreak ((Python.universalNewlines text).dropWhile (!isLineBreak ·)) =
          fields isLineBreak (text.dropWhile (!isLineBreak ·))) :
      fields isLineBreak (Python.universalNewlines text) = fields isLineBreak text := by
    rw [fields_takeWhile, ih.1, ih.2, ← fields_takeWhile]
  fun_induction Python.universalNewlines text with
  | case1 rest ih =>
      simp [feed, carriage, fields_cons_blank, rest_eq ih]
  | case2 rest _ ih =>
      simp [feed, carriage, fields_cons_blank, rest_eq ih]
  | case3 c rest _ _ ih =>
      cases breaks : isLineBreak c with
      | true => simp [breaks, fields_cons_blank, rest_eq ih]
      | false => simp [breaks, ih.1, ih.2]
  | case4 => simp

theorem fields_universalNewlines (text : List Char) :
    fields isLineBreak (Python.universalNewlines text) = fields isLineBreak text := by
  obtain ⟨first, rest⟩ := takeWhile_universalNewlines text
  rw [fields_takeWhile, first, rest, ← fields_takeWhile]

theorem filter_withoutLastEmpty (lines : List (List Char)) :
    (withoutLastEmpty lines).filter (!·.isEmpty) = lines.filter (!·.isEmpty) := by
  unfold withoutLastEmpty
  split
  · rename_i last
    obtain ⟨before, rfl⟩ := List.getLast?_eq_some_iff.mp last
    simp
  · rfl

theorem filter_splitlines (text : List Char) :
    (splitlines text).filter (!·.isEmpty) = fields isLineBreak text := by
  rw [splitlines, filter_withoutLastEmpty, ← fields_universalNewlines, fields]

theorem fields_textOf (lines : List (List Char)) :
    fields isLineBreak (textOf lines) = lines.flatMap (fields isLineBreak) := by
  have feed : isLineBreak '\n' = true := by decide
  induction lines with
  | nil => rfl
  | cons line rest ih =>
      have whole : textOf (line :: rest) = line ++ '\n' :: textOf rest := by simp [textOf]
      rw [whole, fields, List.splitOnP_append_cons _ _ feed, List.filter_append, List.flatMap_cons, ← ih]
      rfl

section
variable {classes : CharClasses}

theorem foldlM_filter (metrics : MetricMap) (pieces : List (List Char)) :
    (pieces.filter (!·.isEmpty)).foldlM (readMetric classes) metrics =
      pieces.foldlM (readMetric classes) metrics := by
  induction pieces generalizing metrics with
  | nil => rfl
  | cons piece rest ih =>
      cases piece with
      | nil =>
          have skipped : readMetric classes metrics [] = some metrics := rfl
          rw [List.foldlM_cons, skipped, Option.bind_eq_bind, Option.bind_some, ← ih]
          rfl
      | cons c piece =>
          simp only [List.isEmpty_cons, Bool.not_false, List.filter_cons_of_pos, List.foldlM_cons, ih]

/-- What one line of the format does, as the lines that Python sees in it. -/
def readWithin (classes : CharClasses) (metrics : MetricMap) (line : List Char) : Option MetricMap :=
  (fields isLineBreak line).foldlM (readMetric classes) metrics

theorem readMetrics_textOf (lines : List (List Char)) :
    readMetrics classes (textOf lines) = lines.foldlM (readWithin classes) ∅ := by
  rw [readMetrics, ← foldlM_filter, filter_splitlines, fields_textOf]
  generalize (∅ : MetricMap) = metrics
  induction lines generalizing metrics with
  | nil => rfl
  | cons line rest ih =>
      rw [List.flatMap_cons, List.foldlM_append, List.foldlM_cons]
      simp only [ih]
      rfl

end

/-! ## One line -/

/-- Of the plain characters, only the blanks of the format are Python's. -/
theorem isSpace_plain {c : Char} (plain : Plain c) : Python.isSpace c = isBlank c := by
  have all : ∀ n < 128, isBlank (Char.ofNat n) = true ∨ isNameChar (Char.ofNat n) = true ∨
      Char.ofNat n ∈ ['{', '}', '+', '-', '.'] →
      Python.isSpace (Char.ofNat n) = isBlank (Char.ofNat n) := by decide
  have here := all c.toNat (ascii_of_plain plain)
  rw [Char.ofNat_toNat] at here
  exact here plain

theorem isLineBreak_plain {c : Char} (plain : Plain c) : isLineBreak c = false := by
  have all : ∀ n < 128, isBlank (Char.ofNat n) = true ∨ isNameChar (Char.ofNat n) = true ∨
      Char.ofNat n ∈ ['{', '}', '+', '-', '.'] → isLineBreak (Char.ofNat n) = false := by decide
  have here := all c.toNat (ascii_of_plain plain)
  rw [Char.ofNat_toNat] at here
  exact here plain

variable {classes : CharClasses}

theorem isWord_plain {c : Char} (plain : Plain c) : classes.isWord c = (isNameChar c && c ≠ ':') := by
  have all : ∀ n < 128, ((Char.ofNat n).isAlphanum || Char.ofNat n = '_') =
      (isNameChar (Char.ofNat n) && Char.ofNat n ≠ ':') := by decide
  have here := all c.toNat (ascii_of_plain plain)
  rw [Char.ofNat_toNat] at here
  rw [classes.word_ascii c (ascii_of_plain plain), here]

theorem isNumberChar_plain {c : Char} (plain : Plain c) :
    isNumberChar classes c = (c.isDigit || c = '.') := by
  rw [isNumberChar, classes.decimal_ascii c (ascii_of_plain plain), digitValue?]
  split
  · rename_i digit
    simp [digit]
  · rename_i digit
    simp [digit]

theorem recursorMetric_name : ∀ c ∈ recursorMetric, isNameChar c = true := by decide

theorem readLine_recursorMetric (rest : List Char) :
    readLine (recursorMetric ++ rest) = (readSample (recursorMetric ++ rest)).map .sample := rfl

theorem readSample_recursorMetric {rest : List Char} {s : Sample}
    (found : readSample (recursorMetric ++ rest) = some s) :
    s.name = recursorMetric ++ rest.takeWhile isNameChar ∧ ∃ after,
      readBraces ((rest.dropWhile isNameChar).dropWhile isBlank) = some (s.labels, after) ∧
      readValue ((after.dropWhile isBlank).takeWhile (!isBlank ·)) = some s.value := by
  simp only [readSample, Option.bind_eq_bind, Option.bind_eq_some_iff] at found
  obtain ⟨⟨name, afterName⟩, named, ⟨labels, afterBraces⟩, braces, value, valued, timestamp, timed, same⟩ := found
  obtain rfl := Option.some.inj same
  have kept : ∀ c, isNameStart c = true → isNameChar c = true := fun c starts => by simp [isNameChar, starts]
  obtain ⟨rfl, rfl⟩ := readName_eq_some kept named
  rw [List.dropWhile_append_of_pos recursorMetric_name] at braces
  exact ⟨List.takeWhile_append_of_pos recursorMetric_name, afterBraces, braces, valued⟩

theorem writtenPlainly_iff {rest : List Char} :
    writtenPlainly (recursorMetric ++ rest) (rest.takeWhile isNameChar) = true ↔
      ':' ∉ rest.takeWhile isNameChar ∧ ∃ c after, rest.dropWhile isNameChar = c :: after ∧
        isBlank c = true ∧ ∃ d ∈ (after.dropWhile isBlank).head?, isNumeral d = true := by
  have begins : (recursorMetric ++ rest.takeWhile isNameChar).isPrefixOf (recursorMetric ++ rest) = true := by
    rw [List.isPrefixOf_iff_prefix]
    exact (List.prefix_append_right_inj recursorMetric).mpr (List.takeWhile_prefix isNameChar)
  have after : (recursorMetric ++ rest).drop (recursorMetric ++ rest.takeWhile isNameChar).length =
      rest.dropWhile isNameChar := by
    have cut : (rest.takeWhile isNameChar ++ rest.dropWhile isNameChar).drop
        (rest.takeWhile isNameChar).length = rest.dropWhile isNameChar := List.drop_left
    rw [List.takeWhile_append_dropWhile] at cut
    rw [List.length_append, ← List.drop_drop, List.drop_left, cut]
  rw [writtenPlainly, begins, after]
  cases rest.dropWhile isNameChar with
  | nil => simp
  | cons c later => simp [Option.any_eq_true]

theorem digits_isDigit {text : List Char} (all : ∀ c ∈ text, c.isDigit = true) :
    digits classes text = text.map digitOf := by
  rw [digits, ← List.filterMap_eq_map]
  apply List.filterMap_congr
  intro c member
  have digit := all c member
  rw [classes.decimal_ascii c (ascii_of_isDigit digit)]
  exact if_pos digit

theorem intFloat_numeral {d : Decimal} {whole fraction point : List Char}
    (form : point = ['.'] ∨ point = [] ∧ fraction = []) (all : ∀ c ∈ whole ++ fraction, c.isDigit = true)
    (some : ¬ (whole = [] ∧ fraction = [])) (wholeDigits : d.whole = whole.map digitOf)
    (fractionDigits : d.fraction = fraction.map digitOf) :
    intFloat classes (whole ++ point ++ fraction) = wholePart d.mantissa := by
  obtain ⟨left, right⟩ := List.forall_mem_append.mp all
  have noPoint {l : List Char} (digits : ∀ c ∈ l, c.isDigit = true) : ∀ c ∈ l, decide (c ≠ '.') = true := by
    intro c member
    have digit := digits c member
    rw [decide_eq_true_eq]
    rintro rfl
    contradiction
  have parts : (whole ++ point ++ fraction).takeWhile (· ≠ '.') = whole ∧
      ((whole ++ point ++ fraction).dropWhile (· ≠ '.')).tail = fraction := by
    have stops : ∀ c ∈ (point ++ fraction).head?, decide (c ≠ '.') = false := by
      rcases form with rfl | ⟨rfl, rfl⟩
      · rintro _ ⟨⟩
        decide
      · simp
    rw [List.append_assoc, takeWhile_append_stop (noPoint left) stops,
      dropWhile_append_stop (noPoint left) stops]
    rcases form with rfl | ⟨rfl, rfl⟩ <;> simp
  have clear : '.' ∉ fraction := fun member => by simpa using noPoint right '.' member
  rw [intFloat, parts.1, parts.2, if_neg (by tauto), digits_isDigit all, List.map_append, ← wholeDigits,
    ← fractionDigits, Decimal.mantissa, fractionDigits, List.length_map]

/-- The expression on plain characters. -/
theorem matchLine_plain {rest : List Char} (plain : ∀ c ∈ rest, Plain c) :
    matchLine classes (recursorMetric ++ rest) =
      let name := rest.takeWhile fun c => isNameChar c && c ≠ ':'
      let after := rest.dropWhile fun c => isNameChar c && c ≠ ':'
      let number := (after.dropWhile isBlank).takeWhile isNumeral
      if name = [] ∨ after.takeWhile isBlank = [] ∨ number = [] then none else some (name, number) := by
  obtain ⟨name, after⟩ := takeWhile_agree (p := classes.isWord) (q := fun c => isNameChar c && c ≠ ':')
    fun c member => isWord_plain (plain c member)
  have later : ∀ c ∈ rest.dropWhile fun c => isNameChar c && c ≠ ':', Plain c := fun c member =>
    plain c ((List.dropWhile_suffix _).subset member)
  obtain ⟨blanks, number⟩ := takeWhile_agree (p := Python.isSpace) (q := isBlank)
    fun c member => isSpace_plain (later c member)
  obtain ⟨numerals, -⟩ := takeWhile_agree (p := isNumberChar classes) (q := isNumeral)
    fun c member => isNumberChar_plain (later c ((List.dropWhile_suffix isBlank).subset member))
  simp only [matchLine, if_pos (List.prefix_append recursorMetric rest), List.drop_left, name, after, blanks,
    number, numerals]

/-- On a metric that is written plainly the expression matches the name and the digits before an exponent. -/
theorem matchLine_of_writtenPlainly {rest : List Char} {d : Decimal} {s : Sample}
    (found : readSample (recursorMetric ++ rest) = some s) (decimal : s.value = .decimal d)
    (plain : ∀ c ∈ rest, Plain c) (nonempty : rest.takeWhile isNameChar ≠ [])
    (written : writtenPlainly (recursorMetric ++ rest) (rest.takeWhile isNameChar) = true) :
    ∃ number, matchLine classes (recursorMetric ++ rest) = some (rest.takeWhile isNameChar, number) ∧
      intFloat classes number = wholePart d.mantissa := by
  obtain ⟨noColon, c, after, ends, blank, first, head, numeral⟩ := writtenPlainly_iff.mp written
  obtain ⟨-, afterBraces, braces, valued⟩ := readSample_recursorMetric found
  obtain ⟨later, number⟩ : ∃ later, after.dropWhile isBlank = first :: later :=
    List.head?_eq_some_iff.mp head
  have solid := isBlank_numeral numeral
  rw [ends, List.dropWhile_cons_of_pos blank, number, readBraces_numeral numeral] at braces
  obtain ⟨-, rfl⟩ := Prod.mk.inj (Option.some.inj braces)
  rw [List.dropWhile_cons_of_neg (by simp [solid]), decimal] at valued
  have token : (first :: later).takeWhile (!isBlank ·) = first :: later.takeWhile (!isBlank ·) :=
    List.takeWhile_cons_of_pos (by simp [solid])
  have unsigned : readSign ((first :: later).takeWhile (!isBlank ·)) =
      (none, (first :: later).takeWhile (!isBlank ·)) := by
    rw [token, readSign_numeral numeral]
  obtain ⟨whole, fraction, point, text, form, all, some, wholeDigits, fractionDigits⟩ :=
    readDecimal_unsigned (readValue_eq_decimal valued) unsigned
  rw [List.takeWhile_takeWhile] at text
  have written : (first :: later).takeWhile isNumeral = whole ++ point ++ fraction := by
    rw [← text]
    congr 1
    funext c
    cases numeral : isNumeral c with
    | false => simp
    | true => simp [isBlank_numeral numeral]
  have split : rest = rest.takeWhile isNameChar ++ c :: after := by
    rw [← ends, List.takeWhile_append_dropWhile]
  have named : ∀ d ∈ rest.takeWhile isNameChar, (isNameChar d && d ≠ ':') = true := by
    intro d member
    have other : d ≠ ':' := fun same => noColon (same ▸ member)
    simpa [other] using List.mem_takeWhile_imp member
  have stops : ∀ d ∈ (c :: after).head?, (isNameChar d && d ≠ ':') = false := by
    rintro _ ⟨⟩
    have notName : isNameChar c = false := head?_dropWhile_not (p := isNameChar) (by rw [ends]; rfl)
    simp [notName]
  have name := (congrArg (List.takeWhile _) split).trans (takeWhile_append_stop named stops)
  have behind := (congrArg (List.dropWhile _) split).trans (dropWhile_append_stop named stops)
  have blanks : (c :: after).takeWhile isBlank ≠ [] := by simp [blank]
  have digits : whole ++ point ++ fraction ≠ [] := by
    rw [← written]
    simp [numeral]
  refine ⟨whole ++ point ++ fraction, ?_, intFloat_numeral form all some wholeDigits fractionDigits⟩
  simp only [matchLine_plain plain, name, behind, List.dropWhile_cons_of_pos blank, number, written]
  rw [if_neg (by simp only [nonempty, blanks, digits, or_self, not_false_eq_true])]

/-- Only a metric that is written plainly matches. -/
theorem writtenPlainly_of_matchLine {rest : List Char} (plain : ∀ c ∈ rest, Plain c)
    {found : List Char × List Char} (matched : matchLine classes (recursorMetric ++ rest) = some found) :
    writtenPlainly (recursorMetric ++ rest) (rest.takeWhile isNameChar) = true ∧
      found.1 = rest.takeWhile isNameChar := by
  simp only [matchLine_plain plain] at matched
  split at matched
  · contradiction
  · rename_i parts
    simp only [not_or] at parts
    obtain ⟨c, after, ends, blank⟩ := exists_of_takeWhile_ne_nil parts.2.1
    have split : rest = rest.takeWhile (fun c => isNameChar c && c ≠ ':') ++ c :: after := by
      rw [← ends, List.takeWhile_append_dropWhile]
    have named : ∀ d ∈ rest.takeWhile fun c => isNameChar c && c ≠ ':', isNameChar d = true ∧ d ≠ ':' := by
      intro d member
      simpa using List.mem_takeWhile_imp member
    have stops : ∀ d ∈ (c :: after).head?, isNameChar d = false := by
      rintro _ ⟨⟩
      exact isNameChar_blank blank
    have name := (congrArg (List.takeWhile _) split).trans
      (takeWhile_append_stop (fun d member => (named d member).1) stops)
    have behind := (congrArg (List.dropWhile _) split).trans
      (dropWhile_append_stop (fun d member => (named d member).1) stops)
    have digits := parts.2.2
    rw [ends, List.dropWhile_cons_of_pos blank] at digits
    obtain ⟨d, later, head, numeral⟩ := exists_of_takeWhile_ne_nil digits
    refine ⟨writtenPlainly_iff.mpr ⟨?_, c, after, behind, blank, d, by rw [head]; rfl, numeral⟩, ?_⟩
    · rw [name]
      exact fun member => (named ':' member).2 rfl
    · rw [name, ← Option.some.inj matched]

/-! ## What a line does to the dictionary -/

theorem readMetric_of_matchLine {metrics : MetricMap} {line name number : List Char}
    (matched : matchLine classes line = some (name, number)) : readMetric classes metrics line =
      (intFloat classes number).map fun value => metrics.insert (String.ofList name) value := by
  have begins : recursorMetric <+: line := by
    by_contra other
    rw [matchLine, if_neg other] at matched
    contradiction
  obtain ⟨rest, rfl⟩ := begins
  have kept : Python.stripChars (recursorMetric ++ rest) ≠ [] := by
    intro nothing
    rw [Python.stripChars, List.reverse_eq_nil_iff, List.dropWhile_eq_nil_iff] at nothing
    exact absurd (nothing 'p' (List.mem_reverse.mpr List.mem_cons_self)) (by decide)
  have letter : (recursorMetric ++ rest).head? ≠ some '#' := by
    intro mark
    exact absurd (Option.some.inj mark) (by decide)
  rw [readMetric, if_neg (by simp only [letter, kept, or_self, not_false_eq_true]), matched]

theorem readMetric_of_none {metrics : MetricMap} {line : List Char} (matched : matchLine classes line = none) :
    readMetric classes metrics line = some metrics := by
  unfold readMetric
  rw [matched]
  split <;> rfl

theorem sampleOf_eq_some {line name : List Char} {d : Decimal} {whole : Int}
    (found : sampleOf line = some (name, d, whole)) :
    ∃ s, readLine line = some (.sample s) ∧ s.name = recursorMetric ++ name ∧ s.labels = [] ∧
      s.value = .decimal d ∧ name ≠ [] ∧ wholePart d.value = some whole := by
  unfold sampleOf at found
  split at found
  · rename_i full number timestamp line
    split at found
    · rename_i named
      obtain ⟨value, whole, same⟩ := Option.map_eq_some_iff.mp found
      obtain ⟨rfl, rfl, rfl⟩ : full.drop recursorMetric.length = name ∧ number = d ∧ value = _ := by
        simpa using same
      obtain ⟨⟨rest, rfl⟩, other⟩ := named
      rw [List.drop_left] at *
      refine ⟨_, line, rfl, rfl, rfl, ?_, whole⟩
      rintro rfl
      simp at other
    · contradiction
  · contradiction

theorem plain_of_readLine {line : List Char} {s : Sample} {d : Decimal}
    (found : readLine line = some (.sample s)) (unlabelled : s.labels = []) (decimal : s.value = .decimal d) :
    ∀ c ∈ line, Plain c := by
  apply plain_of_takeWhile fun c blank => Or.inl blank
  unfold readLine at found
  split at found
  · simp at found
  · exact absurd found (readComment_ne_sample _ _)
  · obtain ⟨s', read, same⟩ := Option.map_eq_some_iff.mp found
    obtain rfl := Line.sample.inj same
    exact plain_of_readSample read unlabelled decimal

theorem fields_of_sampleOf {line name : List Char} {d : Decimal} {whole : Int}
    (found : sampleOf line = some (name, d, whole)) : fields isLineBreak line = [line] := by
  obtain ⟨s, read, -, unlabelled, decimal, -, -⟩ := sampleOf_eq_some found
  have plain := plain_of_readLine read unlabelled decimal
  have nonempty : line ≠ [] := by
    rintro rfl
    simp [readLine] at read
  rw [fields, List.splitOnP_eq_singleton fun c member => isLineBreak_plain (plain c member)]
  simpa using nonempty

theorem readWithin_of_sampleOf {metrics : MetricMap} {line name : List Char} {d : Decimal} {whole : Int}
    (found : sampleOf line = some (name, d, whole)) :
    readWithin classes metrics line = readMetric classes metrics line := by
  rw [readWithin, fields_of_sampleOf found, List.foldlM_cons]
  cases readMetric classes metrics line <;> rfl

/-- The expression matches a metric iff it is written plainly, and then reads its name and its number
without the exponent. -/
theorem readMetric_of_sampleOf {metrics : MetricMap} {line name : List Char} {d : Decimal} {whole : Int}
    (found : sampleOf line = some (name, d, whole)) : readMetric classes metrics line =
      if writtenPlainly line name = true then
        (wholePart d.mantissa).map fun value => metrics.insert (String.ofList name) value
      else some metrics := by
  obtain ⟨s, read, named, unlabelled, decimal, nonempty, -⟩ := sampleOf_eq_some found
  have plain := plain_of_readLine read unlabelled decimal
  by_cases begins : recursorMetric <+: line
  · obtain ⟨rest, rfl⟩ := begins
    obtain ⟨-, later⟩ := List.forall_mem_append.mp plain
    rw [readLine_recursorMetric, Option.map_eq_some_iff] at read
    obtain ⟨s', read, same⟩ := read
    obtain rfl := Line.sample.inj same
    obtain ⟨full, -⟩ := readSample_recursorMetric read
    obtain rfl := List.append_cancel_left (named.symm.trans full)
    split
    · rename_i written
      obtain ⟨number, matched, value⟩ := matchLine_of_writtenPlainly read decimal later nonempty written
      rw [readMetric_of_matchLine matched, value]
    · rename_i written
      apply readMetric_of_none
      by_contra matched
      obtain ⟨found, matched⟩ := Option.ne_none_iff_exists'.mp matched
      exact written (writtenPlainly_of_matchLine later matched).1
  · have unmatched : matchLine classes line = none := by rw [matchLine, if_neg begins]
    have unwritten : ¬ writtenPlainly line name = true := by
      intro written
      simp only [writtenPlainly, Bool.and_eq_true, List.isPrefixOf_iff_prefix] at written
      exact begins ((List.prefix_append _ _).trans written.1.1)
    rw [readMetric_of_none unmatched, if_neg unwritten]

theorem readMetric_mem {metrics after : MetricMap} {line : List Char}
    (done : readMetric classes metrics line = some after) {name : String} (known : name ∈ metrics) :
    name ∈ after := by
  cases matched : matchLine classes line with
  | none =>
      rw [readMetric_of_none matched] at done
      exact Option.some.inj done ▸ known
  | some found =>
      rw [readMetric_of_matchLine matched] at done
      obtain ⟨value, -, rfl⟩ := Option.map_eq_some_iff.mp done
      exact Finmap.mem_insert.mpr (Or.inr known)

theorem foldlM_readMetric_mem {metrics after : MetricMap} {pieces : List (List Char)}
    (done : pieces.foldlM (readMetric classes) metrics = some after) {name : String} (known : name ∈ metrics) :
    name ∈ after := by
  induction pieces generalizing metrics with
  | nil => exact Option.some.inj done ▸ known
  | cons piece rest ih =>
      obtain ⟨next, first, later⟩ := Option.bind_eq_some_iff.mp done
      exact ih later (readMetric_mem first known)

theorem foldlM_readMetric_empty {pieces : List (List Char)}
    (done : pieces.foldlM (readMetric classes) ∅ = some ∅) : ∀ piece ∈ pieces, matchLine classes piece = none := by
  induction pieces with
  | nil => simp
  | cons piece rest ih =>
      obtain ⟨next, first, later⟩ := Option.bind_eq_some_iff.mp done
      cases matched : matchLine classes piece with
      | none =>
          rw [readMetric_of_none matched] at first
          obtain rfl := Option.some.inj first
          exact List.forall_mem_cons.mpr ⟨matched, ih later⟩
      | some found =>
          rw [readMetric_of_matchLine matched] at first
          obtain ⟨value, -, rfl⟩ := Option.map_eq_some_iff.mp first
          exact absurd (foldlM_readMetric_mem later (Finmap.mem_insert.mpr (Or.inl rfl))) Finmap.notMem_empty

theorem foldlM_readMetric_of_none {pieces : List (List Char)} (metrics : MetricMap)
    (unmatched : ∀ piece ∈ pieces, matchLine classes piece = none) :
    pieces.foldlM (readMetric classes) metrics = some metrics := by
  induction pieces with
  | nil => rfl
  | cons piece rest ih =>
      obtain ⟨first, others⟩ := List.forall_mem_cons.mp unmatched
      rw [List.foldlM_cons, readMetric_of_none first]
      exact ih others

theorem readWithin_splitlines (metrics : MetricMap) (line : List Char) :
    readWithin classes metrics line = (splitlines line).foldlM (readMetric classes) metrics := by
  rw [readWithin, ← filter_splitlines, foldlM_filter]

theorem readWithin_of_legible {line : List Char} (legible : Legible classes line) (metrics : MetricMap) :
    readWithin classes metrics line = some (addSample metrics line) := by
  unfold Legible at legible
  unfold addSample
  split at legible
  · rename_i name d whole found
    rw [readWithin_of_sampleOf found, readMetric_of_sampleOf found, if_pos legible.1, legible.2]
    rfl
  · rename_i found
    rw [readWithin_splitlines, foldlM_readMetric_of_none metrics legible]

theorem legible_of_readWithin {line : List Char}
    (right : readWithin classes ∅ line = some (addSample ∅ line)) : Legible classes line := by
  unfold addSample at right
  unfold Legible
  split
  · rename_i name d whole found
    rw [readWithin_of_sampleOf found, readMetric_of_sampleOf found, found] at right
    split at right
    · rename_i written
      obtain ⟨value, part, same⟩ := Option.map_eq_some_iff.mp right
      have looked := congrArg (Finmap.lookup (String.ofList name)) same
      rw [Finmap.lookup_insert, Finmap.lookup_insert] at looked
      exact ⟨written, part.trans looked⟩
    · have known : String.ofList name ∈ (∅ : MetricMap) := by
        rw [Option.some.inj right]
        exact Finmap.mem_insert.mpr (Or.inl rfl)
      exact absurd known Finmap.notMem_empty
  · rename_i found
    rw [readWithin_splitlines, found] at right
    exact foldlM_readMetric_empty right

/-! ## The whole text -/

theorem readMetrics_of_legible {lines : List (List Char)} (legible : ∀ line ∈ lines, Legible classes line) :
    readMetrics classes (textOf lines) = some (sampled lines) := by
  rw [readMetrics_textOf, sampled]
  generalize (∅ : MetricMap) = metrics
  induction lines generalizing metrics with
  | nil => rfl
  | cons line rest ih =>
      obtain ⟨first, others⟩ := List.forall_mem_cons.mp legible
      rw [List.foldlM_cons, readWithin_of_legible first]
      exact ih others _

theorem readRight_of_readMetrics {lines : List (List Char)}
    (metrics : readMetrics classes (textOf lines) = some (sampled lines)) : ReadRight classes lines where
  metrics := metrics
  agent := by rw [scrapeRecursorMetrics, if_neg (by decide), metrics]; rfl
  primary := by
    rw [scrapeLocalRecursorMetrics, metrics]
    simp only [Option.bind_eq_bind, Option.bind_some]
    rfl

/-- A text is read right, with every part of it, iff each of its lines is legible. -/
theorem independent_iff_legible (lines : List (List Char)) :
    Independent classes lines ↔ ∀ line ∈ lines, Legible classes line := by
  constructor
  · intro independent line member
    have alone := (independent [line] (List.singleton_sublist.mpr member)).metrics
    rw [readMetrics_textOf, List.foldlM_cons] at alone
    apply legible_of_readWithin
    cases done : readWithin classes ∅ line with
    | none => simp [done] at alone
    | some after =>
        rw [done] at alone
        exact alone
  · intro legible part kept
    exact readRight_of_readMetrics (readMetrics_of_legible fun line member => legible line (kept.subset member))

/-! ### A number with an exponent -/

def asciiClasses : CharClasses where
  isWord c := c.isAlphanum || c = '_'
  decimal := digitValue?
  word_ascii _ _ := rfl
  decimal_ascii _ _ := rfl

def exponentLine : List Char := "pdns_recursor_questions 1.5e+06".toList

theorem sampleOf_exponentLine :
    sampleOf exponentLine = some ("questions".toList, ⟨none, [1], [5], some 6⟩, 1500000) := by decide +kernel

/-- A million and a half questions are read as one. -/
theorem exponent_cut_off :
    readMetrics asciiClasses (textOf [exponentLine]) = some (Finmap.insert "questions" 1 ∅) ∧
      sampled [exponentLine] = Finmap.insert "questions" 1500000 ∅ ∧
      ¬ ReadRight asciiClasses [exponentLine] := by
  have mantissa : wholePart (Decimal.mantissa ⟨none, [1], [5], some 6⟩) = some 1 := by decide +kernel
  have written : writtenPlainly exponentLine "questions".toList = true := by decide
  have code : readMetrics asciiClasses (textOf [exponentLine]) = some (Finmap.insert "questions" 1 ∅) := by
    rw [readMetrics_textOf, List.foldlM_cons, readWithin_of_sampleOf sampleOf_exponentLine,
      readMetric_of_sampleOf sampleOf_exponentLine, if_pos written, mantissa]
    rfl
  have spec : sampled [exponentLine] = Finmap.insert "questions" 1500000 ∅ := by
    rw [sampled, List.foldl_cons, addSample, sampleOf_exponentLine]
    rfl
  refine ⟨code, spec, fun right => ?_⟩
  have same := code.symm.trans right.metrics
  rw [spec] at same
  have looked := congrArg (Finmap.lookup "questions") (Option.some.inj same)
  rw [Finmap.lookup_insert, Finmap.lookup_insert] at looked
  exact absurd looked (by decide)

end PowerBlockade.Metrics
