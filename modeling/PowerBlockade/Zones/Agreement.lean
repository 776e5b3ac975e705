import PowerBlockade.Blocking.Compilers
import PowerBlockade.Zones.Canonical

/-!
# The two normal forms

The name that `entries_add` stores for a spelling beside the one that the list parser finds in it,
and when an allow of the one cancels a block of the other.
-/

namespace PowerBlockade.Zones
open Lib Blocking

/-- A mark with nothing behind it but the rest of its line. -/
def HasComment (text : List Char) : Prop :=
  ∃ words mark rest, text = words ++ mark :: rest ∧ isCommentMark mark = true ∧ '\n' ∉ rest

/-- Without its blanks it has no comment, and neither pipes nor a star nor a dot in front. -/
def Plain (s : String) : Prop :=
  ¬ HasComment (trim Python.isSpace s.toList) ∧ ¬ ['|', '|'] <+: trim Python.isSpace s.toList ∧
    ∀ c ∈ (trim Python.isSpace s.toList).head?, isLead c = false

inductive Origin
  | manual
  | list

variable (letters : LetterCase)

/-- `s` is in force as an allow or as a block, under the name that was stored for it. -/
def Holds (db : Database) (allows : Bool) (s stored : String) : Origin → Prop
  | .manual => entriesAdd letters s = some stored ∧
      ⟨stored, if allows then "allow" else "block"⟩ ∈ db.manualEntries
  | .list => parseBlocklistLines letters [s.toList] "domains" = {stored} ∧
      ∃ bl ∈ db.blocklists, bl.enabled = true ∧ decide (bl.listType = "allow") = allows ∧
        stored ∈ bl.entries

/-- Wherever the allow and the block come from and whatever else is stored, the combined zone does
not block the name that was stored for the block. -/
def Cancels (allow block : String) : Prop :=
  ∀ (db : Database) (now : DateTime) (from₁ from₂ : Origin) (allowed blocked : String),
    Holds letters db true allow allowed from₁ → Holds letters db false block blocked from₂ →
      blocked ∉ (regenerateRpz db now).1.blocks

def Agree (allow block domain : String) : Prop :=
  entriesAdd letters allow = some domain ∧ entriesAdd letters block = some domain ∧
    Cancels letters allow block

variable {letters}

/-! ## What the strips take -/

theorem isComment_cases {text : List Char} (comment : isComment text = true) :
    ∃ blanks mark rest, text = blanks ++ mark :: rest ∧ isCommentMark mark = true ∧
      '\n' ∉ rest := by
  have whole := (List.takeWhile_append_dropWhile (p := Python.isSpace) (l := text)).symm
  unfold isComment at comment
  split at comment
  · exact absurd comment (by decide)
  · rename_i mark rest left
    rw [Bool.and_eq_true, decide_eq_true_eq] at comment
    exact ⟨_, mark, rest, left ▸ whole, comment⟩

theorem withoutComment_cut (text : List Char) : withoutComment text = text ∨
    ∃ tail, text = withoutComment text ++ tail ∧ isComment tail = true := by
  induction text with
  | nil => exact Or.inl rfl
  | cons c rest ih =>
      rw [withoutComment]
      split
      · rename_i comment
        exact Or.inr ⟨c :: rest, rfl, comment⟩
      · rcases ih with same | ⟨tail, whole, comment⟩
        · exact Or.inl (by rw [same])
        · exact Or.inr ⟨tail, by rw [List.cons_append, ← whole], comment⟩

theorem HasComment.cut {text : List Char} (has : HasComment text) :
    ∃ tail, text = withoutComment text ++ tail ∧ isComment tail = true := by
  obtain ⟨words, mark, rest, rfl, isMark, oneLine⟩ := has
  rcases withoutComment_cut (words ++ mark :: rest) with same | cut
  · induction words with
    | nil =>
        have comment : isComment (mark :: rest) = true := by
          rw [isComment_solid (isSpace_of_mark isMark), isMark]
          simpa using oneLine
        refine ⟨mark :: rest, ?_, comment⟩
        rw [List.nil_append, withoutComment_of_isComment comment, List.nil_append]
    | cons c words ih =>
        rw [List.cons_append, withoutComment] at same
        split at same
        · contradiction
        · rename_i notHere
          obtain ⟨tail, whole, comment⟩ := ih (List.cons.inj same).2
          refine ⟨tail, ?_, comment⟩
          rw [List.cons_append, withoutComment, if_neg notHere, List.cons_append, ← whole]
  · exact cut

theorem withoutComment_of_not {text : List Char} (none : ¬ HasComment text) :
    withoutComment text = text := by
  rcases withoutComment_cut text with same | ⟨tail, whole, comment⟩
  · exact same
  · obtain ⟨blanks, mark, rest, split, isMark, oneLine⟩ := isComment_cases comment
    refine absurd ⟨withoutComment text ++ blanks, mark, rest, ?_, isMark, oneLine⟩ none
    rw [List.append_assoc, ← split, ← whole]

theorem written_begins (s : List Char) : written s <+: withoutComment (trim Python.isSpace s) := by
  have first : ∀ c ∈ (withoutComment (trim Python.isSpace s)).head?, Python.isSpace c = false := by
    intro c member
    obtain ⟨tail, whole⟩ := withoutComment_begins (trim Python.isSpace s)
    have start : c ∈ (trim Python.isSpace s).head? := by
      rw [← whole, List.head?_append, Option.mem_def, Option.mem_def.mp member]
      rfl
    exact head?_trim start
  rw [written, trim, dropWhile_of_solid first]
  exact List.rdropWhile_prefix _ _

theorem withoutPipes_suffix (text : List Char) : withoutPipes text <:+ text := by
  unfold withoutPipes
  split
  · exact ⟨['|', '|'], rfl⟩
  · exact List.suffix_rfl

/-! ## The line without its last dots -/

def stripped (s : List Char) : List Char := (withoutPipes (written s)).dropWhile isLead

def undotted (text : List Char) : List Char := text.rdropWhile (· = '.')

section
variable {s front back : List Char} (whole : trim Python.isSpace s = written s ++ back)
  (cut : written s = front ++ stripped s)
include whole cut

theorem undotted_of_dots (named : bareName s ≠ []) (dots : undotted back = []) :
    undotted (trim Python.isSpace s) = front ++ bareName s := by
  have all : ∀ c ∈ back, decide (c = '.') = true := List.rdropWhile_eq_nil_iff.mp dots
  have kept : (stripped s).rdropWhile (· = '.') ≠ [] := named
  rw [whole, undotted, rdropWhile_append_blanks all, cut, rdropWhile_append_kept kept]
  rfl

omit cut in
theorem undotted_of_more (more : undotted back ≠ []) :
    undotted (trim Python.isSpace s) = written s ++ undotted back := by
  rw [whole, undotted, rdropWhile_append_kept more]
  rfl

theorem infix_undotted (named : bareName s ≠ []) : bareName s <:+: undotted (trim Python.isSpace s) := by
  by_cases dots : undotted back = []
  · rw [undotted_of_dots whole cut named dots]
    exact (List.suffix_append front _).isInfix
  · have name : bareName s <+: stripped s := List.rdropWhile_prefix _ _
    rw [undotted_of_more whole dots, cut]
    obtain ⟨more, split⟩ := name
    exact ⟨front, more ++ undotted back, by rw [← split]; simp⟩

/-- Nothing but dots is stripped behind, and nothing in front. -/
theorem parts_of_same (named : bareName s ≠ []) (same : undotted (trim Python.isSpace s) = bareName s) :
    front = [] ∧ ∀ c ∈ back, c = '.' := by
  have dots : undotted back = [] := by
    by_contra more
    rw [undotted_of_more whole more, cut] at same
    have shorter : (bareName s).length ≤ (stripped s).length :=
      (List.rdropWhile_prefix (fun c => decide (c = '.')) (stripped s)).length_le
    have some := List.length_pos_iff.mpr more
    have lengths := congrArg List.length same
    rw [List.length_append, List.length_append] at lengths
    omega
  rw [undotted_of_dots whole cut named dots] at same
  refine ⟨List.append_left_eq_self.mp same, fun c member => ?_⟩
  simpa using List.rdropWhile_eq_nil_iff.mp dots c member

end

theorem exists_parts (s : List Char) : ∃ front back,
    trim Python.isSpace s = written s ++ back ∧ written s = front ++ stripped s := by
  obtain ⟨front, cut⟩ := (List.dropWhile_suffix isLead).trans (withoutPipes_suffix (written s))
  obtain ⟨back, whole⟩ := (written_begins s).trans (withoutComment_begins _)
  exact ⟨front, back, whole.symm, cut.symm⟩

theorem written_of_not_hasComment {s : List Char} (none : ¬ HasComment (trim Python.isSpace s)) :
    written s = trim Python.isSpace s := by
  rw [written, withoutComment_of_not none, trim_trim]

theorem not_hasComment_of_dots {s back : List Char} (whole : trim Python.isSpace s = written s ++ back)
    (dots : ∀ c ∈ back, c = '.') : ¬ HasComment (trim Python.isSpace s) := by
  intro has
  obtain ⟨tail, split, comment⟩ := has.cut
  obtain ⟨more, kept⟩ := written_begins s
  obtain ⟨blanks, mark, rest, inTail, isMark, -⟩ := isComment_cases comment
  rw [← kept, List.append_assoc] at split
  have behind : back = more ++ tail := List.append_cancel_left (whole.symm.trans split)
  have member : mark ∈ back := by simp [behind, inTail]
  rw [dots mark member] at isMark
  exact absurd isMark (by decide)

/-- Only the dots behind are stripped off a plain line, and off no other. -/
theorem undotted_eq_bareName_iff {s : String} (named : bareName s.toList ≠ []) :
    undotted (trim Python.isSpace s.toList) = bareName s.toList ↔ Plain s := by
  obtain ⟨front, back, whole, cut⟩ := exists_parts s.toList
  constructor
  · intro same
    obtain ⟨noFront, dots⟩ := parts_of_same whole cut named same
    have none := not_hasComment_of_dots whole dots
    rw [noFront, List.nil_append, written_of_not_hasComment none] at cut
    refine ⟨none, fun pipes => ?_, fun c first => ?_⟩
    · obtain ⟨rest, split⟩ := pipes
      have shorter : (stripped s.toList).length ≤ rest.length := by
        rw [stripped, written_of_not_hasComment none, ← split]
        exact (List.dropWhile_suffix isLead).length_le
      have lengths := congrArg List.length cut
      rw [← split, List.length_append] at lengths
      simp only [List.length_cons, List.length_nil] at lengths
      omega
    · rw [cut] at first
      exact head?_dropWhile_not first
  · rintro ⟨none, noPipes, noLead⟩
    rw [bareName, written_of_not_hasComment none, withoutPipes_of_not noPipes,
      dropWhile_of_solid noLead]
    rfl

/-! ## What is stored -/

theorem entriesAdd_eq (letters : Casing) (s : String) :
    entriesAdd letters.toLetterCase s =
      if fitsText 255 (String.ofList (letters.table.lower (undotted (trim Python.isSpace s.toList))))
      then some (String.ofList (letters.table.lower (undotted (trim Python.isSpace s.toList))))
      else none := by
  have stored : Python.rstrip '.' (letters.lower (Python.strip s)) =
      String.ofList (letters.table.lower (undotted (trim Python.isSpace s.toList))) := by
    rw [undotted, ← CaseTable.rdropWhile_lower fun _ => letters.inert_dot, ← letters.toList_lower]
    rfl
  rw [entriesAdd, stored]

theorem domains_format (letters : Casing) :
    letters.lower (Python.strip "domains") ≠ "hosts" := by
  rw [letters.lower_format (by decide) (by simp)]
  decide

theorem parse_eq_singleton {letters : Casing} {s domain : String}
    (parsed : parseBlocklistLines letters.toLetterCase [s.toList] "domains" = {domain}) :
    parseLine letters.toLetterCase false s.toList = some domain.toList := by
  have format := domains_format letters
  have member : domain ∈ parseBlocklistLines letters.toLetterCase [s.toList] "domains" := by
    simp [parsed]
  simp only [parseBlocklistLines, format, decide_false, List.mem_toFinset, List.mem_map,
    List.mem_filterMap, List.mem_singleton, exists_eq_left] at member
  obtain ⟨chars, found, rfl⟩ := member
  rw [found, String.toList_ofList]

/-- `entries_add` stores the parser's name exactly for the plain spellings that its column takes. -/
theorem entriesAdd_eq_iff {letters : Casing} {s domain : String}
    (parsed : parseBlocklistLines letters.toLetterCase [s.toList] "domains" = {domain}) :
    entriesAdd letters.toLetterCase s = some domain ↔ Plain s ∧ fitsText 255 domain = true := by
  have line := parse_eq_singleton parsed
  rw [parseLine_domains, Option.ite_none_left_eq_some] at line
  obtain ⟨accepted, lowered⟩ := bareName_of_normalizeDomain line.2
  have named : bareName s.toList ≠ [] := fun empty => accepted (Or.inl empty)
  obtain ⟨front, back, whole, cut⟩ := exists_parts s.toList
  have inside := infix_undotted whole cut named
  have same : String.ofList (letters.table.lower (undotted (trim Python.isSpace s.toList))) = domain ↔
      Plain s := by
    rw [← undotted_eq_bareName_iff named, ← @String.ofList_toList domain, ← lowered]
    constructor
    · intro equal
      exact (CaseTable.eq_of_infix_of_lower inside (String.ofList_injective equal).symm).symm
    · intro equal
      rw [equal]
  rw [entriesAdd_eq]
  constructor
  · intro stored
    rw [Option.ite_none_right_eq_some] at stored
    have equal := Option.some.inj stored.2
    exact ⟨same.mp equal, equal ▸ stored.1⟩
  · rintro ⟨plain, fits⟩
    rw [same.mpr plain, if_pos fits]

/-! ## What is cancelled -/

theorem Holds.stored_eq {letters : Casing} {db : Database} {allows : Bool}
    {s stored domain : String} {origin : Origin}
    (held : Holds letters.toLetterCase db allows s stored origin)
    (parsed : parseBlocklistLines letters.toLetterCase [s.toList] "domains" = {domain})
    (entered : entriesAdd letters.toLetterCase s = some domain) : stored = domain := by
  cases origin with
  | manual => exact Option.some.inj (held.1.symm.trans entered)
  | list => exact Finset.singleton_inj.mp (held.1.symm.trans parsed)

theorem Holds.allows {letters : LetterCase} {db : Database} {s stored : String} {origin : Origin}
    (held : Holds letters db true s stored origin) : Source.Allows db.sources stored := by
  cases origin with
  | manual =>
      refine ⟨⟨true, {stored}⟩, List.mem_append_left _ ?_, rfl, Finset.mem_singleton_self stored⟩
      exact List.mem_filterMap.mpr ⟨_, held.2, by simp [ManualEntry.source?]⟩
  | list =>
      obtain ⟨source, member, kind, named⟩ := names_listSources.mpr held.2
      exact ⟨source, List.mem_append_right _ member, kind, named⟩

theorem cancels_of_entered {letters : Casing} {allow block domain : String}
    (parsedAllow : parseBlocklistLines letters.toLetterCase [allow.toList] "domains" = {domain})
    (parsedBlock : parseBlocklistLines letters.toLetterCase [block.toList] "domains" = {domain})
    (enteredAllow : entriesAdd letters.toLetterCase allow = some domain)
    (enteredBlock : entriesAdd letters.toLetterCase block = some domain) :
    Cancels letters.toLetterCase allow block := by
  intro db now from₁ from₂ allowed blocked allows blocks
  have left := allows.stored_eq parsedAllow enteredAllow
  have right := blocks.stored_eq parsedBlock enteredBlock
  rw [blocks_regenerateRpz, Database.effectiveBlockSet, Source.mem_effective, right, ← left]
  exact fun effective => effective.2 allows.allows

/-- The two normal forms agree on two spellings of a name, and either cancels the other, exactly
when both are plain and the column takes the name. -/
theorem agree_iff_plain (letters : Casing) (allow block domain : String)
    (parsedAllow : parseBlocklistLines letters.toLetterCase [allow.toList] "domains" = {domain})
    (parsedBlock : parseBlocklistLines letters.toLetterCase [block.toList] "domains" = {domain}) :
    Agree letters.toLetterCase allow block domain ↔
      Plain allow ∧ Plain block ∧ fitsText 255 domain = true := by
  unfold Agree
  rw [entriesAdd_eq_iff parsedAllow, entriesAdd_eq_iff parsedBlock]
  constructor
  · rintro ⟨⟨plainAllow, fits⟩, ⟨plainBlock, -⟩, -⟩
    exact ⟨plainAllow, plainBlock, fits⟩
  · rintro ⟨plainAllow, plainBlock, fits⟩
    exact ⟨⟨plainAllow, fits⟩, ⟨plainBlock, fits⟩, cancels_of_entered parsedAllow parsedBlock
      ((entriesAdd_eq_iff parsedAllow).mpr ⟨plainAllow, fits⟩)
      ((entriesAdd_eq_iff parsedBlock).mpr ⟨plainBlock, fits⟩)⟩

/-! ## An allow that cancels nothing -/

def starredAllow : Database :=
  ⟨[], [{ adsList with entries := {"ads"} }], [⟨"*.ads", "allow"⟩]⟩

theorem starred_allow_cancels_nothing :
    parseBlocklistLines basicCasing.toLetterCase ["*.ads".toList] "domains" = {"ads"} ∧
      parseBlocklistLines basicCasing.toLetterCase ["ads".toList] "domains" = {"ads"} ∧
      entriesAdd basicCasing.toLetterCase "*.ads" ≠ some "ads" ∧
      ¬ Cancels basicCasing.toLetterCase "*.ads" "ads" := by
  have parsed : parseBlocklistLines basicCasing.toLetterCase ["ads".toList] "domains" = {"ads"} := by
    decide
  refine ⟨by decide, parsed, by decide, fun cancels => ?_⟩
  have allow : Holds basicCasing.toLetterCase starredAllow true "*.ads" "*.ads" .manual :=
    ⟨by decide, by decide⟩
  have block : Holds basicCasing.toLetterCase starredAllow false "ads" "ads" .list :=
    ⟨parsed, _, List.mem_singleton_self _, rfl, by decide, by decide⟩
  have absent := cancels starredAllow noon .manual .list "*.ads" "ads" allow block
  rw [blocks_regenerateRpz] at absent
  exact absent (by decide)

theorem agree_iff_plain_ads :
    parseBlocklistLines basicCasing.toLetterCase ["Ads.".toList] "domains" = {"ads"} ∧
      parseBlocklistLines basicCasing.toLetterCase [" ads".toList] "domains" = {"ads"} ∧
      (Agree basicCasing.toLetterCase "Ads." " ads" "ads" ↔
        Plain "Ads." ∧ Plain " ads" ∧ fitsText 255 "ads" = true) :=
  ⟨by decide, by decide, agree_iff_plain basicCasing "Ads." " ads" "ads" (by decide) (by decide)⟩

end PowerBlockade.Zones
