import Mathlib
import PowerBlockade.Lib.CaseTable
import PowerBlockade.Zones.Normalize

/-!
# What is left of a line

`_normalize_domain` as one cut through the line as it was written: the name between the strips, in
lower case, if nothing forbids it.
-/

namespace PowerBlockade.Zones
open Lib

/-- `str.lower` over the tables of the standard; no blank is a letter or is skipped among letters. -/
structure Casing extends LetterCase where
  table : CaseTable
  lower_eq : ∀ text, lower text = String.ofList (table.lower text.toList)
  blank : ∀ c, Python.isSpace c = true → table.cased c = false ∧ table.ignorable c = false

def isLead (c : Char) : Bool := c = '*' ∨ c = '.'

/-- The line without its blanks and its comment. -/
def written (text : List Char) : List Char :=
  trim Python.isSpace (withoutComment (trim Python.isSpace text))

def bareName (text : List Char) : List Char :=
  ((withoutPipes (written text)).dropWhile isLead).rdropWhile (· = '.')

def Refused (name : List Char) : Prop :=
  name = [] ∨ ' ' ∈ name ∨ '\t' ∈ name ∨ ['['] <+: name ∨ '/' ∈ name

instance (name : List Char) : Decidable (Refused name) :=
  inferInstanceAs (Decidable (_ ∨ _ ∨ _ ∨ _ ∨ _))

/-! ## Pipes and comments -/

theorem withoutPipes_of_not {text : List Char} (none : ¬ ['|', '|'] <+: text) :
    withoutPipes text = text := by
  unfold withoutPipes
  split
  · exact absurd (List.prefix_append ['|', '|'] _) none
  · rfl

theorem isComment_blank {c : Char} (blank : Python.isSpace c = true) (rest : List Char) :
    isComment (c :: rest) = isComment rest := by
  simp [isComment, blank]

theorem isComment_solid {c : Char} (solid : Python.isSpace c = false) (rest : List Char) :
    isComment (c :: rest) = (isCommentMark c && decide ('\n' ∉ rest)) := by
  simp [isComment, solid]

theorem isSpace_of_mark {c : Char} (mark : isCommentMark c = true) : Python.isSpace c = false := by
  have either : c = '#' ∨ c = ';' := by simpa [isCommentMark] using mark
  rcases either with rfl | rfl <;> decide

theorem withoutComment_append_plain {text : List Char}
    (plain : ∀ c ∈ text, Python.isSpace c = false ∧ isCommentMark c = false) (rest : List Char) :
    withoutComment (text ++ rest) = text ++ withoutComment rest := by
  induction text with
  | nil => rfl
  | cons c text ih =>
      obtain ⟨⟨solid, notMark⟩, others⟩ := List.forall_mem_cons.mp plain
      have kept : isComment (c :: (text ++ rest)) = false := by
        rw [isComment_solid solid, notMark]
        rfl
      rw [List.cons_append, withoutComment, kept, if_neg Bool.false_ne_true, ih others]
      rfl

namespace Casing
variable {letters : Casing}

theorem toList_lower (letters : Casing) (text : List Char) :
    (letters.lower (String.ofList text)).toList = letters.table.lower text := by
  rw [letters.lower_eq, String.toList_ofList, String.toList_ofList]

theorem lower_format (letters : Casing) {format : String} (stripped : Python.strip format = format)
    (small : ∀ c ∈ format.toList, c.toNat < 128 ∧ c.toLower = c) :
    letters.lower (Python.strip format) = format := by
  rw [stripped, letters.lower_eq, CaseTable.lower_of_small small, String.ofList_toList]

/-! ## Characters without case -/

theorem inert_ascii {c : Char} (small : c.toNat < 128) (notLetter : c.isAlpha = false) :
    letters.table.Inert c :=
  CaseTable.Inert.of_ascii small notLetter

theorem inert_blank {c : Char} (blank : Python.isSpace c = true) : letters.table.Inert c :=
  CaseTable.Inert.of_not_ignorable (letters.blank c blank).1 (letters.blank c blank).2

theorem not_ignorable_ascii {c : Char} (small : c.toNat < 128)
    (other : c ∉ ['\'', '.', ':', '^', '\x60']) : letters.table.ignorable c = false := by
  by_contra skipped
  exact other (letters.table.asciiIgnorable c small (by simpa using skipped))

theorem separates_mark {c : Char} (mark : isCommentMark c = true) :
    letters.table.cased c = false ∧ letters.table.ignorable c = false := by
  have either : c = '#' ∨ c = ';' := by simpa [isCommentMark] using mark
  rcases either with rfl | rfl
  · exact ⟨letters.table.asciiCased _ (by decide), not_ignorable_ascii (by decide) (by decide)⟩
  · exact ⟨letters.table.asciiCased _ (by decide), not_ignorable_ascii (by decide) (by decide)⟩

theorem inert_mark {c : Char} (mark : isCommentMark c = true) : letters.table.Inert c :=
  CaseTable.Inert.of_not_ignorable (separates_mark mark).1 (separates_mark mark).2

theorem inert_lead {c : Char} (lead : isLead c = true) : letters.table.Inert c := by
  have either : c = '*' ∨ c = '.' := by simpa [isLead] using lead
  rcases either with rfl | rfl
  · exact inert_ascii (by decide) (by decide)
  · exact inert_ascii (by decide) (by decide)

theorem inert_dot {c : Char} (dot : decide (c = '.') = true) : letters.table.Inert c := by
  obtain rfl : c = '.' := by simpa using dot
  exact inert_ascii (by decide) (by decide)

/-! ## The strips and lower case -/

theorem trim_lower (text : List Char) : trim Python.isSpace (letters.table.lower text) =
    letters.table.lower (trim Python.isSpace text) := by
  have blanks : ∀ c, Python.isSpace c = true → letters.table.Inert c := fun _ => inert_blank
  rw [trim, CaseTable.dropWhile_lower blanks, CaseTable.rdropWhile_lower blanks, trim]

theorem pipes_lower (text : List Char) :
    ['|', '|'] <+: letters.table.lower text ↔ ['|', '|'] <+: text := by
  have pipe : letters.table.Inert '|' := inert_ascii (by decide) (by decide)
  cases text with
  | nil => rfl
  | cons c rest =>
      by_cases same : c = '|'
      · subst same
        rw [CaseTable.lower_cons_uncased pipe.1, List.cons_prefix_cons, List.cons_prefix_cons,
          CaseTable.startsWith_lower pipe]
      · have first : ¬ ['|'] <+: c :: rest := by simpa [List.cons_prefix_cons, eq_comm] using same
        have both : ['|'] <+: ['|', '|'] := List.prefix_append ['|'] ['|']
        apply iff_of_false
        · exact fun begins => first ((CaseTable.startsWith_lower pipe _).mp (both.trans begins))
        · exact fun begins => first (both.trans begins)

theorem withoutPipes_lower (text : List Char) : withoutPipes (letters.table.lower text) =
    letters.table.lower (withoutPipes text) := by
  have pipe : letters.table.cased '|' = false := letters.table.asciiCased _ (by decide)
  by_cases begins : ['|', '|'] <+: text
  · obtain ⟨rest, rfl⟩ := begins
    show withoutPipes (letters.table.lower ('|' :: '|' :: rest)) = letters.table.lower rest
    rw [CaseTable.lower_cons_uncased pipe, CaseTable.lower_cons_uncased pipe, withoutPipes]
  · rw [withoutPipes_of_not begins, withoutPipes_of_not ((pipes_lower text).not.mpr begins)]

/-! ## The comment and lower case -/

theorem plain_lowered {prior : Bool} {c d : Char} {rest : List Char}
    (solid : Python.isSpace c = false) (notMark : isCommentMark c = false)
    (member : d ∈ letters.table.lowered prior c rest) :
    Python.isSpace d = false ∧ isCommentMark d = false := by
  constructor
  · by_contra isBlank
    have blank : Python.isSpace d = true := by simpa using isBlank
    have same := CaseTable.eq_of_mem_lowered (inert_blank blank) member
    exact isBlank (same ▸ solid)
  · by_contra isMark
    have mark : isCommentMark d = true := by simpa using isMark
    have same := CaseTable.eq_of_mem_lowered (inert_mark mark) member
    exact isMark (same ▸ notMark)

theorem isComment_lower (text : List Char) :
    isComment (letters.table.lower text) = isComment text := by
  have newline : letters.table.Inert '\n' := inert_blank (by decide)
  induction text with
  | nil => rfl
  | cons c rest ih =>
      cases blank : Python.isSpace c with
      | true => rw [CaseTable.lower_cons_uncased (letters.blank c blank).1, isComment_blank blank,
          isComment_blank blank, ih]
      | false =>
          cases mark : isCommentMark c with
          | true =>
              have later := @CaseTable.mem_lower_iff letters.table _ newline rest
              simp only [CaseTable.lower_cons_uncased (separates_mark mark).1,
                isComment_solid blank, later]
          | false =>
              rw [isComment_solid blank, mark, CaseTable.lower, CaseTable.lowerFrom]
              cases first : letters.table.lowered false c rest with
              | nil => exact absurd first (CaseTable.lowered_ne_nil false c rest)
              | cons d later =>
                  have member : d ∈ letters.table.lowered false c rest := first ▸ List.mem_cons_self
                  obtain ⟨solid, notMark⟩ := plain_lowered blank mark member
                  rw [List.cons_append, isComment_solid solid, notMark]
                  rfl

theorem separates {c : Char} (either : Python.isSpace c = true ∨ isCommentMark c = true) :
    letters.table.cased c = false ∧ letters.table.ignorable c = false :=
  either.elim (letters.blank c) separates_mark

/-- A comment begins at a separator, so the letters before it do not see it go. -/
theorem ahead_withoutComment (text : List Char) :
    letters.table.ahead (withoutComment text) = letters.table.ahead text := by
  induction text with
  | nil => rfl
  | cons c rest ih =>
      rw [withoutComment]
      cases comment : isComment (c :: rest) with
      | true =>
          have either : Python.isSpace c = true ∨ isCommentMark c = true := by
            cases blank : Python.isSpace c with
            | true => exact Or.inl rfl
            | false =>
                rw [isComment_solid blank, Bool.and_eq_true] at comment
                exact Or.inr comment.1
          obtain ⟨plain, solid⟩ := letters.separates either
          exact (CaseTable.ahead_append_separator plain solid [] rest).symm
      | false =>
          rw [if_neg Bool.false_ne_true]
          cases skip : letters.table.ignorable c
          · simp [CaseTable.ahead, skip]
          · simpa [CaseTable.ahead, skip] using ih

theorem withoutComment_lowerFrom (prior : Bool) (text : List Char) :
    withoutComment (letters.table.lowerFrom prior text) =
      letters.table.lowerFrom prior (withoutComment text) := by
  induction text generalizing prior with
  | nil => rfl
  | cons c rest ih =>
      by_cases either : Python.isSpace c = true ∨ isCommentMark c = true
      · obtain ⟨plain, solid⟩ := letters.separates either
        have whole := CaseTable.lowerFrom_append_separator plain solid prior [] rest
        have kept := CaseTable.lowerFrom_append_separator plain solid prior [] (withoutComment rest)
        have same := @isComment_lower letters (c :: rest)
        rw [CaseTable.lower_cons_uncased plain] at same
        simp only [List.nil_append, CaseTable.lowerFrom.eq_1] at whole kept
        rw [whole, withoutComment, withoutComment, same]
        split
        · rfl
        · rw [kept, CaseTable.lower, ih]
          rfl
      · rw [not_or, Bool.not_eq_true, Bool.not_eq_true] at either
        have kept : isComment (c :: rest) = false := by
          rw [isComment_solid either.1, either.2]
          rfl
        have same := CaseTable.lowered_congr (letters.ahead_withoutComment rest) prior c
        rw [CaseTable.lowerFrom, withoutComment_append_plain
          fun d member => plain_lowered either.1 either.2 member, ih, withoutComment, kept,
          if_neg Bool.false_ne_true, CaseTable.lowerFrom, same]

theorem withoutComment_lower (text : List Char) : withoutComment (letters.table.lower text) =
    letters.table.lower (withoutComment text) :=
  withoutComment_lowerFrom false text

/-! ## The whole of it -/

theorem refused_lower (name : List Char) : Refused (letters.table.lower name) ↔ Refused name := by
  have space : letters.table.Inert ' ' := inert_blank (by decide)
  have tab : letters.table.Inert '\t' := inert_blank (by decide)
  have bracket : letters.table.Inert '[' := inert_ascii (by decide) (by decide)
  have slash : letters.table.Inert '/' := inert_ascii (by decide) (by decide)
  unfold Refused
  rw [CaseTable.lower_eq_nil_iff, CaseTable.mem_lower_iff space, CaseTable.mem_lower_iff tab,
    CaseTable.startsWith_lower bracket, CaseTable.mem_lower_iff slash]

end Casing

/-- An address has a slash, and no strip takes it. -/
theorem refused_of_scheme {s scheme : List Char} (slash : '/' ∈ scheme) (begins : scheme <+: s) :
    Refused ((s.dropWhile isLead).rdropWhile (· = '.')) := by
  have member : '/' ∈ s := begins.subset slash
  have left := mem_dropWhile_of_not (p := isLead) (by decide) member
  exact Or.inr (Or.inr (Or.inr (Or.inr (mem_rdropWhile_of_not (by decide) left))))

theorem checks_eq (name : List Char) :
    (if name = [] then none
      else if ' ' ∈ name ∨ '\t' ∈ name then none
      else if ['['] <+: name then none
      else if '/' ∈ name then none
      else some name) = if Refused name then none else some name := by
  by_cases refused : Refused name
  · rw [if_pos refused]
    rcases refused with empty | space | tab | bracket | slash
    · rw [if_pos empty]
    all_goals simp_all
  · rw [if_neg refused]
    simp only [Refused, not_or] at refused
    obtain ⟨empty, space, tab, bracket, slash⟩ := refused
    rw [if_neg empty, if_neg (not_or.mpr ⟨space, tab⟩), if_neg bracket, if_neg slash]

/-- The strips see through letter case: what they leave of the line is what they leave of it in
lower case. -/
theorem normalizeDomain_eq (letters : Casing) (text : List Char) :
    normalizeDomain letters.toLetterCase text =
      if Refused (bareName text) then none else some (letters.table.lower (bareName text)) := by
  have stripped : trim Python.isSpace (withoutComment (letters.lower (String.ofList
      (trim Python.isSpace text))).toList) = letters.table.lower (written text) := by
    rw [letters.toList_lower, letters.withoutComment_lower, letters.trim_lower, written]
  have cut : ((withoutPipes (letters.table.lower (written text))).dropWhile isLead).rdropWhile
      (· = '.') = letters.table.lower (bareName text) := by
    rw [letters.withoutPipes_lower, CaseTable.dropWhile_lower fun _ => Casing.inert_lead,
      CaseTable.rdropWhile_lower fun _ => Casing.inert_dot, bareName]
  have refused := letters.refused_lower (bareName text)
  have checks := checks_eq (letters.table.lower (bareName text))
  simp only [normalizeDomain, stripped]
  split
  · rename_i empty
    have nothing : bareName text = [] := by
      rw [bareName, CaseTable.lower_eq_nil_iff.mp empty]
      rfl
    exact (if_pos (Or.inl nothing)).symm
  · split
    · rename_i scheme
      have address : Refused (letters.table.lower (bareName text)) := by
        rw [← cut]
        rcases scheme with plain | secure
        · exact refused_of_scheme (by decide) plain
        · exact refused_of_scheme (by decide) secure
      exact (if_pos (refused.mp address)).symm
    · have same : (if Refused (letters.table.lower (bareName text)) then none
          else some (letters.table.lower (bareName text))) =
            if Refused (bareName text) then none else some (letters.table.lower (bareName text)) :=
        if_congr refused rfl rfl
      rw [← same, ← checks, ← cut]
      rfl

theorem bareName_of_normalizeDomain {letters : Casing} {text s : List Char}
    (named : normalizeDomain letters.toLetterCase text = some s) :
    ¬ Refused (bareName text) ∧ letters.table.lower (bareName text) = s := by
  rw [normalizeDomain_eq, Option.ite_none_left_eq_some] at named
  exact ⟨named.1, Option.some.inj named.2⟩

theorem normalizeDomain_trim (letters : Casing) (raw : List Char) :
    normalizeDomain letters.toLetterCase (trim Python.isSpace raw) =
      normalizeDomain letters.toLetterCase raw := by
  unfold normalizeDomain
  rw [trim_trim]

/-- A line of a list that is not in hosts format. -/
theorem parseLine_domains (letters : Casing) (raw : List Char) :
    parseLine letters.toLetterCase false raw =
      if ['!'] <+: trim Python.isSpace raw then none
      else normalizeDomain letters.toLetterCase raw := by
  have trimmed := normalizeDomain_trim letters raw
  by_cases empty : trim Python.isSpace raw = []
  · have nothing : normalizeDomain letters.toLetterCase [] = none := by
      rw [normalizeDomain_eq]
      exact if_pos (Or.inl rfl)
    rw [empty, nothing] at trimmed
    simp [parseLine, empty, ← trimmed]
  · simp [parseLine, empty, trimmed]

/-! ## The letters of ASCII and the sigmas -/

def basicLower (c : Char) : List Char := if c = 'Σ' then ['σ'] else [c.toLower]

def basicCased (c : Char) : Bool := c.isAlpha || c = 'Σ' || c = 'σ' || c = 'ς'

def basicIgnorable (c : Char) : Bool := c ∈ ['\'', '.', ':', '^', '\x60']

theorem isAlpha_of_toLower {c : Char} (changed : c.toLower ≠ c) :
    c.isAlpha = true ∧ c.toLower.isLower = true := by
  have upper : c.isUpper = true := by
    by_contra notUpper
    exact changed (Char.toLower_eq_of_not_isUpper notUpper)
  have alpha : c.isAlpha = true := by simp [Char.isAlpha, upper]
  exact ⟨alpha, (Char.isLower_toLower_eq_isAlpha c).trans alpha⟩

theorem mem_basicLower {c d : Char} (member : d ∈ basicLower c) :
    d = c ∨ d = 'σ' ∧ c = 'Σ' ∨ d = c.toLower ∧ c.isAlpha = true ∧ d.isLower = true := by
  unfold basicLower at member
  split at member
  · rename_i sigma
    exact Or.inr (Or.inl ⟨List.mem_singleton.mp member, sigma⟩)
  · obtain rfl := List.mem_singleton.mp member
    by_cases same : c.toLower = c
    · exact Or.inl same
    · exact Or.inr (Or.inr ⟨rfl, isAlpha_of_toLower same⟩)

theorem ne_sigma {c : Char} (small : c.toNat < 128) : c ≠ 'Σ' ∧ c ≠ 'σ' ∧ c ≠ 'ς' := by
  refine ⟨?_, ?_, ?_⟩ <;> rintro rfl <;> exact absurd small (by decide)

theorem basicLower_of_mem {c d : Char} (member : d ∈ basicLower c) : basicLower d = [d] := by
  rcases mem_basicLower member with rfl | ⟨rfl, -⟩ | ⟨rfl, -, lower⟩
  · unfold basicLower at member ⊢
    split
    · rename_i sigma
      rw [if_pos sigma, sigma] at member
      exact absurd member (by decide)
    · rename_i other
      rw [if_neg other] at member
      rw [← List.mem_singleton.mp member]
  · decide
  · have other : c.toLower ≠ 'Σ' := by
      intro same
      exact absurd (same ▸ lower) (by decide)
    rw [basicLower, if_neg other, Char.toLower_toLower_eq_toLower]

def basicTable : CaseTable where
  lowerOf := basicLower
  cased := basicCased
  ignorable := basicIgnorable
  nonempty c := by
    unfold basicLower
    split <;> exact List.cons_ne_nil _ _
  settled _ _ := basicLower_of_mem
  uncased c plain := by
    have parts : ((c.isAlpha = false ∧ c ≠ 'Σ') ∧ c ≠ 'σ') ∧ c ≠ 'ς' := by
      simpa [basicCased] using plain
    obtain ⟨⟨⟨alpha, sigma⟩, -⟩, -⟩ := parts
    have same : c.toLower = c := by
      by_contra changed
      exact absurd (isAlpha_of_toLower changed).1 (by simp [alpha])
    rw [basicLower, if_neg sigma, same]
  image c d member := by
    rcases mem_basicLower member with same | ⟨rfl, -⟩ | ⟨-, -, lower⟩
    · exact Or.inl same
    · exact Or.inr (Or.inl (by decide))
    · exact Or.inr (Or.inl (by simp [basicCased, Char.isAlpha, lower]))
  ascii c small := if_neg (ne_sigma small).1
  asciiImage c d member small := by
    rcases mem_basicLower member with same | ⟨rfl, -⟩ | ⟨-, -, lower⟩
    · exact Or.inl same
    · exact absurd small (by decide)
    · exact Or.inr lower
  asciiCased c small := by
    obtain ⟨capital, sigma, final⟩ := ne_sigma small
    simp [basicCased, capital, sigma, final]
  asciiIgnorable c small skipped := by simpa [basicIgnorable] using skipped
  sigma := by decide
  smallSigma := by decide
  finalSigma := by decide

theorem basicTable_lowered (text : String) :
    ∀ c ∈ (String.ofList (basicTable.lower text.toList)).toList,
      (basicTable.lowerOf c).headD c = c := by
  intro c member
  rw [String.toList_ofList] at member
  rw [CaseTable.settled_of_mem_lower member]
  rfl

theorem basicTable_ascii (c : Char) (small : c.toNat < 128) :
    (basicTable.lowerOf c).headD c = c.toLower := by
  rw [basicTable.ascii c small]
  rfl

theorem isAlpha_of_isSpace {c : Char} (blank : Python.isSpace c = true) : c.isAlpha = false := by
  by_contra letter
  have range : 65 ≤ c.toNat ∧ c.toNat ≤ 90 ∨ 97 ≤ c.toNat ∧ c.toNat ≤ 122 := by
    simp only [Char.isAlpha, Char.isUpper, Char.isLower, Bool.not_eq_false, Bool.or_eq_true,
      Bool.and_eq_true, decide_eq_true_eq, UInt32.le_iff_toNat_le, ge_iff_le] at letter
    exact letter
  simp only [Python.isSpace, List.mem_cons, List.not_mem_nil, or_false, decide_eq_true_eq] at blank
  omega

theorem basicTable_blank (c : Char) (blank : Python.isSpace c = true) :
    basicTable.cased c = false ∧ basicTable.ignorable c = false := by
  have other (d : Char) (solid : Python.isSpace d = false) : c ≠ d := by
    rintro rfl
    exact absurd blank (by simp [solid])
  constructor
  · show basicCased c = false
    simp [basicCased, isAlpha_of_isSpace blank, other 'Σ' (by decide), other 'σ' (by decide),
      other 'ς' (by decide)]
  · show basicIgnorable c = false
    simp [basicIgnorable, other '\'' (by decide), other '.' (by decide), other ':' (by decide),
      other '^' (by decide), other '\x60' (by decide)]

def basicCasing : Casing where
  lower text := String.ofList (basicTable.lower text.toList)
  toLower c := (basicTable.lowerOf c).headD c
  lowered := basicTable_lowered
  ascii := basicTable_ascii
  table := basicTable
  lower_eq _ := rfl
  blank := basicTable_blank

end PowerBlockade.Zones
