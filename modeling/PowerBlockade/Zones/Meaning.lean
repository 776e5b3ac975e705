import PowerBlockade.Zones.Canonical
import PowerBlockade.Blocking.Override

/-!
# What a list line blocks

The forms of a blocklist line, the names that each denotes, and the names that the records of the
rendered zone match.
-/

namespace PowerBlockade.Zones
open Lib Blocking

def isLabelChar (c : Char) : Bool := c.isLower || c.isDigit || c = '-' || c = '_'

structure Label where
  chars : List Char
  nonempty : chars ≠ []
  wellFormed : ∀ c ∈ chars, isLabelChar c = true

structure Hostname where
  first : Label
  rest : List Label

def Hostname.text (host : Hostname) : List Char :=
  host.first.chars ++ host.rest.flatMap fun label => '.' :: label.chars

/-- `d`, `||d`, `||d^`, `*.d` and `.d`. -/
inductive Form
  | plain
  | pipes
  | caret
  | star
  | dot
deriving DecidableEq

def Form.front : Form → List Char
  | .plain => []
  | .pipes | .caret => ['|', '|']
  | .star => ['*', '.']
  | .dot => ['.']

def Form.back (form : Form) : List Char := if form = .caret then ['^'] else []

def Form.coversSubdomains (form : Form) : Prop := form = .caret ∨ form = .star

/-- One line of a list: a form around some spelling of the host, perhaps with the dot of the root
behind, blanks and a comment. -/
structure ListLine (letters : Casing) where
  form : Form
  host : Hostname
  name : List Char
  cased : letters.lower (String.ofList name) = String.ofList host.text
  root : Bool
  dressing : Dressing

variable {letters : Casing}

def ListLine.kept (line : ListLine letters) : List Char := line.name ++ line.form.back

def ListLine.body (line : ListLine letters) : List Char :=
  line.form.front ++ (line.kept ++ List.replicate line.root.toNat '.')

def ListLine.text (line : ListLine letters) : List Char := line.dressing.around line.body

def ListLine.Denotes (line : ListLine letters) (name : List Char) : Prop :=
  name = line.host.text ∨
    line.form.coversSubdomains ∧ ∃ sub : Hostname, name = sub.text ++ '.' :: line.host.text

/-- Owner matching of a response policy zone. -/
def Matches (record : Record) (name : List Char) : Prop :=
  record.owner.toList = name ∨
    ∃ sub zone, sub ≠ [] ∧ record.owner.toList = '*' :: '.' :: zone ∧ name = sub ++ '.' :: zone

/-- The parser finds exactly the line's domain, and the zone rendered from it matches every name
that the line denotes. -/
def ListLine.KeepsMeaning (line : ListLine letters) (format policyName : String) (now : DateTime) :
    Prop :=
  parseBlocklistLines letters.toLetterCase [line.text] format = {String.ofList line.host.text} ∧
    ∀ name, line.Denotes name →
      ∃ record ∈ (renderRpzZone (parseBlocklistLines letters.toLetterCase [line.text] format)
        policyName now).records, Matches record name

/-! ## Host names -/

theorem isLabelChar_plain {c : Char} (label : isLabelChar c = true) (other : Char)
    (notLabel : isLabelChar other = false) : c ≠ other := by
  rintro rfl
  exact absurd label (by simp [notLabel])

theorem isLabelChar_of_isSpace {c : Char} (blank : Python.isSpace c = true) :
    isLabelChar c = false := by
  have letter := isAlpha_of_isSpace blank
  have lower : c.isLower = false := by
    by_contra isLower
    exact absurd letter (by simp [Char.isAlpha, isLower])
  have digit : c.isDigit = false := by
    by_contra isDigit
    exact absurd blank (by simp [Python.isSpace_digit (by simpa using isDigit)])
  have other : c ≠ '-' ∧ c ≠ '_' := by
    refine ⟨?_, ?_⟩ <;> rintro rfl <;> exact absurd blank (by decide)
  simp [isLabelChar, lower, digit, other]

theorem Label.getLast?_ne_dot (label : Label) (before : List Char) :
    ∀ c ∈ (before ++ label.chars).getLast?, c ≠ '.' := by
  intro c member
  rw [List.getLast?_append_of_ne_nil _ label.nonempty] at member
  have inLabel := label.wellFormed c (List.mem_of_mem_getLast? member)
  exact isLabelChar_plain inLabel '.' (by decide)

namespace Hostname
variable (host : Hostname)

theorem mem_text {c : Char} (member : c ∈ host.text) : isLabelChar c = true ∨ c = '.' := by
  rw [text, List.mem_append, List.mem_flatMap] at member
  rcases member with inFirst | ⟨label, -, inside⟩
  · exact Or.inl (host.first.wellFormed c inFirst)
  · rcases List.mem_cons.mp inside with dot | inLabel
    · exact Or.inr dot
    · exact Or.inl (label.wellFormed c inLabel)

theorem not_mem_text {c : Char} (notLabel : isLabelChar c = false) (notDot : c ≠ '.') :
    c ∉ host.text := by
  intro member
  rcases host.mem_text member with label | dot
  · exact absurd label (by simp [notLabel])
  · exact notDot dot

theorem text_ne_nil : host.text ≠ [] := List.append_ne_nil_of_left_ne_nil host.first.nonempty _

theorem head?_ne_dot : ∀ c ∈ host.text.head?, c ≠ '.' := by
  intro c member
  rw [text, List.head?_append_of_ne_nil _ host.first.nonempty] at member
  have inFirst := host.first.wellFormed c (List.mem_of_mem_head? member)
  exact isLabelChar_plain inFirst '.' (by decide)

theorem getLast?_ne_dot : ∀ c ∈ host.text.getLast?, c ≠ '.' :=
  forall_getLast?_flatMap host.rest (fun label _ => label.getLast?_ne_dot ['.'])
    (host.first.getLast?_ne_dot [])

end Hostname

/-! ## One line -/

namespace ListLine
variable (line : ListLine letters)

theorem lower_name : letters.table.lower line.name = line.host.text := by
  rw [← letters.toList_lower, line.cased, String.toList_ofList]

theorem not_mem_name {c : Char} (inert : letters.table.Inert c) (notLabel : isLabelChar c = false)
    (notDot : c ≠ '.') : c ∉ line.name := by
  rw [← CaseTable.mem_lower_iff inert, line.lower_name]
  exact line.host.not_mem_text notLabel notDot

theorem name_ne_nil : line.name ≠ [] := by
  intro empty
  have lowered := line.lower_name
  rw [empty] at lowered
  exact line.host.text_ne_nil lowered.symm

theorem forall_name {p : Char → Bool} (inert : ∀ c, p c = true → letters.table.Inert c)
    (labels : ∀ c, isLabelChar c = true → p c = false) (dot : p '.' = false) :
    ∀ c ∈ line.name, p c = false := by
  apply (CaseTable.forall_lower_iff inert).mp
  rw [line.lower_name]
  intro c member
  rcases line.host.mem_text member with label | rfl
  · exact labels c label
  · exact dot

theorem isSpace_of_mem_name : ∀ c ∈ line.name, Python.isSpace c = false := by
  refine line.forall_name (fun _ => letters.inert_blank) (fun c label => ?_) (by decide)
  by_contra isBlank
  exact absurd label (by simp [isLabelChar_of_isSpace (by simpa using isBlank)])

theorem isCommentMark_of_mem_name : ∀ c ∈ line.name, isCommentMark c = false := by
  refine line.forall_name (fun _ => letters.inert_mark) (fun c label => ?_) (by decide)
  have hash := isLabelChar_plain label '#' (by decide)
  have semicolon := isLabelChar_plain label ';' (by decide)
  simp [isCommentMark, hash, semicolon]

theorem ascii_not_mem_name {c : Char} (small : c.toNat < 128) (notLetter : c.isAlpha = false)
    (notLabel : isLabelChar c = false) (notDot : c ≠ '.') : c ∉ line.name :=
  line.not_mem_name (Casing.inert_ascii small notLetter) notLabel notDot

theorem isLead_of_head? {c : Char} (member : c ∈ line.name.head?) : isLead c = false := by
  have dot : letters.table.Inert '.' := Casing.inert_ascii (by decide) (by decide)
  by_contra other
  have lead : isLead c = true := by simpa using other
  have either : c = '*' ∨ c = '.' := by simpa [isLead] using lead
  rcases either with rfl | rfl
  · exact line.ascii_not_mem_name (by decide) (by decide) (by decide) (by decide)
      (List.mem_of_mem_head? member)
  · have begins := (CaseTable.startsWith_lower dot line.name).mpr
      (List.singleton_prefix_iff_head?_eq_some.mpr member)
    rw [line.lower_name] at begins
    exact line.host.head?_ne_dot '.' (List.singleton_prefix_iff_head?_eq_some.mp begins) rfl

theorem getLast?_name_ne_dot : ∀ c ∈ line.name.getLast?, c ≠ '.' := by
  rintro c member rfl
  obtain ⟨before, whole⟩ := List.singleton_suffix_iff_getLast?_eq_some.mpr member
  have tail : ∀ c ∈ ['.'], letters.table.cased c = false := by
    simpa using letters.table.asciiCased '.' (by decide)
  have lowered := CaseTable.lower_append_uncased tail before
  rw [whole, line.lower_name] at lowered
  have ends : '.' ∈ line.host.text.getLast? := by simp [lowered]
  exact line.host.getLast?_ne_dot '.' ends rfl

theorem mem_back {c : Char} (member : c ∈ line.form.back) : c = '^' := by
  unfold Form.back at member
  split at member
  · exact List.mem_singleton.mp member
  · exact absurd member List.not_mem_nil

theorem bare_kept : Bare line.kept := by
  have nonempty := line.name_ne_nil
  constructor
  case nonempty => exact List.append_ne_nil_of_left_ne_nil nonempty _
  case unmarked =>
    intro c member
    rcases List.mem_append.mp member with inName | behind
    · exact line.isCommentMark_of_mem_name c inName
    · rw [line.mem_back behind]
      decide
  case first =>
    intro c member
    rw [kept, List.head?_append_of_ne_nil _ nonempty] at member
    exact ⟨line.isSpace_of_mem_name c (List.mem_of_mem_head? member), line.isLead_of_head? member⟩
  case last =>
    intro c member
    rw [kept, List.getLast?_append, Option.mem_def, Option.or_eq_some_iff] at member
    rcases member with behind | ⟨-, inName⟩
    · rw [line.mem_back (List.mem_of_mem_getLast? behind)]
      decide
    · exact ⟨line.isSpace_of_mem_name c (List.mem_of_mem_getLast? inName),
        line.getLast?_name_ne_dot c inName⟩
  case noPipes =>
    intro begins
    have first : '|' ∈ line.kept.head? := by
      obtain ⟨rest, whole⟩ := begins
      simp [← whole]
    rw [kept, List.head?_append_of_ne_nil _ nonempty] at first
    exact line.ascii_not_mem_name (by decide) (by decide) (by decide) (by decide)
      (List.mem_of_mem_head? first)

theorem mem_front {c : Char} (member : c ∈ line.form.front) : c = '|' ∨ c = '*' ∨ c = '.' := by
  cases form : line.form <;> simp_all [Form.front]

theorem strip_body : (withoutPipes line.body).dropWhile isLead =
    line.kept ++ List.replicate line.root.toNat '.' := by
  have bare := line.bare_kept
  have left := bare.isLead_head (List.replicate line.root.toNat '.')
  cases form : line.form with
  | plain =>
      have dots : ∀ c ∈ List.replicate line.root.toNat '.', c = '.' :=
        fun _ => List.eq_of_mem_replicate
      have none := (pipes_append_dots line.kept dots).not.mpr bare.noPipes
      rw [body, form, Form.front, List.nil_append, withoutPipes_of_not none, left]
  | pipes | caret | star | dot =>
      rw [body, form]
      exact left

theorem bareName_text : bareName line.text = line.kept := by
  have stripped : (withoutPipes line.body).dropWhile isLead =
      [] ++ (line.kept ++ List.replicate line.root.toNat '.') := line.strip_body
  exact line.bare_kept.bareName_around (fun _ => line.mem_front) line.root.toNat line.dressing
    stripped

theorem lower_kept : letters.table.lower line.kept = line.host.text ++ line.form.back := by
  have tail : ∀ c ∈ line.form.back, letters.table.cased c = false := by
    intro c member
    rw [line.mem_back member]
    exact letters.table.asciiCased '^' (by decide)
  rw [kept, CaseTable.lower_append_uncased tail, line.lower_name]

theorem accepted : ¬ Refused line.kept := by
  have absent {c : Char} (notLabel : isLabelChar c = false) (other : c ≠ '.' ∧ c ≠ '^') :
      c ∉ line.host.text ++ line.form.back := by
    rw [List.mem_append, not_or]
    exact ⟨line.host.not_mem_text notLabel other.1, fun member => other.2 (line.mem_back member)⟩
  rw [← letters.refused_lower, line.lower_kept]
  rintro (empty | space | tab | bracket | slash)
  · exact line.host.text_ne_nil (List.append_eq_nil_iff.mp empty).1
  · exact absent (by decide) (by decide) space
  · exact absent (by decide) (by decide) tab
  · exact absent (by decide) (by decide) (bracket.subset List.mem_cons_self)
  · exact absent (by decide) (by decide) slash

theorem normalizeDomain_text : normalizeDomain letters.toLetterCase line.text =
    some (line.host.text ++ line.form.back) := by
  rw [normalizeDomain_eq, line.bareName_text, if_neg line.accepted, line.lower_kept]

theorem solid : Solid line.body := line.bare_kept.solid (fun _ => line.mem_front) line.root.toNat

theorem not_exclamation : ¬ ['!'] <+: trim Python.isSpace line.text := by
  have keptNonempty := line.bare_kept.nonempty
  have nonempty : line.body ≠ [] := by simp [body, keptNonempty]
  obtain ⟨tail, -, trimmed⟩ := line.dressing.trim_around line.solid nonempty
  rw [text, trimmed, List.singleton_prefix_iff_head?_eq_some,
    List.head?_append_of_ne_nil _ nonempty, body, List.head?_append,
    List.head?_append_of_ne_nil _ keptNonempty, kept,
    List.head?_append_of_ne_nil _ line.name_ne_nil, Option.or_eq_some_iff]
  rintro (inFront | ⟨-, inName⟩)
  · exact absurd (line.mem_front (List.mem_of_mem_head? inFront)) (by decide)
  · exact line.ascii_not_mem_name (by decide) (by decide) (by decide) (by decide)
      (List.mem_of_mem_head? inName)

theorem parse_text {format : String}
    (notHosts : letters.lower (Python.strip format) ≠ "hosts") :
    parseBlocklistLines letters.toLetterCase [line.text] format =
      {String.ofList (line.host.text ++ line.form.back)} := by
  have parsed : parseLine letters.toLetterCase false line.text =
      some (line.host.text ++ line.form.back) := by
    rw [parseLine_domains, if_neg line.not_exclamation, line.normalizeDomain_text]
  simp [parseBlocklistLines, notHosts, parsed]

end ListLine

/-! ## The records -/

/-- The record of a host matches that host and no other name: it has no wildcard. -/
theorem matches_host_iff {host : Hostname} {target : String} {name : List Char} :
    Matches ⟨String.ofList host.text, target⟩ name ↔ name = host.text := by
  unfold Matches
  rw [String.toList_ofList]
  constructor
  · rintro (same | ⟨sub, zone, -, wildcard, -⟩)
    · exact same.symm
    · have star : '*' ∈ host.text := wildcard ▸ List.mem_cons_self
      exact absurd star (host.not_mem_text (by decide) (by decide))
  · exact fun same => Or.inl same.symm

theorem records_singleton (domain policyName : String) (now : DateTime) :
    (renderRpzZone {domain} policyName now).records = [⟨domain, "."⟩] := by
  simp [renderRpzZone, zoneRecords]

/-- A name below the host. -/
def www : Hostname := ⟨⟨['w', 'w', 'w'], by decide, List.all_eq_true.mp (by decide)⟩, []⟩

theorem matched_iff {host : Hostname} {name : List Char} (policyName : String) (now : DateTime) :
    (∃ record ∈ (renderRpzZone {String.ofList host.text} policyName now).records,
      Matches record name) ↔ name = host.text := by
  rw [records_singleton]
  simp [matches_host_iff]

/-- A line keeps its meaning unless it is written with a caret behind or with a star in front. -/
theorem keepsMeaning_iff (line : ListLine letters) (format policyName : String) (now : DateTime)
    (notHosts : letters.lower (Python.strip format) ≠ "hosts") :
    line.KeepsMeaning format policyName now ↔ line.form ≠ .caret ∧ line.form ≠ .star := by
  have parsed := line.parse_text notHosts
  by_cases caret : line.form = .caret
  · refine iff_of_false (fun keeps => ?_) (fun other => other.1 caret)
    have same := congrArg String.toList (Finset.singleton_inj.mp (parsed.symm.trans keeps.1))
    simp [Form.back, caret] at same
  · have back : line.form.back = [] := if_neg caret
    rw [back, List.append_nil] at parsed
    unfold ListLine.KeepsMeaning
    simp only [parsed, matched_iff, true_and, caret, not_false_eq_true, ne_eq]
    constructor
    · intro covered star
      have same := covered (www.text ++ '.' :: line.host.text)
        (Or.inr ⟨Or.inr star, www, rfl⟩)
      have lengths := congrArg List.length same
      rw [List.length_append, List.length_cons] at lengths
      omega
    · intro notStar name denoted
      rcases denoted with same | ⟨either, -⟩
      · exact same
      · exact absurd either (not_or.mpr ⟨caret, notStar⟩)

/-! ## A line of an adblock list -/

def adsHost : Hostname where
  first := ⟨['a', 'd', 's'], by decide, List.all_eq_true.mp (by decide)⟩
  rest := [⟨['e', 'x', 'a', 'm', 'p', 'l', 'e'], by decide, List.all_eq_true.mp (by decide)⟩]

def adsLine (form : Form) : ListLine basicCasing where
  form := form
  host := adsHost
  name := "Ads.Example".toList
  cased := by decide
  root := false
  dressing := undressed

theorem caret_line_kept :
    ¬ ∀ (letters : Casing) (line : ListLine letters) (format policyName : String) (now : DateTime),
      letters.lower (Python.strip format) ≠ "hosts" → line.KeepsMeaning format policyName now := by
  intro keeps
  have adblock : basicCasing.lower (Python.strip "adblock") ≠ "hosts" := by decide
  have caret := keeps basicCasing (adsLine .caret) "adblock" "blocklist-combined" noon adblock
  rw [ListLine.KeepsMeaning, (adsLine .caret).parse_text adblock] at caret
  exact absurd (Finset.singleton_inj.mp caret.1) (by decide)

theorem keepsMeaning_iff_pipes : basicCasing.lower (Python.strip "adblock") ≠ "hosts" ∧
    ((adsLine .pipes).KeepsMeaning "adblock" "blocklist-combined" noon ↔
      (adsLine .pipes).form ≠ .caret ∧ (adsLine .pipes).form ≠ .star) :=
  ⟨by decide, keepsMeaning_iff (adsLine .pipes) "adblock" "blocklist-combined" noon (by decide)⟩

end PowerBlockade.Zones
