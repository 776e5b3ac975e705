import PowerBlockade.Zones.Dressing

/-!
# Lists in hosts format

An address and its host names: what the parser takes of a line, and when that is all of it.
-/

namespace PowerBlockade.Zones
open Lib

/-- A word of a hosts file. -/
structure Field where
  chars : List Char
  nonempty : chars ≠ []
  unspaced : ∀ c ∈ chars, Python.isSpace c = false
  unmarked : ∀ c ∈ chars, isCommentMark c = false

/-- A host name and the blanks before it. -/
structure HostField extends Field where
  gap : List Char
  apart : gap ≠ []
  blanks : ∀ c ∈ gap, Python.isSpace c = true

structure HostsEntry where
  address : Field
  notRemark : ¬ ['!'] <+: address.chars
  host : HostField
  aliases : List HostField
  dressing : Dressing

inductive HostsLine
  | named (entry : HostsEntry)
  | remark (dressing : Dressing)

namespace HostsEntry
variable (entry : HostsEntry)

def hosts : List HostField := entry.host :: entry.aliases

def body : List Char :=
  entry.address.chars ++ entry.hosts.flatMap fun host => host.gap ++ host.chars

end HostsEntry

namespace HostsLine

def text : HostsLine → List Char
  | .named entry => entry.dressing.around entry.body
  | .remark dressing => dressing.around []

/-- The name behind the address. -/
def first? : HostsLine → Option (List Char)
  | .named entry => some entry.host.chars
  | .remark _ => none

def aliases : HostsLine → List (List Char)
  | .named entry => entry.aliases.map (·.chars)
  | .remark _ => []

def names (line : HostsLine) : List (List Char) := line.first?.toList ++ line.aliases

end HostsLine

variable (letters : LetterCase)

/-- What a hosts file names: every host field of every line, in normal form. -/
def hostNames (lines : List HostsLine) : Finset String :=
  (((lines.flatMap HostsLine.names).filterMap (normalizeDomain letters)).map String.ofList).toFinset

/-- Every name behind the first of its line is no domain, or is the first of some line. -/
def AliasesCovered (lines : List HostsLine) : Prop :=
  ∀ line ∈ lines, ∀ name ∈ line.aliases, ∀ d, normalizeDomain letters name = some d →
    ∃ other ∈ lines, ∃ first ∈ other.first?, normalizeDomain letters first = some d

variable {letters}

/-! ## One line -/

namespace HostsEntry
variable (entry : HostsEntry)

theorem body_ne_nil : entry.body ≠ [] :=
  List.append_ne_nil_of_left_ne_nil entry.address.nonempty _

theorem solid : Solid entry.body := by
  constructor
  case first =>
    intro c member
    rw [body, List.head?_append_of_ne_nil _ entry.address.nonempty] at member
    exact entry.address.unspaced c (List.mem_of_mem_head? member)
  case last =>
    apply forall_getLast?_flatMap
    · intro host _ c member
      rw [List.getLast?_append_of_ne_nil _ host.nonempty] at member
      exact host.unspaced c (List.mem_of_mem_getLast? member)
    · exact fun c member => entry.address.unspaced c (List.mem_of_mem_getLast? member)
  case unmarked =>
    intro c member
    rw [body, List.mem_append, List.mem_flatMap] at member
    rcases member with inAddress | ⟨host, -, inside⟩
    · exact entry.address.unmarked c inAddress
    · rcases List.mem_append.mp inside with inGap | inName
      · by_contra isMark
        have blank := host.blanks c inGap
        exact absurd blank (by simp [isSpace_of_mark (by simpa using isMark)])
      · exact host.unmarked c inName

theorem fields_body : fields Python.isSpace entry.body =
    entry.address.chars :: entry.hosts.map (·.chars) :=
  fields_words (fun host _ => ⟨host.apart, host.blanks⟩)
    (fun host _ => ⟨host.nonempty, host.unspaced⟩) entry.address.unspaced entry.address.nonempty

theorem parseLine_text : parseLine letters true (HostsLine.named entry).text =
    normalizeDomain letters entry.host.chars := by
  obtain ⟨tail, -, trimmed⟩ := entry.dressing.trim_around entry.solid entry.body_ne_nil
  have cut := entry.dressing.withoutComment_around entry.solid
  have nonempty : trim Python.isSpace (entry.dressing.around entry.body) ≠ [] := by
    rw [trimmed]
    exact List.append_ne_nil_of_left_ne_nil entry.body_ne_nil _
  have notRemark : ¬ ['!'] <+: trim Python.isSpace (entry.dressing.around entry.body) := by
    rw [trimmed, List.singleton_prefix_iff_head?_eq_some,
      List.head?_append_of_ne_nil _ entry.body_ne_nil, body,
      List.head?_append_of_ne_nil _ entry.address.nonempty,
      ← List.singleton_prefix_iff_head?_eq_some]
    exact entry.notRemark
  simp only [parseLine, HostsLine.text, nonempty, notRemark, or_self, if_false, if_true, cut,
    fields_body, hosts, List.map_cons]

end HostsEntry

theorem parseLine_remark (dressing : Dressing) :
    parseLine letters true (HostsLine.remark dressing).text = none := by
  have cut := dressing.withoutComment_around_nil
  simp [parseLine, HostsLine.text, cut, fields]

/-- The parser reads the name behind the address. -/
theorem parseLine_hosts (line : HostsLine) :
    parseLine letters true line.text = line.first?.bind (normalizeDomain letters) := by
  cases line with
  | named entry => exact entry.parseLine_text
  | remark dressing => exact parseLine_remark dressing

/-! ## A whole list -/

theorem mem_ofList_filterMap {α : Type*} {f : α → Option (List Char)} {items : List α}
    {domain : String} : domain ∈ ((items.filterMap f).map String.ofList).toFinset ↔
      ∃ item ∈ items, f item = some domain.toList := by
  simp only [List.mem_toFinset, List.mem_map, List.mem_filterMap]
  constructor
  · rintro ⟨chars, ⟨item, member, found⟩, rfl⟩
    exact ⟨item, member, by rw [found, String.toList_ofList]⟩
  · rintro ⟨item, member, found⟩
    exact ⟨domain.toList, ⟨item, member, found⟩, String.ofList_toList⟩

theorem hosts_format (letters : Casing) : letters.lower (Python.strip "hosts") = "hosts" :=
  letters.lower_format (by decide) (by simp)

variable (lines : List HostsLine)

theorem mem_hostNames {domain : String} : domain ∈ hostNames letters lines ↔
    (∃ line ∈ lines, ∃ first ∈ line.first?, normalizeDomain letters first = some domain.toList) ∨
      ∃ line ∈ lines, ∃ name ∈ line.aliases,
        normalizeDomain letters name = some domain.toList := by
  rw [hostNames, mem_ofList_filterMap]
  simp only [List.mem_flatMap, HostsLine.names, List.mem_append, Option.mem_toList]
  constructor
  · rintro ⟨name, ⟨line, listed, first | behind⟩, found⟩
    · exact Or.inl ⟨line, listed, name, first, found⟩
    · exact Or.inr ⟨line, listed, name, behind, found⟩
  · rintro (⟨line, listed, name, first, found⟩ | ⟨line, listed, name, behind, found⟩)
    · exact ⟨name, ⟨line, listed, Or.inl first⟩, found⟩
    · exact ⟨name, ⟨line, listed, Or.inr behind⟩, found⟩

theorem mem_parse_hosts {letters : Casing} {domain : String} :
    domain ∈ parseBlocklistLines letters.toLetterCase (lines.map HostsLine.text) "hosts" ↔
      ∃ line ∈ lines, ∃ first ∈ line.first?,
        normalizeDomain letters.toLetterCase first = some domain.toList := by
  simp only [parseBlocklistLines, hosts_format, decide_true]
  rw [mem_ofList_filterMap]
  simp only [List.mem_map, exists_exists_and_eq_and, parseLine_hosts, Option.bind_eq_some_iff,
    Option.mem_def]

/-- The parser equals its reference exactly when no alias brings a name of its own. -/
theorem parse_hosts_iff_covered (letters : Casing) (lines : List HostsLine) :
    parseBlocklistLines letters.toLetterCase (lines.map HostsLine.text) "hosts" =
      hostNames letters.toLetterCase lines ↔ AliasesCovered letters.toLetterCase lines := by
  rw [Finset.ext_iff]
  simp only [mem_parse_hosts, mem_hostNames]
  constructor
  · intro same line listed name behind d found
    have named := (same (String.ofList d)).mpr
    rw [String.toList_ofList] at named
    exact named (Or.inr ⟨line, listed, name, behind, found⟩)
  · intro covered domain
    constructor
    · exact Or.inl
    · rintro (first | ⟨line, listed, name, behind, found⟩)
      · exact first
      · exact covered line listed name behind domain.toList found

/-! ## A line with an alias -/

def hostField (name : List Char) (nonempty : name ≠ [])
    (solid : (name.all fun c => !Python.isSpace c && !isCommentMark c) = true) : HostField where
  chars := name
  nonempty := nonempty
  unspaced c member := by simpa using (Bool.and_eq_true_iff.mp (List.all_eq_true.mp solid c member)).1
  unmarked c member := by simpa using (Bool.and_eq_true_iff.mp (List.all_eq_true.mp solid c member)).2
  gap := [' ']
  apart := by decide
  blanks := by simp [Python.isSpace]

def adsEntry : HostsEntry where
  address := (hostField "0.0.0.0".toList (by decide) (by decide)).toField
  notRemark := by decide
  host := hostField "ads".toList (by decide) (by decide)
  aliases := [hostField "www.ads".toList (by decide) (by decide)]
  dressing := undressed

theorem alias_lost : ¬ ∀ (letters : Casing) (lines : List HostsLine),
    parseBlocklistLines letters.toLetterCase (lines.map HostsLine.text) "hosts" =
      hostNames letters.toLetterCase lines := by
  intro same
  have alone := same basicCasing [.named adsEntry]
  have named : "www.ads" ∈ hostNames basicCasing.toLetterCase [.named adsEntry] := by decide
  rw [← alone] at named
  exact absurd named (by decide)

end PowerBlockade.Zones
