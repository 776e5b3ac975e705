import PowerBlockade.Processor.Prober
import PowerBlockade.Sync.Bundle
import PowerBlockade.Zones.LoadFile

/-!
# What the processor reads in a published file

Every replacement of a zone file, and the names that `loadFile` gets from it.
-/

namespace PowerBlockade.Verdict
open Lib Blocking Zones Sync

/-- One replacement of a zone file on the primary, by any of its writers. -/
inductive Publication
  | combined (sources : List (Source String)) (now : DateTime)
  | whitelist (sources : List (Source String)) (now : DateTime)
  | emergency (now : DateTime)

namespace Publication

def file : Publication → RpzName
  | combined .. | emergency _ => .combined
  | whitelist .. => .whitelist

def zone : Publication → Zone
  | combined sources now => (compileZones sources now).1
  | whitelist sources now => (compileZones sources now).2
  | emergency now => emergencyRpz now

/-- What the file is there to say. -/
def names : Publication → Finset String
  | combined sources _ => Source.effective sources
  | whitelist sources _ => (Source.collect sources (∅, ∅)).2
  | emergency _ => ∅

/-- Its names survive the format. -/
def Legible (letters : LetterCase) (publication : Publication) : Prop :=
  ∀ domain ∈ publication.names, Readable domain ∧ ∀ c ∈ domain.toList, letters.toLower c = c

end Publication

/-! ## The lines of a zone -/

def headLines (zone : Zone) : List (List Char) :=
  ["$TTL 300".toList, soaLine zone.serial, "@ IN NS localhost.".toList, ';' :: ' ' :: zone.comment.toList]

def ownerLine (record : Record) : List Char := record.owner.toList ++ '.' :: ' ' :: ("CNAME ".toList ++ record.target.toList)

theorem toList_text (zone : Zone) :
    zone.text.toList = (headLines zone ++ zone.records.map ownerLine).flatMap (· ++ ['\n']) := by
  have records : (String.join (zone.records.map
      fun record => s!"{record.owner}. CNAME {record.target}\n")).toList =
        (zone.records.map ownerLine).flatMap (· ++ ['\n']) := by
    rw [String.toList_join, List.flatMap_map, List.flatMap_map]
    apply congrArg (List.flatMap · zone.records)
    funext record
    show (record.owner ++ ". CNAME " ++ record.target ++ "\n").toList = _
    have middle : ". CNAME ".toList = '.' :: ' ' :: "CNAME ".toList := by decide
    have ends : "\n".toList = ['\n'] := by decide
    simp only [String.toList_append, middle, ends, ownerLine, List.append_assoc, List.cons_append]
  have head : (s!"$TTL 300\n@ IN SOA localhost. hostmaster.localhost. {zone.serial} 3600 600 604800 300\n").toList ++
      (s!"@ IN NS localhost.\n; {zone.comment}\n").toList = (headLines zone).flatMap (· ++ ['\n']) := by
    have before : "$TTL 300\n@ IN SOA localhost. hostmaster.localhost. ".toList =
        "$TTL 300".toList ++ '\n' :: '@' :: ' ' :: "IN SOA localhost. hostmaster.localhost. ".toList := by
      decide
    have after : " 3600 600 604800 300\n".toList = " 3600 600 604800 300".toList ++ ['\n'] := by decide
    have names : "@ IN NS localhost.\n; ".toList = "@ IN NS localhost.".toList ++ '\n' :: ';' :: [' '] := by
      decide
    have ends : "\n".toList = ['\n'] := by decide
    show ("$TTL 300\n@ IN SOA localhost. hostmaster.localhost. " ++ toString zone.serial ++
        " 3600 600 604800 300\n").toList ++ ("@ IN NS localhost.\n; " ++ zone.comment ++ "\n").toList = _
    simp only [String.toList_append, before, after, names, ends, headLines, soaLine, List.flatMap_cons,
      List.flatMap_nil, List.append_assoc, List.cons_append, List.nil_append, List.append_nil]
  unfold Zone.text
  rw [String.toList_append, String.toList_append, head, records, List.flatMap_append]

variable {letters : LetterCase}

theorem loadLine_comment (text : List Char) : loadLine letters (';' :: text) = none := by
  obtain ⟨kept, trimmed, -⟩ := @trim_cons _ isSpace ';' (by decide) text
  unfold loadLine
  rw [trimmed]
  exact if_pos (.inr (.inl (List.cons_prefix_cons.mpr ⟨rfl, List.nil_prefix⟩)))

theorem loadLine_headLines (zone : Zone) : ∀ line ∈ headLines zone, loadLine letters line = none := by
  have ttl : loadLine letters "$TTL 300".toList = none := by
    unfold loadLine
    exact if_pos (by decide)
  simp only [headLines, List.forall_mem_cons, soaLine, loadLine_apex, loadLine_comment]
  exact ⟨ttl, trivial, loadLine_apex "IN NS localhost.".toList, trivial,
    fun _ among => absurd among List.not_mem_nil⟩

/-- The first field of a record's line is its owner and the dot, whatever the record says. -/
theorem loadLine_owner {domain : String} (readable : Readable domain)
    (lowered : ∀ c ∈ domain.toList, letters.toLower c = c) (rest : List Char) :
    loadLine letters (domain.toList ++ '.' :: ' ' :: (rest ++ ['.'])) = some domain := by
  obtain ⟨nonempty, notApex, solid, notComment, notDirective⟩ := readable
  have start (text : List Char) : (domain.toList ++ text).dropWhile isSpace = domain.toList ++ text := by
    apply dropWhile_of_solid
    intro c first
    cases name : domain.toList with
    | nil => exact absurd (String.toList_eq_nil_iff.mp name) nonempty
    | cons d others =>
        rw [name] at first solid
        exact Option.some.inj first ▸ solid d List.mem_cons_self
  have trimmed : trim isSpace (domain.toList ++ '.' :: ' ' :: (rest ++ ['.'])) =
      domain.toList ++ '.' :: ' ' :: (rest ++ ['.']) := by
    have ends := trim_append_solid (by decide : isSpace '.' = false) (domain.toList ++ '.' :: ' ' :: rest)
    rw [start] at ends
    simpa using ends
  have first : (fields isSpace (domain.toList ++ '.' :: ' ' :: (rest ++ ['.']))).head? =
      some (domain.toList ++ ['.']) := by
    have dot : ('.' :: ' ' :: (rest ++ ['.'])).takeWhile (!isSpace ·) = ['.'] := by
      rw [List.takeWhile_cons_of_pos (by decide), List.takeWhile_cons_of_neg (by decide)]
    rw [head?_fields, start, if_neg (by simp), List.takeWhile_append_of_pos fun c member => by simp [solid c member],
      dot]
  obtain ⟨others, split⟩ := List.head?_eq_some_iff.mp first
  have name : domain.toList.map letters.toLower = domain.toList :=
    (List.map_congr_left lowered).trans (List.map_id _)
  have comment : ¬ [';'] <+: domain.toList ++ '.' :: ' ' :: (rest ++ ['.']) :=
    fun starts => notComment ((startsWith_append_dot (by decide) _ _).mp starts)
  have directive : ¬ ['$'] <+: domain.toList ++ '.' :: ' ' :: (rest ++ ['.']) :=
    fun starts => notDirective ((startsWith_append_dot (by decide) _ _).mp starts)
  have apex : domain.toList ≠ ['@'] := by
    intro same
    apply notApex
    rw [← String.toList_inj, same]
    rfl
  have empty : domain.toList ≠ [] := fun same => nonempty (String.toList_eq_nil_iff.mp same)
  unfold loadLine
  simp only [trimmed, split, trimDot_append_dot, name, String.ofList_toList]
  rw [if_neg (by simp [comment, directive]), if_pos ⟨empty, apex⟩]

/-! ## The whole file -/

namespace Publication
variable {publication : Publication}

theorem exists_ownerLines (publication : Publication) : ∃ rest : List Char, ('\n' ∉ rest ∧ '\r' ∉ rest) ∧
    publication.zone.records.map ownerLine =
      (publication.names.sort (· ≤ ·)).map fun domain => domain.toList ++ '.' :: ' ' :: (rest ++ ['.']) := by
  have lines {target : String} {rest : List Char} (whole : "CNAME ".toList ++ target.toList = rest ++ ['.'])
      (domains : Finset String) : (zoneRecords domains target).map ownerLine =
        (domains.sort (· ≤ ·)).map fun domain => domain.toList ++ '.' :: ' ' :: (rest ++ ['.']) := by
    rw [zoneRecords, List.map_map]
    apply List.map_congr_left
    intro domain _
    show domain.toList ++ '.' :: ' ' :: ("CNAME ".toList ++ target.toList) = _
    rw [whole]
  cases publication with
  | combined sources now => exact ⟨"CNAME ".toList, by decide, lines (by decide) _⟩
  | whitelist sources now => exact ⟨"CNAME rpz-passthru".toList, by decide, lines (by decide) _⟩
  | emergency now => exact ⟨[], by decide, by simp [zone, names, emergencyRpz]⟩

theorem comment_plain (publication : Publication) :
    '\n' ∉ publication.zone.comment.toList ∧ '\r' ∉ publication.zone.comment.toList := by
  cases publication with
  | combined sources now =>
      show '\n' ∉ ("policy: " ++ "blocklist-combined").toList ∧ '\r' ∉ ("policy: " ++ "blocklist-combined").toList
      decide
  | whitelist sources now =>
      show '\n' ∉ "whitelist (rpz-passthru)".toList ∧ '\r' ∉ "whitelist (rpz-passthru)".toList
      decide
  | emergency now =>
      show '\n' ∉ "BLOCKING DISABLED - emergency mode".toList ∧
        '\r' ∉ "BLOCKING DISABLED - emergency mode".toList
      decide

theorem toString_plain {other : Char} (notDigit : other.isDigit = false) (notMinus : other ≠ '-') (n : Int) :
    other ∉ (toString n).toList := by
  have digits (m : Nat) : other ∉ m.repr.toList := by
    intro member
    rw [Nat.toList_repr] at member
    exact absurd (Nat.isDigit_of_mem_toDigits (by decide) (by decide) member) (by simp [notDigit])
  cases n with
  | ofNat m => exact digits m
  | negSucc m =>
      show other ∉ ("-" ++ (m + 1).repr).toList
      rw [String.toList_append, List.mem_append, not_or]
      exact ⟨by simpa using notMinus, digits (m + 1)⟩

/-- No line of a published file has a line end of any system in it. -/
theorem Legible.lines_plain (legible : publication.Legible letters) :
    ∀ line ∈ headLines publication.zone ++ publication.zone.records.map ownerLine, '\n' ∉ line ∧ '\r' ∉ line := by
  obtain ⟨rest, plain, lines⟩ := publication.exists_ownerLines
  intro line listed
  rcases List.mem_append.mp listed with inHead | inRecords
  · have comment := publication.comment_plain
    have newline : '\n' ∉ (toString publication.zone.serial).toList := toString_plain (by decide) (by decide) _
    have carriage : '\r' ∉ (toString publication.zone.serial).toList := toString_plain (by decide) (by decide) _
    have before : '\n' ∉ '@' :: ' ' :: "IN SOA localhost. hostmaster.localhost. ".toList ∧
        '\r' ∉ '@' :: ' ' :: "IN SOA localhost. hostmaster.localhost. ".toList := by decide
    have after : '\n' ∉ " 3600 600 604800 300".toList ∧ '\r' ∉ " 3600 600 604800 300".toList := by decide
    simp only [headLines, List.mem_cons, List.not_mem_nil, or_false] at inHead
    rcases inHead with rfl | rfl | rfl | rfl
    · decide
    · simp only [soaLine, ← List.cons_append, List.mem_append, not_or]
      exact ⟨⟨⟨before.1, newline⟩, after.1⟩, ⟨before.2, carriage⟩, after.2⟩
    · decide
    · simpa using comment
  · rw [lines, List.mem_map] at inRecords
    obtain ⟨domain, sorted, rfl⟩ := inRecords
    have solid := (legible domain (by simpa using sorted)).1.2.2.1
    have newline : '\n' ∉ domain.toList := fun inName => absurd (solid _ inName) (by decide)
    have carriage : '\r' ∉ domain.toList := fun inName => absurd (solid _ inName) (by decide)
    simp [newline, carriage, plain]

theorem Legible.splitOn_text (legible : publication.Legible letters) :
    publication.zone.text.toList.splitOn '\n' =
      headLines publication.zone ++ publication.zone.records.map ownerLine ++ [[]] := by
  have cut := splitOn_lines (fun line listed => (legible.lines_plain line listed).1) []
  rwa [List.append_nil, ← toList_text, List.splitOn_nil] at cut

/-- `loadFile` gets the names of a legible publication, and nothing else. -/
theorem Legible.loadFile_text (legible : publication.Legible letters) :
    loadFile letters publication.zone.text = publication.names := by
  obtain ⟨rest, -, lines⟩ := publication.exists_ownerLines
  have head : (headLines publication.zone).filterMap (loadLine letters) = [] :=
    List.filterMap_eq_nil_iff.mpr (loadLine_headLines publication.zone)
  have read : (publication.zone.records.map ownerLine).filterMap (loadLine letters) =
      publication.names.sort (· ≤ ·) := by
    rw [lines, List.filterMap_map]
    refine (List.filterMap_congr ?_).trans List.filterMap_some
    intro domain sorted
    have member : domain ∈ publication.names := by simpa using sorted
    exact loadLine_owner (legible domain member).1 (legible domain member).2 rest
  rw [loadFile, legible.splitOn_text, List.filterMap_append, List.filterMap_append, head, read]
  simp [loadLine, trim]

/-! ## On its way to a secondary -/

def bytes (publication : Publication) : Bytes := encode publication.zone.text

theorem Legible.readText_bytes (legible : publication.Legible letters) :
    readText publication.bytes = some publication.zone.text := by
  have plain : '\r' ∉ publication.zone.text.toList := by
    rw [toList_text, List.mem_flatMap]
    rintro ⟨line, listed, member⟩
    rcases List.mem_append.mp member with inLine | ends
    · exact (legible.lines_plain line listed).2 inLine
    · exact absurd ends (by decide)
  rw [readText, bytes, decode_encode, Option.map_some, Python.universalNewlines_eq_self plain, String.ofList_toList]

theorem text_ne_empty (publication : Publication) : publication.zone.text ≠ "" := by
  rw [← String.toList_eq_nil_iff.ne, toList_text]
  simp [headLines]

end Publication

end PowerBlockade.Verdict
