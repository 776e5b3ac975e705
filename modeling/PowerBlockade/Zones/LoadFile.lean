import Mathlib
import PowerBlockade.Blocking.Override
import PowerBlockade.Processor.Dnstap
import PowerBlockade.Zones.Normalize

/-!
# Reading a published zone back

`loadFile` of the dnstap processor on the text that `render_rpz_zone` wrote.
-/

namespace PowerBlockade.Zones
open Lib Blocking

/-- `unicode.IsSpace`: Python's blanks without the four information separators. -/
def isSpace (c : Char) : Bool := Python.isSpace c && !(decide (28 ≤ c.toNat) && decide (c.toNat ≤ 31))

variable (letters : LetterCase)

def loadLine (line : List Char) : Option String :=
  let line := trim isSpace line
  if line = [] ∨ [';'] <+: line ∨ ['$'] <+: line then none
  else match fields isSpace line with
    | [] => none
    | part :: _ =>
        let d := (Processor.trimDot (String.ofList part)).toList.map letters.toLower
        if d ≠ [] ∧ d ≠ ['@'] then some (String.ofList d) else none

def loadFile (text : String) : Finset String :=
  ((text.toList.splitOn '\n').filterMap (loadLine letters)).toFinset

def combinedZone (domains : Finset String) (now : DateTime) : Zone :=
  renderRpzZone domains "blocklist-combined" now

/-- The set comes back, and of the lines, every domain's is read as that name and no other is read
at all: not the four of the header, not the empty one after the last. -/
def RoundTrips (domains : Finset String) (now : DateTime) : Prop :=
  loadFile letters (combinedZone domains now).text = domains ∧
    ((combinedZone domains now).text.toList.splitOn '\n').map (loadLine letters) =
      List.replicate 4 none ++ (combinedZone domains now).records.map (some ·.owner) ++ [none]

/-- What survives the format: a name, not the apex, that reads neither as a comment nor as a
directive nor as two fields. -/
def Readable (domain : String) : Prop :=
  domain ≠ "" ∧ domain ≠ "@" ∧ (∀ c ∈ domain.toList, isSpace c = false) ∧
    ¬ [';'] <+: domain.toList ∧ ¬ ['$'] <+: domain.toList

/-! ## One record line -/

def recordLine (domain : String) : List Char := domain.toList ++ ". CNAME .".toList

variable {letters}

theorem trim_recordLine (domain : String) :
    trim isSpace (recordLine domain) =
      domain.toList.dropWhile isSpace ++ ". CNAME .".toList := by
  have split : recordLine domain = (domain.toList ++ ". CNAME ".toList) ++ ['.'] := by
    simp [recordLine]
  have whole : ". CNAME ".toList = '.' :: " CNAME ".toList := by decide
  rw [split, trim_append_solid (by decide), whole, dropWhile_append_solid (by decide)]
  simp

theorem trimDot_append_dot (text : List Char) :
    Processor.trimDot (String.ofList (text ++ ['.'])) = String.ofList text := by
  simp [Processor.trimDot]

theorem length_trimDot_le (name : String) : (Processor.trimDot name).length ≤ name.length := by
  unfold Processor.trimDot
  split
  · rename_i rest reversed
    have lengths := congrArg List.length reversed
    rw [List.length_reverse, List.length_cons, String.length_toList] at lengths
    rw [String.length_ofList, List.length_reverse]
    omega
  · exact le_rfl

/-- Up to the first blank after the leading ones: the rest of the domain and its dot, or less. -/
theorem head?_fields_recordLine {text : List Char} (start : text.dropWhile isSpace = text) :
    (fields isSpace (text ++ ". CNAME .".toList)).head? =
      some (if ∀ c ∈ text, isSpace c = false then text ++ ['.']
        else text.takeWhile (!isSpace ·)) := by
  have whole : ". CNAME .".toList = '.' :: " CNAME .".toList := by decide
  have dot : (". CNAME .".toList).takeWhile (!isSpace ·) = ['.'] := by decide
  rw [head?_fields, whole, dropWhile_append_solid (by decide), start, ← whole, if_neg (by simp),
    List.takeWhile_append, dot]
  by_cases solid : ∀ c ∈ text, isSpace c = false
  · have all : text.takeWhile (!isSpace ·) = text :=
      List.takeWhile_eq_self_iff.mpr fun c member => by simp [solid c member]
    rw [if_pos solid, if_pos (by rw [all])]
  · rw [if_neg solid, if_neg (length_takeWhile_lt solid).ne]

theorem fields_recordLine (domain : String) :
    ∃ rest, fields isSpace (trim isSpace (recordLine domain)) =
      (if ∀ c ∈ domain.toList.dropWhile isSpace, isSpace c = false
        then domain.toList.dropWhile isSpace ++ ['.']
        else (domain.toList.dropWhile isSpace).takeWhile (!isSpace ·)) :: rest := by
  rw [trim_recordLine]
  apply List.head?_eq_some_iff.mp
  exact head?_fields_recordLine (List.dropWhile_idempotent isSpace domain.toList)

theorem loadLine_of_fields {line part : List Char} {rest : List (List Char)} {d : String}
    (split : fields isSpace (trim isSpace line) = part :: rest)
    (read : loadLine letters line = some d) :
    d.toList = (Processor.trimDot (String.ofList part)).toList.map letters.toLower := by
  unfold loadLine at read
  simp only [split, Option.ite_none_left_eq_some, Option.ite_none_right_eq_some,
    Option.some.injEq] at read
  obtain ⟨-, -, rfl⟩ := read
  rw [String.toList_ofList]

theorem solid_of_loadLine {domain : String}
    (read : loadLine letters (recordLine domain) = some domain) :
    ∀ c ∈ domain.toList, isSpace c = false := by
  obtain ⟨rest, split⟩ := fields_recordLine domain
  have owner := congrArg List.length (loadLine_of_fields split read)
  have suffix := List.dropWhile_suffix isSpace (l := domain.toList)
  rw [List.length_map] at owner
  by_cases solid : ∀ c ∈ domain.toList.dropWhile isSpace, isSpace c = false
  · rw [if_pos solid, trimDot_append_dot, String.toList_ofList] at owner
    rwa [suffix.eq_of_length owner.symm] at solid
  · have shorter := length_takeWhile_lt solid
    have kept := suffix.length_le
    have trimmed := length_trimDot_le
      (String.ofList ((domain.toList.dropWhile isSpace).takeWhile (!isSpace ·)))
    rw [if_neg solid, String.length_toList, String.length_toList] at owner
    rw [String.length_ofList] at trimmed
    rw [String.length_toList] at kept
    omega

theorem startsWith_append_dot {c : Char} (other : c ≠ '.') (text rest : List Char) :
    [c] <+: text ++ '.' :: rest ↔ [c] <+: text := by
  cases text with
  | nil => simp [List.cons_prefix_cons, other]
  | cons d text => simp [List.cons_prefix_cons]

theorem loadLine_recordLine {domain : String} (solid : ∀ c ∈ domain.toList, isSpace c = false)
    (lowered : ∀ c ∈ domain.toList, letters.toLower c = c) :
    loadLine letters (recordLine domain) =
      if [';'] <+: domain.toList ∨ ['$'] <+: domain.toList then none
      else if domain.toList ≠ [] ∧ domain.toList ≠ ['@'] then some domain else none := by
  have start : domain.toList.dropWhile isSpace = domain.toList :=
    List.dropWhile_eq_self_iff.mpr fun nonempty => by simp [solid _ (List.getElem_mem nonempty)]
  have whole : ". CNAME .".toList = '.' :: " CNAME .".toList := by decide
  obtain ⟨rest, split⟩ := fields_recordLine domain
  rw [start, if_pos solid] at split
  have name : domain.toList.map letters.toLower = domain.toList :=
    (List.map_congr_left lowered).trans (List.map_id _)
  have trimmed := trim_recordLine domain
  rw [start, whole] at trimmed
  have notEmpty : trim isSpace (recordLine domain) ≠ [] := by simp [trimmed]
  have comment : [';'] <+: trim isSpace (recordLine domain) ↔ [';'] <+: domain.toList := by
    rw [trimmed, startsWith_append_dot (by decide)]
  have directive : ['$'] <+: trim isSpace (recordLine domain) ↔ ['$'] <+: domain.toList := by
    rw [trimmed, startsWith_append_dot (by decide)]
  simp only [loadLine, split, trimDot_append_dot, name, String.ofList_toList,
    notEmpty, comment, directive, false_or]

theorem loadLine_recordLine_iff {domain : String}
    (lowered : ∀ c ∈ domain.toList, letters.toLower c = c) :
    loadLine letters (recordLine domain) = some domain ↔ Readable domain := by
  have empty : domain.toList ≠ [] ↔ domain ≠ "" := by simp
  have apex : domain.toList ≠ ['@'] ↔ domain ≠ "@" := by
    rw [← String.toList_inj.ne]
    rfl
  constructor
  · intro read
    have solid := solid_of_loadLine read
    rw [loadLine_recordLine solid lowered, Option.ite_none_left_eq_some,
      Option.ite_none_right_eq_some, not_or] at read
    exact ⟨empty.mp read.2.1.1, apex.mp read.2.1.2, solid, read.1⟩
  · rintro ⟨nonempty, notApex, solid, notComment, notDirective⟩
    rw [loadLine_recordLine solid lowered, if_neg (not_or.mpr ⟨notComment, notDirective⟩),
      if_pos ⟨empty.mpr nonempty, apex.mpr notApex⟩]

/-! ## The text -/

def soaLine (serial : Int) : List Char :=
  '@' :: ' ' :: ("IN SOA localhost. hostmaster.localhost. ".toList ++ (toString serial).toList ++
    " 3600 600 604800 300".toList)

def header (serial : Int) : List (List Char) :=
  ["$TTL 300".toList, soaLine serial, "@ IN NS localhost.".toList,
    "; policy: blocklist-combined".toList]

theorem toList_header (serial : Int) {comment : String}
    (named : comment = "policy: " ++ "blocklist-combined") :
    (s!"$TTL 300\n@ IN SOA localhost. hostmaster.localhost. {serial} 3600 600 604800 300\n").toList ++
        (s!"@ IN NS localhost.\n; {comment}\n").toList =
      (header serial).flatMap (· ++ ['\n']) := by
  subst named
  rw [String.toList_append, String.toList_append, String.toList_append, String.toList_append]
  have before : (toString "$TTL 300\n@ IN SOA localhost. hostmaster.localhost. ").toList =
      "$TTL 300".toList ++ '\n' :: '@' :: ' ' :: "IN SOA localhost. hostmaster.localhost. ".toList := by
    decide
  have after : (toString " 3600 600 604800 300\n").toList =
      " 3600 600 604800 300".toList ++ ['\n'] := by decide
  have names : (toString "@ IN NS localhost.\n; ").toList ++
        (toString ("policy: " ++ "blocklist-combined")).toList ++ (toString "\n").toList =
      "@ IN NS localhost.".toList ++ '\n' :: ("; policy: blocklist-combined".toList ++ ['\n']) := by
    decide
  rw [before, after, names]
  simp only [header, soaLine, List.flatMap_cons, List.flatMap_nil, List.append_assoc,
    List.cons_append, List.nil_append, List.append_nil]

theorem toList_records (domains : List String) :
    (String.join ((domains.map (Record.mk · ".")).map
        fun record => s!"{record.owner}. CNAME {record.target}\n")).toList =
      domains.flatMap fun domain => recordLine domain ++ ['\n'] := by
  rw [String.toList_join, List.map_map, List.flatMap_map]
  apply congrArg (List.flatMap · domains)
  funext domain
  have tail : ". CNAME .\n".toList = ". CNAME .".toList ++ ['\n'] := by decide
  show (domain ++ ". CNAME " ++ "." ++ "\n").toList = _
  rw [String.append_assoc, String.append_assoc, String.toList_append]
  rw [recordLine, List.append_assoc, ← tail]
  rfl

theorem text_combinedZone (domains : Finset String) (now : DateTime) :
    (combinedZone domains now).text.toList =
      ((header (unixSeconds now)).flatMap (· ++ ['\n'])) ++
        (domains.sort (· ≤ ·)).flatMap fun domain => recordLine domain ++ ['\n'] := by
  rw [← toList_header _ rfl, ← toList_records]
  unfold combinedZone renderRpzZone Zone.text
  rw [String.toList_append, String.toList_append]
  rfl

theorem toString_oneLine (n : Int) : '\n' ∉ (toString n).toList := by
  have digits (m : Nat) : '\n' ∉ m.repr.toList := by
    intro member
    rw [Nat.toList_repr] at member
    exact absurd (Nat.isDigit_of_mem_toDigits (by decide) (by decide) member) (by decide)
  cases n with
  | ofNat m => exact digits m
  | negSucc m =>
      show '\n' ∉ ("-" ++ (m + 1).repr).toList
      rw [String.toList_append, List.mem_append, not_or]
      exact ⟨by decide, digits (m + 1)⟩

theorem header_oneLine (serial : Int) : ∀ line ∈ header serial, '\n' ∉ line := by
  have soa : '\n' ∉ soaLine serial := by
    simp only [soaLine, List.mem_cons, List.mem_append, not_or]
    exact ⟨by decide, by decide, ⟨by decide, toString_oneLine serial⟩, by decide⟩
  simp only [header, List.forall_mem_cons]
  exact ⟨by decide, soa, by decide, by decide, fun _ member => nomatch member⟩

theorem loadLine_apex (text : List Char) : loadLine letters ('@' :: ' ' :: text) = none := by
  obtain ⟨kept, trimmed, shorter⟩ := @trim_cons _ isSpace '@' (by decide) (' ' :: text)
  have first : (fields isSpace ('@' :: kept)).head? = some ['@'] := by
    rw [head?_fields, List.dropWhile_cons_of_neg (by decide), if_neg (by simp),
      List.takeWhile_cons_of_pos (by decide)]
    cases kept with
    | nil => rfl
    | cons c kept =>
        rw [List.cons_prefix_cons] at shorter
        rw [shorter.1, List.takeWhile_cons_of_neg (by decide)]
  obtain ⟨rest, split⟩ := List.head?_eq_some_iff.mp first
  have apex : (Processor.trimDot (String.ofList ['@'])).toList.map letters.toLower = ['@'] := by
    show [letters.toLower '@'] = ['@']
    rw [letters.ascii '@' (by decide)]
    rfl
  simp only [loadLine, trimmed, split, apex]
  simp

theorem loadLine_header (serial : Int) :
    (header serial).map (loadLine letters) = List.replicate 4 none := by
  have ttl : loadLine letters "$TTL 300".toList = none := by
    unfold loadLine
    exact if_pos (by decide)
  have policy : loadLine letters "; policy: blocklist-combined".toList = none := by
    unfold loadLine
    exact if_pos (by decide)
  have ns : loadLine letters "@ IN NS localhost.".toList = none :=
    loadLine_apex "IN NS localhost.".toList
  simp only [header, List.map_cons, List.map_nil, ttl, ns, policy, soaLine, loadLine_apex]
  rfl

/-! ## The round trip -/

theorem loadLine_text (domains : Finset String) (now : DateTime) :
    ((combinedZone domains now).text.toList.splitOn '\n').map (loadLine letters) =
      List.replicate 4 none ++ ((domains.sort (· ≤ ·)).flatMap fun domain =>
        ((recordLine domain).splitOn '\n').map (loadLine letters)) ++ [none] := by
  have records := splitOn_lines_append '\n' recordLine (domains.sort (· ≤ ·)) []
  rw [List.append_nil, List.splitOn_nil] at records
  rw [text_combinedZone, splitOn_lines (header_oneLine (unixSeconds now)), records, List.map_append, List.map_append,
    loadLine_header, List.map_flatMap, List.append_assoc]
  rfl

theorem loadLine_recordLine_alone {domain : String}
    (lowered : ∀ c ∈ domain.toList, letters.toLower c = c) :
    ((recordLine domain).splitOn '\n').map (loadLine letters) = [some domain] ↔
      Readable domain := by
  constructor
  · intro alone
    obtain ⟨line, lines, read⟩ := List.map_eq_singleton_iff.mp alone
    have joined := (recordLine domain).intercalate_splitOn '\n'
    rw [lines] at joined
    apply (loadLine_recordLine_iff lowered).mp
    rw [← joined]
    simpa using read
  · intro readable
    have oneLine : '\n' ∉ recordLine domain := by
      rw [recordLine, List.mem_append, not_or]
      refine ⟨fun member => ?_, by decide⟩
      have solid := readable.2.2.1 _ member
      exact absurd solid (by decide)
    rw [List.splitOn_eq_singleton oneLine, List.map_singleton,
      (loadLine_recordLine_iff lowered).mpr readable]

variable {domains : Finset String} {now : DateTime}

theorem owners_combinedZone : (combinedZone domains now).records.map (some ·.owner) =
    (domains.sort (· ≤ ·)).map some := by
  simp [combinedZone, renderRpzZone, zoneRecords, Function.comp_def]

theorem readable_of_roundTrips (reaches : ∀ domain ∈ domains, Reaches letters domain)
    (trips : RoundTrips letters domains now) : ∀ domain ∈ domains, Readable domain := by
  have lines := trips.2
  rw [loadLine_text, owners_combinedZone] at lines
  have records := List.append_cancel_left (List.append_cancel_right lines)
  intro domain member
  apply (loadLine_recordLine_alone (reaches domain member).lowered).mp
  refine flatMap_eq_map (fun domain _ => ?_) records domain (by simpa using member)
  simp

theorem roundTrips_of_readable (reaches : ∀ domain ∈ domains, Reaches letters domain)
    (readable : ∀ domain ∈ domains, Readable domain) : RoundTrips letters domains now := by
  have records : ((domains.sort (· ≤ ·)).flatMap fun domain =>
      ((recordLine domain).splitOn '\n').map (loadLine letters)) =
        (domains.sort (· ≤ ·)).map some := by
    rw [List.map_eq_flatMap]
    apply List.flatMap_congr
    intro domain sorted
    have member : domain ∈ domains := by simpa using sorted
    exact (loadLine_recordLine_alone (reaches domain member).lowered).mpr (readable domain member)
  have lines := @loadLine_text letters domains now
  rw [records] at lines
  have read := congrArg (List.filterMap id) lines
  rw [List.filterMap_map, Function.id_comp] at read
  refine ⟨?_, owners_combinedZone ▸ lines⟩
  rw [loadFile, read]
  simp

/-- What is written is read back exactly when every name in it is readable. -/
theorem roundTrips_iff (letters : LetterCase) (domains : Finset String) (now : DateTime)
    (reaches : ∀ domain ∈ domains, Reaches letters domain) :
    RoundTrips letters domains now ↔ ∀ domain ∈ domains, Readable domain :=
  ⟨readable_of_roundTrips reaches, roundTrips_of_readable reaches⟩

/-! ## A list line that becomes a directive -/

def asciiCase : LetterCase where
  lower := Python.lower
  toLower := Char.toLower
  lowered text c member := by
    rw [Python.lower, String.toList_ofList, List.mem_map] at member
    obtain ⟨d, -, rfl⟩ := member
    exact Char.toLower_toLower_eq_toLower d
  ascii _ _ := rfl

theorem reaches_dollar : ∀ domain ∈ ({"$ads"} : Finset String), Reaches asciiCase domain := by
  intro domain member
  rw [Finset.mem_singleton.mp member]
  exact @Reaches.downloaded _ "$ads\n" "domains" _ (by decide)

theorem dollar_not_read :
    ¬ ∀ (letters : LetterCase) (domains : Finset String) (now : DateTime),
      (∀ domain ∈ domains, Reaches letters domain) → RoundTrips letters domains now := by
  intro trips
  have readable := readable_of_roundTrips reaches_dollar
    (trips asciiCase {"$ads"} noon reaches_dollar)
  have directive := (readable "$ads" (Finset.mem_singleton_self _)).2.2.2.2
  exact directive (by decide)

theorem roundTrips_iff_dollar :
    (∀ domain ∈ ({"$ads"} : Finset String), Reaches asciiCase domain) ∧
      (RoundTrips asciiCase {"$ads"} noon ↔
        ∀ domain ∈ ({"$ads"} : Finset String), Readable domain) :=
  ⟨reaches_dollar, roundTrips_iff asciiCase {"$ads"} noon reaches_dollar⟩

end PowerBlockade.Zones
