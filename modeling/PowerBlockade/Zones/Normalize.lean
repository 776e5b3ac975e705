import Mathlib.Data.Finset.Basic
import PowerBlockade.Lib.Fields
import PowerBlockade.Columns

/-!
# The names that reach the compiler

`parse_blocklist_lines` on a downloaded list, and the form of a manual entry.
-/

namespace PowerBlockade.Zones
open Lib

/-- Letter case beyond ASCII, as the two languages have it: `str.lower` and `unicode.ToLower`. -/
structure LetterCase where
  lower : String → String
  toLower : Char → Char
  lowered : ∀ text, ∀ c ∈ (lower text).toList, toLower c = c
  ascii : ∀ c, c.toNat < 128 → toLower c = c.toLower

/-! ## Lines of a text -/

def isLineBreak (c : Char) : Bool :=
  c.toNat ∈ [10, 11, 12, 13, 28, 29, 30, 133, 8232, 8233]

def withoutLastEmpty (lines : List (List Char)) : List (List Char) :=
  if lines.getLast? = some [] then lines.dropLast else lines

/-- `for raw in f`, the lines without their ends. -/
def fileLines (text : List Char) : List (List Char) :=
  withoutLastEmpty ((Python.universalNewlines text).splitOn '\n')

def splitlines (text : List Char) : List (List Char) :=
  withoutLastEmpty ((Python.universalNewlines text).splitOnP isLineBreak)

/-! ## A name -/

def isCommentMark (c : Char) : Bool := c = '#' ∨ c = ';'

/-- `\s*(#|;).*$` matches here, in a text that ends in no line break. -/
def isComment (text : List Char) : Bool :=
  match text.dropWhile Python.isSpace with
  | [] => false
  | c :: rest => isCommentMark c && '\n' ∉ rest

/-- `_comment_re.sub("", text)` on a stripped text: everything from the first match. -/
def withoutComment : List Char → List Char
  | [] => []
  | c :: rest => if isComment (c :: rest) then [] else c :: withoutComment rest

def withoutPipes : List Char → List Char
  | '|' :: '|' :: rest => rest
  | text => text

variable (letters : LetterCase)

def normalizeDomain (text : List Char) : Option (List Char) :=
  let s := (letters.lower (String.ofList (trim Python.isSpace text))).toList
  let s := trim Python.isSpace (withoutComment s)
  if s = [] then none
  else
    let s := withoutPipes s
    if "http://".toList <+: s ∨ "https://".toList <+: s then none
    else
      let s := (s.dropWhile fun c => c = '*' ∨ c = '.').rdropWhile (· = '.')
      if s = [] then none
      else if ' ' ∈ s ∨ '\t' ∈ s then none
      else if ['['] <+: s then none
      else if '/' ∈ s then none
      else some s

def parseLine (hosts : Bool) (raw : List Char) : Option (List Char) :=
  let line := trim Python.isSpace raw
  if line = [] ∨ ['!'] <+: line then none
  else if hosts then
    match fields Python.isSpace (withoutComment line) with
    | _ :: name :: _ => normalizeDomain letters name
    | _ => none
  else normalizeDomain letters line

def parseBlocklistLines (lines : List (List Char)) (format : String) : Finset String :=
  let hosts := letters.lower (Python.strip format) = "hosts"
  ((lines.filterMap (parseLine letters hosts)).map String.ofList).toFinset

def parseBlocklistText (text format : String) : Finset String :=
  parseBlocklistLines letters (splitlines text.toList) format

/-- `entries_add`: the column takes the name, or the request fails. -/
def entriesAdd (value : String) : Option String :=
  let domain := Python.rstrip '.' (letters.lower (Python.strip value))
  if fitsText 255 domain then some domain else none

/-- The domains that some text or form value brings to the compiler. -/
inductive Reaches : String → Prop
  | downloaded {text format domain : String} :
      domain ∈ parseBlocklistLines letters (fileLines text.toList) format → Reaches domain
  | parsed {text format domain : String} :
      domain ∈ parseBlocklistText letters text format → Reaches domain
  | entered {value domain : String} : entriesAdd letters value = some domain → Reaches domain

/-! ## They are in lower case -/

variable {letters}

theorem withoutComment_begins (text : List Char) : withoutComment text <+: text := by
  induction text with
  | nil => exact List.prefix_rfl
  | cons c rest ih =>
      rw [withoutComment]
      split
      · exact List.nil_prefix
      · exact List.cons_prefix_cons.mpr ⟨rfl, ih⟩

theorem mem_withoutComment {text : List Char} {c : Char} (kept : c ∈ withoutComment text) :
    c ∈ text :=
  (withoutComment_begins text).subset kept

theorem mem_withoutPipes {text : List Char} {c : Char} (kept : c ∈ withoutPipes text) :
    c ∈ text := by
  unfold withoutPipes at kept
  split at kept
  · exact List.mem_cons_of_mem _ (List.mem_cons_of_mem _ kept)
  · exact kept

theorem normalizeDomain_lowered {text s : List Char}
    (named : normalizeDomain letters text = some s) : ∀ c ∈ s, letters.toLower c = c := by
  intro c member
  simp only [normalizeDomain, Option.ite_none_left_eq_some, Option.some.injEq] at named
  obtain ⟨-, -, -, -, -, -, rfl⟩ := named
  apply letters.lowered
  apply mem_withoutComment
  apply mem_of_mem_trim
  apply mem_withoutPipes
  exact (List.dropWhile_suffix _).subset ((List.rdropWhile_prefix _ _).subset member)

theorem parseLine_lowered {hosts : Bool} {raw s : List Char}
    (named : parseLine letters hosts raw = some s) : ∀ c ∈ s, letters.toLower c = c := by
  unfold parseLine at named
  dsimp only at named
  split at named
  · exact nomatch named
  · split at named
    · split at named
      · exact normalizeDomain_lowered named
      · exact nomatch named
    · exact normalizeDomain_lowered named

theorem parseBlocklistLines_lowered {lines : List (List Char)} {format domain : String}
    (parsed : domain ∈ parseBlocklistLines letters lines format) :
    ∀ c ∈ domain.toList, letters.toLower c = c := by
  simp only [parseBlocklistLines, List.mem_toFinset, List.mem_map, List.mem_filterMap] at parsed
  obtain ⟨s, ⟨raw, -, named⟩, rfl⟩ := parsed
  rw [String.toList_ofList]
  exact parseLine_lowered named

theorem entriesAdd_lowered {value domain : String} (stored : entriesAdd letters value = some domain) :
    ∀ c ∈ domain.toList, letters.toLower c = c := by
  intro c member
  simp only [entriesAdd, Option.ite_none_right_eq_some, Option.some.injEq] at stored
  obtain ⟨-, rfl⟩ := stored
  apply letters.lowered
  rw [Python.rstrip, String.toList_ofList, List.mem_reverse] at member
  exact List.mem_reverse.mp ((List.dropWhile_suffix _).subset member)

theorem Reaches.lowered {domain : String} (reaches : Reaches letters domain) :
    ∀ c ∈ domain.toList, letters.toLower c = c := by
  cases reaches with
  | downloaded parsed => exact parseBlocklistLines_lowered parsed
  | parsed parsed => exact parseBlocklistLines_lowered parsed
  | entered stored => exact entriesAdd_lowered stored

end PowerBlockade.Zones
