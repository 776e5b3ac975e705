import PowerBlockade.Lib.Fields
import PowerBlockade.Lib.Lists
import PowerBlockade.Sync.Bundle

/-!
# The version gate

Which versions of semantic shape `check_version_compatibility` compares, and what it and `config` do
with the others.
-/

namespace PowerBlockade.Sync
open Lib

structure Numeral where
  digits : List Char
  nonempty : digits ≠ []
  decimal : ∀ c ∈ digits, c.isDigit = true

def Numeral.value (n : Numeral) : Int :=
  n.digits.foldl (fun m c => m * 10 + (c.toNat - 48 : Nat)) 0

/-- `vX.Y.Z-prerelease+build`, where only the numbers must be there. -/
structure SemVer where
  marked : Bool
  major : Numeral
  minor : Numeral
  patch : Numeral
  prerelease : Option (List Char)
  build : Option (List Char)

namespace SemVer

def suffix (v : SemVer) : List Char :=
  v.prerelease.elim [] ('-' :: ·) ++ v.build.elim [] ('+' :: ·)

def core (v : SemVer) : List Char :=
  v.major.digits ++ '.' :: (v.minor.digits ++ '.' :: (v.patch.digits ++ v.suffix))

def text (v : SemVer) : String := String.ofList (List.replicate v.marked.toNat 'v' ++ v.core)

/-- What `int` takes: no suffix, and no number with too many digits. -/
def Readable (v : SemVer) : Prop :=
  v.suffix = [] ∧ v.major.digits.length ≤ Python.maxStrDigits ∧
    v.minor.digits.length ≤ Python.maxStrDigits ∧ v.patch.digits.length ≤ Python.maxStrDigits

end SemVer

/-- The compatibility matrix. -/
def expected (primary secondary : SemVer) : Compatibility :=
  if primary.major.value ≠ secondary.major.value then .block
  else if primary.minor.value ≠ secondary.minor.value ∨
      secondary.patch.value < primary.patch.value then .warn
  else .allow

/-- The status is the one of the matrix, and a node of another major version gets no bundle. -/
def Gates (primary secondary : SemVer) : Prop :=
  (checkVersionCompatibility (some primary.text) (some secondary.text)).1 =
      expected primary secondary ∧
    ∀ (server : Primary) (node : Secondary), server.pbVersion = some primary.text →
      node.version = some secondary.text → primary.major.value ≠ secondary.major.value →
        ∃ message, config server node = .error (409, message)

/-! ## Numbers -/

theorem int_numeral (n : Numeral) : Python.int (String.ofList n.digits) =
    if n.digits.length ≤ Python.maxStrDigits then some n.value else none :=
  Python.int_digits n.nonempty n.decimal

theorem digitsOf_cons_none {c : Char} (notDigit : c.isDigit = false) (rest : List Char) :
    Python.digitsOf (c :: rest) = none := by
  unfold Python.digitsOf
  split <;> simp_all

theorem digitsOf_append_none {c : Char} (notDigit : c.isDigit = false) (other : c ≠ '_')
    (rest : List Char) {digits : List Char} (decimal : ∀ d ∈ digits, d.isDigit = true) :
    Python.digitsOf (digits ++ c :: rest) = none := by
  induction digits with
  | nil => exact digitsOf_cons_none notDigit rest
  | cons d digits ih =>
      obtain ⟨-, others⟩ := List.forall_mem_cons.mp decimal
      have later := ih others
      have plain : ∀ more, digits ++ c :: rest ≠ '_' :: more := by
        intro more same
        cases digits with
        | nil => exact other (List.cons.inj same).1
        | cons e digits =>
            have digit := others e List.mem_cons_self
            exact absurd ((List.cons.inj same).1 ▸ digit) (by decide)
      rw [List.cons_append, Python.digitsOf.eq_4 _ _ (by simp) plain, later]
      split <;> rfl

/-- A number with a suffix is none: `int` takes its blanks off, not its sign. -/
theorem int_suffixed (n : Numeral) {c : Char} (sign : c = '-' ∨ c = '+') (rest : List Char) :
    Python.int (String.ofList (n.digits ++ c :: rest)) = none := by
  have solid : Python.isSpace c = false := by rcases sign with rfl | rfl <;> decide
  have notDigit : c.isDigit = false := by rcases sign with rfl | rfl <;> decide
  have other : c ≠ '_' := by rcases sign with rfl | rfl <;> decide
  have none := digitsOf_append_none notDigit other (rest.rdropWhile Python.isSpace) n.decimal
  cases whole : n.digits with
  | nil => exact absurd whole n.nonempty
  | cons d digits =>
      have digit : d.isDigit = true := n.decimal d (by simp [whole])
      have stripped : Python.stripChars (d :: digits ++ c :: rest) =
          d :: (digits ++ c :: rest.rdropWhile Python.isSpace) := by
        show trim Python.isSpace (d :: digits ++ c :: rest) = _
        rw [trim, List.cons_append, List.dropWhile_cons_of_neg (by simp [Python.isSpace_digit digit]),
          ← List.cons_append, rdropWhile_append_solid solid, List.cons_append]
      rw [whole, List.cons_append] at none
      rw [Python.int_of_digit stripped digit, Python.decimal, none]
      rfl

/-! ## One version -/

namespace SemVer
variable (v : SemVer)

theorem dot_not_mem (n : Numeral) : ∀ c ∈ n.digits, (c == '.') = false := by
  intro c member
  by_contra dot
  obtain rfl : c = '.' := by simpa using dot
  exact absurd (n.decimal '.' member) (by decide)

/-- The third part runs to the next dot of the suffix. -/
theorem take_splitOn : (v.core.splitOn '.').take 3 =
    [v.major.digits, v.minor.digits, v.patch.digits ++ v.suffix.takeWhile (· != '.')] := by
  have third := head?_splitOnP (· == '.') (v.patch.digits ++ v.suffix)
  have whole : ∀ c ∈ v.patch.digits, (!(c == '.')) = true := by
    intro c member
    rw [dot_not_mem v.patch c member]
    rfl
  rw [List.takeWhile_append_of_pos whole] at third
  obtain ⟨others, split⟩ := List.head?_eq_some_iff.mp third
  rw [core, List.splitOn_eq_splitOnP,
    List.splitOnP_append_cons_of_forall_mem (dot_not_mem v.major) '.' rfl,
    List.splitOnP_append_cons_of_forall_mem (dot_not_mem v.minor) '.' rfl, split]
  rfl

theorem lstripV_text : lstripV v.text = String.ofList v.core := by
  have marks : ∀ c ∈ List.replicate v.marked.toNat 'v', decide (c = 'v') = true :=
    fun c member => by simpa using List.eq_of_mem_replicate member
  have first : ∀ c ∈ v.core.head?, decide (c = 'v') = false := by
    intro c member
    rw [core, List.head?_append_of_ne_nil _ v.major.nonempty] at member
    have digit := v.major.decimal c (List.mem_of_mem_head? member)
    by_contra same
    obtain rfl : c = 'v' := by simpa using same
    exact absurd digit (by decide)
  rw [lstripV, text, String.toList_ofList, List.dropWhile_append_of_pos marks,
    dropWhile_of_solid first]

theorem known_text : known (some v.text) = some v.text := by
  have first : ∀ c ∈ v.text.toList.head?, c = 'v' ∨ c.isDigit = true := by
    intro c member
    rw [text, String.toList_ofList, List.head?_append, Option.mem_def,
      Option.or_eq_some_iff] at member
    rcases member with mark | ⟨-, digit⟩
    · exact Or.inl (List.eq_of_mem_replicate (List.mem_of_mem_head? mark))
    · rw [core, List.head?_append_of_ne_nil _ v.major.nonempty] at digit
      exact Or.inr (v.major.decimal c (List.mem_of_mem_head? digit))
  have nonempty : v.text ≠ "" := by
    intro empty
    have chars := congrArg String.toList empty
    simp [text, core] at chars
  have notUnknown : v.text ≠ "unknown" := by
    intro unknown
    rw [unknown] at first
    exact absurd (first 'u' rfl) (by decide)
  exact Option.filter_some_pos (by simp [nonempty, notUnknown])

theorem suffix_cases : v.suffix = [] ∨ ∃ c rest, (c = '-' ∨ c = '+') ∧ v.suffix = c :: rest := by
  unfold suffix
  cases v.prerelease with
  | some text => exact Or.inr ⟨'-', _, Or.inl rfl, rfl⟩
  | none =>
      cases v.build with
      | some text => exact Or.inr ⟨'+', text, Or.inr rfl, rfl⟩
      | none => exact Or.inl rfl

theorem int_third : Python.int (String.ofList (v.patch.digits ++ v.suffix.takeWhile (· != '.'))) =
    if v.suffix = [] ∧ v.patch.digits.length ≤ Python.maxStrDigits then some v.patch.value
    else none := by
  rcases v.suffix_cases with none | ⟨c, rest, sign, behind⟩
  · rw [none, List.takeWhile_nil, List.append_nil, int_numeral]
    simp
  · have kept : (c != '.') = true := by rcases sign with rfl | rfl <;> decide
    have gone : ¬ (v.suffix = [] ∧ v.patch.digits.length ≤ Python.maxStrDigits) := by
      simp [behind]
    rw [if_neg gone, behind, List.takeWhile_cons_of_pos (p := fun d => d != '.') kept,
      int_suffixed v.patch sign]

instance : Decidable v.Readable := inferInstanceAs (Decidable (_ ∧ _ ∧ _ ∧ _))

theorem versionParts_text : versionParts (lstripV v.text) =
    if v.Readable then some (v.major.value, v.minor.value, v.patch.value) else none := by
  have major := int_numeral v.major
  have minor := int_numeral v.minor
  have third := v.int_third
  rw [lstripV_text, versionParts, String.toList_ofList, take_splitOn]
  by_cases readable : v.Readable
  · obtain ⟨plain, fitsMajor, fitsMinor, fitsPatch⟩ := readable
    rw [if_pos fitsMajor] at major
    rw [if_pos fitsMinor] at minor
    rw [if_pos ⟨plain, fitsPatch⟩] at third
    rw [if_pos ⟨plain, fitsMajor, fitsMinor, fitsPatch⟩]
    simp only [List.mapM_cons, List.mapM_nil, major, minor, third]
    rfl
  · rw [if_neg readable]
    have failed : [v.major.digits, v.minor.digits,
        v.patch.digits ++ v.suffix.takeWhile (· != '.')].mapM
          (fun part => Python.int (String.ofList part)) = none := by
      apply mapM_eq_none.mpr
      by_cases fitsMajor : v.major.digits.length ≤ Python.maxStrDigits
      · by_cases fitsMinor : v.minor.digits.length ≤ Python.maxStrDigits
        · have last : ¬ (v.suffix = [] ∧ v.patch.digits.length ≤ Python.maxStrDigits) :=
            fun fits => readable ⟨fits.1, fitsMajor, fitsMinor, fits.2⟩
          exact ⟨_, by simp, third.trans (if_neg last)⟩
        · exact ⟨v.minor.digits, by simp, minor.trans (if_neg fitsMinor)⟩
      · exact ⟨v.major.digits, by simp, major.trans (if_neg fitsMajor)⟩
    rw [failed]
    rfl

end SemVer

/-! ## The gate -/

variable (p s : SemVer)

theorem status_readable (readable : p.Readable ∧ s.Readable) :
    (checkVersionCompatibility (some p.text) (some s.text)).1 = expected p s := by
  have left := p.versionParts_text
  have right := s.versionParts_text
  rw [if_pos readable.1] at left
  rw [if_pos readable.2] at right
  simp only [checkVersionCompatibility, SemVer.known_text, left, right, expected]
  split
  · rfl
  · split
    · rename_i minors
      rw [if_pos (Or.inl minors)]
    · rename_i minors
      split
      · rename_i behind
        rw [if_pos (Or.inr behind)]
      · rename_i upToDate
        rw [if_neg (not_or.mpr ⟨minors, upToDate⟩)]

theorem status_unreadable (unreadable : ¬ (p.Readable ∧ s.Readable)) :
    (checkVersionCompatibility (some p.text) (some s.text)).1 = .warn := by
  have left := p.versionParts_text
  have right := s.versionParts_text
  simp only [checkVersionCompatibility, SemVer.known_text]
  by_cases readable : p.Readable
  · have other : ¬ s.Readable := fun also => unreadable ⟨readable, also⟩
    rw [left, right, if_pos readable, if_neg other]
  · rw [left, if_neg readable]

theorem status_eq_expected_iff :
    (checkVersionCompatibility (some p.text) (some s.text)).1 = expected p s ↔
      p.Readable ∧ s.Readable ∨ expected p s = .warn := by
  by_cases readable : p.Readable ∧ s.Readable
  · exact iff_of_true (status_readable p s readable) (Or.inl readable)
  · rw [status_unreadable p s readable]
    simp [readable, eq_comm]

theorem config_of_block {server : Primary} {node : Secondary}
    (blocked : (checkVersionCompatibility server.pbVersion node.version).1 = .block) :
    ∃ message, config server node = .error (409, message) := by
  cases checked : checkVersionCompatibility server.pbVersion node.version with
  | mk status message =>
      rw [checked] at blocked
      subst blocked
      exact ⟨message, by rw [config, checked]⟩

/-- The gate does what the matrix says unless a version has a suffix or a number too long to read,
and even then where the matrix only warns. -/
theorem gates_iff_readable (primary secondary : SemVer) : Gates primary secondary ↔
    primary.Readable ∧ secondary.Readable ∨ expected primary secondary = .warn := by
  rw [← status_eq_expected_iff]
  constructor
  · exact fun gates => gates.1
  · intro same
    refine ⟨same, fun server node server_version node_version majors => ?_⟩
    apply config_of_block
    rw [server_version, node_version, same]
    exact if_pos majors

/-! ## The image of a branch -/

def numeral (digits : List Char) (nonempty : digits ≠ []) (decimal : digits.all Char.isDigit = true) :
    Numeral := ⟨digits, nonempty, List.all_eq_true.mp decimal⟩

def zero : Numeral := numeral ['0'] (by decide) (by decide)

def one : Numeral := numeral ['1'] (by decide) (by decide)

def release : SemVer := ⟨true, one, zero, zero, none, none⟩

/-- `0.0.0-` and a commit, as the images of a branch are built. -/
def branchImage : SemVer := ⟨false, zero, zero, zero, some "4f2a9c1".toList, none⟩

theorem branch_image_passes : ¬ ∀ primary secondary : SemVer, Gates primary secondary := by
  intro gates
  have status := (gates release branchImage).1
  exact absurd status (by decide)

end PowerBlockade.Sync
