import PowerBlockade.Lib.Fields
import PowerBlockade.Lib.Lists

/-!
# Taking off the common indentation

Blanks that all lines begin with are taken off, as `textwrap.dedent` of Python does; lines of white
space count for nothing, and become empty.
-/

namespace PowerBlockade.Lib

variable {space : Char → Bool}

def isIndent (c : Char) : Bool := c = ' ' ∨ c = '\t'

def leading (line : List Char) : List Char := line.takeWhile isIndent

def commonPrefix : List Char → List Char → List Char
  | a :: left, b :: right => if a = b then a :: commonPrefix left right else []
  | _, _ => []

def isWhite (space : Char → Bool) (line : List Char) : Bool := line ≠ [] ∧ ∀ c ∈ line, space c = true

/-- The length of the blanks that the lines with text have in common. -/
def margin (space : Char → Bool) (lines : List (List Char)) : Nat :=
  match lines.filter fun line => line ≠ [] ∧ isWhite space line = false with
  | [] => 0
  | line :: rest => (rest.foldl (fun common line => commonPrefix common (leading line)) (leading line)).length

def dedentLine (space : Char → Bool) (margin : Nat) (line : List Char) : List Char :=
  if isWhite space line then [] else line.drop margin

def dedent (space : Char → Bool) (text : List Char) : List Char :=
  let lines := text.splitOn '\n'
  ['\n'].intercalate (lines.map (dedentLine space (margin space lines)))

theorem commonPrefix_self (blanks : List Char) : commonPrefix blanks blanks = blanks := by
  induction blanks with
  | nil => rfl
  | cons c blanks ih => rw [commonPrefix, if_pos rfl, ih]

/-- A line that begins with text. -/
structure Body (space : Char → Bool) (line : List Char) : Prop where
  nonempty : line ≠ []
  first : ∀ c ∈ line.head?, space c = false ∧ isIndent c = false

def indented (n : Nat) (line : List Char) : List Char := List.replicate n ' ' ++ line

theorem Body.not_white {line : List Char} (body : Body space line) (n : Nat) :
    isWhite space (indented n line) = false := by
  cases whole : line with
  | nil => exact absurd whole body.nonempty
  | cons c rest =>
      have first := (body.first c (by rw [whole]; rfl)).1
      simp only [isWhite, decide_eq_false_iff_not, not_and]
      intro _ all
      have white := all c (by simp [indented])
      rw [first] at white
      exact nomatch white

theorem Body.leading {line : List Char} (body : Body space line) (n : Nat) :
    leading (indented n line) = List.replicate n ' ' := by
  apply takeWhile_append_stop
  · intro c member
    rw [List.eq_of_mem_replicate member]
    decide
  · exact fun c first => (body.first c first).2

theorem foldl_commonPrefix {n : Nat} {lines : List (List Char)} (bodies : ∀ line ∈ lines, Body space line) :
    (lines.map (indented n)).foldl (fun common line => commonPrefix common (leading line)) (List.replicate n ' ') =
      List.replicate n ' ' := by
  induction lines with
  | nil => rfl
  | cons line lines ih =>
      obtain ⟨here, later⟩ := List.forall_mem_cons.mp bodies
      rw [List.map_cons, List.foldl_cons, here.leading, commonPrefix_self, ih later]

theorem isWhite_blanks {n : Nat} (blank : space ' ' = true) (positive : 0 < n) :
    isWhite space (List.replicate n ' ') = true := by
  rw [isWhite, decide_eq_true_eq]
  refine ⟨by simpa using positive.ne', fun c member => ?_⟩
  rw [List.eq_of_mem_replicate member]
  exact blank

theorem margin_indented {n : Nat} {lines : List (List Char)} (blank : space ' ' = true) (positive : 0 < n)
    (nonempty : lines ≠ []) (bodies : ∀ line ∈ lines, Body space line) :
    margin space (lines.map (indented n) ++ [List.replicate n ' ']) = n := by
  have text : (lines.map (indented n) ++ [List.replicate n ' ']).filter
      (fun line => line ≠ [] ∧ isWhite space line = false) = lines.map (indented n) := by
    have kept : ∀ line ∈ lines.map (indented n), decide (line ≠ [] ∧ isWhite space line = false) = true := by
      intro line member
      obtain ⟨body, listed, rfl⟩ := List.mem_map.mp member
      have some : indented n body ≠ [] := by simp [indented, (bodies body listed).nonempty]
      exact decide_eq_true ⟨some, (bodies body listed).not_white n⟩
    rw [List.filter_append, List.filter_eq_self.mpr kept]
    simp [isWhite_blanks blank positive]
  obtain ⟨first, rest, rfl⟩ := List.exists_cons_of_ne_nil nonempty
  obtain ⟨here, later⟩ := List.forall_mem_cons.mp bodies
  rw [margin, text, List.map_cons]
  simp only [here.leading, foldl_commonPrefix later, List.length_replicate]

/-- A text of lines with one indentation, that ends in blanks, loses just these. -/
theorem dedent_indented {n : Nat} {lines : List (List Char)} (blank : space ' ' = true) (positive : 0 < n)
    (nonempty : lines ≠ []) (bodies : ∀ line ∈ lines, Body space line) (whole : ∀ line ∈ lines, '\n' ∉ line) :
    dedent space ((lines.map (indented n)).flatMap (· ++ ['\n']) ++ List.replicate n ' ') =
      lines.flatMap (· ++ ['\n']) := by
  have end' : '\n' ∉ List.replicate n ' ' := fun member => absurd (List.eq_of_mem_replicate member) (by decide)
  have wholeIndented : ∀ line ∈ lines.map (indented n), '\n' ∉ line := by
    intro line member
    obtain ⟨body, listed, rfl⟩ := List.mem_map.mp member
    exact List.not_mem_append end' (whole body listed)
  have cut := splitOn_lines wholeIndented (List.replicate n ' ')
  rw [List.splitOn_eq_singleton end'] at cut
  have taken : (lines.map (indented n)).map (dedentLine space n) = lines := by
    rw [List.map_map]
    calc lines.map (dedentLine space n ∘ indented n) = lines.map id := by
          apply List.map_congr_left
          intro line listed
          rw [Function.comp_apply, dedentLine, (bodies line listed).not_white, if_neg Bool.false_ne_true, indented,
            List.drop_left' (List.length_replicate ..)]
          rfl
      _ = lines := List.map_id lines
  have last : dedentLine space n (List.replicate n ' ') = [] := if_pos (isWhite_blanks blank positive)
  rw [dedent, cut]
  rw [margin_indented blank positive nonempty bodies, List.map_append, taken, List.map_singleton, last,
    intercalate_append_nil]

end PowerBlockade.Lib
