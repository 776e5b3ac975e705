import PowerBlockade.Zones.Names

/-!
# Blanks and comments around a name

What a line may carry besides its name, and that the strips take all of it off.
-/

namespace PowerBlockade.Zones
open Lib

/-- Blanks on both sides, and a comment that runs to the end of its line. -/
structure Dressing where
  before : List Char
  between : List Char
  comment : List Char
  ending : List Char
  blankBefore : ∀ c ∈ before, Python.isSpace c = true
  blankBetween : ∀ c ∈ between, Python.isSpace c = true
  blankEnding : ∀ c ∈ ending, Python.isSpace c = true
  marked : ∀ c ∈ comment.head?, isCommentMark c = true
  oneLine : '\n' ∉ comment

def Dressing.around (dressing : Dressing) (body : List Char) : List Char :=
  dressing.before ++ (body ++ (dressing.between ++ (dressing.comment ++ dressing.ending)))

def undressed : Dressing where
  before := []
  between := []
  comment := []
  ending := []
  blankBefore := by simp
  blankBetween := by simp
  blankEnding := by simp
  marked := by simp
  oneLine := by simp

/-- It begins and ends with something, and no mark in it starts a comment. -/
structure Solid (body : List Char) : Prop where
  first : ∀ c ∈ body.head?, Python.isSpace c = false
  last : ∀ c ∈ body.getLast?, Python.isSpace c = false
  unmarked : ∀ c ∈ body, isCommentMark c = false

variable {body : List Char}

/-! ## Where a comment begins -/

theorem isComment_append (last : ∀ c ∈ body.getLast?, Python.isSpace c = false)
    (unmarked : ∀ c ∈ body, isCommentMark c = false) (nonempty : body ≠ []) (tail : List Char) :
    isComment (body ++ tail) = false := by
  induction body with
  | nil => exact absurd rfl nonempty
  | cons c rest ih =>
      obtain ⟨notMark, others⟩ := List.forall_mem_cons.mp unmarked
      cases blank : Python.isSpace c with
      | false =>
          rw [List.cons_append, isComment_solid blank, notMark]
          rfl
      | true =>
          cases rest with
          | nil => exact absurd (last c rfl) (by simp [blank])
          | cons d rest =>
              rw [List.getLast?_cons_cons] at last
              rw [List.cons_append, isComment_blank blank]
              exact ih last others (List.cons_ne_nil d rest)

theorem withoutComment_append (last : ∀ c ∈ body.getLast?, Python.isSpace c = false)
    (unmarked : ∀ c ∈ body, isCommentMark c = false) (tail : List Char) :
    withoutComment (body ++ tail) = body ++ withoutComment tail := by
  induction body with
  | nil => rfl
  | cons c rest ih =>
      have kept := isComment_append last unmarked (List.cons_ne_nil c rest) tail
      have later : ∀ d ∈ rest.getLast?, Python.isSpace d = false := by
        intro d member
        apply last
        rw [List.getLast?_cons, Option.mem_def.mp member]
        rfl
      rw [List.cons_append, withoutComment, ← List.cons_append, kept, if_neg Bool.false_ne_true,
        ih later (List.forall_mem_cons.mp unmarked).2]
      rfl

theorem isComment_blanks {blanks : List Char} (all : ∀ c ∈ blanks, Python.isSpace c = true)
    (tail : List Char) : isComment (blanks ++ tail) = isComment tail := by
  induction blanks with
  | nil => rfl
  | cons c blanks ih =>
      obtain ⟨first, others⟩ := List.forall_mem_cons.mp all
      rw [List.cons_append, isComment_blank first, ih others]

theorem withoutComment_of_isComment {text : List Char} (comment : isComment text = true) :
    withoutComment text = [] := by
  cases text with
  | nil => rfl
  | cons c rest => rw [withoutComment, if_pos comment]

/-! ## The strips -/

namespace Dressing
variable (dressing : Dressing)

theorem isComment_comment {mark : Char} {words : List Char}
    (written : dressing.comment = mark :: words) :
    isComment (mark :: words.rdropWhile Python.isSpace) = true := by
  have isMark : isCommentMark mark = true := dressing.marked mark (by simp [written])
  have oneLine : '\n' ∉ words.rdropWhile Python.isSpace := by
    intro member
    apply dressing.oneLine
    rw [written]
    exact List.mem_cons_of_mem _ ((List.rdropWhile_prefix _ _).subset member)
  rw [isComment_solid (isSpace_of_mark isMark), isMark]
  simpa using oneLine

theorem isSpace_mark {mark : Char} {words : List Char}
    (written : dressing.comment = mark :: words) : Python.isSpace mark = false :=
  isSpace_of_mark (dressing.marked mark (by simp [written]))

/-- What stands behind the name, once the line has no blanks at its end. -/
theorem exists_tail (last : ∀ c ∈ body.getLast?, Python.isSpace c = false) :
    ∃ tail, withoutComment tail = [] ∧
      (body ++ (dressing.between ++ (dressing.comment ++ dressing.ending))).rdropWhile
        Python.isSpace = body ++ tail := by
  cases written : dressing.comment with
  | nil =>
      have blanks : ∀ c ∈ dressing.between ++ dressing.ending, Python.isSpace c = true := by
        intro c member
        exact (List.mem_append.mp member).elim (dressing.blankBetween c) (dressing.blankEnding c)
      refine ⟨[], rfl, ?_⟩
      rw [List.nil_append, rdropWhile_append_blanks blanks, rdropWhile_of_solid last,
        List.append_nil]
  | cons mark words =>
      refine ⟨dressing.between ++ mark :: words.rdropWhile Python.isSpace, ?_, ?_⟩
      · apply withoutComment_of_isComment
        rw [isComment_blanks dressing.blankBetween, dressing.isComment_comment written]
      · rw [List.cons_append, ← List.append_assoc, rdropWhile_append_solid
          (dressing.isSpace_mark written), rdropWhile_append_blanks dressing.blankEnding,
          List.append_assoc]

theorem withoutComment_around_nil :
    withoutComment (trim Python.isSpace (dressing.around [])) = [] := by
  rw [around, List.nil_append, trim, List.dropWhile_append_of_pos dressing.blankBefore,
    List.dropWhile_append_of_pos dressing.blankBetween]
  cases written : dressing.comment with
  | nil =>
      rw [List.nil_append, List.dropWhile_eq_nil_iff.mpr dressing.blankEnding]
      rfl
  | cons mark words =>
      have solid := dressing.isSpace_mark written
      have cut := rdropWhile_append_solid solid [] (words ++ dressing.ending)
      rw [List.nil_append, rdropWhile_append_blanks dressing.blankEnding, List.nil_append] at cut
      rw [List.cons_append, List.dropWhile_cons_of_neg (by simp [solid]), cut]
      exact withoutComment_of_isComment (dressing.isComment_comment written)

theorem trim_around (solid : Solid body) (nonempty : body ≠ []) :
    ∃ tail, withoutComment tail = [] ∧ trim Python.isSpace (dressing.around body) = body ++ tail := by
  obtain ⟨tail, gone, cut⟩ := dressing.exists_tail solid.last
  refine ⟨tail, gone, ?_⟩
  have start : (dressing.around body).dropWhile Python.isSpace =
      body ++ (dressing.between ++ (dressing.comment ++ dressing.ending)) := by
    rw [around, List.dropWhile_append_of_pos dressing.blankBefore]
    apply dropWhile_of_solid
    rw [List.head?_append_of_ne_nil _ nonempty]
    exact solid.first
  rw [trim, start, cut]

theorem withoutComment_around (solid : Solid body) :
    withoutComment (trim Python.isSpace (dressing.around body)) = body := by
  by_cases empty : body = []
  · rw [empty, dressing.withoutComment_around_nil]
  · obtain ⟨tail, gone, trimmed⟩ := dressing.trim_around solid empty
    rw [trimmed, withoutComment_append solid.last solid.unmarked, gone, List.append_nil]

theorem written_around (solid : Solid body) : written (dressing.around body) = body := by
  rw [written, dressing.withoutComment_around solid, trim_of_ends solid.first solid.last]

end Dressing

end PowerBlockade.Zones
