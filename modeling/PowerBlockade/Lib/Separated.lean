import Mathlib.Data.String.Basic
import Mathlib.Data.List.Infix
import Mathlib.Data.List.Basic

/-!
# Texts with a separator

Splitting a string at one character, words that a separator keeps apart, and the substrings of joined
words.
-/

namespace PowerBlockade.Lib
open String

/-! ## Splitting -/

theorem splitOnAux_separator (c : Char) (l m r : List Char) (pieces : List String) :
    splitOnAux (ofList (l ++ m ++ r)) (ofList [c]) ⟨utf8Len l⟩ ⟨utf8Len l + utf8Len m⟩ 0 pieces =
      pieces.reverse ++ (r.splitOnPPrepend (· == c) m.reverse).map ofList := by
  have mark : (0 : Pos.Raw).get (ofList [c]) = c := get_of_valid [] [c]
  have nextMark : (0 : Pos.Raw).next (ofList [c]) = ⟨c.utf8Size⟩ := by
    simpa [-ofList_cons] using next_of_valid [] c []
  have markEnd : (⟨c.utf8Size⟩ : Pos.Raw).atEnd (ofList [c]) := by simp [-ofList_cons]
  induction r generalizing l m pieces with
  | nil =>
      have piece := extract_of_valid l m []
      have ended := (atEnd_of_valid (l ++ m) []).2 rfl
      rw [utf8Len_append] at ended
      rw [splitOnAux, if_pos ended, piece]
      simp
  | cons d r ih =>
      have more : ¬ Pos.Raw.atEnd (ofList (l ++ m ++ d :: r)) ⟨utf8Len l + utf8Len m⟩ := by
        rw [← utf8Len_append, atEnd_of_valid]
        exact List.cons_ne_nil d r
      have read := get_of_valid (l ++ m) (d :: r)
      have next := next_of_valid (l ++ m) d r
      have piece := extract_of_valid l m (d :: r)
      rw [utf8Len_append] at read next
      rw [splitOnAux, if_neg more, read, mark, List.headD_cons, List.splitOnPPrepend_cons_eq_if]
      by_cases same : d = c
      · subst same
        have back : Pos.Raw.unoffsetBy ⟨utf8Len l + utf8Len m + d.utf8Size⟩ ⟨d.utf8Size⟩ =
            ⟨utf8Len l + utf8Len m⟩ := by simp [Pos.Raw.unoffsetBy]
        have later := ih (l ++ m ++ [d]) [] (ofList m :: pieces)
        rw [if_pos (beq_self_eq_true d), if_pos (beq_self_eq_true d), nextMark, if_pos markEnd,
          next, back, piece]
        simpa [-ofList_append, Nat.add_assoc] using later
      · have other : (d == c) ≠ true := by simpa using same
        have stay : Pos.Raw.unoffsetBy ⟨utf8Len l + utf8Len m⟩ 0 = ⟨utf8Len l + utf8Len m⟩ := by
          simp [Pos.Raw.unoffsetBy]
        have later := ih l (m ++ [d]) pieces
        rw [if_neg other, if_neg other, stay, next]
        simpa [-ofList_append, Nat.add_assoc] using later

theorem splitOn_separator (c : Char) (text : List Char) :
    (ofList text).splitOn (ofList [c]) = (text.splitOn c).map ofList := by
  have whole := splitOnAux_separator c [] [] text []
  have nonempty : (ofList [c] == "") = false := by simp
  rw [String.splitOn, nonempty]
  simpa [List.splitOn] using whole

/-! ## Two words with a separator between them -/

variable {α : Type*} {separator : α} {word : List α}

/-- The first separator ends the first word. -/
theorem append_cons_inj_left {left left' right right' : List α} (whole : separator ∉ left)
    (whole' : separator ∉ left') (same : left ++ separator :: right = left' ++ separator :: right') :
    left = left' ∧ right = right' := by
  induction left generalizing left' with
  | nil =>
      cases left' with
      | nil => exact ⟨rfl, List.tail_eq_of_cons_eq same⟩
      | cons c left' => exact absurd (List.head_eq_of_cons_eq same ▸ List.mem_cons_self) whole'
  | cons c left ih =>
      cases left' with
      | nil => exact absurd (List.head_eq_of_cons_eq same ▸ List.mem_cons_self) whole
      | cons d left' =>
          obtain ⟨rfl, rest⟩ := List.cons_eq_cons.mp same
          obtain ⟨rfl, tail⟩ := ih (fun later => whole (List.mem_cons_of_mem _ later))
            (fun later => whole' (List.mem_cons_of_mem _ later)) rest
          exact ⟨rfl, tail⟩

/-- The last separator begins the last word. -/
theorem append_cons_inj_right {left left' right right' : List α} (whole : separator ∉ right)
    (whole' : separator ∉ right') (same : left ++ separator :: right = left' ++ separator :: right') :
    left = left' ∧ right = right' := by
  have turned := congrArg List.reverse same
  simp only [List.reverse_append, List.reverse_cons, List.append_assoc, List.singleton_append] at turned
  obtain ⟨last, first⟩ := append_cons_inj_left (by simpa using whole) (by simpa using whole') turned
  exact ⟨List.reverse_injective first, List.reverse_injective last⟩
/-! ## Joined words -/

theorem infix_append_cons_iff (whole : separator ∉ word) (left right : List α) :
    word <:+: left ++ separator :: right ↔ word <:+: left ∨ word <:+: right := by
  constructor
  · intro inside
    obtain ⟨before, after, same⟩ := inside
    cases List.append_eq_append_iff.1 same with
    | inl early =>
        obtain ⟨rest, text, _⟩ := early
        exact Or.inl ⟨before, rest, text.symm⟩
    | inr late =>
        obtain ⟨covered, text, tail⟩ := late
        cases covered with
        | nil => exact Or.inl ⟨before, [], by simpa using text⟩
        | cons c covered =>
            obtain ⟨rfl, later⟩ := List.cons.inj tail
            cases List.append_eq_append_iff.1 text with
            | inl across =>
                obtain ⟨head, _, spans⟩ := across
                exact absurd (spans ▸ by simp) whole
            | inr beyond =>
                obtain ⟨gap, _, spans⟩ := beyond
                cases gap with
                | nil => exact absurd (by simpa using List.mem_of_mem_head? (congrArg List.head? spans).symm) whole
                | cons d gap =>
                    obtain ⟨_, covers⟩ := List.cons.inj spans
                    have joined : right = gap ++ word ++ after := later.trans (congrArg (· ++ after) covers)
                    exact Or.inr ⟨gap, after, joined.symm⟩
  · intro side
    cases side with
    | inl inLeft => exact inLeft.trans (List.prefix_append left _).isInfix
    | inr inRight =>
        exact inRight.trans
          ((List.suffix_cons separator right).trans (List.suffix_append left _)).isInfix

theorem infix_intercalate_iff (whole : separator ∉ word) (nonempty : word ≠ [])
    (words : List (List α)) :
    word <:+: [separator].intercalate words ↔ ∃ part ∈ words, word <:+: part := by
  induction words with
  | nil => simp [nonempty]
  | cons first rest ih =>
      cases rest with
      | nil => simp
      | cons second rest =>
          rw [List.intercalate_cons_cons, List.append_assoc, List.singleton_append,
            infix_append_cons_iff whole, ih]
          simp only [List.mem_cons, exists_eq_or_imp]

/-- Among words of one length a word is found exactly where it stands whole. -/
theorem infix_intercalate_iff_mem {n : Nat} (positive : 0 < n) {words : List (List α)}
    (length : word.length = n) (lengths : ∀ part ∈ words, part.length = n)
    (whole : separator ∉ word) : word <:+: [separator].intercalate words ↔ word ∈ words := by
  have nonempty : word ≠ [] := List.ne_nil_of_length_pos (length ▸ positive)
  rw [infix_intercalate_iff whole nonempty]
  constructor
  · intro found
    obtain ⟨part, member, inside⟩ := found
    exact inside.eq_of_length (length.trans (lengths part member).symm) ▸ member
  · intro member
    exact ⟨word, member, List.infix_rfl⟩

end PowerBlockade.Lib
