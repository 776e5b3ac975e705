import PowerBlockade.Lib.Fields

/-!
# Substitutions by sed and perl

The replacement of an `s` command ends at the first separator that no backslash precedes. `escape`
puts the backslashes; a `Dialect` says what the characters of a replacement stand for. A template is
a text with holes, and each substitution fills the holes of one name.
-/

namespace PowerBlockade.Lib.Substitution

/-! ## Replacements -/

/-- `sed 's/[…]/\\&/g'` -/
def escape (special : Char → Bool) (text : List Char) : List Char :=
  text.flatMap fun c => if special c then ['\\', c] else [c]

/-- A part of a replacement: itself, or the text that was found. -/
inductive Piece
  | char (c : Char)
  | found
  deriving DecidableEq

/-- What a character stands for as it is, and after a backslash; `none` where the command is refused
or means something else. -/
structure Dialect where
  plain : Char → Option Piece
  escaped : Char → Option Piece

def Dialect.read (dialect : Dialect) (separator : Char) : List Char → Option (List Piece × List Char)
  | [] => none
  | '\\' :: c :: rest => do
      let piece ← dialect.escaped c
      let (pieces, flags) ← dialect.read separator rest
      return (piece :: pieces, flags)
  | c :: rest =>
      if c = separator then some ([], rest)
      else do
        let piece ← dialect.plain c
        let (pieces, flags) ← dialect.read separator rest
        return (piece :: pieces, flags)

variable {dialect : Dialect} {separator : Char} {special : Char → Bool}

theorem Dialect.read_escaped {c : Char} {piece : Piece} (reads : dialect.escaped c = some piece) (rest : List Char) :
    dialect.read separator ('\\' :: c :: rest) =
      (dialect.read separator rest).map (Prod.map (piece :: ·) id) := by
  rw [Dialect.read, reads]
  cases dialect.read separator rest <;> rfl

theorem Dialect.read_plain {c : Char} (other : c ≠ '\\') (goesOn : c ≠ separator) {piece : Piece}
    (reads : dialect.plain c = some piece) (rest : List Char) :
    dialect.read separator (c :: rest) =
      (dialect.read separator rest).map (Prod.map (piece :: ·) id) := by
  rw [Dialect.read.eq_3 _ _ _ _ (fun _ _ is => absurd is other), if_neg goesOn, reads]
  cases dialect.read separator rest <;> rfl

theorem Dialect.read_refused {c : Char} (other : c ≠ '\\') (goesOn : c ≠ separator)
    (refused : dialect.plain c = none) (rest : List Char) : dialect.read separator (c :: rest) = none := by
  rw [Dialect.read.eq_3 _ _ _ _ (fun _ _ is => absurd is other), if_neg goesOn, refused]
  rfl

theorem Dialect.read_separator (other : separator ≠ '\\') (rest : List Char) :
    dialect.read separator (separator :: rest) = some ([], rest) := by
  rw [Dialect.read.eq_3 _ _ _ _ (fun _ _ is => absurd is other), if_pos rfl]

/-- Escaped as `special` says, the character stands for itself. -/
structure Fits (dialect : Dialect) (separator : Char) (special : Char → Bool) (c : Char) : Prop where
  escaped : special c = true → dialect.escaped c = some (.char c)
  plain : special c = false → dialect.plain c = some (.char c) ∧ c ≠ '\\' ∧ c ≠ separator

theorem escape_cons (special : Char → Bool) (c : Char) (text : List Char) :
    escape special (c :: text) = (if special c then ['\\', c] else [c]) ++ escape special text := rfl

theorem escape_append (special : Char → Bool) (left right : List Char) :
    escape special (left ++ right) = escape special left ++ escape special right := List.flatMap_append

theorem getLast?_escape (special : Char → Bool) (text : List Char) :
    (escape special text).getLast? = text.getLast? := by
  rcases List.eq_nil_or_concat text with rfl | ⟨before, c, rfl⟩
  · rfl
  · rw [List.concat_eq_append, escape_append, escape_cons]
    cases special c <;> simp [escape]

/-- What was escaped is read back, whatever follows it. -/
theorem read_escape_append {text : List Char} (fits : ∀ c ∈ text, Fits dialect separator special c)
    (rest : List Char) : dialect.read separator (escape special text ++ rest) =
      (dialect.read separator rest).map (Prod.map (text.map Piece.char ++ ·) id) := by
  induction text with
  | nil =>
      change dialect.read separator rest = _
      cases dialect.read separator rest <;> rfl
  | cons c text ih =>
      have first := fits c List.mem_cons_self
      have tail := ih fun d among => fits d (List.mem_cons_of_mem _ among)
      rw [escape_cons, List.append_assoc]
      cases is : special c with
      | true =>
          rw [if_pos rfl, List.cons_append, List.cons_append, List.nil_append,
            Dialect.read_escaped (first.escaped is), tail, Option.map_map]
          rfl
      | false =>
          obtain ⟨reads, other, goesOn⟩ := first.plain is
          rw [if_neg Bool.false_ne_true, List.cons_append, List.nil_append,
            Dialect.read_plain other goesOn reads, tail, Option.map_map]
          rfl

theorem read_escape (other : separator ≠ '\\') {text : List Char}
    (fits : ∀ c ∈ text, Fits dialect separator special c) (flags : List Char) :
    dialect.read separator (escape special text ++ separator :: flags) = some (text.map Piece.char, flags) := by
  rw [read_escape_append fits, Dialect.read_separator other, Option.map_some, Prod.map_apply, List.append_nil]
  rfl

theorem read_escape_refused {c : Char} (other : c ≠ '\\') (goesOn : c ≠ separator) (bare : special c = false)
    (refused : dialect.plain c = none) {before : List Char}
    (fits : ∀ c ∈ before, Fits dialect separator special c) (after rest : List Char) :
    dialect.read separator (escape special (before ++ c :: after) ++ rest) = none := by
  rw [escape_append, escape_cons, if_neg (by simp [bare]), List.append_assoc, read_escape_append fits,
    List.append_assoc, List.singleton_append, Dialect.read_refused other goesOn refused, Option.map_none]

def Piece.put (found : List Char) : Piece → List Char
  | .char c => [c]
  | .found => found

theorem flatMap_put (found text : List Char) : (text.map Piece.char).flatMap (Piece.put found) = text := by
  induction text with
  | nil => rfl
  | cons c text ih => rw [List.map_cons, List.flatMap_cons, ih, Piece.put, List.singleton_append]

/-! ## Every occurrence of a text -/

/-- The occurrences of `pattern` from the left, without overlaps; `skip` more characters of one. -/
def replaceFrom (pattern new : List Char) : Nat → List Char → List Char
  | _, [] => []
  | skip + 1, _ :: rest => replaceFrom pattern new skip rest
  | 0, c :: rest =>
      if pattern.isPrefixOf (c :: rest) then new ++ replaceFrom pattern new (pattern.length - 1) rest
      else c :: replaceFrom pattern new 0 rest

def replaceAll (pattern new text : List Char) : List Char := replaceFrom pattern new 0 text

variable {pattern new : List Char} {mark : Char}

theorem replaceFrom_append (gone rest : List Char) :
    replaceFrom pattern new gone.length (gone ++ rest) = replaceAll pattern new rest := by
  induction gone with
  | nil => rfl
  | cons c gone ih => rw [List.length_cons, List.cons_append, replaceFrom, ih]

theorem replaceAll_found (nonempty : pattern ≠ []) (rest : List Char) :
    replaceAll pattern new (pattern ++ rest) = new ++ replaceAll pattern new rest := by
  obtain ⟨c, tail, rfl⟩ := List.exists_cons_of_ne_nil nonempty
  have found : (c :: tail).isPrefixOf (c :: (tail ++ rest)) = true :=
    List.isPrefixOf_iff_prefix.mpr (List.prefix_append (c :: tail) rest)
  rw [replaceAll, List.cons_append, replaceFrom, if_pos found]
  exact congrArg (new ++ ·) (replaceFrom_append tail rest)

theorem replaceAll_cons {c : Char} {rest : List Char} (absent : ¬ pattern <+: c :: rest) :
    replaceAll pattern new (c :: rest) = c :: replaceAll pattern new rest := by
  rw [replaceAll, replaceFrom, if_neg (fun found => absent (List.isPrefixOf_iff_prefix.mp found))]
  rfl

/-- A text without the first character of the pattern stays. -/
theorem replaceAll_unmarked (begins : pattern.head? = some mark) {text : List Char} (unmarked : mark ∉ text)
    (rest : List Char) : replaceAll pattern new (text ++ rest) = text ++ replaceAll pattern new rest := by
  induction text with
  | nil => rfl
  | cons c text ih =>
      have absent : ¬ pattern <+: c :: (text ++ rest) := by
        rintro ⟨more, same⟩
        obtain ⟨tail, rfl⟩ := List.head?_eq_some_iff.mp begins
        exact unmarked (List.mem_cons.mpr (.inl (List.cons.inj same).1))
      rw [List.cons_append, replaceAll_cons absent,
        ih fun among => unmarked (List.mem_cons_of_mem _ among), List.cons_append]

/-- A character in neither of the two texts is there as often as before. -/
theorem count_replaceFrom {c : Char} (nonempty : pattern ≠ []) (inPattern : c ∉ pattern) (inNew : c ∉ new)
    (text : List Char) (skip : Nat) (skipped : c ∉ text.take skip) :
    (replaceFrom pattern new skip text).count c = text.count c := by
  induction text generalizing skip with
  | nil => cases skip <;> rfl
  | cons d rest ih =>
      cases skip with
      | succ skip =>
          rw [List.take_succ_cons, List.mem_cons, not_or] at skipped
          rw [replaceFrom, ih skip skipped.2, List.count_cons_of_ne (Ne.symm skipped.1)]
      | zero =>
          rw [replaceFrom]
          split
          · rename_i found
            obtain ⟨first, tail, rfl⟩ := List.exists_cons_of_ne_nil nonempty
            obtain ⟨more, same⟩ := List.isPrefixOf_iff_prefix.mp found
            obtain ⟨rfl, rfl⟩ := List.cons.inj same
            rw [List.mem_cons, not_or] at inPattern
            have skipped : c ∉ (tail ++ more).take ((first :: tail).length - 1) := by
              rw [List.length_cons, Nat.add_sub_cancel, List.take_left]
              exact inPattern.2
            rw [List.count_append, List.count_eq_zero.mpr inNew, ih _ skipped,
              List.count_cons_of_ne (Ne.symm inPattern.1), Nat.zero_add]
          · rw [List.count_cons, List.count_cons, ih 0 (by simp)]

theorem count_replaceAll {c : Char} (nonempty : pattern ≠ []) (inPattern : c ∉ pattern) (inNew : c ∉ new)
    (text : List Char) : (replaceAll pattern new text).count c = text.count c :=
  count_replaceFrom nonempty inPattern inNew text 0 (by simp)

/-! ## Templates -/

inductive Fragment (ν : Type)
  | text (chars : List Char)
  | hole (name : ν)

variable {ν : Type}

def Fragment.put (value : ν → List Char) : Fragment ν → List Char
  | .text chars => chars
  | .hole name => value name

def render (value : ν → List Char) (parts : List (Fragment ν)) : List Char := parts.flatMap (Fragment.put value)

/-- How the holes are written: each begins with the mark, which is nowhere else, and none is the
beginning of another. -/
structure Marked (mark : Char) (placeholder : ν → List Char) : Prop where
  begins : ∀ name, ∃ tail, placeholder name = mark :: tail ∧ mark ∉ tail
  apart : ∀ name other, name ≠ other → ∀ rest, ¬ placeholder name <+: placeholder other ++ rest

def Fragment.Unmarked (mark : Char) : Fragment ν → Prop
  | .text chars => mark ∉ chars
  | .hole _ => True

instance (mark : Char) : (part : Fragment ν) → Decidable (part.Unmarked mark)
  | .text chars => inferInstanceAs (Decidable (mark ∉ chars))
  | .hole _ => isTrue trivial

variable {placeholder : ν → List Char} [DecidableEq ν]

/-- A substitution fills the holes of its name, where the holes filled before are free of the mark. -/
theorem replaceAll_render (marked : Marked mark placeholder) {value : ν → List Char} {name : ν}
    (open' : value name = placeholder name) {parts : List (Fragment ν)} (unmarked : ∀ part ∈ parts, part.Unmarked mark)
    (filled : ∀ other, value other = placeholder other ∨ mark ∉ value other) :
    replaceAll (placeholder name) new (render value parts) = render (Function.update value name new) parts := by
  obtain ⟨tail, named, -⟩ := marked.begins name
  have begins : (placeholder name).head? = some mark := by rw [named, List.head?_cons]
  have nonempty : placeholder name ≠ [] := by simp [named]
  induction parts with
  | nil => rfl
  | cons part parts ih =>
      have later := ih fun part among => unmarked part (List.mem_cons_of_mem _ among)
      have here := unmarked part List.mem_cons_self
      simp only [render, List.flatMap_cons] at later ⊢
      cases part with
      | text chars => rw [Fragment.put, Fragment.put, replaceAll_unmarked begins here, later]
      | hole other =>
          by_cases same : other = name
          · subst same
            rw [Fragment.put, open', replaceAll_found nonempty, later, Fragment.put, Function.update_self]
          · rw [Fragment.put, Fragment.put, Function.update_of_ne same]
            rcases filled other with stillOpen | without
            · rw [stillOpen]
              obtain ⟨otherTail, otherNamed, free⟩ := marked.begins other
              have absent := marked.apart name other (Ne.symm same)
              rw [otherNamed, List.cons_append, replaceAll_cons, replaceAll_unmarked begins free, later,
                List.cons_append]
              rw [← List.cons_append, ← otherNamed]
              exact absent _
            · rw [replaceAll_unmarked begins without, later]

end PowerBlockade.Lib.Substitution
