import Mathlib.Data.List.Infix

/-!
# LIKE patterns

`%` stands for any text, `_` for any character, and a backslash before a character for that character.
-/

namespace PowerBlockade.Lib.Like

inductive Token
  | many
  | one
  | lit (c : Char)
deriving DecidableEq

/-- A backslash at the very end, which the database refuses, stands for itself here. -/
def tokens : List Char → List Token
  | [] => []
  | '\\' :: c :: rest => .lit c :: tokens rest
  | '%' :: rest => .many :: tokens rest
  | '_' :: rest => .one :: tokens rest
  | c :: rest => .lit c :: tokens rest

def accepts : List Token → List Char → Bool
  | [], text => text.isEmpty
  | .many :: rest, text => text.tails.any (accepts rest)
  | .one :: rest, text => match text with
      | [] => false
      | _ :: after => accepts rest after
  | .lit c :: rest, text => match text with
      | [] => false
      | d :: after => c == d && accepts rest after

def special (c : Char) : Bool := c == '\\' || c == '%' || c == '_'

def Plain (text : List Char) : Prop := ∀ c ∈ text, special c = false

variable {rest : List Token} {text : List Char}

theorem accepts_many :
    accepts (.many :: rest) text = true ↔ ∃ before after, text = before ++ after ∧ accepts rest after = true := by
  rw [accepts, List.any_eq_true]
  constructor
  · rintro ⟨after, tail, accepted⟩
    obtain ⟨before, whole⟩ := (List.mem_tails _ _).1 tail
    exact ⟨before, after, whole.symm, accepted⟩
  · rintro ⟨before, after, rfl, accepted⟩
    exact ⟨after, (List.mem_tails _ _).2 (List.suffix_append before after), accepted⟩

theorem accepts_lits {lits : List Char} :
    accepts (lits.map .lit ++ rest) text = true ↔ ∃ after, text = lits ++ after ∧ accepts rest after = true := by
  induction lits generalizing text with
  | nil => simp
  | cons c lits ih =>
      cases text with
      | nil => simp [accepts]
      | cons d text =>
          simp only [List.map_cons, List.cons_append, accepts, Bool.and_eq_true, beq_iff_eq, ih,
            List.cons.injEq]
          constructor
          · rintro ⟨rfl, after, whole, accepted⟩
            exact ⟨after, ⟨rfl, whole⟩, accepted⟩
          · rintro ⟨after, ⟨rfl, whole⟩, accepted⟩
            exact ⟨rfl, after, whole, accepted⟩

/-- Literal characters between two `%` are searched for. -/
theorem accepts_infix {lits : List Char} :
    accepts (.many :: (lits.map .lit ++ [.many])) text = true ↔ lits <:+: text := by
  simp only [accepts_many, accepts_lits]
  constructor
  · rintro ⟨before, _, rfl, after, rfl, -⟩
    exact ⟨before, after, by simp⟩
  · rintro ⟨before, after, rfl⟩
    exact ⟨before, lits ++ after, by simp, after, rfl, after, [], by simp, rfl⟩

/-! ## Folding characters -/

def Token.map (f : Char → Char) : Token → Token
  | .many => .many
  | .one => .one
  | .lit c => .lit (f c)

/-- A folding that neither moves the special characters nor maps another one to them. -/
structure Folding where
  fold : Char → Char
  special : ∀ c s, Like.special s = true → (fold c = s ↔ c = s)

variable (folding : Folding)

theorem Folding.fold_special {s : Char} (isSpecial : Like.special s = true) : folding.fold s = s :=
  (folding.special s s isSpecial).2 rfl

theorem tokens_map (pattern : List Char) :
    tokens (pattern.map folding.fold) = (tokens pattern).map (Token.map folding.fold) := by
  induction pattern using tokens.induct with
  | case1 => rfl
  | case2 c rest ih =>
      rw [List.map_cons, List.map_cons, folding.fold_special rfl, tokens, ih, tokens]
      rfl
  | case3 rest ih =>
      rw [List.map_cons, folding.fold_special rfl, tokens, ih, tokens]
      rfl
  | case4 rest ih =>
      rw [List.map_cons, folding.fold_special rfl, tokens, ih, tokens]
      rfl
  | case5 c rest escaped many one ih =>
      rw [List.map_cons, tokens.eq_5 _ _ ?_ ?_ ?_, ih, tokens.eq_5 _ _ escaped many one]
      · rfl
      · intro d after backslash tail
        cases rest with
        | nil => simp at tail
        | cons e rest => exact escaped e rest ((folding.special c _ rfl).1 backslash) rfl
      · exact fun percent => many ((folding.special c _ rfl).1 percent)
      · exact fun underscore => one ((folding.special c _ rfl).1 underscore)

theorem tokens_plain {lits : List Char} (plain : Plain lits) :
    tokens (lits ++ ['%']) = lits.map .lit ++ [.many] := by
  induction lits with
  | nil => rfl
  | cons c lits ih =>
      have literal : special c = false := plain c (by simp)
      simp only [special, Bool.or_eq_false_iff, beq_eq_false_iff_ne] at literal
      rw [List.cons_append, tokens.eq_5 _ _ (fun _ _ same => absurd same literal.1.1) literal.1.2 literal.2,
        ih fun d member => plain d (by simp [member])]
      rfl

/-! ## A text that a pattern accepts -/

def sample : List Token → List Char
  | [] => []
  | .many :: rest => sample rest
  | .one :: rest => 'z' :: sample rest
  | .lit c :: rest => c :: sample rest

theorem accepts_sample (f : Char → Char) (list : List Token) :
    accepts (list.map (Token.map f)) ((sample list).map f) = true := by
  induction list with
  | nil => rfl
  | cons token rest ih =>
      cases token with
      | many => exact accepts_many.2 ⟨[], _, rfl, ih⟩
      | one => exact ih
      | lit c => simpa [Token.map, sample, accepts] using ih

/-- The last case of `tokens`, for a character before a closing `%`. -/
theorem tokens_cons_many {c : Char} {rest : List Char} (escaped : ∀ d after, c = '\\' → rest = d :: after → False)
    (many : c = '%' → False) (one : c = '_' → False) (inside : ¬(c = '\\' ∧ rest = [])) :
    tokens (c :: rest ++ ['%']) = .lit c :: tokens (rest ++ ['%']) := by
  refine tokens.eq_5 _ _ (fun d after backslash tail => ?_) many one
  cases rest with
  | nil => exact inside ⟨backslash, rfl⟩
  | cons e rest => exact escaped e rest backslash rfl

theorem length_sample_le (lits : List Char) : (sample (tokens (lits ++ ['%']))).length ≤ lits.length := by
  induction lits using tokens.induct with
  | case1 => decide
  | case2 c rest ih => simp only [List.cons_append, tokens, sample, List.length_cons]; omega
  | case3 rest ih => simp only [List.cons_append, tokens, sample, List.length_cons]; omega
  | case4 rest ih => simp only [List.cons_append, tokens, sample, List.length_cons]; omega
  | case5 c rest escaped many one ih =>
      by_cases ends : c = '\\' ∧ rest = []
      · obtain ⟨rfl, rfl⟩ := ends
        decide
      · rw [tokens_cons_many escaped many one ends]
        simp only [sample, List.length_cons]
        omega

theorem plain_of_sample {lits : List Char}
    (same : (sample (tokens (lits ++ ['%']))).map folding.fold = lits.map folding.fold) : Plain lits := by
  induction lits using tokens.induct with
  | case1 => exact fun c member => absurd member List.not_mem_nil
  | case2 c rest ih =>
      have lengths := congrArg List.length same
      have shorter := length_sample_le rest
      simp only [List.cons_append, tokens, sample, List.length_map, List.length_cons] at lengths
      omega
  | case3 rest ih =>
      have lengths := congrArg List.length same
      have shorter := length_sample_le rest
      simp only [List.cons_append, tokens, sample, List.length_map, List.length_cons] at lengths
      omega
  | case4 rest ih =>
      simp only [List.cons_append, tokens, sample, List.map_cons, List.cons.injEq] at same
      rw [folding.fold_special (s := '_') rfl, folding.special _ _ rfl] at same
      exact absurd same.1 (by decide)
  | case5 c rest escaped many one ih =>
      by_cases ends : c = '\\' ∧ rest = []
      · obtain ⟨rfl, rfl⟩ := ends
        have percent : folding.fold '%' = folding.fold '\\' := (List.cons.inj same).1
        rw [folding.fold_special (s := '%') rfl, folding.fold_special (s := '\\') rfl] at percent
        exact absurd percent (by decide)
      · rw [tokens_cons_many escaped many one ends] at same
        have plain := ih (List.cons.inj same).2
        intro d member
        rcases List.mem_cons.1 member with rfl | later
        · have ordinary : d ≠ '\\' := by
            rintro rfl
            cases rest with
            | nil => exact ends ⟨rfl, rfl⟩
            | cons e rest => exact escaped e rest rfl rfl
          simp only [special, Bool.or_eq_false_iff, beq_eq_false_iff_ne]
          exact ⟨⟨ordinary, many⟩, one⟩
        · exact plain d later

/-- A search for what contains a text is one exactly when the text has none of the special characters. -/
theorem search_iff_plain (lits : List Char) :
    (∀ text : List Char, accepts (tokens (('%' :: (lits ++ ['%'])).map folding.fold)) (text.map folding.fold) = true ↔
      lits.map folding.fold <:+: text.map folding.fold) ↔ Plain lits := by
  rw [tokens_map]
  constructor
  · intro searches
    have accepted := accepts_sample folding.fold (tokens (lits ++ ['%']))
    have found := (searches (sample (tokens (lits ++ ['%'])))).1
      (accepts_many.2 ⟨[], _, rfl, accepted⟩)
    have lengths := length_sample_le lits
    have whole := found.eq_of_length_le (by simpa using lengths)
    exact plain_of_sample folding whole.symm
  · intro plain text
    have literal : (tokens ('%' :: (lits ++ ['%']))).map (Token.map folding.fold) =
        .many :: ((lits.map folding.fold).map .lit ++ [.many]) := by
      rw [tokens, tokens_plain plain]
      simp [Token.map]
    rw [literal, accepts_infix]

end PowerBlockade.Lib.Like
