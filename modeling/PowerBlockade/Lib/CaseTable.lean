import Mathlib.Data.List.DropRight

/-!
# Lower case

Lower casing of a whole text over the tables of the Unicode standard: character by character, but
for the capital sigma, whose small form depends on what stands around it.
-/

namespace PowerBlockade.Lib

/-- The mapping to lower case and the two properties `Cased` and `Case_Ignorable`, with what every
version of the standard says about them. -/
structure CaseTable where
  lowerOf : Char → List Char
  cased : Char → Bool
  ignorable : Char → Bool
  nonempty : ∀ c, lowerOf c ≠ []
  settled : ∀ c, ∀ d ∈ lowerOf c, lowerOf d = [d]
  uncased : ∀ c, cased c = false → lowerOf c = [c]
  image : ∀ c, ∀ d ∈ lowerOf c, d = c ∨ cased d = true ∨ ignorable d = true
  ascii : ∀ c, c.toNat < 128 → lowerOf c = [c.toLower]
  asciiImage : ∀ c, ∀ d ∈ lowerOf c, d.toNat < 128 → d = c ∨ d.isLower = true
  asciiCased : ∀ c, c.toNat < 128 → cased c = c.isAlpha
  asciiIgnorable : ∀ c, c.toNat < 128 → ignorable c = true → c ∈ ['\'', '.', ':', '^', '\x60']
  sigma : lowerOf 'Σ' = ['σ']
  smallSigma : cased 'σ' = true
  finalSigma : cased 'ς' = true ∧ lowerOf 'ς' = ['ς']

namespace CaseTable
variable (table : CaseTable)

/-- A cased letter follows, perhaps behind ignorable characters. -/
def ahead (rest : List Char) : Bool := (rest.dropWhile table.ignorable).head?.any table.cased

def after (prior : Bool) (c : Char) : Bool := if table.ignorable c then prior else table.cased c

def lowered (prior : Bool) (c : Char) (rest : List Char) : List Char :=
  if c = 'Σ' then [if prior && !table.ahead rest then 'ς' else 'σ'] else table.lowerOf c

/-- `prior`: a cased letter came before, perhaps with ignorable characters after it. -/
def lowerFrom (prior : Bool) : List Char → List Char
  | [] => []
  | c :: rest => table.lowered prior c rest ++ lowerFrom (table.after prior c) rest

def lower (text : List Char) : List Char := table.lowerFrom false text

/-- Its own lower case, and no other character's. -/
def Inert (c : Char) : Prop := table.cased c = false ∧ ∀ e, c ∈ table.lowerOf e → e = c

variable {table}

/-! ## One character -/

theorem Inert.of_not_ignorable {c : Char} (plain : table.cased c = false)
    (solid : table.ignorable c = false) : table.Inert c := by
  refine ⟨plain, fun e member => ?_⟩
  rcases table.image e c member with same | isCased | isIgnorable
  · exact same.symm
  · exact absurd isCased (by simp [plain])
  · exact absurd isIgnorable (by simp [solid])

theorem Inert.of_ascii {c : Char} (small : c.toNat < 128) (notLetter : c.isAlpha = false) :
    table.Inert c := by
  refine ⟨(table.asciiCased c small).trans notLetter, fun e member => ?_⟩
  rcases table.asciiImage e c member small with same | isLower
  · exact same.symm
  · have letter : c.isAlpha = true := by
      show (c.isUpper || c.isLower) = true
      rw [isLower, Bool.or_true]
    exact absurd notLetter (by simp [letter])

theorem sigma_cased : table.cased 'Σ' = true := by
  by_contra notCased
  have fixed := table.uncased 'Σ' (by simpa using notCased)
  exact absurd (table.sigma.symm.trans fixed) (by decide)

theorem lowered_uncased {c : Char} (plain : table.cased c = false) (prior : Bool)
    (rest : List Char) : table.lowered prior c rest = [c] := by
  have other : c ≠ 'Σ' := by
    rintro rfl
    exact absurd plain (by simp [sigma_cased])
  rw [lowered, if_neg other, table.uncased c plain]

theorem lowered_ne_nil (prior : Bool) (c : Char) (rest : List Char) :
    table.lowered prior c rest ≠ [] := by
  unfold lowered
  split
  · exact List.cons_ne_nil _ _
  · exact table.nonempty c

theorem settled_of_mem_lowered {prior : Bool} {c d : Char} {rest : List Char}
    (member : d ∈ table.lowered prior c rest) : table.lowerOf d = [d] := by
  unfold lowered at member
  split at member
  · have small : table.lowerOf 'σ' = ['σ'] := table.settled 'Σ' 'σ' (by simp [table.sigma])
    split at member <;> obtain rfl := List.mem_singleton.mp member
    · exact table.finalSigma.2
    · exact small
  · exact table.settled c d member

theorem eq_of_mem_lowered {prior : Bool} {c d : Char} {rest : List Char} (inert : table.Inert d)
    (member : d ∈ table.lowered prior c rest) : c = d := by
  unfold lowered at member
  split at member
  · split at member <;> obtain rfl := List.mem_singleton.mp member
    · exact absurd inert.1 (by simp [table.finalSigma.1])
    · exact absurd inert.1 (by simp [table.smallSigma])
  · exact inert.2 c member

theorem after_uncased {c : Char} (plain : table.cased c = false) : table.after false c = false := by
  simp [after, plain]

/-! ## Cutting a text -/

theorem ahead_append_separator {c : Char} (plain : table.cased c = false)
    (solid : table.ignorable c = false) (text rest : List Char) :
    table.ahead (text ++ c :: rest) = table.ahead text := by
  induction text with
  | nil => simp [ahead, plain, solid]
  | cons d text ih =>
      cases skip : table.ignorable d
      · simp [ahead, skip]
      · simpa [ahead, skip] using ih

theorem ahead_append_uncased {tail : List Char} (plain : ∀ c ∈ tail, table.cased c = false)
    (text : List Char) : table.ahead (text ++ tail) = table.ahead text := by
  induction text with
  | nil =>
      have none : ((tail.dropWhile table.ignorable).head?.any table.cased) = false := by
        cases left : tail.dropWhile table.ignorable with
        | nil => rfl
        | cons d later =>
            have member := (List.dropWhile_suffix table.ignorable).subset
              (left ▸ List.mem_cons_self : d ∈ tail.dropWhile table.ignorable)
            simpa using plain d member
      simpa [ahead] using none
  | cons d text ih =>
      cases skip : table.ignorable d
      · simp [ahead, skip]
      · simpa [ahead, skip] using ih

theorem lowered_congr {rest rest' : List Char} (same : table.ahead rest = table.ahead rest')
    (prior : Bool) (c : Char) : table.lowered prior c rest = table.lowered prior c rest' := by
  simp only [lowered, same]

/-- A separator hides what follows it from what stands before it, and the other way round. -/
theorem lowerFrom_append_separator {c : Char} (plain : table.cased c = false)
    (solid : table.ignorable c = false) (prior : Bool) (text rest : List Char) :
    table.lowerFrom prior (text ++ c :: rest) =
      table.lowerFrom prior text ++ c :: table.lower rest := by
  induction text generalizing prior with
  | nil =>
      have reset : table.after prior c = false := by simp [after, plain, solid]
      simp [lowerFrom, lowered_uncased plain, reset, lower]
  | cons d text ih =>
      have same := lowered_congr (ahead_append_separator plain solid text rest) prior d
      rw [List.cons_append, lowerFrom, same, ih, lowerFrom, List.append_assoc]

theorem lower_uncased_append {lead : List Char} (plain : ∀ c ∈ lead, table.cased c = false)
    (text : List Char) : table.lower (lead ++ text) = lead ++ table.lower text := by
  induction lead with
  | nil => rfl
  | cons c lead ih =>
      obtain ⟨first, others⟩ := List.forall_mem_cons.mp plain
      have later := ih others
      unfold lower at later ⊢
      rw [List.cons_append, lowerFrom, lowered_uncased first, after_uncased first, later]
      rfl

theorem lower_cons_uncased {c : Char} (plain : table.cased c = false) (rest : List Char) :
    table.lower (c :: rest) = c :: table.lower rest := by
  have lead : ∀ d ∈ [c], table.cased d = false := by simpa using plain
  exact lower_uncased_append lead rest

theorem lowerFrom_uncased {text : List Char} (plain : ∀ c ∈ text, table.cased c = false)
    (prior : Bool) : table.lowerFrom prior text = text := by
  induction text generalizing prior with
  | nil => rfl
  | cons c rest ih =>
      obtain ⟨first, others⟩ := List.forall_mem_cons.mp plain
      rw [lowerFrom, lowered_uncased first, ih others]
      rfl

theorem lowerFrom_append_uncased {tail : List Char} (plain : ∀ c ∈ tail, table.cased c = false)
    (prior : Bool) (text : List Char) :
    table.lowerFrom prior (text ++ tail) = table.lowerFrom prior text ++ tail := by
  induction text generalizing prior with
  | nil => exact lowerFrom_uncased plain prior
  | cons d text ih =>
      have same := lowered_congr (ahead_append_uncased plain text) prior d
      rw [List.cons_append, lowerFrom, same, ih, lowerFrom, List.append_assoc]

theorem lower_append_uncased {tail : List Char} (plain : ∀ c ∈ tail, table.cased c = false)
    (text : List Char) : table.lower (text ++ tail) = table.lower text ++ tail :=
  lowerFrom_append_uncased plain false text

/-! ## The characters of the result -/

theorem settled_of_mem_lowerFrom {prior : Bool} {text : List Char} {d : Char}
    (member : d ∈ table.lowerFrom prior text) : table.lowerOf d = [d] := by
  induction text generalizing prior with
  | nil => exact absurd member List.not_mem_nil
  | cons c rest ih =>
      rw [lowerFrom, List.mem_append] at member
      cases member with
      | inl first => exact settled_of_mem_lowered first
      | inr later => exact ih later

theorem settled_of_mem_lower {text : List Char} {d : Char} (member : d ∈ table.lower text) :
    table.lowerOf d = [d] :=
  settled_of_mem_lowerFrom member

theorem lowerFrom_of_settled {text : List Char} (settled : ∀ c ∈ text, table.lowerOf c = [c])
    (prior : Bool) : table.lowerFrom prior text = text := by
  induction text generalizing prior with
  | nil => rfl
  | cons c rest ih =>
      obtain ⟨first, others⟩ := List.forall_mem_cons.mp settled
      have other : c ≠ 'Σ' := by
        rintro rfl
        exact absurd (table.sigma.symm.trans first) (by decide)
      rw [lowerFrom, lowered, if_neg other, first, ih others]
      rfl

theorem lower_of_settled {text : List Char} (settled : ∀ c ∈ text, table.lowerOf c = [c]) :
    table.lower text = text :=
  lowerFrom_of_settled settled false

theorem lower_of_small {text : List Char}
    (small : ∀ c ∈ text, c.toNat < 128 ∧ c.toLower = c) : table.lower text = text := by
  apply lower_of_settled
  intro c member
  obtain ⟨ascii, same⟩ := small c member
  rw [table.ascii c ascii, same]

theorem mem_lowerFrom_iff {c : Char} (inert : table.Inert c) {prior : Bool} {text : List Char} :
    c ∈ table.lowerFrom prior text ↔ c ∈ text := by
  induction text generalizing prior with
  | nil => rfl
  | cons d rest ih =>
      rw [lowerFrom, List.mem_append, ih, List.mem_cons]
      apply or_congr_left
      constructor
      · intro member
        exact (eq_of_mem_lowered inert member).symm
      · rintro rfl
        rw [lowered_uncased inert.1]
        exact List.mem_singleton_self c

@[simp] theorem mem_lower_iff {c : Char} (inert : table.Inert c) {text : List Char} :
    c ∈ table.lower text ↔ c ∈ text :=
  mem_lowerFrom_iff inert

variable {p : Char → Bool}

theorem forall_lower_iff (inert : ∀ c, p c = true → table.Inert c)
    {text : List Char} : (∀ c ∈ table.lower text, p c = false) ↔ ∀ c ∈ text, p c = false := by
  constructor <;> intro absent c member <;> by_contra present
  · have isInert := inert c (by simpa using present)
    exact present (absent c ((mem_lower_iff isInert).mpr member))
  · have isInert := inert c (by simpa using present)
    exact present (absent c ((mem_lower_iff isInert).mp member))

theorem lower_eq_nil_iff {text : List Char} : table.lower text = [] ↔ text = [] := by
  cases text with
  | nil => exact iff_of_true rfl rfl
  | cons c rest => simp [lower, lowerFrom, lowered_ne_nil]

theorem startsWith_lower {c : Char} (inert : table.Inert c) (text : List Char) :
    [c] <+: table.lower text ↔ [c] <+: text := by
  cases text with
  | nil => rfl
  | cons d rest =>
      cases first : table.lowered false d rest with
      | nil => exact absurd first (lowered_ne_nil false d rest)
      | cons e later =>
          have whole : table.lower (d :: rest) =
              e :: (later ++ table.lowerFrom (table.after false d) rest) := by
            rw [lower, lowerFrom, first, List.cons_append]
          have member : e ∈ table.lowered false d rest := first ▸ List.mem_cons_self
          have same : c = e ↔ c = d := by
            constructor
            · rintro rfl
              exact (eq_of_mem_lowered inert member).symm
            · rintro rfl
              rw [lowered_uncased inert.1] at member
              exact (List.mem_singleton.mp member).symm
          simpa [whole, List.cons_prefix_cons] using same

theorem length_lowerFrom (prior : Bool) (text : List Char) :
    (table.lowerFrom prior text).length = (text.flatMap table.lowerOf).length := by
  induction text generalizing prior with
  | nil => rfl
  | cons c rest ih =>
      have one : (table.lowered prior c rest).length = (table.lowerOf c).length := by
        unfold lowered
        split
        · rename_i sigma
          rw [sigma, table.sigma]
          rfl
        · rfl
      rw [lowerFrom, List.length_append, one, ih, List.flatMap_cons, List.length_append]

variable (table) in
theorem eq_nil_of_length {text : List Char} (zero : (text.flatMap table.lowerOf).length = 0) :
    text = [] := by
  cases text with
  | nil => rfl
  | cons c rest =>
      have some := List.length_pos_iff.mpr (table.nonempty c)
      rw [List.flatMap_cons, List.length_append] at zero
      omega

/-- No character is lost, so a part has the lower case of the whole only if it is the whole. -/
theorem eq_of_infix_of_lower {part text : List Char} (inside : part <:+: text)
    (same : table.lower part = table.lower text) : part = text := by
  obtain ⟨front, back, rfl⟩ := inside
  have lengths := congrArg List.length same
  rw [lower, lower, length_lowerFrom, length_lowerFrom, List.flatMap_append, List.flatMap_append,
    List.length_append, List.length_append] at lengths
  have noFront : front = [] := eq_nil_of_length table (by omega)
  have noBack : back = [] := eq_nil_of_length table (by omega)
  rw [noFront, noBack, List.nil_append, List.append_nil]

/-! ## Stripping inert characters -/

theorem dropWhile_lower_of_not (inert : ∀ c, p c = true → table.Inert c) {c : Char} (other : p c = false)
    (rest : List Char) : (table.lower (c :: rest)).dropWhile p = table.lower (c :: rest) := by
  rw [lower, lowerFrom]
  cases first : table.lowered false c rest with
  | nil => exact absurd first (lowered_ne_nil false c rest)
  | cons d later =>
      have member : d ∈ table.lowered false c rest := first ▸ List.mem_cons_self
      have stays : ¬ p d = true := by
        intro dropped
        have same := eq_of_mem_lowered (inert d dropped) member
        exact absurd dropped (by simp [← same, other])
      rw [List.cons_append, List.dropWhile_cons_of_neg stays]

theorem dropWhile_lower (inert : ∀ c, p c = true → table.Inert c) (text : List Char) :
    (table.lower text).dropWhile p = table.lower (text.dropWhile p) := by
  induction text with
  | nil => rfl
  | cons c rest ih =>
      cases dropped : p c with
      | false => rw [dropWhile_lower_of_not inert dropped, List.dropWhile_cons_of_neg (by simp [dropped])]
      | true =>
          rw [lower_cons_uncased (inert c dropped).1, List.dropWhile_cons_of_pos dropped, List.dropWhile_cons_of_pos dropped, ih]

theorem rdropWhile_lower_of_not (inert : ∀ c, p c = true → table.Inert c) {c : Char} (other : p c = false)
    (text : List Char) : (table.lower (text ++ [c])).rdropWhile p = table.lower (text ++ [c]) := by
  have ends (prior : Bool) : ∃ before d, table.lowerFrom prior (text ++ [c]) = before ++ [d] ∧
      p d = false := by
    induction text generalizing prior with
    | nil =>
        obtain ⟨before, d, last⟩ : ∃ before d, table.lowered prior c [] = before ++ [d] :=
          ⟨_, _, (List.dropLast_append_getLast (lowered_ne_nil prior c [])).symm⟩
        refine ⟨before, d, by simp [lowerFrom, last], ?_⟩
        by_contra dropped
        have gone : p d = true := by simpa using dropped
        have member : d ∈ table.lowered prior c [] := by simp [last]
        have same := eq_of_mem_lowered (inert d gone) member
        exact dropped (same ▸ other)
    | cons e text ih =>
        obtain ⟨before, d, last, stays⟩ := ih (table.after prior e)
        exact ⟨table.lowered prior e (text ++ [c]) ++ before, d,
          by rw [List.cons_append, lowerFrom, last, List.append_assoc], stays⟩
  obtain ⟨before, d, last, stays⟩ := ends false
  rw [lower, last, List.rdropWhile_concat_neg _ _ _ (by simp [stays])]

theorem rdropWhile_lower (inert : ∀ c, p c = true → table.Inert c) (text : List Char) :
    (table.lower text).rdropWhile p = table.lower (text.rdropWhile p) := by
  induction text using List.reverseRecOn with
  | nil => rfl
  | append_singleton text c ih =>
      cases dropped : p c with
      | false => rw [rdropWhile_lower_of_not inert dropped, List.rdropWhile_concat_neg _ _ _ (by simp [dropped])]
      | true =>
          have tail : ∀ d ∈ [c], table.cased d = false := by simpa using (inert c dropped).1
          rw [lower_append_uncased tail, List.rdropWhile_concat_pos _ _ _ dropped,
            List.rdropWhile_concat_pos _ _ _ dropped, ih]

end CaseTable

end PowerBlockade.Lib
