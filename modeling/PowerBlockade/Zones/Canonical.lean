import PowerBlockade.Zones.Dressing

/-!
# Canonical names

When `_normalize_domain` leaves its own results alone, and when two spellings of a name meet.
-/

namespace PowerBlockade.Zones
open Lib

/-- A name as the zone and the set of allowed names have it. -/
structure Canonical (letters : Casing) (d : List Char) : Prop where
  nonempty : d ≠ []
  lowerCase : letters.lower (String.ofList d) = String.ofList d
  unspaced : ∀ c ∈ d, Python.isSpace c = false
  unmarked : ∀ c ∈ d, isCommentMark c = false
  noStar : ¬ ['*'] <+: d
  noDot : ¬ ['.'] <+: d
  noPipes : ¬ ['|', '|'] <+: d
  noDotBehind : ¬ ['.'] <:+ d
  noSlash : '/' ∉ d

/-- No blank and no mark inside, and no second pair of pipes behind what is stripped in front. -/
def Clean (s : List Char) : Prop :=
  (∀ c ∈ written s, Python.isSpace c = false ∧ isCommentMark c = false) ∧
    ¬ ['|', '|'] <+: (withoutPipes (written s)).dropWhile isLead

/-! ## Spellings of a name -/

inductive Lead
  | pipes
  | star
deriving DecidableEq

def Lead.text : Lead → List Char
  | .pipes => ['|', '|']
  | .star => ['*', '.']

/-- A name without anything that a spelling adds. -/
structure Bare (name : List Char) : Prop where
  nonempty : name ≠ []
  unmarked : ∀ c ∈ name, isCommentMark c = false
  first : ∀ c ∈ name.head?, Python.isSpace c = false ∧ isLead c = false
  last : ∀ c ∈ name.getLast?, Python.isSpace c = false ∧ c ≠ '.'
  noPipes : ¬ ['|', '|'] <+: name

structure Spelling where
  leads : List Lead
  name : List Char
  dots : Nat
  dressing : Dressing
  bare : Bare name

def leadText (leads : List Lead) : List Char := leads.flatMap Lead.text

def Spelling.body (spelling : Spelling) : List Char :=
  leadText spelling.leads ++ (spelling.name ++ List.replicate spelling.dots '.')

def Spelling.text (spelling : Spelling) : List Char := spelling.dressing.around spelling.body

/-- The leads that the strips do not reach: one pair of pipes goes, then the stars behind it. -/
def leftOver : List Lead → List Lead
  | .pipes :: leads => leads.dropWhile (· = .star)
  | leads => leads.dropWhile (· = .star)

variable {letters : Casing}

/-! ## One name -/

theorem not_startsWith_dropWhile {p : Char → Bool} {c : Char} (dropped : p c = true)
    (text : List Char) : ¬ [c] <+: text.dropWhile p := by
  intro begins
  obtain ⟨rest, whole⟩ := begins
  have nonempty : text.dropWhile p ≠ [] := by simp [← whole]
  have first := List.head_dropWhile_not p nonempty
  simp [← whole, dropped] at first

theorem bareName_begins (s : List Char) :
    bareName s <+: (withoutPipes (written s)).dropWhile isLead :=
  List.rdropWhile_prefix _ _

theorem mem_written_of_mem_bareName {s : List Char} {c : Char} (member : c ∈ bareName s) :
    c ∈ written s :=
  mem_withoutPipes ((List.dropWhile_suffix _).subset ((bareName_begins s).subset member))

/-- The strips take pipes, stars and dots. -/
theorem mem_bareName_of_mem_written {s : List Char} {c : Char} (member : c ∈ written s)
    (other : c ≠ '|' ∧ c ≠ '*' ∧ c ≠ '.') : c ∈ bareName s := by
  obtain ⟨pipe, star, dot⟩ := other
  have behind : c ∈ withoutPipes (written s) := by
    unfold withoutPipes
    split
    · rename_i rest whole
      simpa [whole, pipe] using member
    · exact member
  have left := mem_dropWhile_of_not (p := isLead) (by simp [isLead, star, dot]) behind
  exact mem_rdropWhile_of_not (by simp [dot]) left

theorem pipes_append_dots (text : List Char) {dots : List Char} (all : ∀ c ∈ dots, c = '.') :
    ['|', '|'] <+: text ++ dots ↔ ['|', '|'] <+: text := by
  have none : '|' ∉ dots := fun member => absurd (all '|' member) (by decide)
  constructor
  · intro begins
    match text with
    | [] => exact absurd (begins.subset (List.mem_cons_self)) none
    | [c] =>
        have second : ['|'] <+: dots := (List.cons_prefix_cons.mp begins).2
        exact absurd (second.subset List.mem_cons_self) none
    | c :: d :: rest => simpa [List.cons_prefix_cons] using begins
  · exact fun begins => begins.trans (List.prefix_append text dots)

theorem noPipes_iff (s : List Char) : ['|', '|'] <+: bareName s ↔
    ['|', '|'] <+: (withoutPipes (written s)).dropWhile isLead := by
  have whole := List.rdropWhile_append_rtakeWhile (p := fun c => decide (c = '.'))
    (l := (withoutPipes (written s)).dropWhile isLead)
  rw [← whole]
  refine (pipes_append_dots _ fun c member => ?_).symm
  simpa using List.mem_rtakeWhile_imp member

theorem not_endsWith_rdropWhile {p : Char → Bool} {c : Char} (dropped : p c = true)
    (text : List Char) : ¬ [c] <:+ text.rdropWhile p := by
  intro ends
  obtain ⟨before, whole⟩ := ends
  have nonempty : text.rdropWhile p ≠ [] := by simp [← whole]
  have last := List.rdropWhile_last_not p text nonempty
  simp [← whole, dropped] at last

theorem settled_lower (name : List Char) :
    letters.lower (String.ofList (letters.table.lower name)) =
      String.ofList (letters.table.lower name) := by
  rw [letters.lower_eq, String.toList_ofList,
    CaseTable.lower_of_settled fun _ => CaseTable.settled_of_mem_lower]

/-- Of the characters that no strip takes, the line has those that the name has. -/
theorem forall_written {s : List Char} {p : Char → Bool}
    (strips : p '|' = false ∧ p '*' = false ∧ p '.' = false)
    (absent : ∀ c ∈ bareName s, p c = false) : ∀ c ∈ written s, p c = false := by
  intro c member
  by_contra present
  have other : c ≠ '|' ∧ c ≠ '*' ∧ c ≠ '.' := by
    refine ⟨?_, ?_, ?_⟩ <;> rintro rfl
    · exact present strips.1
    · exact present strips.2.1
    · exact present strips.2.2
  exact present (absent c (mem_bareName_of_mem_written member other))

theorem clean_of_canonical {s : List Char}
    (canonical : Canonical letters (letters.table.lower (bareName s))) : Clean s := by
  have unspaced := (CaseTable.forall_lower_iff fun _ => letters.inert_blank).mp canonical.unspaced
  have unmarked := (CaseTable.forall_lower_iff fun _ => letters.inert_mark).mp canonical.unmarked
  refine ⟨fun c member => ⟨?_, ?_⟩, fun pipes => ?_⟩
  · exact forall_written (by decide) unspaced c member
  · exact forall_written (by decide) unmarked c member
  · exact canonical.noPipes ((letters.pipes_lower _).mpr ((noPipes_iff s).mpr pipes))

theorem canonical_of_clean {s : List Char} (accepted : ¬ Refused (bareName s)) (clean : Clean s) :
    Canonical letters (letters.table.lower (bareName s)) := by
  simp only [Refused, not_or] at accepted
  obtain ⟨nonempty, -, -, -, slash⟩ := accepted
  have star : letters.table.Inert '*' := Casing.inert_ascii (by decide) (by decide)
  have dot : letters.table.Inert '.' := Casing.inert_ascii (by decide) (by decide)
  have slashInert : letters.table.Inert '/' := Casing.inert_ascii (by decide) (by decide)
  constructor
  case nonempty => exact fun empty => nonempty (CaseTable.lower_eq_nil_iff.mp empty)
  case lowerCase => exact settled_lower (bareName s)
  case unspaced =>
    apply (CaseTable.forall_lower_iff fun _ => letters.inert_blank).mpr
    exact fun c member => (clean.1 c (mem_written_of_mem_bareName member)).1
  case unmarked =>
    apply (CaseTable.forall_lower_iff fun _ => letters.inert_mark).mpr
    exact fun c member => (clean.1 c (mem_written_of_mem_bareName member)).2
  case noStar =>
    intro begins
    have plain := (CaseTable.startsWith_lower star _).mp begins
    exact not_startsWith_dropWhile (by decide) _ (plain.trans (bareName_begins s))
  case noDot =>
    intro begins
    have plain := (CaseTable.startsWith_lower dot _).mp begins
    exact not_startsWith_dropWhile (by decide) _ (plain.trans (bareName_begins s))
  case noPipes =>
    intro begins
    exact clean.2 ((noPipes_iff s).mp ((letters.pipes_lower _).mp begins))
  case noDotBehind =>
    rw [bareName, ← CaseTable.rdropWhile_lower fun _ => letters.inert_dot]
    exact not_endsWith_rdropWhile (by decide) _
  case noSlash => exact fun member => slash ((CaseTable.mem_lower_iff slashInert).mp member)

theorem Canonical.bareName_eq {d : List Char} (canonical : Canonical letters d) :
    bareName d = d := by
  have last : ∀ c ∈ d.getLast?, Python.isSpace c = false :=
    fun c member => canonical.unspaced c (List.mem_of_mem_getLast? member)
  have trimmed : trim Python.isSpace d = d := trim_of_solid canonical.unspaced
  have uncommented := withoutComment_append last canonical.unmarked []
  have noLead : ∀ c ∈ d.head?, isLead c = false := by
    intro c member
    have begins : [c] <+: d := List.singleton_prefix_iff_head?_eq_some.mpr member
    by_contra other
    have lead : isLead c = true := by simpa using other
    have either : c = '*' ∨ c = '.' := by simpa [isLead] using lead
    rcases either with rfl | rfl
    · exact canonical.noStar begins
    · exact canonical.noDot begins
  have noDot : ∀ c ∈ d.getLast?, decide (c = '.') = false := by
    intro c member
    have ends : [c] <:+ d := List.singleton_suffix_iff_getLast?_eq_some.mpr member
    by_contra dot
    obtain rfl : c = '.' := by simpa using dot
    exact canonical.noDotBehind ends
  rw [List.append_nil, withoutComment, List.append_nil] at uncommented
  rw [bareName, written, trimmed, uncommented, trimmed, withoutPipes_of_not canonical.noPipes,
    dropWhile_of_solid noLead, rdropWhile_of_solid noDot]

/-- A canonical name that is accepted is its own normal form. -/
theorem Canonical.normalizeDomain_eq {d : List Char} (canonical : Canonical letters d)
    (accepted : ¬ Refused d) : normalizeDomain letters.toLetterCase d = some d := by
  have lowered := congrArg String.toList canonical.lowerCase
  rw [letters.toList_lower, String.toList_ofList] at lowered
  rw [Zones.normalizeDomain_eq, canonical.bareName_eq, if_neg accepted, lowered]

/-! ## Two spellings -/

theorem mem_leadText {leads : List Lead} {c : Char} (member : c ∈ leadText leads) :
    c = '|' ∨ c = '*' ∨ c = '.' := by
  obtain ⟨lead, -, inside⟩ := List.mem_flatMap.mp member
  cases lead with
  | pipes => exact Or.inl (by simpa [Lead.text] using inside)
  | star => exact Or.inr (by simpa [Lead.text] using inside)

theorem leadText_injective : Function.Injective leadText := by
  intro xs ys same
  induction xs generalizing ys with
  | nil =>
      cases ys with
      | nil => rfl
      | cons y ys => cases y <;> simp [leadText, Lead.text] at same
  | cons x xs ih =>
      cases ys with
      | nil => cases x <;> simp [leadText, Lead.text] at same
      | cons y ys =>
          have lengths : x.text.length = y.text.length := by cases x <;> cases y <;> rfl
          obtain ⟨heads, tails⟩ := List.append_inj same lengths
          have first : x = y := by cases x <;> cases y <;> simp_all [Lead.text]
          rw [first, ih tails]

theorem Bare.isLead_head {name : List Char} (bare : Bare name) (rest : List Char) :
    (name ++ rest).dropWhile isLead = name ++ rest := by
  apply dropWhile_of_solid
  rw [List.head?_append_of_ne_nil _ bare.nonempty]
  exact fun c member => (bare.first c member).2

theorem dropWhile_leadText {name : List Char} (bare : Bare name) (leads : List Lead)
    (rest : List Char) : (leadText leads ++ (name ++ rest)).dropWhile isLead =
      leadText (leads.dropWhile (· = .star)) ++ (name ++ rest) := by
  induction leads with
  | nil => exact bare.isLead_head rest
  | cons lead leads ih =>
      cases lead with
      | pipes => rfl
      | star => exact ih

theorem withoutPipes_leadText {name : List Char} (bare : Bare name) (leads : List Lead)
    (dots : Nat) :
    (withoutPipes (leadText leads ++ (name ++ List.replicate dots '.'))).dropWhile isLead =
      leadText (leftOver leads) ++ (name ++ List.replicate dots '.') := by
  cases leads with
  | nil =>
      have all : ∀ c ∈ List.replicate dots '.', c = '.' := fun _ => List.eq_of_mem_replicate
      have none := (pipes_append_dots name all).not.mpr bare.noPipes
      show (withoutPipes (name ++ List.replicate dots '.')).dropWhile isLead = _
      rw [withoutPipes_of_not none]
      exact dropWhile_leadText bare [] _
  | cons lead leads =>
      cases lead with
      | pipes => exact dropWhile_leadText bare leads _
      | star => exact dropWhile_leadText bare (.star :: leads) _

/-! ## A name in its dress -/

section
variable {front name : List Char} (bare : Bare name)
  (fronts : ∀ c ∈ front, c = '|' ∨ c = '*' ∨ c = '.') (dots : Nat)
include bare fronts

theorem Bare.solid : Solid (front ++ (name ++ List.replicate dots '.')) := by
  have notBlank {c : Char} (either : c = '|' ∨ c = '*' ∨ c = '.') :
      Python.isSpace c = false ∧ isCommentMark c = false := by
    rcases either with rfl | rfl | rfl <;> decide
  have behind : ∀ c ∈ List.replicate dots '.', c = '.' := fun _ => List.eq_of_mem_replicate
  constructor
  case first =>
    intro c member
    rw [List.head?_append, List.head?_append_of_ne_nil _ bare.nonempty, Option.mem_def,
      Option.or_eq_some_iff] at member
    rcases member with lead | ⟨-, inName⟩
    · exact (notBlank (fronts c (List.mem_of_mem_head? lead))).1
    · exact (bare.first c inName).1
  case last =>
    intro c member
    rw [List.getLast?_append_of_ne_nil _ (List.append_ne_nil_of_left_ne_nil bare.nonempty _),
      List.getLast?_append, Option.mem_def, Option.or_eq_some_iff] at member
    rcases member with dot | ⟨-, inName⟩
    · exact (notBlank (Or.inr (Or.inr (behind c (List.mem_of_mem_getLast? dot))))).1
    · exact (bare.last c inName).1
  case unmarked =>
    intro c member
    rw [List.mem_append, List.mem_append] at member
    rcases member with lead | inName | dot
    · exact (notBlank (fronts c lead)).2
    · exact bare.unmarked c inName
    · exact (notBlank (Or.inr (Or.inr (behind c dot)))).2

theorem Bare.bareName_around (dressing : Dressing) {left : List Char}
    (stripped : (withoutPipes (front ++ (name ++ List.replicate dots '.'))).dropWhile isLead =
      left ++ (name ++ List.replicate dots '.')) :
    bareName (dressing.around (front ++ (name ++ List.replicate dots '.'))) = left ++ name := by
  have behind : ∀ c ∈ List.replicate dots '.', decide (c = '.') = true :=
    fun c member => by simpa using List.eq_of_mem_replicate member
  have last : ∀ c ∈ (left ++ name).getLast?, decide (c = '.') = false := by
    rw [List.getLast?_append_of_ne_nil _ bare.nonempty]
    exact fun c member => by simpa using (bare.last c member).2
  rw [bareName, dressing.written_around (bare.solid fronts dots), stripped, ← List.append_assoc,
    rdropWhile_append_blanks behind, rdropWhile_of_solid last]

end

namespace Spelling
variable (spelling : Spelling)

theorem bareName_text :
    bareName spelling.text = leadText (leftOver spelling.leads) ++ spelling.name :=
  spelling.bare.bareName_around (fun _ => mem_leadText) spelling.dots spelling.dressing
    (withoutPipes_leadText spelling.bare spelling.leads spelling.dots)

theorem normalizeDomain_text (letters : Casing) :
    normalizeDomain letters.toLetterCase spelling.text =
      if Refused (leadText (leftOver spelling.leads) ++ letters.table.lower spelling.name) then none
      else some (leadText (leftOver spelling.leads) ++ letters.table.lower spelling.name) := by
  have plain : ∀ c ∈ leadText (leftOver spelling.leads), letters.table.cased c = false := by
    intro c member
    rcases mem_leadText member with rfl | rfl | rfl
    all_goals exact letters.table.asciiCased _ (by decide)
  have lowered := CaseTable.lower_uncased_append plain spelling.name
  have refused := letters.refused_lower (bareName spelling.text)
  rw [spelling.bareName_text, lowered] at refused
  rw [normalizeDomain_eq, spelling.bareName_text, lowered]
  exact if_congr refused.symm rfl rfl

end Spelling

/-- What is left over in front hides no blank and no slash of the name, only its bracket. -/
theorem refused_leadText {leads : List Lead} {name : List Char} (nonempty : name ≠ []) :
    Refused (leadText leads ++ name) ↔
      (' ' ∈ name ∨ '\t' ∈ name ∨ '/' ∈ name) ∨ leads = [] ∧ ['['] <+: name := by
  have absent {c : Char} (other : c ≠ '|' ∧ c ≠ '*' ∧ c ≠ '.') : c ∉ leadText leads := by
    intro member
    rcases mem_leadText member with same | same | same
    · exact other.1 same
    · exact other.2.1 same
    · exact other.2.2 same
  have space : ' ' ∈ leadText leads ++ name ↔ ' ' ∈ name := by simp [absent]
  have tab : '\t' ∈ leadText leads ++ name ↔ '\t' ∈ name := by simp [absent]
  have slash : '/' ∈ leadText leads ++ name ↔ '/' ∈ name := by simp [absent]
  have bracket : ['['] <+: leadText leads ++ name ↔ leads = [] ∧ ['['] <+: name := by
    cases leads with
    | nil => simp [leadText]
    | cons lead leads => cases lead <;> simp [leadText, Lead.text, List.cons_prefix_cons]
  unfold Refused
  rw [space, tab, slash, bracket]
  simp only [List.append_eq_nil_iff, nonempty, and_false, false_or]
  constructor
  · rintro (hasSpace | hasTab | hasBracket | hasSlash)
    · exact Or.inl (Or.inl hasSpace)
    · exact Or.inl (Or.inr (Or.inl hasTab))
    · exact Or.inr hasBracket
    · exact Or.inl (Or.inr (Or.inr hasSlash))
  · rintro ((hasSpace | hasTab | hasSlash) | hasBracket)
    · exact Or.inl hasSpace
    · exact Or.inr (Or.inl hasTab)
    · exact Or.inr (Or.inr (Or.inr hasSlash))
    · exact Or.inr (Or.inr (Or.inl hasBracket))

theorem results_eq_iff {leads leads' : List Lead} {name : List Char} (nonempty : name ≠ []) :
    ((if Refused (leadText leads ++ name) then none else some (leadText leads ++ name)) =
      if Refused (leadText leads' ++ name) then none else some (leadText leads' ++ name)) ↔
        leads = leads' ∨ ' ' ∈ name ∨ '\t' ∈ name ∨ '/' ∈ name := by
  have left := @refused_leadText leads name nonempty
  have right := @refused_leadText leads' name nonempty
  by_cases held : ' ' ∈ name ∨ '\t' ∈ name ∨ '/' ∈ name
  · rw [if_pos (left.mpr (Or.inl held)), if_pos (right.mpr (Or.inl held))]
    exact iff_of_true rfl (Or.inr held)
  · simp only [held, false_or] at left right
    simp only [held, or_false]
    constructor
    · intro same
      by_cases refused : Refused (leadText leads ++ name)
      · rw [if_pos refused] at same
        have other : Refused (leadText leads' ++ name) := by
          by_contra accepted
          rw [if_neg accepted] at same
          exact Option.some_ne_none _ same.symm
        rw [(left.mp refused).1, (right.mp other).1]
      · rw [if_neg refused] at same
        have accepted : ¬ Refused (leadText leads' ++ name) := by
          intro other
          rw [if_pos other] at same
          exact Option.some_ne_none _ same
        rw [if_neg accepted] at same
        exact leadText_injective (List.append_cancel_right (Option.some.inj same))
    · rintro rfl
      rfl

theorem normalizeDomain_text_eq_iff {a b : Spelling}
    (same : letters.lower (String.ofList a.name) = letters.lower (String.ofList b.name)) :
    normalizeDomain letters.toLetterCase a.text = normalizeDomain letters.toLetterCase b.text ↔
      leftOver a.leads = leftOver b.leads ∨ ' ' ∈ a.name ∨ '\t' ∈ a.name ∨ '/' ∈ a.name := by
  have space : letters.table.Inert ' ' := Casing.inert_blank (by decide)
  have tab : letters.table.Inert '\t' := Casing.inert_blank (by decide)
  have slash : letters.table.Inert '/' := Casing.inert_ascii (by decide) (by decide)
  have lowered : letters.table.lower a.name = letters.table.lower b.name := by
    rw [← letters.toList_lower, ← letters.toList_lower, same]
  have nonempty : letters.table.lower a.name ≠ [] :=
    CaseTable.lower_eq_nil_iff.not.mpr a.bare.nonempty
  rw [a.normalizeDomain_text, b.normalizeDomain_text, ← lowered, results_eq_iff nonempty,
    CaseTable.mem_lower_iff space, CaseTable.mem_lower_iff tab, CaseTable.mem_lower_iff slash]

/-- What the normal form promises: of every accepted line, that it is a name and stays as it is;
of every two spellings of one name, that they meet. -/
def Normalises (letters : Casing) : Prop :=
  (∀ s d, normalizeDomain letters.toLetterCase s = some d →
    normalizeDomain letters.toLetterCase d = some d ∧ Canonical letters d) ∧
  ∀ a b : Spelling, letters.lower (String.ofList a.name) = letters.lower (String.ofList b.name) →
    normalizeDomain letters.toLetterCase a.text = normalizeDomain letters.toLetterCase b.text

/-- A result is canonical exactly when the line is clean, and two spellings meet exactly when the
same leads are left over in front of them or the name is none. -/
theorem normalises_iff_clean (letters : Casing) :
    (∀ s d, normalizeDomain letters.toLetterCase s = some d →
      (normalizeDomain letters.toLetterCase d = some d ∧ Canonical letters d ↔ Clean s)) ∧
    ∀ a b : Spelling, letters.lower (String.ofList a.name) = letters.lower (String.ofList b.name) →
      (normalizeDomain letters.toLetterCase a.text = normalizeDomain letters.toLetterCase b.text ↔
        leftOver a.leads = leftOver b.leads ∨ ' ' ∈ a.name ∨ '\t' ∈ a.name ∨ '/' ∈ a.name) := by
  refine ⟨fun s d named => ?_, fun a b same => normalizeDomain_text_eq_iff same⟩
  obtain ⟨accepted, rfl⟩ := bareName_of_normalizeDomain named
  constructor
  · exact fun stays => clean_of_canonical stays.2
  · intro clean
    have canonical := @canonical_of_clean letters s accepted clean
    exact ⟨canonical.normalizeDomain_eq ((letters.refused_lower _).not.mpr accepted), canonical⟩

/-! ## Pipes behind a star -/

theorem star_pipes_not_idempotent : ¬ Normalises basicCasing := by
  intro normalises
  have named : normalizeDomain basicCasing.toLetterCase "*.||ads".toList = some "||ads".toList := by
    decide
  have again := (normalises.1 _ _ named).1
  exact absurd again (by decide)

theorem bare_ads : Bare "ads".toList where
  nonempty := by decide
  unmarked := by simp [isCommentMark]
  first := by simp [Python.isSpace, isLead]
  last := by simp [Python.isSpace]
  noPipes := by decide

def adsSpelling (leads : List Lead) : Spelling := ⟨leads, "ads".toList, 1, undressed, bare_ads⟩

theorem normalises_iff_clean_ads :
    normalizeDomain basicCasing.toLetterCase "*.||ads".toList = some "||ads".toList ∧
      (normalizeDomain basicCasing.toLetterCase "||ads".toList = some "||ads".toList ∧
        Canonical basicCasing "||ads".toList ↔ Clean "*.||ads".toList) ∧
      basicCasing.lower (String.ofList (adsSpelling [.pipes]).name) =
        basicCasing.lower (String.ofList (adsSpelling [.star, .star]).name) ∧
      (normalizeDomain basicCasing.toLetterCase (adsSpelling [.pipes]).text =
          normalizeDomain basicCasing.toLetterCase (adsSpelling [.star, .star]).text ↔
        leftOver (adsSpelling [.pipes]).leads = leftOver (adsSpelling [.star, .star]).leads ∨
          ' ' ∈ (adsSpelling [.pipes]).name ∨ '\t' ∈ (adsSpelling [.pipes]).name ∨
          '/' ∈ (adsSpelling [.pipes]).name) :=
  have both := normalises_iff_clean basicCasing
  ⟨by decide, both.1 _ _ (by decide), rfl, both.2 (adsSpelling [.pipes]) (adsSpelling [.star, .star]) rfl⟩

end PowerBlockade.Zones
