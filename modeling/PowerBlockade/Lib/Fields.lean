import Mathlib.Data.List.DropRight

/-!
# Lines and fields

Text cut at separators: at each of them for lines, at each run of them for fields.
-/

namespace PowerBlockade.Lib

variable {α β γ : Type*}

/-- Goes through the text, and not through all characters. -/
instance (priority := high) decidableForallMem (text : List Char) (p : Char → Prop) [DecidablePred p] :
    Decidable (∀ c ∈ text, p c) := List.decidableBAll p text

def trim (blank : α → Bool) (text : List α) : List α :=
  (text.dropWhile blank).rdropWhile blank

def fields (blank : α → Bool) (text : List α) : List (List α) :=
  (text.splitOnP blank).filter (!·.isEmpty)

theorem mem_of_mem_trim {blank : α → Bool} {text : List α} {c : α} (kept : c ∈ trim blank text) :
    c ∈ text :=
  (List.dropWhile_suffix _).subset ((List.rdropWhile_prefix _ _).subset kept)

theorem mem_dropWhile_of_not {p : α → Bool} {text : List α} {c : α} (stays : p c = false)
    (member : c ∈ text) : c ∈ text.dropWhile p := by
  rw [← List.takeWhile_append_dropWhile (p := p) (l := text), List.mem_append] at member
  cases member with
  | inl dropped => exact absurd (List.mem_takeWhile_imp dropped) (by simp [stays])
  | inr kept => exact kept

theorem mem_rdropWhile_of_not {p : α → Bool} {text : List α} {c : α} (stays : p c = false)
    (member : c ∈ text) : c ∈ text.rdropWhile p := by
  rw [List.rdropWhile, List.mem_reverse]
  exact mem_dropWhile_of_not stays (List.mem_reverse.mpr member)

theorem trim_eq_nil_iff {blank : α → Bool} {text : List α} :
    trim blank text = [] ↔ ∀ c ∈ text, blank c = true := by
  rw [trim, List.rdropWhile_eq_nil_iff]
  constructor
  · intro blanks
    have none : text.dropWhile blank = [] := by
      by_contra some
      have first := List.head_dropWhile_not blank some
      exact absurd (blanks _ (List.head_mem some)) (by simp [first])
    exact List.dropWhile_eq_nil_iff.mp none
  · intro blanks c member
    exact blanks c ((List.dropWhile_suffix blank).subset member)

theorem exists_solid_of_trim {blank : α → Bool} {text : List α} (nonempty : trim blank text ≠ []) :
    ∃ c ∈ trim blank text, blank c = false := by
  have last := List.rdropWhile_last_not blank (text.dropWhile blank) nonempty
  exact ⟨_, List.getLast_mem nonempty, eq_false_of_ne_true last⟩

theorem length_takeWhile_lt {blank : α → Bool} {text : List α}
    (blanks : ¬ ∀ c ∈ text, blank c = false) :
    (text.takeWhile (!blank ·)).length < text.length := by
  apply lt_of_le_of_ne (List.takeWhile_prefix _).length_le
  intro same
  apply blanks
  intro c member
  have all := (List.takeWhile_prefix (!blank ·)).eq_of_length same
  simpa using List.takeWhile_eq_self_iff.mp all c member

theorem head?_splitOnP (blank : α → Bool) (text : List α) :
    (text.splitOnP blank).head? = some (text.takeWhile (!blank ·)) := by
  induction text with
  | nil => simp
  | cons c rest ih =>
      rw [List.splitOnP_cons_eq_if_modifyHead]
      cases isBlank : blank c
      · simp [ih, isBlank]
      · simp [isBlank]

theorem head?_fields (blank : α → Bool) (text : List α) :
    (fields blank text).head? = if text.dropWhile blank = [] then none
      else some ((text.dropWhile blank).takeWhile (!blank ·)) := by
  induction text with
  | nil => simp [fields]
  | cons c rest ih =>
      cases isBlank : blank c
      · have first := head?_splitOnP blank rest
        cases pieces : rest.splitOnP blank with
        | nil => simp [pieces] at first
        | cons piece pieces' =>
            rw [pieces] at first
            simp [fields, List.splitOnP_cons_eq_if_modifyHead, isBlank, pieces,
              Option.some.inj first]
      · simpa [fields, List.splitOnP_cons_eq_if_modifyHead, isBlank] using ih

theorem dropWhile_append_solid {blank : α → Bool} {c : α} (solid : blank c = false)
    (text rest : List α) :
    (text ++ c :: rest).dropWhile blank = text.dropWhile blank ++ c :: rest := by
  induction text with
  | nil => simp [solid]
  | cons d text ih =>
      cases isBlank : blank d
      · simp [isBlank]
      · simpa [isBlank] using ih

theorem rdropWhile_append_solid {blank : α → Bool} {c : α} (solid : blank c = false)
    (text rest : List α) :
    (text ++ c :: rest).rdropWhile blank = text ++ c :: rest.rdropWhile blank := by
  have reversed := dropWhile_append_solid solid rest.reverse text.reverse
  have whole : (text ++ c :: rest).reverse = rest.reverse ++ c :: text.reverse := by simp
  rw [List.rdropWhile, whole, reversed, List.rdropWhile]
  simp

theorem rdropWhile_append_blanks {blank : α → Bool} {blanks : List α}
    (all : ∀ c ∈ blanks, blank c = true) (text : List α) :
    (text ++ blanks).rdropWhile blank = text.rdropWhile blank := by
  have reversed : ∀ c ∈ blanks.reverse, blank c = true := by simpa using all
  rw [List.rdropWhile, List.reverse_append, List.dropWhile_append_of_pos reversed, List.rdropWhile]

theorem rdropWhile_append_kept {blank : α → Bool} {tail : List α}
    (kept : tail.rdropWhile blank ≠ []) (text : List α) :
    (text ++ tail).rdropWhile blank = text ++ tail.rdropWhile blank := by
  have nonempty : (tail.reverse.dropWhile blank).isEmpty = false := by
    simpa [List.rdropWhile] using kept
  rw [List.rdropWhile, List.reverse_append, List.dropWhile_append, nonempty, List.rdropWhile]
  simp

theorem rdropWhile_of_solid {blank : α → Bool} {text : List α}
    (last : ∀ c ∈ text.getLast?, blank c = false) : text.rdropWhile blank = text := by
  rw [List.rdropWhile_eq_self_iff]
  intro nonempty
  simp [last _ (List.getLast?_eq_some_getLast nonempty)]

theorem dropWhile_of_solid {blank : α → Bool} {text : List α}
    (first : ∀ c ∈ text.head?, blank c = false) : text.dropWhile blank = text := by
  cases text with
  | nil => rfl
  | cons c rest => rw [List.dropWhile_cons_of_neg (by simp [first c rfl])]

theorem trim_of_ends {blank : α → Bool} {text : List α} (first : ∀ c ∈ text.head?, blank c = false)
    (last : ∀ c ∈ text.getLast?, blank c = false) : trim blank text = text := by
  rw [trim, dropWhile_of_solid first, rdropWhile_of_solid last]

theorem trim_of_solid {blank : α → Bool} {text : List α} (solid : ∀ c ∈ text, blank c = false) :
    trim blank text = text :=
  trim_of_ends (fun c first => solid c (List.mem_of_mem_head? first)) fun c last => solid c (List.mem_of_getLast? last)

theorem head?_dropWhile_not {p : α → Bool} {text : List α} {c : α}
    (first : c ∈ (text.dropWhile p).head?) : p c = false := by
  have stays := List.head?_dropWhile_not p text
  rw [Option.mem_def.mp first] at stays
  exact stays

theorem head?_dropWhile_append {p : α → Bool} {text : List α} {c : α} (first : (text.dropWhile p).head? = some c)
    (rest : List α) : ((text ++ rest).dropWhile p).head? = some c := by
  have nonempty : (text.dropWhile p).isEmpty = false := by
    cases kept : text.dropWhile p with
    | nil => simp [kept] at first
    | cons _ _ => rfl
  rw [List.dropWhile_append, nonempty, if_neg Bool.false_ne_true, List.head?_append, first, Option.some_or]

theorem takeWhile_append_stop {p : α → Bool} {left right : List α} (all : ∀ c ∈ left, p c = true)
    (stops : ∀ c ∈ right.head?, p c = false) : (left ++ right).takeWhile p = left := by
  rw [List.takeWhile_append_of_pos all]
  cases right with
  | nil => simp
  | cons c right => simp [stops c rfl]

theorem dropWhile_append_stop {p : α → Bool} {left right : List α} (all : ∀ c ∈ left, p c = true)
    (stops : ∀ c ∈ right.head?, p c = false) : (left ++ right).dropWhile p = right := by
  rw [List.dropWhile_append_of_pos all]
  cases right with
  | nil => simp
  | cons c right => simp [stops c rfl]

theorem takeWhile_agree {p q : α → Bool} {text : List α} (same : ∀ c ∈ text, p c = q c) :
    text.takeWhile p = text.takeWhile q ∧ text.dropWhile p = text.dropWhile q := by
  induction text with
  | nil => simp
  | cons c text ih =>
      obtain ⟨first, others⟩ := List.forall_mem_cons.mp same
      obtain ⟨taken, dropped⟩ := ih others
      simp [List.takeWhile_cons, List.dropWhile_cons, first, taken, dropped]

theorem exists_of_takeWhile_ne_nil {p : α → Bool} {text : List α} (some : text.takeWhile p ≠ []) :
    ∃ c rest, text = c :: rest ∧ p c = true := by
  cases text with
  | nil => simp at some
  | cons c rest =>
      refine ⟨c, rest, rfl, ?_⟩
      by_contra other
      exact some (List.takeWhile_cons_of_neg other)

theorem head?_trim {blank : α → Bool} {text : List α} {c : α}
    (first : c ∈ (trim blank text).head?) : blank c = false := by
  obtain ⟨rest, whole⟩ := List.rdropWhile_prefix blank (text.dropWhile blank)
  have start : c ∈ (text.dropWhile blank).head? := by
    rw [← whole, List.head?_append, ← trim, Option.mem_def, Option.mem_def.mp first]
    rfl
  exact head?_dropWhile_not start

theorem trim_trim (blank : α → Bool) (text : List α) :
    trim blank (trim blank text) = trim blank text := by
  rw [trim, dropWhile_of_solid fun _ => head?_trim, trim, List.rdropWhile_idempotent]

theorem trim_cons {blank : α → Bool} {c : α} (solid : blank c = false) (text : List α) :
    ∃ kept, trim blank (c :: text) = c :: kept ∧ kept <+: text := by
  have shorter := List.rdropWhile_prefix blank (c :: text)
  rw [trim, List.dropWhile_cons_of_neg (by simp [solid])]
  cases kept : (c :: text).rdropWhile blank with
  | nil =>
      have all := List.rdropWhile_eq_nil_iff.mp kept c List.mem_cons_self
      exact absurd all (by simp [solid])
  | cons d kept' =>
      rw [kept, List.cons_prefix_cons] at shorter
      exact ⟨kept', by rw [shorter.1], shorter.2⟩

theorem trim_append_solid {blank : α → Bool} {c : α} (solid : blank c = false) (text : List α) :
    trim blank (text ++ [c]) = text.dropWhile blank ++ [c] := by
  rw [trim, dropWhile_append_solid solid, List.rdropWhile_concat_neg _ _ _ (by simp [solid])]

theorem rdropWhile_append_pos {p : α → Bool} (text : List α) {gone : List α} (all : ∀ c ∈ gone, p c = true) :
    (text ++ gone).rdropWhile p = text.rdropWhile p := by
  rw [List.rdropWhile, List.rdropWhile, List.reverse_append, List.dropWhile_append_of_pos]
  exact fun c member => all c (List.mem_reverse.mp member)

theorem trim_append_blank {blank : α → Bool} (text : List α) {gone : List α} (blanks : ∀ c ∈ gone, blank c = true) :
    trim blank (text ++ gone) = trim blank text := by
  by_cases all : ∀ c ∈ text, blank c = true
  · rw [trim_eq_nil_iff.mpr all, trim_eq_nil_iff]
    exact List.forall_mem_append.mpr ⟨all, blanks⟩
  · rw [← List.dropWhile_eq_nil_iff] at all
    rw [trim, List.dropWhile_append, if_neg (by simpa using all), rdropWhile_append_pos _ blanks, trim]

/-- What ends a text is seen at its last word, which is all there is after the last other character. -/
theorem suffix_append_iff {p : α → Bool} {stem word ending : List α} (stop : ∀ c ∈ stem.getLast?, p c = false)
    (all : ∀ c ∈ ending, p c = true) : ending <:+ stem ++ word ↔ ending <:+ word := by
  refine ⟨fun ends => ?_, fun ends => ends.trans (List.suffix_append stem word)⟩
  rcases List.suffix_or_suffix_of_suffix ends (List.suffix_append stem word) with inside | longer
  · exact inside
  · obtain ⟨front, rfl⟩ := longer
    obtain ⟨before, rfl⟩ : front <:+ stem := List.suffix_append_self_iff.mp ends
    cases last : front.getLast? with
    | none =>
        obtain rfl : front = [] := List.getLast?_eq_none_iff.mp last
        exact List.suffix_rfl
    | some c =>
        have member := List.mem_of_getLast? last
        have same : (before ++ front).getLast? = some c := by rw [List.getLast?_append, last, Option.some_or]
        exact absurd (all c (List.mem_append_left _ member)) (by simp [stop c same])

/-! ## Pieces -/

theorem not_sep_of_mem_splitOnP {p : α → Bool} {text piece : List α} (cut : piece ∈ text.splitOnP p) :
    ∀ c ∈ piece, p c = false := by
  induction text generalizing piece with
  | nil =>
      obtain rfl := List.mem_singleton.mp cut
      exact List.forall_mem_nil _
  | cons c rest ih =>
      rw [List.splitOnP_cons_eq_if_modifyHead] at cut
      split at cut
      · rcases List.mem_cons.mp cut with rfl | later
        · exact List.forall_mem_nil _
        · exact ih later
      · rename_i other
        cases pieces : rest.splitOnP p with
        | nil => simp at pieces
        | cons first others =>
            rw [pieces, List.modifyHead_cons] at cut
            rcases List.mem_cons.mp cut with rfl | later
            · exact List.forall_mem_cons.mpr ⟨Bool.eq_false_iff.mpr other, ih (pieces ▸ List.mem_cons_self)⟩
            · exact ih (pieces ▸ List.mem_cons_of_mem _ later)

/-! ## Trimmed pieces -/

section
variable [DecidableEq α] {blank : α → Bool} {sep : α}

theorem map_trim_splitOn_dropWhile (solid : blank sep = false) (text : List α) :
    ((text.dropWhile blank).splitOn sep).map (trim blank) = (text.splitOn sep).map (trim blank) := by
  induction text with
  | nil => rfl
  | cons c rest ih =>
      by_cases first : blank c = true
      · have other : (c == sep) = false := by
          rw [beq_eq_false_iff_ne]
          rintro rfl
          exact absurd first (by simp [solid])
        rw [List.dropWhile_cons_of_pos first, ih, List.splitOn_cons_eq_if_modifyHead, other]
        cases rest.splitOn sep with
        | nil => rfl
        | cons piece pieces =>
            have shorter : trim blank (c :: piece) = trim blank piece := by
              rw [trim, List.dropWhile_cons_of_pos first, trim]
            simp [shorter]
      · rw [List.dropWhile_cons_of_neg first]

theorem not_mem_of_mem_splitOn {text piece : List α} (cut : piece ∈ text.splitOn sep) : sep ∉ piece := by
  intro member
  rw [List.splitOn_eq_splitOnP] at cut
  have other := not_sep_of_mem_splitOnP cut sep member
  simp at other

theorem splitOn_append_last {gone : List α} (absent : sep ∉ gone) (text : List α) : ∃ before last,
    text.splitOn sep = before ++ [last] ∧ (text ++ gone).splitOn sep = before ++ [last ++ gone] := by
  induction text with
  | nil => exact ⟨[], [], rfl, by simpa using List.splitOn_eq_singleton absent⟩
  | cons c rest ih =>
      obtain ⟨before, last, pieces, longer⟩ := ih
      rw [List.cons_append, List.splitOn_cons_eq_if_modifyHead, List.splitOn_cons_eq_if_modifyHead, pieces, longer]
      by_cases same : (c == sep) = true
      · rw [if_pos same, if_pos same]
        exact ⟨[] :: before, last, rfl, rfl⟩
      · rw [if_neg same, if_neg same]
        cases before with
        | nil => exact ⟨[], c :: last, rfl, rfl⟩
        | cons piece before => exact ⟨(c :: piece) :: before, last, rfl, rfl⟩

/-- The ends of a text that is cut into trimmed pieces may be trimmed first. -/
theorem map_trim_splitOn_trim (solid : blank sep = false) (text : List α) :
    ((trim blank text).splitOn sep).map (trim blank) = (text.splitOn sep).map (trim blank) := by
  obtain ⟨gone, blanks, whole⟩ : ∃ gone, (∀ c ∈ gone, blank c = true) ∧
      text.dropWhile blank = trim blank text ++ gone :=
    ⟨(text.dropWhile blank).rtakeWhile blank, fun _ member => List.mem_rtakeWhile_imp member,
      (List.rdropWhile_append_rtakeWhile ..).symm⟩
  have absent : sep ∉ gone := fun member => absurd (blanks sep member) (by simp [solid])
  obtain ⟨before, last, pieces, longer⟩ := splitOn_append_last absent (trim blank text)
  calc ((trim blank text).splitOn sep).map (trim blank)
    _ = (before ++ [last ++ gone]).map (trim blank) := by
        rw [pieces, List.map_append, List.map_append, List.map_singleton, List.map_singleton,
          trim_append_blank last blanks]
    _ = ((text.dropWhile blank).splitOn sep).map (trim blank) := by rw [whole, longer]
    _ = _ := map_trim_splitOn_dropWhile solid text

end

/-! ## Words between blanks -/

section
variable {blank : α → Bool} {word rest : List α}

theorem fields_blanks {blanks : List α} (all : ∀ c ∈ blanks, blank c = true) (text : List α) :
    fields blank (blanks ++ text) = fields blank text := by
  induction blanks with
  | nil => rfl
  | cons c blanks ih =>
      obtain ⟨first, others⟩ := List.forall_mem_cons.mp all
      have cut := List.splitOnP_append_cons [] (blanks ++ text) first
      rw [List.nil_append, List.splitOnP_nil] at cut
      rw [List.cons_append, fields, cut, ← ih others]
      rfl

theorem fields_append (solid : ∀ c ∈ word, blank c = false) (nonempty : word ≠ [])
    (apart : ∀ c ∈ rest.head?, blank c = true) :
    fields blank (word ++ rest) = word :: fields blank rest := by
  have kept (others : List (List α)) :
      (word :: others).filter (!·.isEmpty) = word :: others.filter (!·.isEmpty) :=
    List.filter_cons_of_pos (by simpa using nonempty)
  cases rest with
  | nil =>
      rw [List.append_nil, fields, List.splitOnP_eq_singleton solid, kept]
      rfl
  | cons c rest =>
      have first : blank c = true := apart c rfl
      have alone : ∀ d ∈ [c], blank d = true := by simpa using first
      have gone := fields_blanks alone rest
      rw [List.singleton_append] at gone
      rw [fields, List.splitOnP_append_cons_of_forall_mem solid c first, kept, gone, fields]

theorem fields_cons_blank {c : α} (first : blank c = true) (text : List α) :
    fields blank (c :: text) = fields blank text := by
  have alone : ∀ d ∈ [c], blank d = true := by simpa using first
  exact fields_blanks alone text

theorem fields_takeWhile (blank : α → Bool) (text : List α) :
    fields blank text = (if text.takeWhile (!blank ·) = [] then [] else [text.takeWhile (!blank ·)]) ++
      fields blank (text.dropWhile (!blank ·)) := by
  split
  · rename_i nothing
    have whole := List.takeWhile_append_dropWhile (p := (!blank ·)) (l := text)
    rw [nothing, List.nil_append] at whole
    rw [whole, List.nil_append]
  · rename_i word
    have solid : ∀ c ∈ text.takeWhile (!blank ·), blank c = false := fun c member => by
      simpa using List.mem_takeWhile_imp member
    have apart : ∀ c ∈ (text.dropWhile (!blank ·)).head?, blank c = true := fun c first => by
      simpa using head?_dropWhile_not first
    rw [List.singleton_append, ← fields_append solid word apart, List.takeWhile_append_dropWhile]

theorem fields_words {gap piece : β → List α} {items : List β}
    (gaps : ∀ item ∈ items, gap item ≠ [] ∧ ∀ c ∈ gap item, blank c = true)
    (pieces : ∀ item ∈ items, piece item ≠ [] ∧ ∀ c ∈ piece item, blank c = false)
    (solid : ∀ c ∈ word, blank c = false) (nonempty : word ≠ []) :
    fields blank (word ++ items.flatMap fun item => gap item ++ piece item) =
      word :: items.map piece := by
  induction items generalizing word with
  | nil =>
      have alone := @fields_append _ blank word [] solid nonempty (by simp)
      rw [List.append_nil] at alone
      rw [List.flatMap_nil, List.append_nil, alone]
      rfl
  | cons item items ih =>
      obtain ⟨gapHere, gapsLater⟩ := List.forall_mem_cons.mp gaps
      obtain ⟨here, later⟩ := List.forall_mem_cons.mp pieces
      have apart : ∀ c ∈ ((item :: items).flatMap fun item => gap item ++ piece item).head?,
          blank c = true := by
        intro c member
        rw [List.flatMap_cons, List.append_assoc, List.head?_append_of_ne_nil _ gapHere.1] at member
        exact gapHere.2 c (List.mem_of_mem_head? member)
      rw [fields_append solid nonempty apart, List.flatMap_cons, List.append_assoc,
        fields_blanks gapHere.2, ih gapsLater later here.2 here.1, List.map_cons]

theorem forall_getLast?_flatMap {P : α → Prop} {f : β → List α} (items : List β)
    (pieces : ∀ item ∈ items, ∀ c ∈ (f item).getLast?, P c)
    (start : ∀ c ∈ word.getLast?, P c) : ∀ c ∈ (word ++ items.flatMap f).getLast?, P c := by
  induction items generalizing word with
  | nil => simpa using start
  | cons item items ih =>
      obtain ⟨here, later⟩ := List.forall_mem_cons.mp pieces
      rw [List.flatMap_cons, ← List.append_assoc]
      apply ih later
      intro c member
      rw [List.getLast?_append, Option.mem_def, Option.or_eq_some_iff] at member
      rcases member with last | ⟨-, last⟩
      · exact here c last
      · exact start c last

end

/-- Lines written one after the other are cut apart again. -/
theorem splitOn_lines_append [DecidableEq γ] (sep : γ) (line : β → List γ) (items : List β)
    (rest : List γ) :
    ((items.flatMap fun item => line item ++ [sep]) ++ rest).splitOn sep =
      (items.flatMap fun item => (line item).splitOn sep) ++ rest.splitOn sep := by
  induction items with
  | nil => simp
  | cons item items ih =>
      rw [List.flatMap_cons, List.append_assoc, List.append_assoc, List.singleton_append,
        List.splitOn_append_cons_self, ih, List.flatMap_cons, List.append_assoc]

/-- Lines without a separator, each ended by one, are cut apart into themselves. -/
theorem splitOnP_lines {p : γ → Bool} {sep : γ} (ends : p sep = true) {lines : List (List γ)}
    (whole : ∀ line ∈ lines, ∀ c ∈ line, p c = false) (rest : List γ) :
    (lines.flatMap (· ++ [sep]) ++ rest).splitOnP p = lines ++ rest.splitOnP p := by
  induction lines with
  | nil => rfl
  | cons line lines ih =>
      obtain ⟨here, later⟩ := List.forall_mem_cons.mp whole
      rw [List.flatMap_cons, List.append_assoc, List.append_assoc, List.singleton_append,
        List.splitOnP_append_cons_of_forall_mem here sep ends, ih later, List.cons_append]

theorem splitOn_lines [DecidableEq γ] {sep : γ} {lines : List (List γ)} (whole : ∀ line ∈ lines, sep ∉ line)
    (rest : List γ) : (lines.flatMap (· ++ [sep]) ++ rest).splitOn sep = lines ++ rest.splitOn sep := by
  have solid : ∀ line ∈ lines, ∀ c ∈ line, (c == sep) = false := by
    intro line listed c member
    rw [beq_eq_false_iff_ne]
    rintro rfl
    exact whole line listed member
  rw [List.splitOn_eq_splitOnP, List.splitOn_eq_splitOnP]
  exact splitOnP_lines (p := (· == sep)) (beq_self_eq_true sep) solid rest

theorem flatMap_eq_map {f : β → List γ} {g : β → γ} {items : List β}
    (nonempty : ∀ item ∈ items, f item ≠ []) (same : items.flatMap f = items.map g) :
    ∀ item ∈ items, f item = [g item] := by
  have atLeast (rest : List β) (each : ∀ item ∈ rest, f item ≠ []) :
      rest.length ≤ (rest.flatMap f).length := by
    induction rest with
    | nil => simp
    | cons item rest ih =>
        have one := List.length_pos_iff.mpr (each item List.mem_cons_self)
        have more := ih fun later member => each later (List.mem_cons_of_mem _ member)
        simp only [List.flatMap_cons, List.length_append, List.length_cons]
        omega
  induction items with
  | nil => simp
  | cons item rest ih =>
      have later : ∀ item ∈ rest, f item ≠ [] := fun item member =>
        nonempty item (List.mem_cons_of_mem _ member)
      have lengths := congrArg List.length same
      have more := atLeast rest later
      simp only [List.flatMap_cons, List.map_cons] at same
      simp only [List.flatMap_cons, List.length_append, List.length_map, List.length_cons] at lengths
      cases first : f item with
      | nil => exact absurd first (nonempty item List.mem_cons_self)
      | cons one others =>
          rw [first, List.length_cons] at lengths
          have alone : others = [] := List.eq_nil_of_length_eq_zero (by omega)
          subst alone
          rw [first, List.singleton_append, List.cons.injEq] at same
          intro any member
          cases List.mem_cons.mp member with
          | inl this => rw [this, first, same.1]
          | inr among => exact ih later same.2 any among

end PowerBlockade.Lib
