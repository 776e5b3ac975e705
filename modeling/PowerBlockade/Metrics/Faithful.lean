import Mathlib.Algebra.Order.BigOperators.Group.List
import Mathlib.Data.List.Flatten
import Mathlib.Data.List.ProdSigma
import PowerBlockade.Metrics.Output
import PowerBlockade.Primary.NodeSync

/-!
# What readers make of the primary's metrics

They are read as what was reported exactly when no name needs an escape and every answer was slow.
-/

namespace PowerBlockade.Metrics
open Lib Exposition Primary

variable {stats : Stats} {reported : Reported}

/-! ## Numbers -/

def isNumeralChar (c : Char) : Bool := c.isDigit || c = '-' || c = '.'

structure Numeral (text : String) : Prop where
  chars : ∀ c ∈ text.toList, isNumeralChar c = true
  reads : ∃ v, readValue text.toList = some v

theorem isNumeralChar_ne {c d : Char} (number : isNumeralChar c = true) (other : isNumeralChar d = false) : c ≠ d := by
  rintro rfl
  simp [number] at other

theorem isBlank_number {c : Char} (number : isNumeralChar c = true) : isBlank c = false := by
  simp [isBlank, isNumeralChar_ne number (d := ' ') (by decide), isNumeralChar_ne number (d := '\t') (by decide)]

theorem solid_of_number {c : Char} (number : isNumeralChar c = true) : isBlank c = false ∧ c ≠ '{' :=
  ⟨isBlank_number number, isNumeralChar_ne number (by decide)⟩

theorem numeral_int (n : Int) : Numeral (toString n) where
  chars := by
    intro c member
    rcases mem_toString_int member with rfl | digit
    · decide
    · simp [isNumeralChar, digit]
  reads := ⟨_, readValue_int n⟩

def Fixed.sign (x : Fixed) : Option Sign := if x.negative then some .minus else none

theorem toList_format {places : Nat} (positive : 0 < places) (x : Fixed) :
    (x.format places).toList = signChars x.sign ++ (Nat.toDigits 10 (x.scaled / 10 ^ places) ++
      pointChars (digitChars (fixedDigits places (x.scaled % 10 ^ places)))) := by
  have nonempty : digitChars (fixedDigits places (x.scaled % 10 ^ places)) ≠ [] := by
    apply List.ne_nil_of_length_pos
    rwa [digitChars, List.length_map, length_fixedDigits]
  cases sign : x.negative <;> simp [Fixed.format, Fixed.sign, sign, signChars, pointChars, nonempty]

theorem mem_signChars {x : Fixed} {c : Char} (member : c ∈ signChars x.sign) : c = '-' := by
  unfold Fixed.sign at member
  split at member
  · exact List.mem_singleton.mp member
  · exact absurd member List.not_mem_nil

theorem mem_pointChars {fraction : List Char} {c : Char} (member : c ∈ pointChars fraction) :
    c = '.' ∨ c ∈ fraction := by
  unfold pointChars at member
  split at member
  · exact absurd member List.not_mem_nil
  · exact List.mem_cons.mp member

theorem numeral_format {places : Nat} (positive : 0 < places) (x : Fixed) : Numeral (x.format places) := by
  have fraction : ∀ c ∈ digitChars (fixedDigits places (x.scaled % 10 ^ places)), c.isDigit = true :=
    isDigit_of_mem_digitChars (fixedDigits_lt _ _)
  constructor
  · intro c member
    rw [toList_format positive, List.mem_append, List.mem_append] at member
    rcases member with mark | digit | member
    · rw [mem_signChars mark]
      rfl
    · simp [isNumeralChar, isDigit_of_mem_toDigits digit]
    · rcases mem_pointChars member with rfl | digit
      · rfl
      · simp [isNumeralChar, fraction c digit]
  · rw [toList_format positive]
    exact ⟨_, readValue_written x.sign _ _ Nat.toDigits_ne_nil (fun c member => isDigit_of_mem_toDigits member)
      fraction⟩

theorem numeral_head (stats : Stats) : ∀ entry ∈ headFamilies stats, Numeral entry.2 := by
  simp only [headFamilies, List.forall_mem_cons]
  exact ⟨numeral_int _, numeral_int _, numeral_format (by decide) _, numeral_int _, numeral_format (by decide) _,
    numeral_int _, numeral_format (by decide) _, numeral_format (by decide) _, numeral_format (by decide) _,
    numeral_int _, fun _ member => nomatch member⟩

/-! ## Families -/

structure Family.Sound (family : Family) : Prop where
  name : isMetricName family.name.toList = true
  kind : (readKind family.kind.toList).isSome = true
  help : '\n' ∉ family.help.toList

instance (family : Family) : Decidable family.Sound :=
  decidable_of_iff (isMetricName family.name.toList = true ∧ (readKind family.kind.toList).isSome = true ∧
    '\n' ∉ family.help.toList) ⟨fun h => ⟨h.1, h.2.1, h.2.2⟩, fun h => ⟨h.name, h.kind, h.help⟩⟩

def quiet : Stats := ⟨0, 0, ⟨false, 0⟩, 0, ⟨false, 0⟩, 0, ⟨false, 0⟩, ⟨false, 0⟩, ⟨false, 0⟩, 0⟩

def families : List Family := (headFamilies quiet).map (·.1) ++ nodeFamilies.map (·.toFamily)

theorem map_headFamilies (stats : Stats) : (headFamilies stats).map (·.1) = (headFamilies quiet).map (·.1) := rfl

theorem sound_families : ∀ family ∈ families, family.Sound := by decide +kernel

theorem nodup_families : (families.map (·.name.toList)).Nodup := by
  have names : (families.map (·.name)).Nodup := by
    simp [families, headFamilies, nodeFamilies, cacheHitsFamily, otherFamilies, answersLatency]
  have texts := names.map fun _ _ same => String.toList_injective same
  rwa [List.map_map] at texts

theorem sound_head {entry : Family × String} (member : entry ∈ headFamilies stats) : entry.1.Sound := by
  apply sound_families
  rw [families, ← map_headFamilies stats]
  exact List.mem_append_left _ (List.mem_map.mpr ⟨entry, member, rfl⟩)

theorem sound_node {family : NodeFamily} (member : family ∈ nodeFamilies) : family.toFamily.Sound :=
  sound_families _ (List.mem_append_right _ (List.mem_map.mpr ⟨family, member, rfl⟩))

def Family.group (family : Family) (samples : List Sample) : Group :=
  ⟨family.name.toList, (readKind family.kind.toList).getD .untyped, samples⟩

theorem newline_not_mem_name {name : List Char} (named : isMetricName name = true) : '\n' ∉ name := fun member =>
  absurd ((isNameChar_of_isMetricName named).2 _ member) (by decide)

theorem Family.Sound.single {family : Family} (sound : family.Sound) {samples : List String}
    (others : ∀ line ∈ samples, '\n' ∉ line.toList) : ∀ line ∈ family.lines samples, '\n' ∉ line.toList := by
  obtain ⟨k, known⟩ := Option.isSome_iff_exists.mp sound.kind
  have kind : '\n' ∉ family.kind.toList := fun member => (solid_of_readKind known _ member).2 rfl
  have name := newline_not_mem_name sound.name
  have help := sound.help
  refine List.forall_mem_cons.mpr ⟨?_, List.forall_mem_cons.mpr ⟨?_, others⟩⟩
  · simp [name, help]
  · simp [name, kind]

theorem Family.Sound.reads {family : Family} (sound : family.Sound) {lines : List String} {samples : List Sample}
    (read : (lines.map String.toList).mapM readLine = some (samples.map .sample)) :
    ((family.lines lines).map String.toList).mapM readLine = some (family.group samples).lines := by
  obtain ⟨k, known⟩ := Option.isSome_iff_exists.mp sound.kind
  have help : readLine ("# HELP " ++ family.name ++ " " ++ family.help).toList = some (.help family.name.toList) := by
    have line := readLine_help sound.name family.help.toList
    simpa using line
  have type : readLine ("# TYPE " ++ family.name ++ " " ++ family.kind).toList =
      some (.type family.name.toList k) := by
    have line := readLine_type sound.name known
    simpa using line
  rw [Family.group, known]
  exact mapM_cons_some.mpr ⟨_, _, help, mapM_cons_some.mpr ⟨_, _, type, read, rfl⟩, rfl⟩

/-! ## Samples -/

def headSample (entry : Family × String) : Sample :=
  ⟨entry.1.name.toList, [], (readValue entry.2.toList).getD .nan, none⟩

def seriesLabels (node : String) (bound : Option String) : List (String × String) :=
  ("node", node) :: bound.toList.map fun le => ("le", le)

def charLabels (labels : List (String × String)) : List Label :=
  labels.map fun label => (label.1.toList, label.2.toList)

def nodeSample (family : NodeFamily) (p : (String × MetricsRequest) × (Option String × (MetricsRequest → Int))) :
    Sample :=
  ⟨family.name.toList, charLabels (seriesLabels p.1.1 p.2.1), .decimal (Decimal.ofInt (p.2.2 p.1.2)), none⟩

theorem readLine_head {entry : Family × String} (member : entry ∈ headFamilies stats) :
    readLine (entry.1.name ++ " " ++ entry.2).toList = some (.sample (headSample entry)) := by
  obtain ⟨chars, v, reads⟩ := numeral_head stats entry member
  have each : ∀ label ∈ ([] : List Label), isLabelName label.1 = true ∧ Clean label.2 := fun _ none => nomatch none
  have line := readLine_sample (sound_head member).name each reads fun c inside => solid_of_number (chars c inside)
  rw [headSample, reads]
  simpa [sampleChars, bracesChars] using line

theorem nodeLine_toList (family : NodeFamily)
    (p : (String × MetricsRequest) × (Option String × (MetricsRequest → Int))) :
    (nodeLine family p.1 p.2).toList = sampleChars family.name.toList (charLabels (seriesLabels p.1.1 p.2.1))
      (toString (p.2.2 p.1.2)).toList := by
  obtain ⟨⟨name, row⟩, bound, count⟩ := p
  cases bound <;>
    simp [nodeLine, sampleChars, bracesChars, charLabels, seriesLabels, labelChars, List.intercalate_cons_cons]

theorem clean_bounds : ∀ family ∈ nodeFamilies, ∀ series ∈ family.series, ∀ le ∈ series.1, Clean le.toList := by
  decide

theorem clean_seriesLabels {node : String} {bound : Option String} (clean : Clean node.toList)
    (plain : ∀ le ∈ bound, Clean le.toList) :
    ∀ label ∈ charLabels (seriesLabels node bound), isLabelName label.1 = true ∧ Clean label.2 := by
  cases bound with
  | none => simpa [charLabels, seriesLabels] using And.intro (by decide) clean
  | some le =>
      have second := plain le rfl
      simp only [charLabels, seriesLabels, Option.toList_some, List.map_cons, List.map_nil, List.forall_mem_cons]
      exact ⟨⟨by decide, clean⟩, ⟨by decide, second⟩, fun _ member => nomatch member⟩

theorem readLine_node {family : NodeFamily} (listed : family ∈ nodeFamilies)
    {p : (String × MetricsRequest) × (Option String × (MetricsRequest → Int))} (series : p.2 ∈ family.series)
    (clean : Clean p.1.1.toList) :
    readLine (nodeLine family p.1 p.2).toList = some (.sample (nodeSample family p)) := by
  rw [nodeLine_toList]
  exact readLine_sample (sound_node listed).name (clean_seriesLabels clean (clean_bounds family listed p.2 series))
    (readValue_int _) fun c inside => solid_of_number ((numeral_int _).chars c inside)

theorem nodeLines_eq (family : NodeFamily) (reported : Reported) :
    nodeLines family reported = (reported ×ˢ family.series).map fun p => nodeLine family p.1 p.2 := by
  simp [nodeLines, SProd.sprod, List.product, List.map_flatMap, Function.comp_def]

def headGroups (stats : Stats) : List Group := (headFamilies stats).map fun entry => entry.1.group [headSample entry]

def nodeGroup (reported : Reported) (family : NodeFamily) : Group :=
  family.toFamily.group ((reported ×ˢ family.series).map (nodeSample family))

def nodeGroups (reported : Reported) : List Group := nodeFamilies.map (nodeGroup reported)

theorem newline_not_mem_number {text : String} (number : Numeral text) : '\n' ∉ text.toList := fun member =>
  absurd (number.chars _ member) (by decide)

theorem newline_not_mem_head {entry : Family × String} (member : entry ∈ headFamilies stats) :
    '\n' ∉ (entry.1.name ++ " " ++ entry.2).toList := by
  have name := newline_not_mem_name (sound_head member).name
  have number := newline_not_mem_number (numeral_head stats entry member)
  simp [name, number]

theorem newline_not_mem_node {family : NodeFamily} (listed : family ∈ nodeFamilies)
    {p : (String × MetricsRequest) × (Option String × (MetricsRequest → Int))} (series : p.2 ∈ family.series)
    (clean : Clean p.1.1.toList) : '\n' ∉ (nodeLine family p.1 p.2).toList := by
  have name := newline_not_mem_name (sound_node listed).name
  have number := newline_not_mem_number (numeral_int (p.2.2 p.1.2))
  have node : '\n' ∉ p.1.1.toList := fun member => (clean _ member).2.2 rfl
  have bounds := clean_bounds family listed p.2 series
  obtain ⟨⟨node, row⟩, bound, count⟩ := p
  cases bound with
  | none => simp_all [nodeLine]
  | some le =>
      have plain : '\n' ∉ le.toList := fun member => (bounds le rfl _ member).2.2 rfl
      simp_all [nodeLine]

/-! ## The text -/

theorem toList_metricsText (stats : Stats) (reported : Reported) : (metricsText stats reported).toList =
    textOf ([[]].intercalate ((groups stats reported).map (·.map String.toList))) := by
  rw [metricsText, String.toList_intercalate, List.map_append, map_intercalate]
  exact intercalate_lines _

def textGroups (stats : Stats) (reported : Reported) : List Group :=
  headGroups stats ++ if reported = [] then [] else nodeGroups reported

theorem readsGroups (clean : ∀ node ∈ reported, Clean node.1.toList) :
    List.Forall₂ (fun block group => block.mapM readLine = some group.lines)
      ((groups stats reported).map (·.map String.toList)) (textGroups stats reported) := by
  rw [groups, textGroups, List.map_append]
  apply List.rel_append
  · rw [headGroups, List.map_map, List.forall₂_map_left_iff, List.forall₂_map_right_iff, List.forall₂_same]
    intro entry member
    apply (sound_head member).reads
    exact mapM_cons_some.mpr ⟨_, _, readLine_head member, rfl, rfl⟩
  · split
    · exact List.Forall₂.nil
    · rw [nodeGroups, List.map_map, List.forall₂_map_left_iff, List.forall₂_map_right_iff, List.forall₂_same]
      intro family listed
      apply (sound_node listed).reads
      rw [nodeLines_eq, List.map_map, List.map_map, List.mapM_map]
      apply mapM_eq_map
      rintro ⟨node, series⟩ member
      obtain ⟨node, series⟩ := List.mem_product.mp member
      exact readLine_node listed series (clean _ node)

theorem single_groups (clean : ∀ node ∈ reported, Clean node.1.toList) :
    ∀ block ∈ groups stats reported, ∀ line ∈ block, '\n' ∉ line.toList := by
  intro block member
  rcases List.mem_append.mp member with head | node
  · obtain ⟨entry, listed, rfl⟩ := List.mem_map.mp head
    exact (sound_head listed).single (List.forall_mem_singleton.mpr (newline_not_mem_head listed))
  · split at node
    · exact absurd node List.not_mem_nil
    · obtain ⟨family, listed, rfl⟩ := List.mem_map.mp node
      apply (sound_node listed).single
      rw [nodeLines_eq, List.forall_mem_map]
      rintro ⟨node, series⟩ member
      obtain ⟨node, series⟩ := List.mem_product.mp member
      exact newline_not_mem_node listed series (clean _ node)

theorem map_name_allGroups (stats : Stats) (reported : Reported) :
    (headGroups stats ++ nodeGroups reported).map (·.name) = families.map (·.name.toList) := by
  rw [families, ← map_headFamilies stats]
  simp [headGroups, nodeGroups, nodeGroup, Family.group, Function.comp_def]

theorem own_allGroups (stats : Stats) (reported : Reported) :
    ∀ group ∈ headGroups stats ++ nodeGroups reported, ∀ s ∈ group.samples, s.name = group.name := by
  intro group member
  rcases List.mem_append.mp member with head | node
  · obtain ⟨entry, -, rfl⟩ := List.mem_map.mp head
    exact List.forall_mem_singleton.mpr rfl
  · obtain ⟨family, -, rfl⟩ := List.mem_map.mp node
    exact List.forall_mem_map.mpr fun p _ => rfl

theorem textGroups_sublist (stats : Stats) (reported : Reported) :
    (textGroups stats reported).Sublist (headGroups stats ++ nodeGroups reported) := by
  unfold textGroups
  split
  · exact (List.append_nil _).symm ▸ List.sublist_append_left _ _
  · exact List.Sublist.refl _

theorem flatMap_textGroups (stats : Stats) (reported : Reported) : (textGroups stats reported).flatMap (·.samples) =
    (headGroups stats ++ nodeGroups reported).flatMap (·.samples) := by
  unfold textGroups
  split
  · rename_i nothing
    subst nothing
    have none : (nodeGroups []).flatMap (·.samples) = [] := by
      simp [nodeGroups, nodeGroup, Family.group]
    rw [List.append_nil, List.flatMap_append, none, List.append_nil]
  · rfl

def samplesOf (stats : Stats) (reported : Reported) : List Sample :=
  (headGroups stats ++ nodeGroups reported).flatMap (·.samples)

theorem read_metricsText (clean : ∀ node ∈ reported, Clean node.1.toList) :
    Exposition.read (metricsText stats reported).toList = some (samplesOf stats reported) := by
  have kept := textGroups_sublist stats reported
  have names : ((textGroups stats reported).map (·.name)).Nodup := by
    have all := nodup_families
    rw [← map_name_allGroups stats reported] at all
    exact all.sublist (kept.map _)
  have single : ∀ block ∈ (groups stats reported).map (·.map String.toList), ∀ line ∈ block, '\n' ∉ line := by
    rw [List.forall_mem_map]
    intro block member
    rw [List.forall_mem_map]
    exact single_groups clean block member
  rw [toList_metricsText, read_textOf (readsGroups clean) single names
    fun group member => own_allGroups stats reported group (kept.subset member), flatMap_textGroups]
  rfl

/-! ## The readings -/

def reading (family : NodeFamily) (p : (String × MetricsRequest) × (Option String × (MetricsRequest → Int))) :
    Reading :=
  ⟨family.name, seriesLabels p.1.1 p.2.1, some (p.2.2 p.1.2)⟩

theorem reading_nodeSample (family : NodeFamily)
    (p : (String × MetricsRequest) × (Option String × (MetricsRequest → Int))) :
    Reading.of (nodeSample family p) = reading family p := by
  simp [Reading.of, nodeSample, reading, charLabels, Value.number, Function.comp_def]

theorem readingsOf_eq (samples : List Sample) (name : String) :
    readingsOf samples name = (samples.filter (·.name = name.toList)).map Reading.of := by
  rw [readingsOf, List.filter_map]
  congr 2
  funext s
  simp [Reading.of, ← String.toList_inj]

theorem readingsOf_node {family : NodeFamily} (listed : family ∈ nodeFamilies) :
    readingsOf (samplesOf stats reported) family.name = (reported ×ˢ family.series).map (reading family) := by
  have names : ((headGroups stats ++ nodeGroups reported).map (·.name)).Nodup := by
    rw [map_name_allGroups]
    exact nodup_families
  have member : nodeGroup reported family ∈ headGroups stats ++ nodeGroups reported :=
    List.mem_append_right _ (List.mem_map.mpr ⟨family, listed, rfl⟩)
  have own := filter_samples names (own_allGroups stats reported) member
  rw [readingsOf_eq]
  refine (congrArg (List.map Reading.of) own).trans ?_
  rw [nodeGroup, Family.group, List.map_map]
  exact List.map_congr_left fun p _ => reading_nodeSample family p

/-! ## Names that need no escape -/

theorem forall_eq_of_perm {α : Type*} {l : List α} {f g : α → ℕ} (le : ∀ x ∈ l, f x ≤ g x)
    (perm : (l.map f).Perm (l.map g)) : ∀ x ∈ l, f x = g x := by
  intro x member
  by_contra apart
  have less := List.sum_lt_sum f g le ⟨x, member, lt_of_le_of_ne (le x member) apart⟩
  exact absurd perm.sum_eq less.ne

def cacheHitsLine (node : String × MetricsRequest) : List Char :=
  (nodeLine cacheHitsFamily node (none, (·.cacheHits))).toList

theorem cacheHitsLine_eq (node : String × MetricsRequest) : cacheHitsLine node =
    cacheHitsFamily.name.toList ++ '{' :: ("node".toList ++ '=' :: '"' ::
      (node.1.toList ++ '"' :: '}' :: ' ' :: (toString node.2.cacheHits).toList)) := by
  simp [cacheHitsLine, nodeLine]

/-- Each node's line opens a sample of its own. -/
theorem openings_sublist (stats : Stats) (present : reported ≠ []) :
    (reported.map fun node => opening (cacheHitsLine node)).Sublist
      ((metricsText stats reported).toList.splitOn '\n') := by
  have block : (cacheHitsFamily.lines (nodeLines cacheHitsFamily reported)).map String.toList ∈
      (groups stats reported).map (·.map String.toList) := by
    apply List.mem_map_of_mem
    rw [groups, if_neg present]
    exact List.mem_append_right _ List.mem_cons_self
  have lines : (reported.map cacheHitsLine).Sublist
      ((cacheHitsFamily.lines (nodeLines cacheHitsFamily reported)).map String.toList) := by
    have own : (nodeLines cacheHitsFamily reported).map String.toList = reported.map cacheHitsLine := by
      rw [List.map_eq_flatMap (f := cacheHitsLine), nodeLines, List.map_flatMap]
      rfl
    rw [← own]
    exact ((List.sublist_cons_self _ _).trans (List.sublist_cons_self _ _)).map _
  have pieces := map_opening_sublist (reported.map cacheHitsLine)
  rw [List.map_map] at pieces
  rw [toList_metricsText, splitOn_textOf]
  refine pieces.trans (List.Sublist.trans ?_ (List.sublist_append_left _ _))
  exact (lines.trans (sublist_intercalate block)).flatMap _

theorem sample_of_opening {node : String × MetricsRequest} {result : Line}
    (found : readLine (opening (cacheHitsLine node)) = some result) :
    ∃ s value, result = .sample s ∧ s.name = cacheHitsFamily.name.toList ∧
      s.labels.head? = some ("node".toList, value) ∧ value.length ≤ node.1.toList.length ∧
      (value.length = node.1.toList.length → Clean node.1.toList) := by
  have number := numeral_int node.2.cacheHits
  have quote : '"' ∉ '}' :: ' ' :: (toString node.2.cacheHits).toList := by
    simp only [List.mem_cons, not_or]
    exact ⟨by decide, by decide, fun member => absurd (number.chars _ member) (by decide)⟩
  have single : '\n' ∉ '}' :: ' ' :: (toString node.2.cacheHits).toList := by
    simp only [List.mem_cons, not_or]
    exact ⟨by decide, by decide, newline_not_mem_number number⟩
  have front : '\n' ∉ cacheHitsFamily.name.toList ++ '{' :: ("node".toList ++ ['=', '"']) := by decide
  have line : opening (cacheHitsLine node) = cacheHitsFamily.name.toList ++ '{' :: ("node".toList ++ '=' :: '"' ::
      opening (node.1.toList ++ '"' :: '}' :: ' ' :: (toString node.2.cacheHits).toList)) := by
    have cut := opening_append front (node.1.toList ++ '"' :: '}' :: ' ' :: (toString node.2.cacheHits).toList)
    rw [cacheHitsLine_eq]
    simpa using cut
  rw [line] at found
  obtain ⟨s, value, rest, same, named, label, quoted⟩ := label_of_readLine (by decide) (by decide) found
  obtain ⟨le, clean⟩ := length_readQuoted_opening quote single quoted
  exact ⟨s, value, same, named, label, le, clean⟩

/-- The length of a reading's first label. -/
def labelLength (r : Reading) : ℕ := (r.labels.head?.map (·.2.toList.length)).getD 0

theorem clean_of_wellFormed (wellFormed : WellFormed stats reported) : ∀ node ∈ reported, Clean node.1.toList := by
  by_cases nothing : reported = []
  · simp [nothing]
  obtain ⟨samples, found, faithful⟩ := wellFormed
  obtain ⟨read, rfl⟩ := samples_of_read found
  have openings := openings_sublist stats nothing
  have each : ∀ node ∈ reported, ∃ s, readLine (opening (cacheHitsLine node)) = some (.sample s) ∧
      s.name = cacheHitsFamily.name.toList ∧ labelLength (Reading.of s) ≤ node.1.toList.length ∧
      (labelLength (Reading.of s) = node.1.toList.length → Clean node.1.toList) := by
    intro node member
    obtain ⟨result, line⟩ := read _ (openings.subset (List.mem_map.mpr ⟨node, member, rfl⟩))
    obtain ⟨s, value, rfl, named, label, le, clean⟩ := sample_of_opening line
    have length : labelLength (Reading.of s) = value.length := by
      simp [labelLength, Reading.of, label]
    exact ⟨s, line, named, length ▸ le, length ▸ clean⟩
  have nonempty : Nonempty Sample := ⟨⟨[], [], .nan, none⟩⟩
  choose! s line named le clean using each
  have own : (reported.map fun node => Reading.of (s node)).Sublist
      (readingsOf (((metricsText stats reported).toList.splitOn '\n').filterMap
        fun line => (readLine line).bind Line.sample?) cacheHitsFamily.name) := by
    have sampled : (reported.map fun node => opening (cacheHitsLine node)).filterMap
        (fun line => (readLine line).bind Line.sample?) = reported.map s := by
      rw [List.filterMap_map, ← List.filterMap_eq_map]
      apply List.filterMap_congr
      intro node member
      simp [line node member, Line.sample?]
    have kept : (reported.map s).filter (·.name = cacheHitsFamily.name.toList) = reported.map s := by
      rw [List.filter_eq_self, List.forall_mem_map]
      exact fun node member => decide_eq_true (named node member)
    have part := (openings.filterMap fun line => (readLine line).bind Line.sample?).filter
      (·.name = cacheHitsFamily.name.toList)
    rw [sampled, kept] at part
    rw [readingsOf_eq, ← Function.comp_def, ← List.map_map]
    exact part.map Reading.of
  have perm := faithful.values (cacheHitsFamily.name, (·.cacheHits)) List.mem_cons_self
  have all := own.eq_of_length (by simpa using perm.length_eq.symm)
  rw [← all] at perm
  have lengths := perm.map labelLength
  rw [List.map_map, List.map_map] at lengths
  have same := forall_eq_of_perm le lengths
  exact fun node member => clean node member (same node member)

/-! ## Answers that were counted once -/

theorem family_of_value : ∀ metric ∈ nodeValues,
    ∃ family ∈ nodeFamilies, family.name = metric.1 ∧ family.series = [(none, metric.2)] := by
  simp only [nodeValues, List.forall_mem_cons]
  exact ⟨⟨nodeFamilies[0], List.getElem_mem _, rfl, rfl⟩, ⟨nodeFamilies[1], List.getElem_mem _, rfl, rfl⟩,
    ⟨nodeFamilies[2], List.getElem_mem _, rfl, rfl⟩, ⟨nodeFamilies[4], List.getElem_mem _, rfl, rfl⟩,
    ⟨nodeFamilies[5], List.getElem_mem _, rfl, rfl⟩, ⟨nodeFamilies[6], List.getElem_mem _, rfl, rfl⟩,
    ⟨nodeFamilies[7], List.getElem_mem _, rfl, rfl⟩, ⟨nodeFamilies[8], List.getElem_mem _, rfl, rfl⟩,
    fun _ member => nomatch member⟩

theorem answersLatency_mem : answersLatency ∈ nodeFamilies := List.getElem_mem (l := nodeFamilies) (n := 3) (by decide)

theorem product_map_singleton {α β γ : Type*} (xs : List α) (b : β) (f : α × β → γ) :
    (xs ×ˢ [b]).map f = xs.map fun a => f (a, b) := by
  induction xs with
  | nil => rfl
  | cons a xs ih => simp [ih]

theorem values_samplesOf (metric : String × (MetricsRequest → Int)) (listed : metric ∈ nodeValues) :
    readingsOf (samplesOf stats reported) metric.1 =
      reported.map fun node => ⟨metric.1, [("node", node.1)], some (metric.2 node.2)⟩ := by
  obtain ⟨family, member, name, series⟩ := family_of_value metric listed
  rw [← name, readingsOf_node member, series, product_map_singleton]
  rfl

def bucketReadings (node : String × MetricsRequest) : List Reading :=
  (answersUpTo node.2).map fun bucket =>
    ⟨"powerblockade_recursor_answers_latency", [("node", node.1), ("le", bucket.1)], some bucket.2⟩

theorem buckets_of_fast {node : String × MetricsRequest} (fast : node.2.answers0to1 = 0 ∧
    node.2.answers1to10 = 0 ∧ node.2.answers10to100 = 0 ∧ node.2.answers100to1000 = 0) :
    (answersLatency.series.map fun series => reading answersLatency (node, series)) = bucketReadings node := by
  obtain ⟨first, second, third, fourth⟩ := fast
  simp [bucketReadings, answersUpTo, answersLatency, reading, seriesLabels, first, second, third, fourth]

theorem wellFormed_of_unharmed (unharmed : ∀ node ∈ reported, Unharmed node) : WellFormed stats reported := by
  refine ⟨samplesOf stats reported, read_metricsText fun node member => (unharmed node member).clean, ?_, ?_, ?_⟩
  · intro metric listed
    exact List.Perm.of_eq (values_samplesOf metric listed)
  · have same : (reported ×ˢ answersLatency.series).map (reading answersLatency) =
        reported.flatMap bucketReadings := by
      refine List.map_flatMap.trans (List.flatMap_congr fun node member => ?_)
      rw [List.map_map]
      exact buckets_of_fast (unharmed node member).fast
    exact List.Perm.of_eq ((readingsOf_node answersLatency_mem).trans same)
  · intro node member
    obtain ⟨-, ⟨first, second, third, fourth⟩, slow⟩ := unharmed node member
    simp [answersUpTo, first, second, third, fourth, slow]

/-- What is written for a bound is what is counted up to it, since no other node has the name. -/
theorem bucket_of_perm (names : (reported.map (·.1)).Nodup)
    (buckets : ((reported ×ˢ answersLatency.series).map (reading answersLatency)).Perm
      (reported.flatMap bucketReadings)) {node : String × MetricsRequest} (member : node ∈ reported)
    {le : String} {count : MetricsRequest → Int} (listed : (some le, count) ∈ answersLatency.series) :
    (le, count node.2) ∈ answersUpTo node.2 := by
  have written : reading answersLatency (node, some le, count) ∈ reported.flatMap bucketReadings :=
    buckets.subset (List.mem_map.mpr ⟨_, List.mem_product.mpr ⟨member, listed⟩, rfl⟩)
  obtain ⟨other, known, counted⟩ := List.mem_flatMap.mp written
  obtain ⟨bucket, up, same⟩ := List.mem_map.mp counted
  simp only [reading, seriesLabels, Option.toList_some, List.map_cons, List.map_nil, Reading.mk.injEq,
    List.cons.injEq, Prod.mk.injEq, Option.some.injEq, Int.cast_inj, true_and, and_true] at same
  obtain ⟨-, ⟨name, label⟩, total⟩ := same
  obtain rfl := List.inj_on_of_nodup_map names known member name
  rwa [← label, ← total]

theorem fast_of_buckets (names : (reported.map (·.1)).Nodup)
    (buckets : ((reported ×ˢ answersLatency.series).map (reading answersLatency)).Perm
      (reported.flatMap bucketReadings)) {node : String × MetricsRequest} (member : node ∈ reported) :
    node.2.answers0to1 = 0 ∧ node.2.answers1to10 = 0 ∧ node.2.answers10to100 = 0 ∧ node.2.answers100to1000 = 0 := by
  have second : ("10", node.2.answers1to10) ∈ answersUpTo node.2 :=
    bucket_of_perm names buckets member (by simp [answersLatency])
  have third : ("100", node.2.answers10to100) ∈ answersUpTo node.2 :=
    bucket_of_perm names buckets member (by simp [answersLatency])
  have fourth : ("1000", node.2.answers100to1000) ∈ answersUpTo node.2 :=
    bucket_of_perm names buckets member (by simp [answersLatency])
  have last : ("+Inf", node.2.answersSlow) ∈ answersUpTo node.2 :=
    bucket_of_perm names buckets member (by simp [answersLatency])
  simp [answersUpTo] at second third fourth last
  omega

theorem unharmed_of_wellFormed (names : (reported.map (·.1)).Nodup) (wellFormed : WellFormed stats reported) :
    ∀ node ∈ reported, Unharmed node := by
  have clean := clean_of_wellFormed wellFormed
  obtain ⟨samples, found, faithful⟩ := wellFormed
  rw [read_metricsText clean] at found
  obtain rfl := Option.some.inj found
  have buckets := faithful.buckets
  rw [show "powerblockade_recursor_answers_latency" = answersLatency.name from rfl,
    readingsOf_node answersLatency_mem] at buckets
  intro node member
  have fast := fast_of_buckets names buckets member
  refine ⟨clean node member, fast, ?_⟩
  have cumulative := faithful.cumulative node member
  simp [answersUpTo, fast] at cumulative
  exact cumulative

/-! ## Every answer of the database -/

theorem nodup_getLatestNodeMetrics (db : Database) : ((getLatestNodeMetrics db).map (·.1)).Nodup := by
  have part (rows : List Node) : ((rows.filterMap fun node =>
      (db.metrics.filter (·.nodeId = node.id)).getLast?.map fun row => (node.name, row.counters)).map
        (·.1)).Sublist (rows.map (·.name)) := by
    induction rows with
    | nil => exact List.Sublist.slnil
    | cons node rows ih =>
        cases latest : (db.metrics.filter (·.nodeId = node.id)).getLast? with
        | none =>
            rw [List.filterMap_cons_none (by rw [latest]; rfl)]
            exact ih.cons _
        | some row =>
            rw [List.filterMap_cons_some (by rw [latest]; rfl)]
            exact ih.cons_cons _
  exact db.nodes.wellFormed.names.sublist (part db.nodes.rows)

/-- The text reads as what it reports exactly when no node is harmed. -/
theorem wellFormed_iff (db : Database) (stats : Stats) (reported : Reported)
    (answer : reported.Perm (getLatestNodeMetrics db)) :
    WellFormed stats reported ↔ ∀ node ∈ reported, Unharmed node := by
  have names : (reported.map (·.1)).Nodup := (answer.map _).nodup_iff.mpr (nodup_getLatestNodeMetrics db)
  exact ⟨unharmed_of_wellFormed names, wellFormed_of_unharmed⟩

/-! ## A secondary's row -/

def answered (fast slow : Int) : MetricsRequest :=
  ⟨0, 0, 0, 0, 0, fast, 0, 0, 0, slow, 0, 0, 0, 0, fast + slow, 0, 60⟩

def noon : DateTime := ⟨43200000000, by decide⟩

def reporting (row : MetricsRequest) : Database := { office .active none with metrics := [⟨1, noon, row⟩] }

theorem edge_legible : WellFormed quiet [("edge", answered 0 5)] := by
  refine (wellFormed_iff (reporting (answered 0 5)) quiet [("edge", answered 0 5)] (List.Perm.refl _)).mpr ?_
  exact List.forall_mem_singleton.mpr ⟨by decide, by decide, by decide⟩

def quotedNode : Node := { secondary .active none with name := "edge \"1\"" }

theorem quotedNode_wellFormed : NodesWellFormed [quotedNode] := by decide

def reportingQuoted (row : MetricsRequest) : Database :=
  { reporting row with nodes := ⟨[quotedNode], quotedNode_wellFormed⟩ }

theorem quote_unreadable : ¬ WellFormed quiet (getLatestNodeMetrics (reportingQuoted (answered 0 5))) ∧
    ¬ WellFormed quiet (getLatestNodeMetrics (reporting (answered 2 5))) := by
  have quoted : ("edge \"1\"", answered 0 5) ∈ getLatestNodeMetrics (reportingQuoted (answered 0 5)) :=
    List.mem_singleton_self _
  have fast : ("edge", answered 2 5) ∈ getLatestNodeMetrics (reporting (answered 2 5)) := List.mem_singleton_self _
  constructor
  · intro wellFormed
    have unharmed := unharmed_of_wellFormed (nodup_getLatestNodeMetrics _) wellFormed _ quoted
    exact absurd unharmed.clean (by decide)
  · intro wellFormed
    have unharmed := unharmed_of_wellFormed (nodup_getLatestNodeMetrics _) wellFormed _ fast
    exact absurd unharmed.fast (by decide)

end PowerBlockade.Metrics
