import PowerBlockade.Lib.Fields
import PowerBlockade.Lib.FirstOccurrence

/-!
# Migration of the recursor's settings

The `awk` program of `migrate-settings.sh` renames the old settings, and of several lines for one
setting it prints the first.
-/

namespace PowerBlockade.Recursor
open Lib

/-! ## The program -/

/-- `map` -/
def aliases : List (List Char × List Char) :=
  [("recordcache-max-entries".toList, "max-cache-entries".toList),
    ("cache-ttl".toList, "packetcache-ttl".toList),
    ("negquery-cache-ttl".toList, "packetcache-negative-ttl".toList),
    ("negcache-ttl".toList, "packetcache-negative-ttl".toList),
    ("reuse-port".toList, "reuseport".toList)]

/-- `[[:space:]]` -/
def isSpace (c : Char) : Bool := c ∈ [' ', '\t', '\n', '\x0b', '\x0c', '\r']

/-- `[ \t]` -/
def isBlank (c : Char) : Bool := c = ' ' ∨ c = '\t'

/-- The key and the value of a line that is neither a comment nor blank, and has an `=`. -/
def assignment (raw : List Char) : Option (List Char × List Char) :=
  if (raw.dropWhile isSpace).head? = some '#' ∨ raw.dropWhile isSpace = [] ∨ '=' ∉ raw then none
  else some (trim isBlank (raw.takeWhile (· ≠ '=')), (raw.dropWhile (· ≠ '=')).tail)

def newKey (key : List Char) : List Char := (aliases.lookup key).getD key

/-- The variables of the program, and what it has printed. -/
structure Awk where
  seen : List (List Char)
  migrated : Nat
  deduped : Nat
  printed : List (List Char)

def Awk.print (awk : Awk) (line : List Char) : Awk := { awk with printed := awk.printed ++ [line] }

def Awk.line (awk : Awk) (raw : List Char) : Awk :=
  match assignment raw with
  | none => awk.print raw
  | some (key, value) =>
      let awk := { awk with migrated := awk.migrated + if (aliases.lookup key).isSome then 1 else 0 }
      if awk.seen.contains (newKey key) then { awk with deduped := awk.deduped + 1 }
      else { awk with seen := newKey key :: awk.seen }.print (newKey key ++ '=' :: value)

/-- The last line may lack its end. -/
def records (text : String) : List (List Char) :=
  let lines := text.toList.splitOn '\n'
  if lines.getLast? = some [] then lines.dropLast else lines

def awk (text : String) : Awk := (records text).foldl Awk.line ⟨[], 0, 0, []⟩

def migrate (text : String) : String := String.ofList ((awk text).printed.flatMap (· ++ ['\n']))

def summary (text : String) : String :=
  s!"migrate-recursor-settings: migrated={(awk text).migrated} deduped={(awk text).deduped}\n"

/-! ## The meaning of a configuration -/

/-- A line with an old setting assigns the new one. -/
def canonical (raw : List Char) : Option (List Char × List Char) :=
  (assignment raw).map fun setting => (newKey setting.1, setting.2)

/-- The values that lines give a key, in order, as `read` reads a line. -/
def valuesOf (read : List Char → Option (List Char × List Char)) (lines : List (List Char)) (key : List Char) :
    List (List Char) :=
  ((lines.filterMap read).filter (·.1 = key)).map (·.2)

/-- A line as it is printed if it is the first for its key. -/
def rewrite (raw : List Char) : List Char :=
  match canonical raw with
  | none => raw
  | some (key, value) => key ++ '=' :: value

variable {α : Type*}

/-- The last assignment of a key counts; `meaning` is what the recursor makes of its text. -/
structure MeaningPreserved (meaning : List Char → α) (text : String) : Prop where
  effective : ∀ key, (valuesOf assignment (records (migrate text)) key).getLast?.map meaning =
    (valuesOf canonical (records text) key).getLast?.map meaning
  once : ∀ key, valuesOf canonical (records text) key ≠ [] →
    (valuesOf assignment (records (migrate text)) key).length = 1
  others : (records (migrate text)).filter (assignment · = none) = (records text).filter (assignment · = none)
  ordered : (records (migrate text)).Sublist ((records text).map rewrite)
  again : migrate (migrate text) = migrate text

/-- The first and the last line that assign a key, or an old name of it, agree. -/
def FirstIsLast (meaning : List Char → α) (text : String) : Prop :=
  ∀ key, (valuesOf canonical (records text) key).head?.map meaning =
    (valuesOf canonical (records text) key).getLast?.map meaning

/-! ## The lines that are printed -/

/-- A key that is read back from the line it is written in. -/
structure Plain (key : List Char) : Prop where
  equals : '=' ∉ key
  trimmed : trim isBlank key = key
  comment : (key.dropWhile isSpace).head? ≠ some '#'

theorem isSpace_of_isBlank {c : Char} (blank : isBlank c = true) : isSpace c = true := by
  simp only [isBlank, decide_eq_true_eq] at blank
  rcases blank with rfl | rfl <;> decide

theorem Plain.assignment {key : List Char} (plain : Plain key) (value : List Char) :
    assignment (key ++ '=' :: value) = some (key, value) := by
  have solid : isSpace '=' = false := by decide
  have before : ∀ c ∈ key, decide (c ≠ '=') = true := by
    intro c member
    rw [decide_eq_true_eq]
    rintro rfl
    exact plain.equals member
  have stop : ∀ c ∈ ('=' :: value).head?, decide (c ≠ '=') = false := by
    rintro _ ⟨⟩
    decide
  have kept : ¬ (((key ++ '=' :: value).dropWhile isSpace).head? = some '#' ∨
      (key ++ '=' :: value).dropWhile isSpace = [] ∨ '=' ∉ key ++ '=' :: value) := by
    rw [dropWhile_append_solid solid, List.head?_append, Option.or_eq_some_iff]
    simp [plain.comment]
  rw [Recursor.assignment, if_neg kept, takeWhile_append_stop before stop, dropWhile_append_stop before stop,
    plain.trimmed, List.tail_cons]

/-- What the blanks around a key hide, the spaces hide too. -/
theorem head?_dropWhile_trim {text : List Char} {c : Char}
    (first : ((trim isBlank text).dropWhile isSpace).head? = some c) :
    (text.dropWhile isSpace).head? = some c := by
  obtain ⟨rest, whole⟩ := List.rdropWhile_prefix isBlank (text.dropWhile isBlank)
  have spaces : ∀ c ∈ text.takeWhile isBlank, isSpace c = true := fun c member =>
    isSpace_of_isBlank (List.mem_takeWhile_imp member)
  rw [← List.takeWhile_append_dropWhile (p := isBlank) (l := text), List.dropWhile_append_of_pos spaces, ← whole]
  exact head?_dropWhile_append first rest

theorem plain_of_assignment {raw key value : List Char} (assigned : assignment raw = some (key, value)) :
    Plain key := by
  unfold assignment at assigned
  split at assigned
  · exact nomatch assigned
  · rename_i kept
    obtain ⟨comment, -, equals⟩ := not_or.mp kept |>.imp_right not_or.mp
    obtain ⟨rfl, -⟩ := Prod.mk.inj (Option.some.inj assigned)
    refine ⟨?_, trim_trim _ _, ?_⟩
    · intro member
      have stays := List.mem_takeWhile_imp (mem_of_mem_trim member)
      exact absurd stays (by decide)
    · intro first
      apply comment
      rw [← List.takeWhile_append_dropWhile (p := (· ≠ '=')) (l := raw)]
      exact head?_dropWhile_append (head?_dropWhile_trim first) _

theorem mem_aliases {key new : List Char} (renamed : aliases.lookup key = some new) : (key, new) ∈ aliases := by
  obtain ⟨before, after, table, -⟩ := List.lookup_eq_some_iff.mp renamed
  rw [table]
  exact List.mem_append_right _ List.mem_cons_self

theorem plain_newKey {key : List Char} (plain : Plain key) : Plain (newKey key) := by
  unfold newKey
  cases renamed : aliases.lookup key with
  | none => exact plain
  | some new =>
      have all : ∀ entry ∈ aliases, '=' ∉ entry.2 ∧ trim isBlank entry.2 = entry.2 ∧
          (entry.2.dropWhile isSpace).head? ≠ some '#' := by decide
      obtain ⟨equals, trimmed, comment⟩ := all _ (mem_aliases renamed)
      exact ⟨equals, trimmed, comment⟩

/-- No new name is an old one. -/
theorem newKey_newKey (key : List Char) : newKey (newKey key) = newKey key := by
  cases renamed : aliases.lookup key with
  | none => rw [newKey, newKey, renamed, Option.getD_none, renamed, Option.getD_none]
  | some new =>
      have all : ∀ entry ∈ aliases, newKey entry.2 = entry.2 := by decide
      have once : newKey key = new := by rw [newKey, renamed, Option.getD_some]
      rw [once]
      exact all _ (mem_aliases renamed)

theorem canonical_eq_none {raw : List Char} : canonical raw = none ↔ assignment raw = none :=
  Option.map_eq_none_iff

theorem rewrite_of_none {raw : List Char} (other : canonical raw = none) : rewrite raw = raw := by
  rw [rewrite, other]

theorem rewrite_of_some {raw key value : List Char} (assigned : canonical raw = some (key, value)) :
    rewrite raw = key ++ '=' :: value := by
  rw [rewrite, assigned]

theorem assignment_rewrite (raw : List Char) : assignment (rewrite raw) = canonical raw := by
  cases assigned : assignment raw with
  | none =>
      have other := canonical_eq_none.mpr assigned
      rw [rewrite_of_none other, other, assigned]
  | some setting =>
      have new : canonical raw = some (newKey setting.1, setting.2) := by rw [canonical, assigned, Option.map_some]
      rw [rewrite_of_some new, new]
      exact (plain_newKey (plain_of_assignment assigned)).assignment setting.2

theorem canonical_rewrite (raw : List Char) : canonical (rewrite raw) = canonical raw := by
  rw [canonical, assignment_rewrite, canonical, Option.map_map]
  congr 1
  funext setting
  exact Prod.ext (newKey_newKey setting.1) rfl

theorem rewrite_rewrite (raw : List Char) : rewrite (rewrite raw) = rewrite raw := by
  cases assigned : canonical raw with
  | none => rw [rewrite_of_none assigned, rewrite_of_none assigned]
  | some setting =>
      rw [rewrite_of_some ((canonical_rewrite raw).trans assigned), rewrite_of_some assigned]

def keyOf (line : List Char) : Option (List Char) := (assignment line).map (·.1)

theorem line_of_none {raw : List Char} (other : assignment raw = none) (awk : Awk) : awk.line raw = awk.print raw := by
  rw [Awk.line, other]

theorem printed_line {raw key value : List Char} (assigned : assignment raw = some (key, value)) (awk : Awk) :
    (newKey key ∈ awk.seen → (awk.line raw).seen = awk.seen ∧ (awk.line raw).printed = awk.printed) ∧
      (newKey key ∉ awk.seen → (awk.line raw).seen = newKey key :: awk.seen ∧
        (awk.line raw).printed = awk.printed ++ [rewrite raw]) := by
  have new : canonical raw = some (newKey key, value) := by rw [canonical, assigned, Option.map_some]
  rw [Awk.line, assigned, rewrite_of_some new]
  constructor
  · intro known
    simp [known]
  · intro unknown
    simp [unknown, Awk.print]

/-- The program prints the first line for each key. -/
theorem foldl_line (lines : List (List Char)) (awk : Awk) : (lines.foldl Awk.line awk).printed =
    awk.printed ++ keepFirst keyOf awk.seen (lines.map rewrite) := by
  induction lines generalizing awk with
  | nil => simp [keepFirst]
  | cons raw lines ih =>
      have read := assignment_rewrite raw
      rw [List.foldl_cons, ih, List.map_cons]
      cases assigned : assignment raw with
      | none =>
          have other := canonical_eq_none.mpr assigned
          have keyless : keyOf (rewrite raw) = none := by rw [keyOf, read, other, Option.map_none]
          rw [keepFirst_cons_none keyless, rewrite_of_none other, line_of_none assigned]
          simp [Awk.print]
      | some setting =>
          have keyed : keyOf (rewrite raw) = some (newKey setting.1) := by
            rw [keyOf, read, canonical, assigned, Option.map_some, Option.map_some]
          obtain ⟨again, first⟩ := printed_line assigned awk
          by_cases known : newKey setting.1 ∈ awk.seen
          · rw [keepFirst_cons_seen keyed known, (again known).1, (again known).2]
          · rw [keepFirst_cons_new keyed known, (first known).1, (first known).2, List.append_assoc,
              List.singleton_append]

theorem printed_awk (text : String) : (awk text).printed = keepFirst keyOf [] ((records text).map rewrite) := by
  rw [awk, foldl_line, List.nil_append]

/-! ## Lines and records -/

theorem lineEnd_not_mem_records {text : String} {line : List Char} (listed : line ∈ records text) :
    '\n' ∉ line := by
  have cut : line ∈ text.toList.splitOn '\n' := by
    unfold records at listed
    dsimp only at listed
    split at listed
    · exact (List.dropLast_sublist _).subset listed
    · exact listed
  exact not_mem_of_mem_splitOn cut

theorem mem_of_assignment {raw : List Char} {setting : List Char × List Char}
    (assigned : assignment raw = some setting) :
    (∀ c ∈ setting.1, c ∈ raw) ∧ ∀ c ∈ setting.2, c ∈ raw := by
  unfold assignment at assigned
  split at assigned
  · exact nomatch assigned
  · rw [← Option.some.inj assigned]
    exact ⟨fun c member => (List.takeWhile_prefix _).subset (mem_of_mem_trim member), fun c member =>
      (List.dropWhile_suffix _).subset (List.mem_of_mem_tail member)⟩

theorem lineEnd_not_mem_rewrite {raw : List Char} (absent : '\n' ∉ raw) : '\n' ∉ rewrite raw := by
  cases assigned : assignment raw with
  | none =>
      rw [rewrite_of_none (canonical_eq_none.mpr assigned)]
      exact absent
  | some setting =>
      have new : canonical raw = some (newKey setting.1, setting.2) := by rw [canonical, assigned, Option.map_some]
      rw [rewrite_of_some new]
      obtain ⟨inKey, inValue⟩ := mem_of_assignment assigned
      have key : '\n' ∉ newKey setting.1 := by
        unfold newKey
        cases renamed : aliases.lookup setting.1 with
        | none => exact fun member => absent (inKey _ member)
        | some new =>
            have all : ∀ entry ∈ aliases, '\n' ∉ entry.2 := by decide
            exact all _ (mem_aliases renamed)
      rw [List.mem_append, List.mem_cons]
      rintro (inside | mark | inside)
      · exact key inside
      · exact absurd mark (by decide)
      · exact absent (inValue _ inside)

theorem records_lines {lines : List (List Char)} (whole : ∀ line ∈ lines, '\n' ∉ line) :
    records (String.ofList (lines.flatMap (· ++ ['\n']))) = lines := by
  have cut := splitOn_lines whole []
  rw [List.append_nil, List.splitOn_nil] at cut
  rw [records, String.toList_ofList, cut]
  simp

theorem records_migrate (text : String) : records (migrate text) = (awk text).printed := by
  apply records_lines
  intro line printed
  rw [printed_awk] at printed
  obtain ⟨raw, listed, rfl⟩ := List.mem_map.mp ((keepFirst_sublist _ _).subset printed)
  exact lineEnd_not_mem_rewrite (lineEnd_not_mem_records listed)

/-! ## What the lines mean -/

theorem valuesOf_assignment (lines : List (List Char)) (key : List Char) : valuesOf assignment lines key =
    (lines.filter (keyOf · = some key)).map fun line => ((assignment line).map (·.2)).getD [] := by
  induction lines with
  | nil => rfl
  | cons line lines ih =>
      unfold valuesOf at ih ⊢
      rw [List.filter_cons, keyOf, List.filterMap_cons]
      cases assigned : assignment line with
      | none => simpa [assigned] using ih
      | some setting =>
          by_cases same : setting.1 = key
          · simp [assigned, same, ih]
          · simp [same, ih]

theorem valuesOf_canonical (lines : List (List Char)) (key : List Char) :
    valuesOf canonical lines key = valuesOf assignment (lines.map rewrite) key := by
  have same : assignment ∘ rewrite = canonical := funext assignment_rewrite
  rw [valuesOf, valuesOf, List.filterMap_map, same]

theorem valuesOf_migrate (text : String) (key : List Char) :
    valuesOf assignment (records (migrate text)) key = (valuesOf canonical (records text) key).take 1 := by
  rw [records_migrate, printed_awk, valuesOf_assignment, filter_some_keepFirst, if_neg List.not_mem_nil,
    valuesOf_canonical, valuesOf_assignment, List.map_take]

theorem filter_rewrite (lines : List (List Char)) :
    (lines.map rewrite).filter (keyOf · = none) = lines.filter (assignment · = none) := by
  induction lines with
  | nil => rfl
  | cons raw lines ih =>
      rw [List.map_cons, List.filter_cons, List.filter_cons, ih, keyOf, assignment_rewrite]
      cases assigned : assignment raw with
      | none =>
          have other := canonical_eq_none.mpr assigned
          simp [other, rewrite_of_none other]
      | some setting => simp [canonical, assigned]

theorem getLast?_valuesOf_migrate (text : String) (key : List Char) :
    (valuesOf assignment (records (migrate text)) key).getLast? = (valuesOf canonical (records text) key).head? := by
  rw [valuesOf_migrate]
  cases valuesOf canonical (records text) key <;> rfl

theorem filter_migrate (text : String) :
    (records (migrate text)).filter (assignment · = none) = (records text).filter (assignment · = none) := by
  have keyless (lines : List (List Char)) :
      lines.filter (assignment · = none) = lines.filter (keyOf · = none) := by
    simp only [keyOf, Option.map_eq_none_iff]
  rw [keyless, records_migrate, printed_awk, filter_none_keepFirst, filter_rewrite]

theorem map_rewrite_printed (text : String) : (awk text).printed.map rewrite = (awk text).printed := by
  rw [printed_awk]
  calc (keepFirst keyOf [] ((records text).map rewrite)).map rewrite
      = (keepFirst keyOf [] ((records text).map rewrite)).map id := by
        apply List.map_congr_left
        intro line printed
        obtain ⟨raw, -, rfl⟩ := List.mem_map.mp ((keepFirst_sublist _ _).subset printed)
        exact rewrite_rewrite raw
    _ = keepFirst keyOf [] ((records text).map rewrite) := List.map_id _

/-- A second run changes nothing. -/
theorem migrate_migrate (text : String) : migrate (migrate text) = migrate text := by
  have kept : (awk (migrate text)).printed = (awk text).printed := by
    rw [printed_awk (migrate text), records_migrate, map_rewrite_printed, printed_awk, keepFirst_keepFirst]
  rw [migrate, kept]
  rfl

theorem meaning_preserved_iff {α : Type*} (meaning : List Char → α) (text : String) :
    MeaningPreserved meaning text ↔ FirstIsLast meaning text := by
  constructor
  · intro preserved key
    rw [← preserved.effective key, getLast?_valuesOf_migrate]
  · intro same
    refine ⟨?_, ?_, filter_migrate text, ?_, migrate_migrate text⟩
    · intro key
      rw [getLast?_valuesOf_migrate, same key]
    · intro key assigned
      rw [valuesOf_migrate]
      cases values : valuesOf canonical (records text) key with
      | nil => exact absurd values assigned
      | cons => rfl
    · rw [records_migrate, printed_awk]
      exact keepFirst_sublist _ _

/-- The old name comes second, and its value is lost. -/
theorem meaning_not_preserved :
    ¬ MeaningPreserved (id : List Char → List Char) "max-cache-entries=1\nrecordcache-max-entries=2\n" := by
  intro preserved
  have after : valuesOf assignment (records (migrate "max-cache-entries=1\nrecordcache-max-entries=2\n"))
      "max-cache-entries".toList = [['1']] := by decide +kernel
  have before : valuesOf canonical (records "max-cache-entries=1\nrecordcache-max-entries=2\n")
      "max-cache-entries".toList = [['1'], ['2']] := by decide +kernel
  have same := preserved.effective "max-cache-entries".toList
  rw [after, before] at same
  exact absurd same (by decide)

end PowerBlockade.Recursor
