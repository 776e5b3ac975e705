import Mathlib.Data.List.Nodup
import Mathlib.Data.Set.Function

/-!
# Assignments among other lines

A list some of whose items assign a key. Setting a key puts the new item in the place of the first one
that assigns it, or after the last item.
-/

namespace PowerBlockade.Lib.Assignments

variable {α κ : Type*} [DecidableEq κ] {keyOf : α → Option κ}

def put (keyOf : α → Option κ) (key : κ) (new : α) : List α → List α
  | [] => [new]
  | item :: rest => if keyOf item = some key then new :: rest else item :: put keyOf key new rest

/-- What assigns the key. -/
def assigning (keyOf : α → Option κ) (key : κ) (items : List α) : List α := items.filter (keyOf · = some key)

variable {key : κ} {new : α} {items : List α}

theorem assigning_cons_of_eq {item : α} (same : keyOf item = some key) (items : List α) :
    assigning keyOf key (item :: items) = item :: assigning keyOf key items :=
  List.filter_cons_of_pos (by simpa using same)

theorem assigning_cons_of_ne {item : α} (other : keyOf item ≠ some key) (items : List α) :
    assigning keyOf key (item :: items) = assigning keyOf key items :=
  List.filter_cons_of_neg (by simpa using other)

theorem put_of_absent (absent : assigning keyOf key items = []) : put keyOf key new items = items ++ [new] := by
  induction items with
  | nil => rfl
  | cons item items ih =>
      have here : keyOf item ≠ some key := by
        intro same
        rw [assigning_cons_of_eq same] at absent
        cases absent
      rw [assigning_cons_of_ne here] at absent
      rw [put, if_neg here, ih absent, List.cons_append]

/-- Before the end, only an item that assigns the key changes. -/
theorem put_append (present : assigning keyOf key items ≠ []) (rest : List α) :
    put keyOf key new (items ++ rest) = put keyOf key new items ++ rest := by
  induction items with
  | nil => exact absurd rfl present
  | cons item items ih =>
      rw [List.cons_append, put, put]
      split
      · rfl
      · rename_i other
        rw [assigning_cons_of_ne other] at present
        rw [ih present, List.cons_append]

theorem mem_put {item : α} (among : item ∈ put keyOf key new items) : item = new ∨ item ∈ items := by
  induction items with
  | nil => exact .inl (List.mem_singleton.mp among)
  | cons first items ih =>
      rw [put] at among
      split at among
      · exact (List.mem_cons.mp among).imp_right (List.mem_cons_of_mem _)
      · rcases List.mem_cons.mp among with rfl | later
        · exact .inr List.mem_cons_self
        · exact (ih later).imp_right (List.mem_cons_of_mem _)

theorem assigning_put (named : keyOf new = some key) (once : (assigning keyOf key items).length ≤ 1) :
    assigning keyOf key (put keyOf key new items) = [new] := by
  induction items with
  | nil => exact assigning_cons_of_eq named []
  | cons item items ih =>
      rw [put]
      split
      · rename_i same
        rw [assigning_cons_of_eq same, List.length_cons] at once
        have nothing : assigning keyOf key items = [] := List.length_eq_zero_iff.mp (by omega)
        rw [assigning_cons_of_eq named, nothing]
      · rename_i other
        rw [assigning_cons_of_ne other] at once ⊢
        exact ih once

theorem filter_put {p : α → Bool} (own : ∀ item, keyOf item = some key → p item = false)
    (named : keyOf new = some key) : (put keyOf key new items).filter p = items.filter p := by
  have gone : p new = false := own new named
  induction items with
  | nil => rw [put, List.filter_singleton, gone]; rfl
  | cons item items ih =>
      rw [put]
      split
      · rename_i same
        rw [List.filter_cons_of_neg (by simp [gone]), List.filter_cons_of_neg (by simp [own item same])]
      · rw [List.filter_cons, List.filter_cons, ih]

theorem assigning_put_of_ne {other : κ} (different : other ≠ key) (named : keyOf new = some key) :
    assigning keyOf other (put keyOf key new items) = assigning keyOf other items := by
  refine filter_put (fun item same => decide_eq_false ?_) named
  rw [same]
  exact fun both => different (Option.some.inj both).symm

/-- A key that is assigned keeps its place; another one comes last. -/
theorem map_put (named : keyOf new = some key) : (put keyOf key new items).map keyOf =
    items.map keyOf ++ if assigning keyOf key items = [] then [some key] else [] := by
  induction items with
  | nil => simp [put, assigning, named]
  | cons item items ih =>
      rw [put]
      split
      · rename_i same
        have present : assigning keyOf key (item :: items) ≠ [] := by
          rw [assigning_cons_of_eq same]
          exact List.cons_ne_nil _ _
        rw [if_neg present, List.append_nil, List.map_cons, List.map_cons, named, same]
      · rename_i other
        rw [List.map_cons, List.map_cons, ih, assigning_cons_of_ne other, List.cons_append]

/-! ## Several keys -/

/-- The settings one after the other. -/
def putAll (keyOf : α → Option κ) (settings : List (κ × α)) (items : List α) : List α :=
  settings.foldl (fun items setting => put keyOf setting.1 setting.2 items) items

variable {settings : List (κ × α)}

theorem putAll_cons (setting : κ × α) (settings : List (κ × α)) (items : List α) :
    putAll keyOf (setting :: settings) items = putAll keyOf settings (put keyOf setting.1 setting.2 items) := rfl

theorem putAll_append (settings later : List (κ × α)) (items : List α) :
    putAll keyOf (settings ++ later) items = putAll keyOf later (putAll keyOf settings items) := List.foldl_append

theorem filter_putAll {p : α → Bool}
    (own : ∀ setting ∈ settings, ∀ item, keyOf item = some setting.1 → p item = false)
    (named : ∀ setting ∈ settings, keyOf setting.2 = some setting.1) :
    (putAll keyOf settings items).filter p = items.filter p := by
  induction settings generalizing items with
  | nil => rfl
  | cons setting settings ih =>
      obtain ⟨mine, own⟩ := List.forall_mem_cons.mp own
      obtain ⟨name, named⟩ := List.forall_mem_cons.mp named
      rw [putAll_cons, ih own named, filter_put mine name]

theorem assigning_putAll_of_not_mem {other : κ} (absent : other ∉ settings.map (·.1))
    (named : ∀ setting ∈ settings, keyOf setting.2 = some setting.1) :
    assigning keyOf other (putAll keyOf settings items) = assigning keyOf other items := by
  refine filter_putAll (fun setting among item same => decide_eq_false ?_) named
  rw [same]
  exact fun both => absent (List.mem_map.mpr ⟨setting, among, Option.some.inj both⟩)

theorem assigning_putAll (names : (settings.map (·.1)).Nodup)
    (named : ∀ setting ∈ settings, keyOf setting.2 = some setting.1)
    (once : ∀ setting ∈ settings, (assigning keyOf setting.1 items).length ≤ 1) :
    ∀ setting ∈ settings, assigning keyOf setting.1 (putAll keyOf settings items) = [setting.2] := by
  induction settings generalizing items with
  | nil => exact List.forall_mem_nil _
  | cons setting settings ih =>
      obtain ⟨fresh, names⟩ := List.nodup_cons.mp names
      obtain ⟨name, named⟩ := List.forall_mem_cons.mp named
      obtain ⟨mine, once⟩ := List.forall_mem_cons.mp once
      refine List.forall_mem_cons.mpr ⟨?_, ?_⟩
      · rw [putAll_cons, assigning_putAll_of_not_mem fresh named, assigning_put name mine]
      · refine ih names named fun later among => ?_
        have different : later.1 ≠ setting.1 := fun same => fresh (List.mem_map.mpr ⟨later, among, same⟩)
        rw [assigning_put_of_ne different name]
        exact once later among

theorem mem_putAll {item : α} (among : item ∈ putAll keyOf settings items) :
    item ∈ settings.map (·.2) ∨ item ∈ items := by
  induction settings generalizing items with
  | nil => exact .inr among
  | cons setting settings ih =>
      rcases ih among with later | stays
      · exact .inl (List.mem_cons_of_mem _ later)
      · rcases mem_put stays with rfl | old
        · exact .inl List.mem_cons_self
        · exact .inr old

/-- What is there keeps its place. -/
theorem prefix_map_putAll (named : ∀ setting ∈ settings, keyOf setting.2 = some setting.1) :
    items.map keyOf <+: (putAll keyOf settings items).map keyOf := by
  induction settings generalizing items with
  | nil => exact List.prefix_refl _
  | cons setting settings ih =>
      obtain ⟨name, named⟩ := List.forall_mem_cons.mp named
      have first : items.map keyOf <+: (put keyOf setting.1 setting.2 items).map keyOf := by
        rw [map_put name]
        exact List.prefix_append _ _
      exact first.trans (ih named)

end PowerBlockade.Lib.Assignments
