import Mathlib.Data.List.Basic

/-!
# Lists

`mapM` in `Option` as a loop that stops at its first failure, what is found in a list, and lists of
blocks that are joined.
-/

namespace PowerBlockade.Lib

variable {α β γ : Type*} {f : α → Option β}

theorem mapM_cons_some {a : α} {rest : List α} {results : List β} :
    (a :: rest).mapM f = some results ↔
      ∃ b later, f a = some b ∧ rest.mapM f = some later ∧ results = b :: later := by
  cases first : f a <;> cases tail : rest.mapM f <;> simp [List.mapM_cons, first, tail, eq_comm]

theorem mapM_eq_none {xs : List α} : xs.mapM f = none ↔ ∃ a ∈ xs, f a = none := by
  induction xs with
  | nil => simp
  | cons a rest ih =>
      cases first : f a <;> cases tail : rest.mapM f <;>
        simp_all [List.mapM_cons]

theorem forall₂_of_mapM {R : α → β → Prop} {xs : List α} {results : List β}
    (each : ∀ a ∈ xs, ∀ b, f a = some b → R a b) (looped : xs.mapM f = some results) :
    List.Forall₂ R xs results := by
  induction xs generalizing results with
  | nil => simp_all
  | cons a rest ih =>
      obtain ⟨b, later, first, tail, rfl⟩ := mapM_cons_some.1 looped
      obtain ⟨head, others⟩ := List.forall_mem_cons.1 each
      exact List.Forall₂.cons (head b first) (ih others tail)

theorem forall_of_mapM {P : β → Prop} {xs : List α} {results : List β}
    (each : ∀ a ∈ xs, ∀ b, f a = some b → P b) (looped : xs.mapM f = some results) :
    ∀ b ∈ results, P b := by
  induction xs generalizing results with
  | nil => simp_all
  | cons a rest ih =>
      obtain ⟨b, later, first, tail, rfl⟩ := mapM_cons_some.1 looped
      obtain ⟨head, others⟩ := List.forall_mem_cons.1 each
      exact List.forall_mem_cons.2 ⟨head b first, ih others tail⟩

theorem exists_of_mapM {xs : List α} {results : List β} (looped : xs.mapM f = some results) {a : α}
    (member : a ∈ xs) : ∃ b ∈ results, f a = some b := by
  induction xs generalizing results with
  | nil => exact absurd member List.not_mem_nil
  | cons first rest ih =>
      obtain ⟨b, later, found, tail, rfl⟩ := mapM_cons_some.1 looped
      cases List.mem_cons.1 member with
      | inl same => exact ⟨b, List.mem_cons_self, same ▸ found⟩
      | inr inRest =>
          obtain ⟨c, kept, got⟩ := ih tail inRest
          exact ⟨c, List.mem_cons_of_mem _ kept, got⟩

theorem map_of_mapM {g : β → γ} {h : α → γ} (agree : ∀ a b, f a = some b → g b = h a)
    {xs : List α} {results : List β} (looped : xs.mapM f = some results) :
    results.map g = xs.map h := by
  induction xs generalizing results with
  | nil => simp_all
  | cons a rest ih =>
      obtain ⟨b, later, first, tail, rfl⟩ := mapM_cons_some.1 looped
      simp [agree a b first, ih tail]

theorem any_of_mapM {g : β → Bool} {h : α → Bool} (agree : ∀ a b, f a = some b → g b = h a)
    {xs : List α} {results : List β} (looped : xs.mapM f = some results) :
    results.any g = xs.any h := by
  have found := congrArg (List.any · id) (map_of_mapM agree looped)
  simpa [List.any_map, Function.comp_def] using found

theorem filterMap_of_mapM {g : β → Option γ} {h : α → Option γ}
    (agree : ∀ a b, f a = some b → g b = h a) {xs : List α} {results : List β}
    (looped : xs.mapM f = some results) : results.filterMap g = xs.filterMap h := by
  have filtered := congrArg (List.filterMap id) (map_of_mapM agree looped)
  simpa [List.filterMap_map] using filtered

theorem mapM_append_some {xs ys : List α} {results later : List β} (left : xs.mapM f = some results)
    (right : ys.mapM f = some later) : (xs ++ ys).mapM f = some (results ++ later) := by
  rw [List.mapM_append, left, right]
  rfl

theorem mapM_eq_map {g : α → β} {xs : List α} (each : ∀ a ∈ xs, f a = some (g a)) : xs.mapM f = some (xs.map g) := by
  induction xs with
  | nil => rfl
  | cons a rest ih =>
      obtain ⟨first, others⟩ := List.forall_mem_cons.1 each
      exact mapM_cons_some.2 ⟨g a, rest.map g, first, ih others, rfl⟩

/-- The first of the first `n` that has a value is the first of all, if those before it are few enough. -/
theorem findSome?_take_iff {xs : List α} {b : β} (found : xs.findSome? f = some b) (n : Nat) :
    (xs.take n).findSome? f = some b ↔ (xs.takeWhile fun a => (f a).isNone).length < n := by
  induction xs generalizing n with
  | nil => exact nomatch found
  | cons a rest ih =>
      cases n with
      | zero => simp
      | succ n =>
          cases first : f a with
          | some c =>
              have same : c = b := by simpa [first] using found
              simp [first, same]
          | none =>
              have later : rest.findSome? f = some b := by simpa [first] using found
              simpa [first] using ih later n

/-- Where at most one entry is wanted, the order of the list does not matter. -/
theorem find?_perm {p : α → Bool} {xs ys : List α} (perm : ys.Perm xs)
    (unique : ∀ a ∈ xs, ∀ b ∈ xs, p a = true → p b = true → a = b) : ys.find? p = xs.find? p := by
  cases left : ys.find? p with
  | none =>
      rw [List.find?_eq_none] at left
      exact (List.find?_eq_none.mpr fun a member => left a (perm.mem_iff.mpr member)).symm
  | some a =>
      cases right : xs.find? p with
      | none =>
          rw [List.find?_eq_none] at right
          exact absurd (List.find?_some left) (right a (perm.mem_iff.mp (List.mem_of_find?_eq_some left)))
      | some b =>
          rw [unique a (perm.mem_iff.mp (List.mem_of_find?_eq_some left)) b (List.mem_of_find?_eq_some right)
            (List.find?_some left) (List.find?_some right)]

theorem map_inj_of_injOn {h : α → γ} {xs ys : List α}
    (separated : ∀ x ∈ xs, ∀ y ∈ ys, h x = h y → x = y) (same : xs.map h = ys.map h) : xs = ys := by
  induction xs generalizing ys with
  | nil => exact (List.map_eq_nil_iff.mp same.symm).symm
  | cons x xs ih =>
      cases ys with
      | nil => exact nomatch same
      | cons y ys =>
          obtain ⟨first, rest⟩ := List.cons.inj same
          have heads : x = y := separated x List.mem_cons_self y List.mem_cons_self first
          have tails : xs = ys := ih (fun a there b here =>
            separated a (List.mem_cons_of_mem _ there) b (List.mem_cons_of_mem _ here)) rest
          rw [heads, tails]

/-! ## Blocks of one length -/

variable {separator : List α} {n : Nat}

theorem intercalate_cons (x : List α) (xs : List (List α)) :
    separator.intercalate (x :: xs) = x ++ xs.flatMap (separator ++ ·) := by
  induction xs generalizing x with
  | nil => rw [List.intercalate_singleton, List.flatMap_nil, List.append_nil]
  | cons y xs ih => rw [List.intercalate_cons_cons, ih, List.flatMap_cons, List.append_assoc, List.append_assoc]

/-- Joined with a last empty block, every block is followed by the separator. -/
theorem intercalate_append_nil (xs : List (List α)) :
    separator.intercalate (xs ++ [[]]) = xs.flatMap (· ++ separator) := by
  induction xs with
  | nil => rfl
  | cons x xs ih =>
      rw [List.cons_append, List.intercalate_cons_of_ne_nil (by simp), ih, List.flatMap_cons]

theorem map_intercalate (g : α → β) (blocks : List (List α)) :
    (separator.intercalate blocks).map g = (separator.map g).intercalate (blocks.map (·.map g)) := by
  cases blocks with
  | nil => rfl
  | cons first rest =>
      rw [intercalate_cons, List.map_cons, intercalate_cons, List.map_append, List.map_flatMap, List.flatMap_map]
      simp

/-- Joined blocks are read as the joined results. -/
theorem mapM_intercalate {between : List β} (read : separator.mapM f = some between)
    {blocks : List (List α)} {results : List (List β)}
    (each : List.Forall₂ (fun block result => block.mapM f = some result) blocks results) :
    (separator.intercalate blocks).mapM f = some (between.intercalate results) := by
  cases each with
  | nil => rfl
  | cons first rest =>
      rw [intercalate_cons, intercalate_cons]
      apply mapM_append_some first
      induction rest with
      | nil => rfl
      | cons next _ ih => exact mapM_append_some (mapM_append_some read next) ih

theorem sublist_intercalate {block : List α} {blocks : List (List α)} (member : block ∈ blocks) :
    block.Sublist (separator.intercalate blocks) := by
  cases blocks with
  | nil => exact absurd member List.not_mem_nil
  | cons first rest =>
      rw [intercalate_cons]
      rcases List.mem_cons.mp member with rfl | later
      · exact List.sublist_append_left _ _
      · have inside : (separator ++ block).Sublist (rest.flatMap (separator ++ ·)) := by
          rw [List.flatMap_def]
          exact List.sublist_flatten_of_mem (List.mem_map.mpr ⟨block, later, rfl⟩)
        exact ((List.sublist_append_right _ _).trans inside).trans (List.sublist_append_right _ _)

theorem forall_mem_intercalate {P : α → Prop} {words : List (List α)} (between : ∀ c ∈ separator, P c)
    (within : ∀ word ∈ words, ∀ c ∈ word, P c) : ∀ c ∈ separator.intercalate words, P c := by
  cases words with
  | nil => exact fun c member => nomatch member
  | cons first rest =>
      intro c member
      rw [intercalate_cons] at member
      rcases List.mem_append.mp member with here | later
      · exact within first List.mem_cons_self c here
      · obtain ⟨word, listed, member⟩ := List.mem_flatMap.mp later
        rcases List.mem_append.mp member with sep | inside
        · exact between c sep
        · exact within word (List.mem_cons_of_mem _ listed) c inside

theorem ne_nil_of_length (positive : 0 < n) {x : List α} (length : x.length = n) : x ≠ [] :=
  List.ne_nil_of_length_pos (length ▸ positive)

theorem flatMap_separator_inj (positive : 0 < n) {xs ys : List (List α)}
    (left : ∀ x ∈ xs, x.length = n) (right : ∀ y ∈ ys, y.length = n)
    (same : xs.flatMap (separator ++ ·) = ys.flatMap (separator ++ ·)) : xs = ys := by
  induction xs generalizing ys with
  | nil =>
      cases ys with
      | nil => rfl
      | cons y ys =>
          have nonempty := ne_nil_of_length positive (right y List.mem_cons_self)
          simp [nonempty] at same
  | cons x xs ih =>
      have lengthX := left x List.mem_cons_self
      cases ys with
      | nil =>
          have nonempty := ne_nil_of_length positive lengthX
          simp [nonempty] at same
      | cons y ys =>
          have lengthY := right y List.mem_cons_self
          rw [List.flatMap_cons, List.flatMap_cons] at same
          obtain ⟨heads, tails⟩ := List.append_inj same (by simp [lengthX, lengthY])
          have rest := ih (fun a there => left a (List.mem_cons_of_mem _ there))
            (fun b there => right b (List.mem_cons_of_mem _ there)) tails
          rw [List.append_cancel_left heads, rest]

theorem intercalate_inj (positive : 0 < n) {xs ys : List (List α)} (left : ∀ x ∈ xs, x.length = n)
    (right : ∀ y ∈ ys, y.length = n)
    (same : separator.intercalate xs = separator.intercalate ys) : xs = ys := by
  cases xs with
  | nil =>
      cases ys with
      | nil => rfl
      | cons y ys =>
          have nonempty := ne_nil_of_length positive (right y List.mem_cons_self)
          simp [nonempty, intercalate_cons] at same
  | cons x xs =>
      have lengthX := left x List.mem_cons_self
      cases ys with
      | nil =>
          have nonempty := ne_nil_of_length positive lengthX
          simp [nonempty, intercalate_cons] at same
      | cons y ys =>
          have lengthY := right y List.mem_cons_self
          rw [intercalate_cons, intercalate_cons] at same
          obtain ⟨heads, tails⟩ := List.append_inj same (lengthX.trans lengthY.symm)
          have rest := flatMap_separator_inj positive
            (fun a there => left a (List.mem_cons_of_mem _ there))
            (fun b there => right b (List.mem_cons_of_mem _ there)) tails
          rw [heads, rest]

end PowerBlockade.Lib
