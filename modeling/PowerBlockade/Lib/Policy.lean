import Mathlib.Data.Finset.Lattice.Basic
import Mathlib.Data.Finset.SDiff

/-!
# Deny lists with exceptions

A source either denies or allows a finite set of names. The effective set is what some source
denies and none allows.
-/

namespace PowerBlockade.Lib

variable {α : Type*} [DecidableEq α]

structure Source (α : Type*) where
  allows : Bool
  names : Finset α

namespace Source

def Denies (sources : List (Source α)) (a : α) : Prop :=
  ∃ source ∈ sources, source.allows = false ∧ a ∈ source.names

def Allows (sources : List (Source α)) (a : α) : Prop :=
  ∃ source ∈ sources, source.allows = true ∧ a ∈ source.names

def collect (sources : List (Source α)) (start : Finset α × Finset α) : Finset α × Finset α :=
  sources.foldl (fun sets source =>
    if source.allows then (sets.1, sets.2 ∪ source.names) else (sets.1 ∪ source.names, sets.2)) start

def effective (sources : List (Source α)) : Finset α :=
  (collect sources (∅, ∅)).1 \ (collect sources (∅, ∅)).2

theorem mem_collect {sources : List (Source α)} {start : Finset α × Finset α} {a : α} :
    (a ∈ (collect sources start).1 ↔ a ∈ start.1 ∨ Denies sources a) ∧
      (a ∈ (collect sources start).2 ↔ a ∈ start.2 ∨ Allows sources a) := by
  induction sources generalizing start with
  | nil => simp [collect, Denies, Allows]
  | cons source rest ih =>
      have tail := @ih (if source.allows then (start.1, start.2 ∪ source.names)
        else (start.1 ∪ source.names, start.2))
      simp only [collect, Denies, Allows, List.foldl_cons, List.exists_mem_cons_iff] at tail ⊢
      cases allows : source.allows <;> simp_all [or_assoc]

theorem mem_effective {sources : List (Source α)} {a : α} :
    a ∈ effective sources ↔ Denies sources a ∧ ¬ Allows sources a := by
  simp [effective, mem_collect]

theorem effective_eq_empty_iff {sources : List (Source α)} :
    effective sources = ∅ ↔ ∀ a, Denies sources a → Allows sources a := by
  simp only [Finset.eq_empty_iff_forall_notMem, mem_effective, not_and, not_not]

omit [DecidableEq α] in
theorem denies_append {sources more : List (Source α)} {a : α} :
    Denies (sources ++ more) a ↔ Denies sources a ∨ Denies more a := by
  simp only [Denies, List.mem_append, or_and_right, exists_or]

omit [DecidableEq α] in
theorem allows_append {sources more : List (Source α)} {a : α} :
    Allows (sources ++ more) a ↔ Allows sources a ∨ Allows more a := by
  simp only [Allows, List.mem_append, or_and_right, exists_or]

/-- More sources change neither result exactly when what they allow is allowed already and what
they deny is denied or allowed already. -/
theorem extend_eq_iff {sources more kept : List (Source α)}
    (denies : ∀ a, Denies kept a ↔ Denies (sources ++ more) a)
    (allows : ∀ a, Allows kept a ↔ Allows (sources ++ more) a) :
    (effective sources = effective kept ∧
        (collect sources (∅, ∅)).2 = (collect kept (∅, ∅)).2) ↔
      (∀ a, Allows more a → Allows sources a) ∧
        ∀ a, Denies more a → Denies sources a ∨ Allows sources a := by
  simp only [Finset.ext_iff, mem_effective, mem_collect, denies, allows, denies_append,
    allows_append, Finset.notMem_empty, false_or]
  constructor
  · rintro ⟨blocked, allowed⟩
    refine ⟨fun a more => (allowed a).mpr (.inr more), fun a more => ?_⟩
    by_cases already : Allows sources a
    · exact .inr already
    · have none_more := fun more => already ((allowed a).mpr (.inr more))
      exact .inl ((blocked a).mpr ⟨.inr more, not_or.mpr ⟨already, none_more⟩⟩).1
  · rintro ⟨allowed, blocked⟩
    refine ⟨fun a => ⟨fun ⟨denied, free⟩ => ?_, fun ⟨denied, free⟩ => ?_⟩, fun a => ?_⟩
    · exact ⟨.inl denied, not_or.mpr ⟨free, fun more => free (allowed a more)⟩⟩
    · have free := not_or.mp free
      exact ⟨denied.elim id fun more => (blocked a more).resolve_right free.1, free.1⟩
    · exact ⟨.inl, fun either => either.elim id (allowed a)⟩

end Source

end PowerBlockade.Lib
