import Mathlib.Data.List.Basic

/-!
# Runs of a deterministic transition system

`step : σ → ι → σ` takes a state and a labelled step; a run is a list of labels.
-/

namespace PowerBlockade.Lib

variable {σ ι : Type*} {step : σ → ι → σ}

def visited (step : σ → ι → σ) : σ → List ι → List σ
  | s, [] => [s]
  | s, i :: rest => s :: visited step (step s i) rest

def Along (step : σ → ι → σ) (Q : σ → ι → Prop) : σ → List ι → Prop
  | _, [] => True
  | s, i :: rest => Q s i ∧ Along step Q (step s i) rest

def decidableAlong (Q : σ → ι → Prop) [∀ s i, Decidable (Q s i)] :
    (s : σ) → (run : List ι) → Decidable (Along step Q s run)
  | _, [] => isTrue trivial
  | s, i :: rest =>
      have := decidableAlong Q (step s i) rest
      inferInstanceAs (Decidable (Q s i ∧ Along step Q (step s i) rest))

instance (Q : σ → ι → Prop) [∀ s i, Decidable (Q s i)] (s : σ) (run : List ι) :
    Decidable (Along step Q s run) := decidableAlong Q s run

variable {Q R : σ → ι → Prop} {P : σ → Prop}

@[simp] theorem along_nil {s : σ} : Along step Q s [] := trivial

@[simp] theorem along_cons {s : σ} {i : ι} {rest : List ι} :
    Along step Q s (i :: rest) ↔ Q s i ∧ Along step Q (step s i) rest := Iff.rfl

theorem along_of_forall {s : σ} (every : ∀ s i, Q s i) (run : List ι) : Along step Q s run := by
  induction run generalizing s with
  | nil => trivial
  | cons i rest ih => exact ⟨every s i, ih⟩

theorem along_of_forall_mem {s : σ} {run : List ι} {given : ι → Prop} (every : ∀ i ∈ run, given i) :
    Along step (fun _ i => given i) s run := by
  induction run generalizing s with
  | nil => trivial
  | cons i rest ih =>
      obtain ⟨first, later⟩ := List.forall_mem_cons.1 every
      exact ⟨first, ih later⟩

theorem along_of_visited {s : σ} {run : List ι} (every : ∀ u ∈ visited step s run, ∀ i, Q u i) :
    Along step Q s run := by
  induction run generalizing s with
  | nil => trivial
  | cons i rest ih =>
      exact ⟨every s List.mem_cons_self i, ih fun u later => every u (List.mem_cons_of_mem _ later)⟩

theorem Along.imp {s : σ} {run : List ι} (weaker : ∀ s i, Q s i → R s i)
    (along : Along step Q s run) : Along step R s run := by
  induction run generalizing s with
  | nil => trivial
  | cons i rest ih => exact ⟨weaker s i along.1, ih along.2⟩

theorem Along.and {s : σ} {run : List ι} (left : Along step Q s run)
    (right : Along step R s run) : Along step (fun s i => Q s i ∧ R s i) s run := by
  induction run generalizing s with
  | nil => trivial
  | cons i rest ih => exact ⟨⟨left.1, right.1⟩, ih left.2 right.2⟩

theorem mem_visited_self (s : σ) (run : List ι) : s ∈ visited step s run := by
  cases run <;> simp [visited]

theorem foldl_mem_visited (s : σ) (run : List ι) : run.foldl step s ∈ visited step s run := by
  induction run generalizing s with
  | nil => simp [visited]
  | cons i rest ih => exact List.mem_cons_of_mem _ (ih (step s i))

/-- The induction behind every safety result: an invariant that the steps of the run keep holds
in every state it visits. -/
theorem visited_invariant {s : σ} {run : List ι} (initial : P s) (along : Along step Q s run)
    (keeps : ∀ s i, P s → Q s i → P (step s i)) : ∀ u ∈ visited step s run, P u := by
  induction run generalizing s with
  | nil => simpa [visited] using initial
  | cons i rest ih =>
      intro u member
      rcases List.mem_cons.1 member with rfl | later
      · exact initial
      · exact ih (keeps s i initial along.1) along.2 u later

theorem foldl_invariant {s : σ} {run : List ι} (initial : P s) (along : Along step Q s run)
    (keeps : ∀ s i, P s → Q s i → P (step s i)) : P (run.foldl step s) :=
  visited_invariant initial along keeps _ (foldl_mem_visited s run)

theorem foldl_preserves {s : σ} (run : List ι) (initial : P s)
    (keeps : ∀ s i, P s → P (step s i)) : P (run.foldl step s) := by
  induction run generalizing s with
  | nil => exact initial
  | cons i rest ih => exact ih (keeps s i initial)

theorem along_congr {s : σ} {run : List ι} {T : σ → ι → Prop} (initial : P s)
    (along : Along step T s run) (keeps : ∀ s i, P s → Q s i → P (step s i))
    (same : ∀ s i, P s → T s i → (Q s i ↔ R s i)) : Along step Q s run ↔ Along step R s run := by
  induction run generalizing s with
  | nil => simp
  | cons i rest ih =>
      simp only [along_cons, same s i initial along.1]
      exact and_congr_right fun holds =>
        ih (keeps s i initial ((same s i initial along.1).2 holds)) along.2

/-- The same where the invariant is kept by the steps that `T` allows. -/
theorem along_congr_of_invariant {s : σ} {run : List ι} {T : σ → ι → Prop} (initial : P s)
    (along : Along step T s run) (keeps : ∀ s i, P s → T s i → P (step s i))
    (same : ∀ s i, P s → T s i → (Q s i ↔ R s i)) : Along step Q s run ↔ Along step R s run := by
  induction run generalizing s with
  | nil => simp
  | cons i rest ih =>
      simp only [along_cons, same s i initial along.1]
      exact and_congr_right fun _ => ih (keeps s i initial along.1) along.2

/-- The invariant is kept by the steps that are as they should be. -/
theorem along_congr_of_kept {s : σ} (run : List ι) (initial : P s)
    (keeps : ∀ s i, P s → Q s i → P (step s i)) (same : ∀ s i, P s → (Q s i ↔ R s i)) :
    Along step Q s run ↔ Along step R s run :=
  along_congr initial (along_of_forall (Q := fun _ _ => True) (fun _ _ => trivial) run) keeps
    fun s i holds _ => same s i holds

/-- The invariant is kept by every step. -/
theorem along_congr_of_preserved {s : σ} (run : List ι) (initial : P s)
    (keeps : ∀ s i, P s → P (step s i)) (same : ∀ s i, P s → (Q s i ↔ R s i)) :
    Along step Q s run ↔ Along step R s run :=
  along_congr_of_kept run initial (fun s i holds _ => keeps s i holds) same

theorem forall_visited_iff {s : σ} {run : List ι} :
    (∀ u ∈ visited step s run, P u) ↔ P s ∧ Along step (fun u i => P (step u i)) s run := by
  induction run generalizing s with
  | nil => simp [visited]
  | cons i rest ih =>
      simp only [visited, List.forall_mem_cons, ih, along_cons]

theorem visited_of_forall {s : σ} (run : List ι) (initial : P s) (keeps : ∀ s i, P s → P (step s i)) :
    ∀ u ∈ visited step s run, P u :=
  visited_invariant initial (along_of_forall (Q := fun _ _ => True) (fun _ _ => trivial) run)
    fun s i holds _ => keeps s i holds

/-- A property holds all along a run exactly when each step keeps it, judged in the states that the
steps before it have left as they should be. -/
theorem forall_visited_iff_along {I : σ → Prop} {s : σ} {run : List ι} (invariant : I s)
    (always : ∀ s i, I s → I (step s i)) (initial : P s)
    (same : ∀ s i, I s → P s → (P (step s i) ↔ Q s i)) :
    (∀ u ∈ visited step s run, P u) ↔ Along step Q s run := by
  rw [forall_visited_iff, and_iff_right initial]
  exact along_congr_of_kept (P := fun s => I s ∧ P s) run ⟨invariant, initial⟩
    (fun s i holds after => ⟨always s i holds.1, after⟩) fun s i holds => same s i holds.1 holds.2

/-- Steps that a part of the state does not see can be left out, as far as that part goes. -/
theorem view_foldl_filter {τ : Type*} (view : σ → τ) (hidden : ι → Bool)
    (unseen : ∀ s i, hidden i = true → view (step s i) = view s)
    (respects : ∀ s u i, view s = view u → view (step s i) = view (step u i)) {s u : σ}
    (same : view s = view u) (run : List ι) :
    view (run.foldl step s) = view ((run.filter fun i => !hidden i).foldl step u) := by
  induction run generalizing s u with
  | nil => exact same
  | cons i rest ih =>
      cases hides : hidden i with
      | true =>
          rw [List.filter_cons_of_neg (by simp [hides]), List.foldl_cons]
          exact ih ((unseen s i hides).trans same)
      | false =>
          rw [List.filter_cons_of_pos (by simp [hides]), List.foldl_cons, List.foldl_cons]
          exact ih (respects s u i same)

end PowerBlockade.Lib
