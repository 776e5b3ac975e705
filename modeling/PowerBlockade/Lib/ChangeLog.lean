import Mathlib.Logic.Function.Basic
import Mathlib.Data.List.Induction

/-!
# Logs of changes

A change may be about a key. Of each key the log knows the last change, and replaying the log leaves
what that change recorded.
-/

namespace PowerBlockade.Lib.ChangeLog

variable {κ γ ν : Type*} [DecidableEq κ] (key : γ → Option κ) (image : γ → Option ν)

def latest (log : List γ) (k : κ) : Option γ := log.reverse.find? (key · = some k)

def replay (log : List γ) : κ → Option ν :=
  log.foldl (fun store change => match key change with
    | some k => Function.update store k (image change)
    | none => store) fun _ => none

variable {key} {image}

@[simp] theorem latest_nil (k : κ) : latest key [] k = none := rfl

@[simp] theorem latest_append (log : List γ) (change : γ) (k : κ) :
    latest key (log ++ [change]) k = if key change = some k then some change else latest key log k := by
  rw [latest, List.reverse_append, List.reverse_singleton, List.singleton_append, List.find?_cons]
  split <;> simp_all [latest]

theorem mem_of_latest {log : List γ} {k : κ} {change : γ} (last : latest key log k = some change) :
    change ∈ log ∧ key change = some k :=
  ⟨List.mem_reverse.mp (List.mem_of_find?_eq_some last), by simpa using List.find?_some last⟩

theorem exists_latest {log : List γ} {k : κ} {change : γ} (member : change ∈ log)
    (about : key change = some k) : ∃ last, latest key log k = some last := by
  apply Option.isSome_iff_exists.mp
  exact List.find?_isSome.mpr ⟨change, List.mem_reverse.mpr member, decide_eq_true about⟩

theorem replay_eq (log : List γ) (k : κ) : replay key image log k = (latest key log k).bind image := by
  induction log using List.reverseRecOn with
  | nil => rfl
  | append_singleton log change ih =>
      rw [latest_append, replay, List.foldl_append, List.foldl_cons, List.foldl_nil, ← replay]
      cases about : key change with
      | none => simpa using ih
      | some other =>
          by_cases same : other = k
          · simp [same]
          · simpa [same, Function.update_of_ne (Ne.symm same)] using ih

end PowerBlockade.Lib.ChangeLog
