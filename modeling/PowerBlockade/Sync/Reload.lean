import PowerBlockade.Lib.Run
import PowerBlockade.Sync.Agent

/-!
# The reload after a sync

`changed` is forgotten with the call that set it, so a sync that raises after it has replaced a file
leaves the next one nothing to reload for.
-/

namespace PowerBlockade.Sync
open Lib

/-- The secondary between two syncs: `unloaded` is a replacement that no `trigger_reload` has
followed, `completed` the outcome of the last sync. -/
structure Replica where
  files : Files
  unloaded : Bool
  completed : Bool

namespace Replica

def start (files : Files) : Replica := ⟨files, false, false⟩

def sync (replica : Replica) (label : Response × (Target → Fault)) : Replica :=
  let synced := syncConfig label.1 label.2 replica.files
  { files := synced.files
    unloaded := if synced.reloads then false else replica.unloaded || synced.replaced
    completed := synced.completed }

/-- A completed sync leaves nothing unloaded. -/
def Reloaded (replica : Replica) : Prop := replica.completed = true → replica.unloaded = false

end Replica

/-! ## Where a sync stops -/

def Current (faults : Target → Fault) (files : Files) : Action → Prop
  | .write target content =>
      faults target ≠ .early ∧ upToDate (files target) content = some true
  | .badZone => False

def Succeeds (faults : Target → Fault) (files : Files) : Action → Prop
  | .write target content =>
      Current faults files (.write target content) ∨
        upToDate (files target) content = some false ∧ faults target = .none
  | .badZone => False

/-- It raises with the file as it was. -/
def Fails (faults : Target → Fault) (files : Files) : Action → Prop
  | .write target content =>
      faults target = .early ∨ upToDate (files target) content = none ∨
        upToDate (files target) content = some false ∧ faults target = .late
  | .badZone => True

def after (files : Files) : Action → Files
  | .write target content => Function.update files target (written (files target) content)
  | .badZone => files

/-- Every file is written, or the sync fails at a file that comes after none that it has replaced. -/
def Quiet (faults : Target → Fault) (files : Files) (todo : List Action) : Prop :=
  Along after (Succeeds faults) files todo ∨
    ∃ done action rest, todo = done ++ action :: rest ∧ (∀ a ∈ done, Current faults files a) ∧
      Fails faults files action

variable {faults : Target → Fault} {p : Progress} {action : Action}

theorem act_succeeds (going : p.raised = false) (succeeds : Succeeds faults p.files action) :
    (act faults p action).raised = false ∧ (act faults p action).files = after p.files action := by
  cases action with
  | badZone => exact succeeds.elim
  | write target content =>
      have goes : (act faults p (.write target content)).raised = false := by
        have step := acted faults p (.write target content)
        generalize act faults p (.write target content) = next at step
        cases step with
        | stopped raised => exact going
        | current => exact going
        | replaced => exact going
        | torn _ other fault => simp [Succeeds, Current, other, fault] at succeeds
        | failed _ why =>
            rcases why with early | unreadable | ⟨other, late⟩
            · simp [Succeeds, Current, early] at succeeds
            · simp [Succeeds, Current, unreadable] at succeeds
            · simp [Succeeds, Current, other, late] at succeeds
      exact ⟨goes, act_write goes⟩

theorem foldl_act_succeeds {todo : List Action} (going : p.raised = false)
    (along : Along after (Succeeds faults) p.files todo) :
    (todo.foldl (act faults) p).raised = false := by
  induction todo generalizing p with
  | nil => exact going
  | cons action todo ih =>
      obtain ⟨goes, files⟩ := act_succeeds going along.1
      exact ih goes (files ▸ along.2)

theorem succeeds_of_act (going : p.raised = false) (goes : (act faults p action).raised = false) :
    Succeeds faults p.files action := by
  have step := acted faults p action
  generalize act faults p action = next at step goes
  cases step with
  | stopped raised => exact nomatch going.symm.trans raised
  | current _ notEarly same => exact .inl ⟨notEarly, same⟩
  | replaced _ other fault => exact .inr ⟨other, fault⟩
  | torn => exact nomatch goes
  | failed => exact nomatch goes
  | badZone => exact nomatch goes

theorem foldl_act_iff {todo : List Action} (going : p.raised = false) :
    (todo.foldl (act faults) p).raised = false ↔ Along after (Succeeds faults) p.files todo := by
  constructor
  · intro finished
    induction todo generalizing p with
    | nil => trivial
    | cons action todo ih =>
        have goes := not_raised_of_foldl (p := act faults p action) finished
        have succeeds := succeeds_of_act going goes
        have rest := ih goes finished
        rw [(act_succeeds going succeeds).2] at rest
        exact ⟨succeeds, rest⟩
  · exact foldl_act_succeeds going

theorem act_current (current : Current faults p.files action) : act faults p action = p := by
  cases action with
  | badZone => exact current.elim
  | write target content =>
      have step := acted faults p (.write target content)
      generalize act faults p (.write target content) = next at step
      cases step with
      | stopped => rfl
      | current => rfl
      | replaced _ other => exact nomatch current.2.symm.trans other
      | torn _ other => exact nomatch current.2.symm.trans other
      | failed _ why =>
          rcases why with early | unreadable | ⟨other, -⟩
          · exact absurd early current.1
          · exact nomatch current.2.symm.trans unreadable
          · exact nomatch current.2.symm.trans other

theorem foldl_act_current {done : List Action} (current : ∀ a ∈ done, Current faults p.files a) :
    done.foldl (act faults) p = p := by
  induction done with
  | nil => rfl
  | cons action done ih =>
      rw [List.foldl_cons, act_current (current action List.mem_cons_self)]
      exact ih fun a later => current a (List.mem_cons_of_mem _ later)

theorem act_fails (going : p.raised = false) (fails : Fails faults p.files action) :
    act faults p action = { p with raised := true } := by
  have step := acted faults p action
  generalize act faults p action = next at step
  cases step with
  | stopped raised => exact nomatch going.symm.trans raised
  | failed => rfl
  | badZone => rfl
  | current _ goes same => simp [Fails, goes, same] at fails
  | replaced _ other fault => simp [Fails, other, fault] at fails
  | torn _ other fault => simp [Fails, other, fault] at fails

theorem act_changed (kept : p.raised = false → p.replaced = p.changed)
    (going : (act faults p action).raised = false) :
    (act faults p action).replaced = (act faults p action).changed := by
  have step := acted faults p action
  generalize act faults p action = next at step going
  cases step with
  | stopped => exact kept going
  | current => exact kept going
  | replaced => rfl
  | torn => exact nomatch going
  | failed => exact nomatch going
  | badZone => exact nomatch going

theorem run_changed {files : Files} {bundle : Bundle} (finished : (run faults files bundle).raised = false) :
    (run faults files bundle).replaced = (run faults files bundle).changed :=
  foldl_preserves (P := fun p : Progress => p.raised = false → p.replaced = p.changed)
    (actions bundle) (fun _ => rfl) (fun _ _ => act_changed) finished

theorem run_quiet {files : Files} {bundle : Bundle} (quiet : Quiet faults files (actions bundle))
    (stopped : (run faults files bundle).raised = true) :
    (run faults files bundle).replaced = false := by
  unfold run at stopped ⊢
  cases quiet with
  | inl succeeds =>
      rw [foldl_act_succeeds rfl succeeds] at stopped
      exact nomatch stopped
  | inr fails =>
      obtain ⟨done, action, rest, whole, current, fails⟩ := fails
      have same : done.foldl (act faults) (.begin files) = .begin files := foldl_act_current current
      have stops : act faults (.begin files) action = { Progress.begin files with raised := true } :=
        act_fails rfl fails
      rw [whole, List.foldl_append, same, List.foldl_cons, stops, foldl_act_raised rest rfl]
      rfl

/-! ## Over all syncs -/

/-- A sync on a bundle is quiet, and one that gets none changes nothing. -/
def QuietSync (replica : Replica) (label : Response × (Target → Fault)) : Prop :=
  ∀ bundle, label.1 = some (.ok bundle) → Quiet label.2 replica.files (actions bundle)

theorem sync_loaded {replica : Replica} {label : Response × (Target → Fault)}
    (loaded : replica.unloaded = false) (quiet : QuietSync replica label) :
    (replica.sync label).unloaded = false := by
  obtain ⟨response, faults⟩ := label
  unfold Replica.sync
  rcases response with _ | refused | bundle
  · simpa [syncConfig, Synced.reloads] using loaded
  · simpa [syncConfig, Synced.reloads] using loaded
  · cases stopped : (run faults replica.files bundle).raised with
    | true =>
        have same := run_quiet (quiet bundle rfl) stopped
        simp [syncConfig, Synced.reloads, stopped, same, loaded]
    | false =>
        have changed := run_changed stopped
        simp [syncConfig, Synced.reloads, stopped, changed, loaded]

/-- When no sync raises after it has replaced a file, a completed sync has reloaded whatever it and
all the syncs before it replaced. -/
theorem reloaded_of_quiet (files : Files) (labels : List (Response × (Target → Fault)))
    (quiet : Along Replica.sync QuietSync (.start files) labels) :
    ∀ replica ∈ visited Replica.sync (.start files) labels, replica.Reloaded := by
  intro replica reached _
  exact visited_invariant (P := fun replica : Replica => replica.unloaded = false) rfl quiet
    (fun _ _ => sync_loaded) replica reached

/-! ## The second file cannot be read once -/

def halfBundle : Bundle where
  configVersion := "v1"
  rpzFiles := [⟨"blocklist-combined.rpz", "a", "c"⟩, ⟨"whitelist.rpz", "b", "c"⟩]
  forwardZones := []
  settings := []

def halfFiles : Files
  | .rpz "whitelist.rpz" => some (encode "b")
  | _ => none

def unreadable : Target → Fault
  | .rpz "whitelist.rpz" => .early
  | _ => .none

/-- After a first sync, which ends at the whitelist. -/
def halfway : Files := Function.update halfFiles (.rpz "blocklist-combined.rpz") (some (encode "a"))

theorem upToDate_encode {content : String}
    (plain : Python.universalNewlines content.toList = content.toList) :
    upToDate (some (encode content)) content = some true := by
  simp [upToDate, readText, decode_encode, plain]

/-- The combined file is replaced, then the whitelist cannot be read; afterwards both are current. -/
theorem unreadable_loses_reload :
    ¬ ∀ (files : Files) (labels : List (Response × (Target → Fault))),
      ∀ replica ∈ visited Replica.sync (.start files) labels, replica.Reloaded := by
  intro reloads
  have first : Replica.sync (.start halfFiles) (some (.ok halfBundle), unreadable) =
      ⟨halfway, true, false⟩ := rfl
  have current : ∀ action ∈ actions halfBundle, Current (fun _ => .none) halfway action := by
    intro action member
    have both : actions halfBundle = [.write (.rpz "blocklist-combined.rpz") "a",
      .write (.rpz "whitelist.rpz") "b"] := rfl
    rw [both, List.mem_cons, List.mem_singleton] at member
    have combined : halfway (.rpz "blocklist-combined.rpz") = some (encode "a") :=
      Function.update_self _ _ _
    have whitelist : halfway (.rpz "whitelist.rpz") = some (encode "b") :=
      Function.update_of_ne (by decide) _ _
    rcases member with rfl | rfl
    · exact ⟨by decide, combined ▸ upToDate_encode rfl⟩
    · exact ⟨by decide, whitelist ▸ upToDate_encode rfl⟩
  have second : Replica.sync ⟨halfway, true, false⟩ (some (.ok halfBundle), fun _ => .none) =
      ⟨halfway, true, true⟩ := by
    have idle : run (fun _ => .none) halfway halfBundle = .begin halfway := by
      unfold run
      exact foldl_act_current current
    unfold Replica.sync syncConfig
    dsimp only
    rw [idle]
    rfl
  have reloaded := reloads halfFiles
    [(some (.ok halfBundle), unreadable), (some (.ok halfBundle), fun _ => .none)]
    ⟨halfway, true, true⟩ (by rw [visited, visited, visited, first, second]; simp)
  exact absurd (reloaded rfl) (by decide)

/-- A fetch that fails, and then a sync that goes well. -/
def retried : List (Response × (Target → Fault)) :=
  [(none, unreadable), (some (.ok halfBundle), fun _ => .none)]

theorem reloaded_of_quiet_once : (retried.foldl Replica.sync (.start halfFiles)).Reloaded :=
  reloaded_of_quiet halfFiles retried
    ⟨nofun, fun _ same => by
      cases same
      have absent : upToDate (halfFiles (.rpz "blocklist-combined.rpz")) "a" = some false := rfl
      exact .inl ⟨.inr ⟨absent, rfl⟩, .inl ⟨nofun, upToDate_encode rfl⟩, trivial⟩, trivial⟩
    _ (foldl_mem_visited _ _)

end PowerBlockade.Sync
