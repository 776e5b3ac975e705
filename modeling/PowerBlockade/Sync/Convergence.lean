import PowerBlockade.Sync.Agent

/-!
# What a completed sync leaves

The files against the bundle: every part that the bundle has is written, and no part that it lacks is
taken away.
-/

namespace PowerBlockade.Sync
open Lib

def targets : List Target := rpzNames.map (fun name => .rpz name.filename) ++ [.forwardZones]

/-- What the bundle says a file holds, if it says anything. -/
def part (bundle : Bundle) : Target → Option String
  | .rpz name => do
      let file ← bundle.rpzFiles.find? (·.filename = name)
      if file.content = "" then none else some file.content
  | .forwardZones =>
      if bundle.forwardZones = [] then none
      else (bundle.forwardZones.mapM entryLine).map renderForwardZones

/-- The first bytes of lines that are no entry: of a zone's header (`$`, `@`, `;`), and `#`. -/
def marks : Target → List UInt8
  | .rpz _ => [36, 64, 59]
  | .forwardZones => [35]

/-- The records or zones in a file: its lines that are neither blank nor marked. -/
def entries (target : Target) (file : Option Bytes) : List Bytes :=
  ((file.getD []).splitOn 10).filter fun line =>
    line.any (· ∉ [9, 13, 32]) && !line.head?.any (· ∈ marks target)

def Holds (target : Target) (part : Option String) (file : Option Bytes) : Prop :=
  match part with
  | some content => file = some (encode content)
  | none => entries target file = []

/-- The files are the rendering of the bundle, with no entry where it has none. -/
def Converged (bundle : Bundle) (files : Files) : Prop :=
  ∀ target ∈ targets, Holds target (part bundle target) (files target)

/-- A file with new content does not pass for up to date, and one without holds no entry. -/
def Follows (target : Target) (part : Option String) (old : Option Bytes) : Prop :=
  match part with
  | some content => upToDate old content = some true → old = some (encode content)
  | none => entries target old = []

/-! ## One file through a sync -/

/-- What an action that does not raise makes of one file. -/
def leaves (target : Target) (old : Option Bytes) : Action → Option Bytes
  | .write other content => if other = target then written old content else old
  | .badZone => old

@[simp] theorem leaves_self (target : Target) (content : String) (old : Option Bytes) :
    leaves target old (.write target content) = written old content := by
  unfold leaves
  exact if_pos rfl

theorem leaves_other {target other : Target} (different : other ≠ target) (content : String)
    (old : Option Bytes) : leaves target old (.write other content) = old := by
  unfold leaves
  exact if_neg different

variable {faults : Target → Fault} {p : Progress}

theorem act_leaves {action : Action} (done : (act faults p action).raised = false) (target : Target) :
    (act faults p action).files target = leaves target (p.files target) action := by
  cases action with
  | badZone =>
      have step := acted faults p .badZone
      generalize act faults p .badZone = next at step done
      cases step with
      | stopped raised => rw [raised] at done; exact nomatch done
      | badZone => exact nomatch done
  | write other content =>
      rw [act_write done]
      by_cases same : other = target
      · subst same
        rw [leaves_self, Function.update_self]
      · rw [leaves_other same, Function.update_of_ne (Ne.symm same)]

theorem foldl_act_files {todo : List Action} (finished : (todo.foldl (act faults) p).raised = false)
    (target : Target) :
    (todo.foldl (act faults) p).files target = todo.foldl (leaves target) (p.files target) := by
  induction todo generalizing p with
  | nil => rfl
  | cons action todo ih =>
      rw [List.foldl_cons] at finished ⊢
      rw [ih finished, act_leaves (not_raised_of_foldl finished), List.foldl_cons]

theorem foldl_leaves_of_forall {target : Target} {todo : List Action}
    (others : ∀ action ∈ todo, ∀ old, leaves target old action = old) (old : Option Bytes) :
    todo.foldl (leaves target) old = old := by
  induction todo with
  | nil => rfl
  | cons action todo ih =>
      rw [List.foldl_cons, others action List.mem_cons_self]
      exact ih fun action later => others action (List.mem_cons_of_mem _ later)

/-! ## The files of a bundle -/

def follow (part : Option String) (old : Option Bytes) : Option Bytes :=
  match part with
  | some content => written old content
  | none => old

theorem holds_follow_iff {target : Target} {part : Option String} {old : Option Bytes} :
    Holds target part (follow part old) ↔ Follows target part old := by
  cases part with
  | none => exact Iff.rfl
  | some content =>
      show written old content = some (encode content) ↔ (_ → _)
      unfold written
      split
      · rename_i current
        exact ⟨fun same _ => same, fun same => same current⟩
      · rename_i other
        exact iff_of_true rfl fun current => absurd current other

theorem foldl_rpz {name : String} (nonempty : name ≠ "") {files : List RpzFile}
    (distinct : (files.map (·.filename)).Nodup) (old : Option Bytes) :
    ((files.filter fun file => file.filename ≠ "" ∧ file.content ≠ "").map fun file =>
        Action.write (.rpz file.filename) file.content).foldl (leaves (.rpz name)) old =
      follow ((files.find? (·.filename = name)).bind fun file =>
        if file.content = "" then none else some file.content) old := by
  induction files generalizing old with
  | nil => rfl
  | cons file files ih =>
      rw [List.map_cons, List.nodup_cons] at distinct
      by_cases here : file.filename = name
      · have gone : ∀ action ∈ (files.filter fun file => file.filename ≠ "" ∧ file.content ≠ "").map
            fun file => Action.write (.rpz file.filename) file.content,
            ∀ old, leaves (.rpz name) old action = old := by
          intro action member old
          obtain ⟨other, listed, rfl⟩ := List.mem_map.mp member
          have different : other.filename ≠ name := fun same => distinct.1
            (List.mem_map.mpr ⟨other, (List.mem_filter.mp listed).1, same.trans here.symm⟩)
          exact leaves_other (fun same => different (Target.rpz.inj same)) _ old
        rw [List.find?_cons_of_pos (by simpa using here), Option.bind_some]
        by_cases empty : file.content = ""
        · rw [List.filter_cons_of_neg (by simp [empty]), foldl_leaves_of_forall gone]
          rw [if_pos empty, follow]
        · rw [List.filter_cons_of_pos (by simp [here, nonempty, empty]), List.map_cons,
            List.foldl_cons, foldl_leaves_of_forall gone]
          rw [if_neg empty, follow, here, leaves_self]
      · rw [List.find?_cons_of_neg (by simpa using here), ← ih distinct.2]
        by_cases kept : file.filename ≠ "" ∧ file.content ≠ ""
        · rw [List.filter_cons_of_pos (by simpa using kept), List.map_cons, List.foldl_cons]
          rw [leaves_other fun same => here (Target.rpz.inj same)]
        · rw [List.filter_cons_of_neg (by simpa using kept)]

theorem run_files_rpz {bundle : Bundle} {files : Files} {name : String} (nonempty : name ≠ "")
    (distinct : (bundle.rpzFiles.map (·.filename)).Nodup)
    (finished : (run faults files bundle).raised = false) :
    (run faults files bundle).files (.rpz name) = follow (part bundle (.rpz name)) (files (.rpz name)) := by
  have zones : ∀ action ∈ zoneActions bundle, ∀ old, leaves (.rpz name) old action = old := by
    intro action member old
    cases action with
    | badZone => rfl
    | write target content =>
        have other : target = .forwardZones := by
          unfold zoneActions at member
          split at member
          · exact nomatch member
          · split at member
            · exact (Action.write.inj (List.mem_singleton.mp member)).1
            · exact nomatch List.mem_singleton.mp member
        rw [other]
        apply leaves_other
        exact nofun
  rw [run, foldl_act_files finished, actions, List.foldl_append, foldl_leaves_of_forall zones,
    rpzActions, foldl_rpz nonempty distinct]
  rfl

theorem run_files_forwardZones {bundle : Bundle} {files : Files}
    (finished : (run faults files bundle).raised = false) :
    (run faults files bundle).files .forwardZones =
      follow (part bundle .forwardZones) (files .forwardZones) := by
  have rpz : ∀ action ∈ rpzActions bundle, ∀ old, leaves .forwardZones old action = old := by
    intro action member old
    obtain ⟨file, -, rfl⟩ := List.mem_map.mp member
    apply leaves_other
    exact nofun
  rw [run, foldl_act_files finished, actions, List.foldl_append, foldl_leaves_of_forall rpz,
    zoneActions, part]
  split
  · rfl
  · cases bundle.forwardZones.mapM entryLine with
    | none => rfl
    | some lines =>
        exact leaves_self .forwardZones (renderForwardZones lines) (files .forwardZones)

/-! ## Convergence -/

theorem rpzFiles_distinct (primary : Primary) :
    ((rpzFiles primary).map (·.filename)).Nodup := by
  cases combined : (primary.rpz .combined).bind readText <;>
    cases whitelist : (primary.rpz .whitelist).bind readText <;>
      simp [rpzFiles, rpzNames, combined, whitelist, RpzName.filename]

def noZones : Primary := ⟨none, fun _ => none, [], []⟩

def corpNode : Secondary := ⟨1, none⟩

def noZonesBundle : Bundle where
  configVersion := bundleVersion noZones corpNode
  rpzFiles := []
  forwardZones := []
  settings := settingKeys.map fun key => (key, noZones.settings.get key)

/-- The secondary still has `corp=10.0.0.1`. -/
def corpFiles : Files
  | .forwardZones => some [99, 111, 114, 112, 61, 49, 48, 46, 48, 46, 48, 46, 49, 10]
  | .rpz _ => none

end PowerBlockade.Sync
