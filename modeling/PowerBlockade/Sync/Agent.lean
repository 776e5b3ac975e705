import Mathlib.Logic.Function.Basic
import PowerBlockade.Sync.Bundle

/-!
# The secondary's sync

`write_if_changed` and `sync_config` of the agent, with every place where they can fail.
-/

namespace PowerBlockade.Sync
open Lib

inductive Target
  | rpz (filename : String)
  | forwardZones
deriving DecidableEq

abbrev Files := Target → Option Bytes

/-- What goes wrong at one file: before it is compared, before it is replaced, or within the
rewrite in place. -/
inductive Fault
  | none
  | early
  | late
  | torn (kept : Nat)
deriving DecidableEq

inductive Written
  | unchanged
  | replaced
  | raised
  /-- It raises with part of the content in the file. -/
  | torn (left : Bytes)
deriving DecidableEq

/-- Whether the checksums agree; `none` is a file that is not UTF-8. -/
def upToDate (old : Option Bytes) (content : String) : Option Bool :=
  match old with
  | none => some false
  | some bytes => (readText bytes).map fun existing => decide (checksum existing = checksum content)

def writeIfChanged (fault : Fault) (old : Option Bytes) (content : String) : Written :=
  if fault = .early then .raised
  else match upToDate old content with
    | none => .raised
    | some true => .unchanged
    | some false => match fault with
        | .none => .replaced
        | .torn kept => .torn ((encode content).take kept)
        | _ => .raised

/-! ## One sync -/

inductive Action
  | write (target : Target) (content : String)
  /-- The `KeyError` of an entry without its domain or servers. -/
  | badZone
deriving DecidableEq

def rpzActions (bundle : Bundle) : List Action :=
  (bundle.rpzFiles.filter fun file => file.filename ≠ "" ∧ file.content ≠ "").map fun file =>
    .write (.rpz file.filename) file.content

def entryLine (z : ZoneEntry) : Option String := do
  let domain ← z.domain
  let servers ← z.servers
  return zoneLine domain servers

def renderForwardZones (lines : List String) : String :=
  "\n".intercalate (["# Forward zones synced from primary", ""] ++ lines) ++ "\n"

def zoneActions (bundle : Bundle) : List Action :=
  if bundle.forwardZones = [] then []
  else match bundle.forwardZones.mapM entryLine with
    | some lines => [.write .forwardZones (renderForwardZones lines)]
    | none => [.badZone]

def actions (bundle : Bundle) : List Action := rpzActions bundle ++ zoneActions bundle

/-- How far a sync has come: `changed` is its own flag, `replaced` whether a file has new content. -/
structure Progress where
  files : Files
  changed : Bool
  replaced : Bool
  raised : Bool

def Progress.begin (files : Files) : Progress := ⟨files, false, false, false⟩

def act (faults : Target → Fault) (p : Progress) (action : Action) : Progress :=
  if p.raised then p
  else match action with
    | .badZone => { p with raised := true }
    | .write target content =>
        match writeIfChanged (faults target) (p.files target) content with
        | .unchanged => p
        | .replaced =>
            { p with files := Function.update p.files target (some (encode content))
                     changed := true, replaced := true }
        | .raised => { p with raised := true }
        | .torn left =>
            { p with files := Function.update p.files target (some left)
                     replaced := true, raised := true }

def run (faults : Target → Fault) (files : Files) (bundle : Bundle) : Progress :=
  (actions bundle).foldl (act faults) (.begin files)

/-- `none` is an exception of the request or of its JSON. -/
abbrev Response := Option (Except Nat Bundle)

/-- What `sync_config` returns and leaves: it has completed when a bundle came with status 200 and
nothing raised, and then it triggers the reload if it changed anything. -/
structure Synced where
  files : Files
  changed : Bool
  settings : Settings
  replaced : Bool
  completed : Bool

def Synced.reloads (synced : Synced) : Bool := synced.changed

def syncConfig (response : Response) (faults : Target → Fault) (files : Files) : Synced :=
  match response with
  | some (.ok bundle) =>
      let p := run faults files bundle
      if p.raised then ⟨p.files, false, [], p.replaced, false⟩
      else ⟨p.files, p.changed, bundle.settings, p.replaced, true⟩
  | _ => ⟨files, false, [], false, false⟩

/-! ## What the actions leave -/

variable {faults : Target → Fault} {p : Progress}

/-- Every way an action can go. -/
inductive Acted (faults : Target → Fault) (p : Progress) : Action → Progress → Prop
  | stopped {action : Action} : p.raised = true → Acted faults p action p
  | current {target : Target} {content : String} :
      p.raised = false → faults target ≠ .early → upToDate (p.files target) content = some true →
      Acted faults p (.write target content) p
  | replaced {target : Target} {content : String} :
      p.raised = false → upToDate (p.files target) content = some false →
      faults target = .none →
      Acted faults p (.write target content)
        { p with files := Function.update p.files target (some (encode content))
                 changed := true, replaced := true }
  | torn {target : Target} {content : String} {kept : Nat} :
      p.raised = false → upToDate (p.files target) content = some false →
      faults target = .torn kept →
      Acted faults p (.write target content)
        { p with files := Function.update p.files target (some ((encode content).take kept))
                 replaced := true, raised := true }
  | failed {target : Target} {content : String} :
      p.raised = false →
      faults target = .early ∨ upToDate (p.files target) content = none ∨
        upToDate (p.files target) content = some false ∧ faults target = .late →
      Acted faults p (.write target content) { p with raised := true }
  | badZone : p.raised = false → Acted faults p .badZone { p with raised := true }

theorem acted (faults : Target → Fault) (p : Progress) (action : Action) :
    Acted faults p action (act faults p action) := by
  cases raised : p.raised with
  | true =>
      unfold act
      rw [if_pos raised]
      exact .stopped raised
  | false =>
      unfold act
      rw [if_neg (by simp [raised])]
      cases action with
      | badZone => exact .badZone raised
      | write target content =>
          dsimp only
          cases fault : faults target <;>
            rcases compared : upToDate (p.files target) content with _ | _ | _ <;>
              simp only [writeIfChanged, compared, reduceCtorEq, if_true, if_false]
          all_goals first
            | exact .current raised (by rw [fault]; exact nofun) compared
            | exact .replaced raised compared fault
            | exact .torn raised compared fault
            | exact .failed raised (by simp [fault, compared])

theorem foldl_act_raised (todo : List Action) (raised : p.raised = true) :
    todo.foldl (act faults) p = p := by
  induction todo with
  | nil => rfl
  | cons action todo ih =>
      have same : act faults p action = p := by
        unfold act
        rw [if_pos raised]
      rw [List.foldl_cons, same, ih]

theorem not_raised_of_foldl {todo : List Action} (finished : (todo.foldl (act faults) p).raised = false) :
    p.raised = false := by
  cases raised : p.raised with
  | false => rfl
  | true => rw [foldl_act_raised todo raised, raised] at finished; exact finished

/-- What is in a file once its write has not raised. -/
def written (old : Option Bytes) (content : String) : Option Bytes :=
  if upToDate old content = some true then old else some (encode content)

theorem act_write {target : Target} {content : String}
    (done : (act faults p (.write target content)).raised = false) :
    (act faults p (.write target content)).files =
      Function.update p.files target (written (p.files target) content) := by
  have step := acted faults p (.write target content)
  generalize act faults p (.write target content) = next at step done
  cases step with
  | stopped raised => rw [raised] at done; exact nomatch done
  | current _ _ same => rw [written, if_pos same, Function.update_eq_self]
  | replaced _ other => rw [written, if_neg (by rw [other]; decide)]
  | torn => exact nomatch done
  | failed => exact nomatch done

end PowerBlockade.Sync
