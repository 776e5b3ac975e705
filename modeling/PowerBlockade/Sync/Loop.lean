import PowerBlockade.Sync.Reload
import PowerBlockade.Time

/-!
# The agent's loop

When an iteration syncs, and which version it remembers afterwards: the heartbeat's, however the sync
went.
-/

namespace PowerBlockade.Sync
open Lib

/-! ## The loop -/

structure Agent where
  files : Files
  currentSettings : Settings
  lastConfigSync : Int
  lastConfigVersion : Option String

/-- What one iteration meets; `heartbeat` is `none` when it fails. -/
structure Iteration where
  heartbeat : Option (Option String)
  now : Int
  response : Response
  faults : Target → Fault

namespace Iteration

def configVersionFromPrimary (iteration : Iteration) : Option String := iteration.heartbeat.join

/-- The version, when it is one that the loop looks at. -/
def reported (iteration : Iteration) : Option String :=
  iteration.configVersionFromPrimary.filter (· ≠ "")

end Iteration

namespace Agent

def start (files : Files) : Agent := ⟨files, [], 0, none⟩

def shouldSync (interval : Int) (agent : Agent) (iteration : Iteration) : Bool :=
  (iteration.reported.isSome && iteration.configVersionFromPrimary ≠ agent.lastConfigVersion) ||
    interval * secondMicros ≤ iteration.now - agent.lastConfigSync

def iterate (interval : Int) (agent : Agent) (iteration : Iteration) : Agent :=
  if agent.shouldSync interval iteration then
    let synced := syncConfig iteration.response iteration.faults agent.files
    { files := synced.files
      currentSettings := if synced.settings = [] then agent.currentSettings else synced.settings
      lastConfigSync := iteration.now
      lastConfigVersion := iteration.configVersionFromPrimary }
  else agent

end Agent

/-! ## Which versions have been applied -/

/-- The agent with what its heartbeats have told: `waiting` are the versions that no completed sync
has followed. -/
structure Watched where
  agent : Agent
  reported : Option String
  waiting : List String

namespace Watched

def start (files : Files) : Watched := ⟨.start files, none, []⟩

def hear (watched : Watched) (iteration : Iteration) : Watched :=
  match iteration.reported with
  | none => watched
  | some version =>
      if watched.reported = some version then watched
      else { watched with reported := some version, waiting := version :: watched.waiting }

def completes (watched : Watched) (iteration : Iteration) : Bool :=
  (syncConfig iteration.response iteration.faults watched.agent.files).completed

def iterate (interval : Int) (watched : Watched) (iteration : Iteration) : Watched :=
  { agent := watched.agent.iterate interval iteration
    reported := (watched.hear iteration).reported
    waiting :=
      if watched.agent.shouldSync interval iteration && watched.completes iteration then []
      else (watched.hear iteration).waiting }

/-- The remembered version has been applied. -/
def Remembers (watched : Watched) : Prop :=
  ∀ version, watched.agent.lastConfigVersion = some version → version ∉ watched.waiting

/-- A reported version that has not been applied makes the iteration sync. -/
def Attempts (interval : Int) (watched : Watched) (iteration : Iteration) : Prop :=
  ∀ version, iteration.reported = some version → version ∈ (watched.hear iteration).waiting →
    watched.agent.shouldSync interval iteration = true

/-- What a sync needs to complete. -/
def Delivered (files : Files) (iteration : Iteration) : Prop :=
  ∃ bundle, iteration.response = some (.ok bundle) ∧
    Along after (Succeeds iteration.faults) files (actions bundle)

/-- The first sync for a version completes. -/
def FirstCompletes (watched : Watched) (iteration : Iteration) : Prop :=
  ∀ version, iteration.reported = some version → version ∈ (watched.hear iteration).waiting →
    Delivered watched.agent.files iteration

variable {interval : Int} {watched : Watched} {iteration : Iteration}

theorem completes_iff :
    watched.completes iteration = true ↔ Delivered watched.agent.files iteration := by
  unfold completes Delivered syncConfig
  rcases iteration.response with _ | refused | bundle
  · simp
  · simp
  · have ends : (run iteration.faults watched.agent.files bundle).raised = false ↔
        Along after (Succeeds iteration.faults) watched.agent.files (actions bundle) := foldl_act_iff rfl
    cases raised : (run iteration.faults watched.agent.files bundle).raised with
    | true => simpa [raised] using ends
    | false => simpa [raised] using ends

theorem reported_eq_some_iff {version : String} :
    iteration.reported = some version ↔
      iteration.configVersionFromPrimary = some version ∧ version ≠ "" := by
  simp [Iteration.reported, Option.filter_eq_some_iff]

/-- What holds however the syncs go. -/
structure Consistent (watched : Watched) : Prop where
  nonempty : "" ∉ watched.waiting
  current : ∀ version ≠ "", watched.agent.lastConfigVersion = some version →
    watched.reported = some version

theorem start_consistent (files : Files) : (start files).Consistent where
  nonempty := List.not_mem_nil
  current := nofun

/-- Every way a heartbeat can go. -/
inductive Heard (watched : Watched) (iteration : Iteration) : Watched → Prop
  | nothing : iteration.reported = none → Heard watched iteration watched
  | again {version : String} : iteration.reported = some version →
      watched.reported = some version → Heard watched iteration watched
  | new {version : String} : iteration.reported = some version →
      watched.reported ≠ some version →
      Heard watched iteration
        { watched with reported := some version, waiting := version :: watched.waiting }

theorem heard (watched : Watched) (iteration : Iteration) :
    Heard watched iteration (watched.hear iteration) := by
  unfold hear
  cases told : iteration.reported with
  | none => exact .nothing told
  | some version =>
      dsimp only
      split
      · rename_i same
        exact .again told same
      · rename_i other
        exact .new told other

theorem hear_reported {version : String} (told : iteration.reported = some version) :
    (watched.hear iteration).reported = some version := by
  have hears := heard watched iteration
  generalize watched.hear iteration = next at hears
  cases hears with
  | nothing silent => exact nomatch silent.symm.trans told
  | again other same => rw [same, ← other, told]
  | new other => rw [← told, other]

theorem hear_nonempty (consistent : watched.Consistent) :
    "" ∉ (watched.hear iteration).waiting := by
  have hears := heard watched iteration
  generalize watched.hear iteration = next at hears
  cases hears with
  | nothing => exact consistent.nonempty
  | again => exact consistent.nonempty
  | new told =>
      rw [List.mem_cons, not_or]
      exact ⟨(reported_eq_some_iff.mp told).2.symm, consistent.nonempty⟩

theorem remembered_of_idle {version : String} (told : iteration.reported = some version)
    (idle : watched.agent.shouldSync interval iteration = false) :
    watched.agent.lastConfigVersion = some version := by
  rw [Agent.shouldSync, Bool.or_eq_false_iff, told, (reported_eq_some_iff.mp told).1] at idle
  have same := idle.1
  simp only [Option.isSome_some, Bool.true_and, decide_eq_false_iff_not, not_not] at same
  exact same.symm

theorem hear_of_idle (consistent : watched.Consistent)
    (idle : watched.agent.shouldSync interval iteration = false) :
    watched.hear iteration = watched := by
  have hears := heard watched iteration
  generalize watched.hear iteration = next at hears
  cases hears with
  | nothing => rfl
  | again => rfl
  | new told other =>
      have nonempty := (reported_eq_some_iff.mp told).2
      exact absurd (consistent.current _ nonempty (remembered_of_idle told idle)) other

theorem consistent_iterate (consistent : watched.Consistent) :
    (watched.iterate interval iteration).Consistent where
  nonempty := by
    unfold iterate
    dsimp only
    split
    · exact List.not_mem_nil
    · exact hear_nonempty consistent
  current := by
    intro version nonempty
    unfold iterate Agent.iterate
    dsimp only
    cases syncs : watched.agent.shouldSync interval iteration with
    | true =>
        intro remembered
        exact hear_reported (reported_eq_some_iff.mpr ⟨remembered, nonempty⟩)
    | false =>
        rw [hear_of_idle consistent syncs]
        exact consistent.current version nonempty

theorem attempts_of_remembers (consistent : watched.Consistent) (remembers : watched.Remembers) :
    watched.Attempts interval iteration := by
  intro version told waits
  cases syncs : watched.agent.shouldSync interval iteration with
  | true => rfl
  | false =>
      rw [hear_of_idle consistent syncs] at waits
      exact absurd waits (remembers version (remembered_of_idle told syncs))

theorem remembers_iterate_iff (consistent : watched.Consistent) (remembers : watched.Remembers) :
    (watched.iterate interval iteration).Remembers ↔ watched.FirstCompletes iteration := by
  unfold Remembers FirstCompletes iterate Agent.iterate
  simp only [← completes_iff]
  cases syncs : watched.agent.shouldSync interval iteration with
  | false =>
      have idle := hear_of_idle consistent syncs
      refine iff_of_true ?_ ?_
      · intro version
        simpa [idle] using remembers version
      · intro version told waits
        have attempts : watched.agent.shouldSync interval iteration = true :=
          attempts_of_remembers consistent remembers version told waits
        exact nomatch syncs.symm.trans attempts
  | true =>
      cases ends : watched.completes iteration with
      | true => simp
      | false =>
          simp only [if_true, Bool.and_false, Bool.false_eq_true, if_false, imp_false]
          constructor
          · intro every version told
            exact every version (reported_eq_some_iff.mp told).1
          · intro every version fetched waits
            by_cases empty : version = ""
            · exact hear_nonempty consistent (empty ▸ waits)
            · exact every version (reported_eq_some_iff.mpr ⟨fetched, empty⟩) waits

end Watched

/-! ## Over all iterations -/

/-- The loop never remembers a version that it has not applied, and syncs whenever one that it has
not applied is reported, exactly when each sync for such a version completes. -/
theorem remembers_iff_firstCompletes (interval : Int) (files : Files) (run : List Iteration) :
    ((∀ watched ∈ visited (Watched.iterate interval) (.start files) run, watched.Remembers) ∧
        Along (Watched.iterate interval) (Watched.Attempts interval) (.start files) run) ↔
      Along (Watched.iterate interval) Watched.FirstCompletes (.start files) run := by
  have first : (Watched.start files).Consistent ∧ (Watched.start files).Remembers :=
    ⟨Watched.start_consistent files, nofun⟩
  have same : (∀ watched ∈ visited (Watched.iterate interval) (.start files) run, watched.Remembers) ↔
      Along (Watched.iterate interval) Watched.FirstCompletes (.start files) run :=
    forall_visited_iff_along first.1 (fun _ _ consistent => Watched.consistent_iterate consistent) first.2
      fun _ _ consistent remembers => Watched.remembers_iterate_iff consistent remembers
  rw [same]
  constructor
  · rintro ⟨completes, -⟩
    exact completes
  · intro completes
    have holds := visited_invariant (P := fun watched => watched.Consistent ∧ watched.Remembers) first
      completes fun _ _ holds next =>
        ⟨Watched.consistent_iterate holds.1, (Watched.remembers_iterate_iff holds.1 holds.2).mpr next⟩
    refine ⟨completes, along_of_visited ?_⟩
    intro watched reached iteration
    exact Watched.attempts_of_remembers (holds watched reached).1 (holds watched reached).2

/-! ## The bundle is refused once -/

def refusedOnce : List Iteration :=
  [⟨some (some "v1"), 1700000000000000, some (.error 409), fun _ => .none⟩,
    ⟨some (some "v1"), 1700000060000000, none, fun _ => .none⟩]

/-- A minute after the refused sync the same version is no reason for another. -/
theorem refused_version_is_remembered :
    ¬ ∀ (interval : Int) (files : Files) (run : List Iteration),
      (∀ watched ∈ visited (Watched.iterate interval) (.start files) run, watched.Remembers) ∧
        Along (Watched.iterate interval) (Watched.Attempts interval) (.start files) run := by
  intro every
  obtain ⟨-, attempts⟩ := every 300 (fun _ => none) refusedOnce
  have attempted := attempts.2.1 "v1" rfl (by decide)
  exact absurd attempted (by decide)

end PowerBlockade.Sync
