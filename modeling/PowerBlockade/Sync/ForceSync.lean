import PowerBlockade.Columns
import PowerBlockade.Sync.Loop
import PowerBlockade.Sync.Versions

/-!
# Forcing a sync

`nodes_force_sync` counts up a column of the node's row; the heartbeat answers with the digest of the
published files, and that is what the agent compares.
-/

namespace PowerBlockade.Sync.Forced
open Lib

/-! ## The primary -/

structure NodeRow where
  id : Nat
  configVersion : Int
  lastError : Option String
deriving DecidableEq

def forceSynced (node : NodeRow) : NodeRow :=
  { node with configVersion := node.configVersion + 1, lastError := none }

/-- The rows that are committed; `none` when nobody is logged in, there is no such node, or the
column overflows. -/
def nodesForceSync (user : Bool) (nodeId : Nat) (nodes : List NodeRow) : Option (List NodeRow) :=
  if user then
    match nodes.find? (·.id = nodeId) with
    | none => none
    | some node =>
        if fitsInteger 32 (forceSynced node).configVersion then
          some (nodes.map fun row => if row.id = node.id then forceSynced row else row)
        else none
  else none

/-! ## The primary and the agent of one node -/

structure World where
  nodes : List NodeRow
  published : Primary
  agent : Agent
  /-- The node has been forced to sync, and no heartbeat of it has been answered since. -/
  forced : Bool
  /-- What was published at the agent's last attempt, if the heartbeat before it was answered. -/
  attempted : Option Primary

inductive Event
  | publish (published : Primary)
  | forceSync (user : Bool) (nodeId : Nat)
  | restart
  | iterate (answered : Bool) (now : Int) (response : Response) (faults : Target → Fault)

def Event.isForceSync : Event → Bool
  | .forceSync _ _ => true
  | _ => false

namespace World

def start (nodes : List NodeRow) (published : Primary) (files : Files) : World :=
  ⟨nodes, published, .start files, false, none⟩

/-- An iteration whose heartbeat, if it is answered, brings the digest of what is published. -/
def iteration (world : World) (answered : Bool) (now : Int) (response : Response)
    (faults : Target → Fault) : Iteration :=
  ⟨if answered then some (some (computeConfigVersion world.published)) else none, now, response, faults⟩

variable (interval : Int) (nodeId : Nat)

def step (world : World) : Event → World
  | .publish published => { world with published := published }
  | .forceSync user id =>
      match nodesForceSync user id world.nodes with
      | none => world
      | some nodes => { world with nodes := nodes, forced := world.forced || decide (id = nodeId) }
  | .restart => { world with agent := .start world.agent.files, attempted := none }
  | .iterate answered now response faults =>
      let iteration := world.iteration answered now response faults
      { world with
        agent := world.agent.iterate interval iteration
        forced := world.forced && !answered
        attempted :=
          if world.agent.shouldSync interval iteration then
            if answered then some world.published else none
          else world.attempted }

/-- The first iteration with an answered heartbeat after the node has been forced attempts the sync. -/
def Attempts (world : World) : Event → Prop
  | .iterate answered now response faults => world.forced = true → answered = true →
      world.agent.shouldSync interval (world.iteration answered now response faults) = true
  | _ => True

/-- It would have attempted it anyway. -/
def Due (world : World) : Event → Prop
  | .iterate answered now _ _ => world.forced = true → answered = true →
      (∀ published ∈ world.attempted,
          computeConfigVersion world.published ≠ computeConfigVersion published) ∨
        interval * secondMicros ≤ now - world.agent.lastConfigSync
  | _ => True

/-! ## What the agent remembers -/

/-- The remembered version is the digest of what was published at the last attempt. -/
def Remembered (world : World) : Prop :=
  world.agent.lastConfigVersion = world.attempted.map computeConfigVersion

variable {interval nodeId} {world : World} {answered : Bool} {now : Int} {response : Response}
  {faults : Target → Fault}

theorem computeConfigVersion_ne_empty (primary : Primary) : computeConfigVersion primary ≠ "" := by
  intro empty
  have length := length_sha256Hex (n := 12) (by decide) (heartbeatInput primary)
  rw [← computeConfigVersion_eq, empty] at length
  exact absurd length (by decide)

theorem configVersion_iteration :
    (world.iteration answered now response faults).configVersionFromPrimary =
      if answered = true then some (computeConfigVersion world.published) else none := by
  cases answered <;> rfl

theorem reported_iteration :
    (world.iteration answered now response faults).reported =
      if answered = true then some (computeConfigVersion world.published) else none := by
  unfold Iteration.reported
  rw [configVersion_iteration]
  cases answered with
  | false => rfl
  | true => simp [computeConfigVersion_ne_empty]

/-- A force-sync leaves all but the rows and the request as it is. -/
theorem step_forceSync (interval : Int) (nodeId : Nat) (world : World) (user : Bool) (id : Nat) :
    ∃ nodes forced, step interval nodeId world (.forceSync user id) =
      { world with nodes := nodes, forced := forced } := by
  simp only [step]
  cases nodesForceSync user id world.nodes with
  | none => exact ⟨world.nodes, world.forced, rfl⟩
  | some nodes => exact ⟨nodes, _, rfl⟩

theorem start_remembered (nodes : List NodeRow) (published : Primary) (files : Files) :
    (start nodes published files).Remembered := rfl

theorem Remembered.step (remembered : world.Remembered) (event : Event) :
    (step interval nodeId world event).Remembered := by
  cases event with
  | publish published => exact remembered
  | forceSync user id =>
      obtain ⟨nodes, forced, left⟩ := step_forceSync interval nodeId world user id
      rw [left]
      exact remembered
  | restart => rfl
  | iterate answered now response faults =>
      simp only [World.step, Remembered, Agent.iterate]
      cases world.agent.shouldSync interval (world.iteration answered now response faults) with
      | false => exact remembered
      | true =>
          simp only [if_true, configVersion_iteration]
          cases answered <;> rfl

theorem shouldSync_answered_iff (remembered : world.Remembered) :
    world.agent.shouldSync interval (world.iteration true now response faults) = true ↔
      (∀ published ∈ world.attempted,
          computeConfigVersion world.published ≠ computeConfigVersion published) ∨
        interval * secondMicros ≤ now - world.agent.lastConfigSync := by
  have same : world.agent.lastConfigVersion = world.attempted.map computeConfigVersion := remembered
  rw [Agent.shouldSync, reported_iteration, configVersion_iteration, same]
  cases world.attempted with
  | none => simp
  | some published => simp [iteration]

theorem attempts_iff (remembered : world.Remembered) (event : Event) :
    Attempts interval world event ↔ Due interval world event := by
  cases event with
  | publish published => exact Iff.rfl
  | forceSync user id => exact Iff.rfl
  | restart => exact Iff.rfl
  | iterate answered now response faults =>
      apply imp_congr_right
      intro forced
      apply imp_congr_right
      intro arrived
      rw [arrived]
      exact shouldSync_answered_iff remembered

/-! ## Over all runs -/

/-- In any run of the two, the forced node attempts a sync at its next answered heartbeat exactly when
the published files have changed since its last attempt, or a sync was due. -/
theorem attempts_iff_due (interval : Int) (nodeId : Nat) (nodes : List NodeRow) (published : Primary)
    (files : Files) (run : List Event) :
    Along (step interval nodeId) (Attempts interval) (start nodes published files) run ↔
      Along (step interval nodeId) (Due interval) (start nodes published files) run :=
  along_congr_of_preserved run (start_remembered nodes published files)
    (fun _ event remembered => remembered.step event)
    fun _ event remembered => attempts_iff remembered event

/-! ## A force-sync is seen by nobody -/

def shared (world : World) : Primary × Agent := (world.published, world.agent)

theorem shared_forceSync (user : Bool) (id : Nat) :
    (step interval nodeId world (.forceSync user id)).shared = world.shared := by
  obtain ⟨nodes, forced, left⟩ := step_forceSync interval nodeId world user id
  rw [left]
  rfl

theorem shared_step {world other : World} (same : world.shared = other.shared) (event : Event) :
    (step interval nodeId world event).shared = (step interval nodeId other event).shared := by
  have published : world.published = other.published := congrArg Prod.fst same
  have agent : world.agent = other.agent := congrArg Prod.snd same
  cases event with
  | publish published => simp [step, shared, agent]
  | forceSync user id => rw [shared_forceSync, shared_forceSync, same]
  | restart => simp [step, shared, published, agent]
  | iterate answered now response faults => simp [step, shared, iteration, published, agent]

/-- The agent does the same when nobody forces a sync. -/
theorem agent_without_forceSync (world : World) (run : List Event) :
    (run.foldl (step interval nodeId) world).agent =
      ((run.filter fun event => !event.isForceSync).foldl (step interval nodeId) world).agent := by
  have unseen (world : World) (event : Event) (forces : event.isForceSync = true) :
      (step interval nodeId world event).shared = world.shared := by
    cases event with
    | forceSync user id => exact shared_forceSync user id
    | publish published => exact nomatch forces
    | restart => exact nomatch forces
    | iterate answered now response faults => exact nomatch forces
  have same := view_foldl_filter shared Event.isForceSync unseen
    (fun _ _ event same => shared_step same event) (Eq.refl world.shared) run
  exact congrArg Prod.snd same

/-! ### An unchanged configuration -/

theorem step_synced (nodeId : Nat)
    (syncs : world.agent.shouldSync interval (world.iteration true now response faults) = true)
    {synced : World} (same : synced = step interval nodeId world (.iterate true now response faults)) :
    synced.attempted = some world.published ∧ synced.published = world.published ∧
      synced.agent.lastConfigSync = now := by
  rw [same]
  simp only [step, Agent.iterate, syncs, if_true]
  exact ⟨trivial, trivial, rfl⟩

/-- Soon after a sync, forcing another has no effect. -/
theorem shouldSync_after_forceSync (remembered : world.Remembered)
    (syncs : world.agent.shouldSync interval (world.iteration true now response faults) = true)
    {later : Int} (soon : later - now < interval * secondMicros) (user : Bool) (id : Nat)
    (response' : Response) (faults' : Target → Fault) {synced after : World}
    (first : synced = step interval nodeId world (.iterate true now response faults))
    (second : after = step interval nodeId synced (.forceSync user id)) :
    after.agent.shouldSync interval (after.iteration true later response' faults') = false := by
  obtain ⟨attempted, published, time⟩ := step_synced nodeId syncs first
  obtain ⟨nodes, forced, left⟩ := step_forceSync interval nodeId synced user id
  have same : after.published = synced.published := by rw [second, left]
  have agent : after.agent = synced.agent := by rw [second, left]
  have seen : after.attempted = some world.published := by rw [second, left, attempted]
  have remembers : after.Remembered := by
    rw [second, first]
    exact (remembered.step _).step _
  apply Bool.eq_false_iff.2
  rw [Ne, shouldSync_answered_iff remembers, seen, same, published, agent, time, not_or]
  refine ⟨fun changed => changed world.published rfl rfl, Int.not_le.2 soon⟩

def unchanged : Primary := ⟨none, fun _ => none, [], []⟩

def served : Response := some (.ok ⟨"", [], [], []⟩)

/-- The node has synced; a minute later its sync is forced. -/
def forcedOnce : List Event :=
  [.iterate true 1700000000000000 served (fun _ => .none), .forceSync true 1,
    .iterate true 1700000060000000 served (fun _ => .none)]

theorem forcedOnce_not_attempted :
    ¬ Along (step 300 1) (Attempts 300) (start [⟨1, 0, none⟩] unchanged fun _ => none) forcedOnce := by
  intro along
  have remembered := start_remembered [⟨1, 0, none⟩] unchanged fun _ => none
  have synced : (start [⟨1, 0, none⟩] unchanged fun _ => none).agent.shouldSync 300
      (iteration (start [⟨1, 0, none⟩] unchanged fun _ => none) true 1700000000000000 served fun _ => .none) =
        true := (shouldSync_answered_iff remembered).2 (Or.inl nofun)
  have forced := along.2.2.1 rfl rfl
  rw [shouldSync_after_forceSync remembered synced (by decide) true 1 served (fun _ => .none) rfl rfl] at forced
  exact nomatch forced

end World
end PowerBlockade.Sync.Forced
