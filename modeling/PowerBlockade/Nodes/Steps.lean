import PowerBlockade.Lib.Run
import PowerBlockade.Primary.NodeSync

/-!
# What a step does to a node's status
-/

namespace PowerBlockade.Nodes
open Lib Primary

variable {modelValidate : ModelValidate}

/-- The message writes `active` into its node's row: a register whose row can be stored, an ingest
with a valid event whose rows can, or metrics in range. -/
def activates (modelValidate : ModelValidate) (db : Database) (node : Node) (now : DateTime) :
    Message → Bool
  | .register payload => (registered node payload now).storable &&
      db.nodes.rows.all fun other => other.name ≠ payload.name ∨ other.id = node.id
  | .ingest events => events.filterMap modelValidate ≠ [] &&
      rowsFit (ingestRows modelValidate db node events now)
  | .metrics payload => payload.fits
  | .heartbeat _ => false

def statusAfterHeartbeat (settings : Settings) (node : Node) (payload : HeartbeatRequest)
    (now : DateTime) : NodeStatus :=
  match returned settings node now with
  | .error _ => node.status
  | .ok moved => if (reported moved payload now).storable then moved.status else node.status

def statusAfter (modelValidate : ModelValidate) (db : Database) (node : Node) (timed : Timed) :
    NodeStatus :=
  match timed.op with
  | .stateJob => match stateThresholds db.settings timed.time with
      | none => node.status
      | some (stale, offline) => stateTransition stale offline node
  | .message key message =>
      if key = some node.apiKey ∧ node.apiKey ≠ "" then
        if activates modelValidate db node timed.time message then .active
        else match message with
          | .heartbeat payload => statusAfterHeartbeat db.settings node payload timed.time
          | _ => node.status
      else node.status

/-! ## Rows under a commit -/

def HasRow (db : Database) (node : Node) (status : NodeStatus) : Prop :=
  ∃ row ∈ db.nodes.rows, row.id = node.id ∧ row.apiKey = node.apiKey ∧ row.status = status

theorem hasRow_self {db : Database} {node : Node} (member : node ∈ db.nodes.rows) :
    HasRow db node node.status := ⟨node, member, rfl, rfl, rfl⟩

theorem hasRow_saved {db after : Database} {node changed : Node}
    (rows : after.nodes.rows = db.nodes.rows.map (replaceRow changed)) (member : node ∈ db.nodes.rows)
    (sameId : changed.id = node.id) (sameKey : changed.apiKey = node.apiKey) :
    HasRow after node changed.status :=
  ⟨changed, rows ▸ List.mem_map.2 ⟨node, member, if_pos sameId.symm⟩, sameId, sameKey, rfl⟩

theorem hasRow_other {db after : Database} {node changed : Node}
    (rows : after.nodes.rows = db.nodes.rows.map (replaceRow changed)) (member : node ∈ db.nodes.rows)
    (other : changed.id ≠ node.id) : HasRow after node node.status :=
  ⟨node, rows ▸ List.mem_map.2 ⟨node, member, if_neg other.symm⟩, rfl, rfl, rfl⟩

theorem hasRow_saveNode {db : Database} (stored : Database) {node : Node} (changed : Node) (member : node ∈ db.nodes.rows)
    (same : stored.nodes = db.nodes) (sameId : changed.id = node.id)
    (sameKey : changed.apiKey = node.apiKey) :
    HasRow (match stored.saveNode changed with | .ok after => after | .error _ => db) node
      (if (db.nodes.save changed).isSome then changed.status else node.status) := by
  unfold Database.saveNode
  rw [same]
  cases saved : db.nodes.save changed with
  | none => exact hasRow_self member
  | some nodes => exact hasRow_saved (NodeTable.save_rows saved) member sameId sameKey

/-! ## The heartbeat's status branch -/

/-- A node that was away, with the time it was last seen: the branch that subtracts a stored time
from the clock. -/
def Away (node : Node) : Prop :=
  (node.status = .stale ∨ node.status = .offline) ∧ node.lastSeen ≠ none

instance (node : Node) : Decidable (Away node) := by
  unfold Away
  infer_instance

def Locked (status : NodeStatus) : Prop := status = .quarantine ∨ status = .error

instance (status : NodeStatus) : Decidable (Locked status) := by
  unfold Locked
  infer_instance

theorem sub_aware_naive (now stored : DateTime) :
    (PyDateTime.aware now).sub (PyDateTime.naive stored) = none := rfl

theorem returned_away {node : Node} (away : Away node) (settings : Settings) (now : DateTime) :
    ∃ failure, returned settings node now = .error failure := by
  obtain ⟨status, seen⟩ := away
  obtain ⟨lastSeen, seen⟩ := Option.ne_none_iff_exists'.1 seen
  cases threshold : settings.getHealthQuarantineThresholdMinutes <;>
    rcases status with status | status <;>
      simp [returned, status, seen, threshold, sub_aware_naive, orRaise, bind, Except.bind]

def beaten (node : Node) (payload : HeartbeatRequest) (now : DateTime) : Node :=
  reported { node with status := if Locked node.status then node.status else .active } payload now

theorem returned_present {node : Node} (present : ¬ Away node) (settings : Settings) (now : DateTime) :
    returned settings node now =
      .ok { node with status := if Locked node.status then node.status else .active } := by
  unfold returned
  cases status : node.status with
  | quarantine | error => simp [Locked, ← status]
  | active | pending => simp [Locked]
  | stale | offline =>
      cases seen : node.lastSeen with
      | none => simp [Locked]
      | some lastSeen => simp [Away, status, seen] at present

/-! ## Endpoints -/

theorem respond_ok {db after : Database} {key : Option String} {now : DateTime} {message : Message}
    (answered : respond modelValidate db key now message = .ok after) :
    ∃ sender ∈ db.nodes.rows, key = some sender.apiKey ∧ sender.apiKey ≠ "" ∧
      (after.nodes = db.nodes ∨ ∃ changed,
        after.nodes.rows = db.nodes.rows.map (replaceRow changed) ∧ changed.id = sender.id) := by
  cases message with
  | register payload =>
      simp only [respond, register, bind, Except.bind] at answered
      split at answered
      · contradiction
      · rename_i sender found
        obtain ⟨member, named, nonempty⟩ := Database.getNodeFromApiKey_eq_ok.1 found
        exact ⟨sender, member, named, nonempty, Or.inr ⟨_, (Database.saveNode_eq_ok answered).1, rfl⟩⟩
  | heartbeat payload =>
      simp only [respond, heartbeat, bind, Except.bind] at answered
      split at answered
      · contradiction
      · rename_i sender found
        obtain ⟨member, named, nonempty⟩ := Database.getNodeFromApiKey_eq_ok.1 found
        by_cases away : Away sender
        · obtain ⟨failure, raised⟩ := returned_away away db.settings now
          simp [raised] at answered
        · rw [returned_present away] at answered
          exact ⟨sender, member, named, nonempty, Or.inr ⟨_, (Database.saveNode_eq_ok answered).1, rfl⟩⟩
  | ingest events =>
      cases result : ingest modelValidate db key events now with
      | error failure => simp [respond, result, Except.map] at answered
      | ok answer =>
          obtain ⟨stored, received⟩ := answer
          obtain ⟨sender, member, named, nonempty, effect⟩ := ingest_ok result
          obtain rfl : stored = after := by simpa [respond, result, Except.map] using answered
          refine ⟨sender, member, named, nonempty, ?_⟩
          rcases effect with ⟨-, unchanged⟩ | ⟨-, -, rows⟩
          · exact Or.inl (by rw [unchanged])
          · exact Or.inr ⟨_, rows, rfl⟩
  | metrics payload =>
      simp only [respond, metrics, bind, Except.bind] at answered
      split at answered
      · contradiction
      · rename_i sender found
        obtain ⟨member, named, nonempty⟩ := Database.getNodeFromApiKey_eq_ok.1 found
        split at answered
        · exact ⟨sender, member, named, nonempty, Or.inr ⟨_, (Database.saveNode_eq_ok answered).1, rfl⟩⟩
        · contradiction

section

variable {db : Database} {node : Node} (member : node ∈ db.nodes.rows) (nonempty : node.apiKey ≠ "")
include member nonempty

theorem hasRow_register (now : DateTime) (payload : RegisterRequest) :
    HasRow (step modelValidate db ⟨now, .message (some node.apiKey) (.register payload)⟩) node
      (if activates modelValidate db node now (.register payload) then .active else node.status) := by
  have found := Database.getNodeFromApiKey_eq_ok.2 ⟨member, rfl, nonempty⟩
  have row := hasRow_saveNode db (registered node payload now) member rfl rfl rfl
  have accepted := NodeTable.save_isSome_iff (registered node payload now) member rfl rfl
  have same : activates modelValidate db node now (.register payload) =
      (db.nodes.save (registered node payload now)).isSome := by
    rw [Bool.eq_iff_iff, accepted]
    simp [activates, registered, imp_iff_not_or]
  simp only [step, respond, register, found, bind, Except.bind, same]
  exact row

theorem hasRow_heartbeat (now : DateTime) (payload : HeartbeatRequest) :
    HasRow (step modelValidate db ⟨now, .message (some node.apiKey) (.heartbeat payload)⟩) node
      (statusAfterHeartbeat db.settings node payload now) := by
  have found := Database.getNodeFromApiKey_eq_ok.2 ⟨member, rfl, nonempty⟩
  simp only [step, respond, heartbeat, found, bind, Except.bind, statusAfterHeartbeat]
  by_cases away : Away node
  · obtain ⟨failure, raised⟩ := returned_away away db.settings now
    rw [raised]
    exact hasRow_self member
  · rw [returned_present away]
    have row := hasRow_saveNode db (beaten node payload now) member rfl rfl rfl
    have accepted := NodeTable.save_isSome_of_name (beaten node payload now) member rfl rfl rfl
    simp only [accepted] at row
    exact row

theorem hasRow_ingest (now : DateTime) (events : List Json.Members) :
    HasRow (step modelValidate db ⟨now, .message (some node.apiKey) (.ingest events)⟩) node
      (if activates modelValidate db node now (.ingest events) then .active else node.status) := by
  have answered : (∃ answer, ingest modelValidate db (some node.apiKey) events now = .ok answer) ↔ _ :=
    ingest_isOk_iff member nonempty
  cases result : ingest modelValidate db (some node.apiKey) events now with
  | error failure =>
      have refused : activates modelValidate db node now (.ingest events) = false := by
        apply Bool.eq_false_iff.2
        intro accepted
        simp only [activates, Bool.and_eq_true] at accepted
        obtain ⟨answer, ok⟩ := answered.2 (Or.inr accepted.2)
        simp [result] at ok
      simp only [step, respond, result, Except.map, refused, Bool.false_eq_true, if_false]
      exact hasRow_self member
  | ok answer =>
      obtain ⟨stored, received⟩ := answer
      obtain ⟨sender, present, named, -, effect⟩ := ingest_ok result
      obtain rfl := NodeTable.eq_of_key present member (Option.some.inj named).symm
      simp only [step, respond, result, Except.map]
      rcases effect with ⟨nothing, unchanged⟩ | ⟨valid, -, rows⟩
      · simp only [activates, nothing, ne_eq, not_true_eq_false, decide_false, Bool.false_and,
          Bool.false_eq_true, if_false, unchanged]
        exact hasRow_self member
      · have fits := (answered.1 ⟨_, result⟩).resolve_left valid
        simp only [activates, fits, valid, ne_eq, not_false_eq_true, decide_true, Bool.and_self,
          if_true]
        exact hasRow_saved rows member rfl rfl

theorem hasRow_metrics (now : DateTime) (payload : MetricsRequest) :
    HasRow (step modelValidate db ⟨now, .message (some node.apiKey) (.metrics payload)⟩) node
      (if activates modelValidate db node now (.metrics payload) then .active else node.status) := by
  have found := Database.getNodeFromApiKey_eq_ok.2 ⟨member, rfl, nonempty⟩
  have row := hasRow_saveNode { db with metrics := db.metrics ++ [⟨node.id, now, payload⟩] }
    { node with lastSeen := some now, status := .active } member rfl rfl rfl
  rw [if_pos ((NodeTable.save_isSome_of_name
    { node with lastSeen := some now, status := .active } member rfl rfl rfl).2
    (db.nodes.wellFormed.storable node member))] at row
  by_cases fits : payload.fits = true
  · simp only [step, respond, metrics, found, bind, Except.bind, activates, fits, if_true]
    exact row
  · simp only [step, respond, metrics, found, bind, Except.bind, activates, fits, if_false,
      Bool.false_eq_true]
    exact hasRow_self member

theorem hasRow_sender (now : DateTime) (message : Message) :
    HasRow (step modelValidate db ⟨now, .message (some node.apiKey) message⟩) node
      (statusAfter modelValidate db node ⟨now, .message (some node.apiKey) message⟩) := by
  simp only [statusAfter, true_and, if_pos nonempty]
  cases message with
  | register payload => exact hasRow_register member nonempty now payload
  | heartbeat payload => exact hasRow_heartbeat member nonempty now payload
  | ingest events => exact hasRow_ingest member nonempty now events
  | metrics payload => exact hasRow_metrics member nonempty now payload

end

variable (modelValidate) in
/-- The one lemma about steps: a node's row stays, and its status is the one `statusAfter` says. -/
theorem hasRow_step {db : Database} {node : Node} (member : node ∈ db.nodes.rows) (timed : Timed) :
    HasRow (step modelValidate db timed) node (statusAfter modelValidate db node timed) := by
  obtain ⟨now, op⟩ := timed
  cases op with
  | stateJob =>
      simp only [step, statusAfter, nodeStateTransitionsJob]
      cases stateThresholds db.settings now with
      | none => exact hasRow_self member
      | some thresholds => exact ⟨_, List.mem_map.2 ⟨node, member, rfl⟩, rfl, rfl, rfl⟩
  | message key message =>
      by_cases own : key = some node.apiKey ∧ node.apiKey ≠ ""
      · obtain ⟨rfl, nonempty⟩ := own
        exact hasRow_sender member nonempty now message
      · simp only [step, statusAfter, if_neg own]
        cases answered : respond modelValidate db key now message with
        | error failure => exact hasRow_self member
        | ok after =>
            obtain ⟨sender, present, named, nonempty, effect⟩ := respond_ok answered
            rcases effect with unchanged | ⟨changed, rows, sameId⟩
            · exact ⟨node, unchanged ▸ member, rfl, rfl, rfl⟩
            · refine hasRow_other rows member fun same => own ?_
              obtain rfl := NodeTable.eq_of_id present member (sameId.symm.trans same)
              exact ⟨named, nonempty⟩

end PowerBlockade.Nodes
