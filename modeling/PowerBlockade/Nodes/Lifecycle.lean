import PowerBlockade.Nodes.Steps

/-!
# The node lifecycle over runs

Which runs leave a locked node locked, whether quarantine is ever entered, and when a heartbeat does
what the lifecycle table says.
-/

namespace PowerBlockade.Nodes
open Lib Primary

variable {modelValidate : ModelValidate}

def statusOf (db : Database) (id : Nat) : Option NodeStatus :=
  (db.nodes.rows.find? (·.id = id)).map (·.status)

theorem HasRow.statusOf_eq {db : Database} {node : Node} {status : NodeStatus}
    (has : HasRow db node status) : statusOf db node.id = some status := by
  obtain ⟨row, member, sameId, -, rfl⟩ := has
  cases found : db.nodes.rows.find? (·.id = node.id) with
  | none => simpa using (List.find?_eq_none.1 found row member) (by simpa using sameId)
  | some other =>
      have otherId : other.id = node.id := by simpa using List.find?_some found
      rw [statusOf, found, Option.map_some,
        NodeTable.eq_of_id (List.mem_of_find?_eq_some found) member (otherId.trans sameId.symm)]

variable (modelValidate) in
theorem HasRow.step {db : Database} {node row : Node} (member : row ∈ db.nodes.rows)
    (sameId : row.id = node.id) (sameKey : row.apiKey = node.apiKey) (timed : Timed) :
    HasRow (Primary.step modelValidate db timed) node (statusAfter modelValidate db row timed) := by
  obtain ⟨after, present, afterId, afterKey, status⟩ := hasRow_step modelValidate member
    timed
  exact ⟨after, present, afterId.trans sameId, afterKey.trans sameKey, status⟩

/-! ## Locked nodes -/

/-- The step is a message of the node that writes `active` into its row. -/
def Activates (modelValidate : ModelValidate) (node : Node) (db : Database) (timed : Timed) : Prop :=
  ∃ row ∈ db.nodes.rows, row.id = node.id ∧ node.apiKey ≠ "" ∧ ∃ message,
    timed.op = .message (some node.apiKey) message ∧
      activates modelValidate db row timed.time message = true

theorem stateTransition_locked {node : Node} (locked : Locked node.status) (stale offline : DateTime) :
    stateTransition stale offline node = node.status := by
  rcases locked with status | status <;> simp [stateTransition, status]

theorem statusAfterHeartbeat_locked {node : Node} (locked : Locked node.status) (settings : Settings)
    (payload : HeartbeatRequest) (now : DateTime) :
    statusAfterHeartbeat settings node payload now = node.status := by
  have present : ¬ Away node := by
    rintro ⟨away, -⟩
    rcases locked with status | status <;> simp [status] at away
  simp [statusAfterHeartbeat, returned_present present, locked, reported]

theorem statusAfter_locked {db : Database} {node row : Node} (member : row ∈ db.nodes.rows)
    (sameId : row.id = node.id) (sameKey : row.apiKey = node.apiKey) (locked : Locked row.status)
    (timed : Timed) :
    statusAfter modelValidate db row timed = row.status ↔ ¬ Activates modelValidate node db timed := by
  have moved : NodeStatus.active ≠ row.status := by
    rcases locked with status | status <;> simp [status]
  obtain ⟨now, op⟩ := timed
  cases op with
  | stateJob =>
      refine iff_of_true ?_ ?_
      · simp only [statusAfter]
        split
        · rfl
        · exact stateTransition_locked locked _ _
      · rintro ⟨-, -, -, -, message, sent, -⟩
        contradiction
  | message key message =>
      have same : Activates modelValidate node db ⟨now, .message key message⟩ ↔
          (key = some row.apiKey ∧ row.apiKey ≠ "") ∧ activates modelValidate db row now message = true := by
        constructor
        · rintro ⟨other, present, otherId, nonempty, sent, op, accepted⟩
          obtain rfl := NodeTable.eq_of_id present member (otherId.trans sameId.symm)
          cases op
          exact ⟨⟨by rw [sameKey], sameKey ▸ nonempty⟩, accepted⟩
        · rintro ⟨⟨rfl, nonempty⟩, accepted⟩
          exact ⟨row, member, sameId, sameKey ▸ nonempty, message, by rw [sameKey], accepted⟩
      rw [same]
      simp only [statusAfter]
      split
      · rename_i own
        split
        · rename_i accepted
          exact iff_of_false moved fun refused => refused ⟨own, accepted⟩
        · rename_i refused
          refine iff_of_true ?_ fun both => refused both.2
          cases message with
          | heartbeat payload => exact statusAfterHeartbeat_locked locked _ _ _
          | register | ingest | metrics => rfl
      · rename_i foreign
        exact iff_of_true rfl fun both => foreign both.1

/-- A locked node keeps its status throughout a run iff none of its messages in the run writes
`active`. -/
theorem locked_status_kept_iff {db : Database} {node : Node} (member : node ∈ db.nodes.rows)
    (locked : Locked node.status) (run : List Timed) :
    (∀ u ∈ visited (step modelValidate) db run, statusOf u node.id = some node.status) ↔
      Along (step modelValidate) (fun u timed => ¬ Activates modelValidate node u timed) db run := by
  rw [forall_visited_iff, and_iff_right (hasRow_self member).statusOf_eq]
  refine along_congr_of_kept (P := fun u => HasRow u node node.status) run (hasRow_self member) ?_ ?_
  · rintro u timed ⟨row, present, sameId, sameKey, status⟩ kept
    have after := HasRow.step modelValidate present sameId sameKey timed
    rw [after.statusOf_eq, Option.some.injEq] at kept
    exact kept ▸ after
  · rintro u timed ⟨row, present, sameId, sameKey, status⟩
    rw [(HasRow.step modelValidate present sameId sameKey timed).statusOf_eq, Option.some.injEq, ← status]
    exact statusAfter_locked present sameId sameKey (status ▸ locked) timed

/-! ### A quarantined node that reports metrics -/

def noCounters : MetricsRequest := ⟨0, 0, 0, 0, 0, 0, 0, 0, 0, 0, 0, 0, 0, 0, 0, 0, 0⟩

def beat : HeartbeatRequest := ⟨none, none, none⟩

theorem metrics_unlocks_quarantine :
    statusOf (office .quarantine none) 1 = some .quarantine ∧
      statusOf (step IngestEvent.ofTyped (office .quarantine none)
        ⟨minute 0, .message (some "edge-key") (.metrics noCounters)⟩) 1 = some .active := by
  decide

theorem quarantine_kept_by_heartbeat :
    statusOf (step IngestEvent.ofTyped (step IngestEvent.ofTyped (office .quarantine none)
      ⟨minute 0, .message (some "edge-key") (.heartbeat beat)⟩) ⟨minute 1, .stateJob⟩) 1 =
      some .quarantine := by
  have kept : ∀ u ∈ visited (step IngestEvent.ofTyped) (office .quarantine none)
      [⟨minute 0, .message (some "edge-key") (.heartbeat beat)⟩, ⟨minute 1, .stateJob⟩],
      statusOf u 1 = some .quarantine := by
    refine (locked_status_kept_iff (secondary_mem .quarantine none) (Or.inl rfl) _).2
      ⟨?_, ?_, trivial⟩
    · rintro ⟨row, -, -, -, message, sent, accepted⟩
      cases sent
      simp [activates] at accepted
    · rintro ⟨row, -, -, -, message, sent, -⟩
      contradiction
  exact kept _ (foldl_mem_visited (office .quarantine none) [_, _])

/-! ## Quarantine -/

theorem stateTransition_ne_quarantine {node : Node} (free : node.status ≠ .quarantine)
    (stale offline : DateTime) : stateTransition stale offline node ≠ .quarantine := by
  have aged : (if node.status = .active ∧ node.lastSeen.any (· < stale) then NodeStatus.stale
      else node.status) ≠ .quarantine := by
    split
    · simp
    · exact free
  unfold stateTransition
  dsimp only
  generalize (if node.status = .active ∧ node.lastSeen.any (· < stale) then NodeStatus.stale
    else node.status) = status at aged ⊢
  split
  · simp
  · exact aged

theorem statusAfterHeartbeat_ne_quarantine {node : Node} (free : node.status ≠ .quarantine)
    (settings : Settings) (payload : HeartbeatRequest) (now : DateTime) :
    statusAfterHeartbeat settings node payload now ≠ .quarantine := by
  unfold statusAfterHeartbeat
  by_cases away : Away node
  · obtain ⟨failure, raised⟩ := returned_away away settings now
    rw [raised]
    exact free
  · have moved : (if Locked node.status then node.status else .active) ≠ .quarantine := by
      split
      · exact free
      · simp
    rw [returned_present away]
    generalize (if Locked node.status then node.status else .active) = status at moved ⊢
    dsimp only
    split
    · exact moved
    · exact free

theorem statusAfter_ne_quarantine {db : Database} {row : Node} (free : row.status ≠ .quarantine)
    (timed : Timed) : statusAfter modelValidate db row timed ≠ .quarantine := by
  obtain ⟨now, op⟩ := timed
  cases op with
  | stateJob =>
      simp only [statusAfter]
      split
      · exact free
      · exact stateTransition_ne_quarantine free _ _
  | message key message =>
      simp only [statusAfter]
      split
      · split
        · simp
        · cases message with
          | heartbeat payload => exact statusAfterHeartbeat_ne_quarantine free _ _ _
          | register | ingest | metrics => exact free
      · exact free

theorem quarantine_unreachable {db : Database} {node : Node} (member : node ∈ db.nodes.rows)
    (free : node.status ≠ .quarantine) (run : List Timed) :
    statusOf (run.foldl (step modelValidate) db) node.id ≠ some .quarantine := by
  have kept : ∃ status, HasRow (run.foldl (step modelValidate) db) node status ∧ status ≠ .quarantine := by
    refine foldl_preserves (P := fun u => ∃ status, HasRow u node status ∧ status ≠ .quarantine) run
      ⟨_, hasRow_self member, free⟩ ?_
    rintro u timed ⟨status, ⟨row, present, sameId, sameKey, rfl⟩, free⟩
    exact ⟨_, HasRow.step modelValidate present sameId sameKey timed, statusAfter_ne_quarantine free timed⟩
  obtain ⟨status, has, free⟩ := kept
  rw [has.statusOf_eq]
  simpa using free

/-- Whatever a node sends on its return, it does not end in quarantine without having been active. -/
theorem return_not_quarantined {db : Database} {node : Node} (member : node ∈ db.nodes.rows)
    (away : node.status = .stale ∨ node.status = .offline) (run : List Timed) :
    ¬ (statusOf (run.foldl (step modelValidate) db) node.id = some .quarantine ∧
      ∀ u ∈ visited (step modelValidate) db run, statusOf u node.id ≠ some .active) := by
  have free : node.status ≠ .quarantine := by
    rcases away with status | status <;> simp [status]
  exact fun returned => quarantine_unreachable member free run returned.1

theorem return_after_two_days :
    (Settings.getHealthQuarantineThresholdMinutes (office .offline none).settings) = some 1440 ∧
      ((minute 3000).micros : Int) - (minute 60).micros > 1440 * minuteMicros ∧
      statusOf ([⟨minute 3000, .message (some "edge-key") (.heartbeat beat)⟩].foldl
        (step IngestEvent.ofTyped) (office .offline (some (minute 60)))) 1 = some .offline ∧
      statusOf ([⟨minute 3000, .message (some "edge-key") (.register ⟨"edge", none, none⟩)⟩,
          ⟨minute 3001, .message (some "edge-key") (.heartbeat beat)⟩].foldl
        (step IngestEvent.ofTyped) (office .offline (some (minute 60)))) 1 = some .active := by
  decide

theorem return_not_quarantined_after_two_days :
    ¬ (statusOf ([⟨minute 3000, .message (some "edge-key") (.heartbeat beat)⟩].foldl
        (step IngestEvent.ofTyped) (office .offline (some (minute 60)))) 1 = some .quarantine ∧
      ∀ u ∈ visited (step IngestEvent.ofTyped) (office .offline (some (minute 60)))
        [⟨minute 3000, .message (some "edge-key") (.heartbeat beat)⟩], statusOf u 1 ≠ some .active) :=
  return_not_quarantined (secondary_mem .offline (some (minute 60))) (Or.inr rfl) _

/-! ## Heartbeats -/

/-- The status that the lifecycle table gives a node on its heartbeat. -/
def lifecycleStatus (settings : Settings) (node : Node) (now : DateTime) : NodeStatus :=
  match node.status, node.lastSeen with
  | .quarantine, _ => .quarantine
  | .error, _ => .error
  | .stale, some lastSeen | .offline, some lastSeen =>
      let threshold := settings.getHealthQuarantineThresholdMinutes.getD 1440 * minuteMicros
      if threshold < now.micros - lastSeen.micros then .quarantine else .active
  | _, _ => .active

def FollowsTable (db : Database) (node : Node) (payload : HeartbeatRequest) (now : DateTime) : Prop :=
  ∃ after, heartbeat db (some node.apiKey) payload now = .ok after ∧
    ∃ row ∈ after.nodes.rows, row.id = node.id ∧ row.status = lifecycleStatus db.settings node now ∧
      row.lastSeen = some now ∧ row.lastHeartbeat = some now

theorem lifecycleStatus_present {node : Node} (present : ¬ Away node) (settings : Settings)
    (now : DateTime) : lifecycleStatus settings node now =
      if Locked node.status then node.status else .active := by
  unfold lifecycleStatus
  cases status : node.status with
  | quarantine | error => simp [Locked]
  | active | pending => simp [Locked]
  | stale | offline =>
      cases seen : node.lastSeen with
      | none => simp [Locked]
      | some lastSeen => simp [Away, status, seen] at present

theorem heartbeat_away {db : Database} {node : Node} (member : node ∈ db.nodes.rows)
    (away : Away node) (payload : HeartbeatRequest) (now : DateTime) (after : Database) :
    heartbeat db (some node.apiKey) payload now ≠ .ok after := by
  intro answered
  simp only [heartbeat, bind, Except.bind] at answered
  split at answered
  · contradiction
  · rename_i sender found
    obtain ⟨present, named, -⟩ := Database.getNodeFromApiKey_eq_ok.1 found
    obtain rfl := NodeTable.eq_of_key present member (Option.some.inj named).symm
    obtain ⟨failure, raised⟩ := returned_away away db.settings now
    simp [raised] at answered

/-- In every state of every run, the heartbeat follows the table iff the node was not away and its
columns take the payload. -/
theorem heartbeat_followsTable_iff (db : Database) (run : List Timed) :
    ∀ u ∈ visited (step modelValidate) db run, ∀ node ∈ u.nodes.rows, node.apiKey ≠ "" →
      ∀ payload now, FollowsTable u node payload now ↔
        ¬ Away node ∧ (reported node payload now).storable = true := by
  intro u _ node member nonempty payload now
  by_cases away : Away node
  · refine iff_of_false ?_ fun both => both.1 away
    rintro ⟨after, answered, -⟩
    exact heartbeat_away member away payload now after answered
  · rw [and_iff_right away]
    have found := Database.getNodeFromApiKey_eq_ok.2 ⟨member, rfl, nonempty⟩
    have accepted := NodeTable.save_isSome_of_name (beaten node payload now) member rfl rfl rfl
    have answer : heartbeat u (some node.apiKey) payload now = u.saveNode (beaten node payload now) := by
      simp [heartbeat, found, returned_present away, bind, Except.bind, beaten]
    constructor
    · rintro ⟨after, answered, -⟩
      exact accepted.1 (Database.saveNode_isOk.1 ⟨after, answer ▸ answered⟩)
    · intro storable
      obtain ⟨after, saved⟩ := Database.saveNode_isOk.2 (accepted.2 storable)
      refine ⟨after, answer.trans saved, beaten node payload now, ?_, rfl,
        (lifecycleStatus_present away u.settings now).symm, rfl, rfl⟩
      rw [(Database.saveNode_eq_ok saved).1]
      exact List.mem_map.2 ⟨node, member, if_pos rfl⟩

theorem heartbeat_of_stale_node_fails :
    let run : List Timed := [⟨minute 0, .message (some "edge-key") (.register ⟨"edge", none, none⟩)⟩,
      ⟨minute 10, .stateJob⟩]
    let aged := secondary .stale (some (minute 0))
    aged ∈ (run.foldl (step IngestEvent.ofTyped) (office .pending none)).nodes.rows ∧
      ¬ FollowsTable (run.foldl (step IngestEvent.ofTyped) (office .pending none)) aged beat
        (minute 11) := by
  intro run aged
  have member : aged ∈ (run.foldl (step IngestEvent.ofTyped) (office .pending none)).nodes.rows := by
    decide
  refine ⟨member, ?_⟩
  rintro ⟨after, answered, -⟩
  exact heartbeat_away member (by decide) beat (minute 11) after answered

theorem heartbeat_of_active_node :
    FollowsTable (office .active (some (minute 0))) (secondary .active (some (minute 0))) beat
      (minute 1) :=
  (heartbeat_followsTable_iff _ [] _
    (mem_visited_self _ _ : office .active (some (minute 0)) ∈ visited (step IngestEvent.ofTyped) _ []) _
    (List.mem_singleton.2 rfl) (by decide) _ _).2 ⟨by decide, by decide⟩

end PowerBlockade.Nodes
