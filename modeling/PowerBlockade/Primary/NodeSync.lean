import PowerBlockade.Primary.Ingest

/-!
# Register, heartbeat and metrics, and the job that ages nodes
-/

namespace PowerBlockade.Primary
open Lib

structure RegisterRequest where
  name : String
  version : Option String
  ipAddress : Option String
deriving DecidableEq

structure HeartbeatRequest where
  queriesTotal : Option Int
  queriesBlocked : Option Int
  version : Option String
deriving DecidableEq

def orRaise {α : Type*} (failure : Failure) : Option α → Except Failure α
  | none => .error failure
  | some a => .ok a

/-! ## Endpoints -/

def registered (node : Node) (payload : RegisterRequest) (now : DateTime) : Node :=
  { node with
    name := payload.name
    ipAddress := payload.ipAddress
    version := payload.version
    status := .active
    lastSeen := some now
    lastError := none }

def register (db : Database) (key : Option String) (payload : RegisterRequest) (now : DateTime) :
    Except Failure Database := do
  let node ← db.getNodeFromApiKey key
  db.saveNode (registered node payload now)

def returned (settings : Settings) (node : Node) (now : DateTime) : Except Failure Node :=
  match node.status with
  | .error | .quarantine => .ok node
  | .offline | .stale => match node.lastSeen with
      | none => .ok { node with status := .active }
      | some lastSeen => do
          let threshold ← orRaise .valueError settings.getHealthQuarantineThresholdMinutes
          -- the column has no time zone, the clock does
          let offline ← orRaise .typeError ((PyDateTime.aware now).sub (PyDateTime.naive lastSeen))
          let limit ← orRaise .overflowError (timedelta (threshold * minuteMicros))
          if limit < offline then
            let hours := offline.tdiv hourMicros
            return { node with
              status := .quarantine
              quarantineEntryTime := some now
              quarantineReason := some s!"Returned after {hours} hours offline" }
          else return { node with status := .active }
  | .pending | .active => .ok { node with status := .active }

def reported (node : Node) (payload : HeartbeatRequest) (now : DateTime) : Node :=
  { node with
    lastSeen := some now
    lastHeartbeat := some now
    version := (payload.version.filter (· ≠ "")).orElse fun _ => node.version
    queriesTotal := payload.queriesTotal.getD node.queriesTotal
    queriesBlocked := payload.queriesBlocked.getD node.queriesBlocked }

def heartbeat (db : Database) (key : Option String) (payload : HeartbeatRequest) (now : DateTime) :
    Except Failure Database := do
  let node ← db.getNodeFromApiKey key
  let moved ← returned db.settings node now
  db.saveNode (reported moved payload now)

def MetricsRequest.values (counters : MetricsRequest) : List Int :=
  [counters.cacheHits, counters.cacheMisses, counters.cacheEntries, counters.packetcacheHits,
    counters.packetcacheMisses, counters.answers0to1, counters.answers1to10, counters.answers10to100,
    counters.answers100to1000, counters.answersSlow, counters.concurrentQueries,
    counters.outgoingTimeouts, counters.servfailAnswers, counters.nxdomainAnswers, counters.questions,
    counters.allOutqueries, counters.uptimeSeconds]

def MetricsRequest.fits (counters : MetricsRequest) : Bool := counters.values.all (fitsInteger 64)

def metrics (db : Database) (key : Option String) (payload : MetricsRequest) (now : DateTime) :
    Except Failure Database := do
  let node ← db.getNodeFromApiKey key
  if payload.fits then
    Database.saveNode { db with metrics := db.metrics ++ [⟨node.id, now, payload⟩] }
      { node with lastSeen := some now, status := .active }
  else .error .databaseError

/-! ## The state job -/

/-- Both updates of the job; the second sees what the first wrote. -/
def stateTransition (staleThreshold offlineThreshold : DateTime) (node : Node) : NodeStatus :=
  let status :=
    if node.status = .active ∧ node.lastSeen.any (· < staleThreshold) then .stale else node.status
  if status = .stale ∧ node.lastSeen.any (· < offlineThreshold) then .offline else status

def minutesBefore (now : DateTime) (minutes : Int) : Option DateTime :=
  (timedelta (minutes * minuteMicros)).bind fun delta => now.add (-delta)

/-- An exception of the job leaves the table unchanged. -/
def stateThresholds (settings : Settings) (now : DateTime) : Option (DateTime × DateTime) := do
  let staleMinutes ← settings.getHealthStaleMinutes
  let offlineMinutes ← settings.getHealthOfflineMinutes
  return (← minutesBefore now staleMinutes, ← minutesBefore now offlineMinutes)

def nodeStateTransitionsJob (db : Database) (now : DateTime) : Database :=
  match stateThresholds db.settings now with
  | none => db
  | some (stale, offline) => { db with nodes := db.nodes.setStatus (stateTransition stale offline) }

/-! ## Messages and runs -/

inductive Message
  | register (payload : RegisterRequest)
  | heartbeat (payload : HeartbeatRequest)
  | ingest (events : List Json.Members)
  | metrics (payload : MetricsRequest)

inductive Op
  | message (key : Option String) (message : Message)
  | stateJob

structure Timed where
  time : DateTime
  op : Op

variable (modelValidate : ModelValidate)

def respond (db : Database) (key : Option String) (now : DateTime) : Message → Except Failure Database
  | .register payload => register db key payload now
  | .heartbeat payload => heartbeat db key payload now
  | .ingest events => (ingest modelValidate db key events now).map Prod.fst
  | .metrics payload => metrics db key payload now

/-- A request that fails changes nothing. -/
def step (db : Database) (timed : Timed) : Database :=
  match timed.op with
  | .stateJob => nodeStateTransitionsJob db timed.time
  | .message key message => match respond modelValidate db key timed.time message with
      | .ok after => after
      | .error _ => db

/-! ## Stored events -/

variable {modelValidate}

theorem respond_events {db after : Database} {key : Option String} {now : DateTime} {message : Message}
    (answered : respond modelValidate db key now message = .ok after) :
    db.events.rows <+: after.events.rows := by
  cases message with
  | register payload =>
      simp only [respond, register, bind, Except.bind] at answered
      split at answered
      · contradiction
      · rw [(Database.saveNode_eq_ok answered).2]
  | heartbeat payload =>
      simp only [respond, heartbeat, bind, Except.bind] at answered
      split at answered
      · contradiction
      · split at answered
        · contradiction
        · rw [(Database.saveNode_eq_ok answered).2]
  | ingest events =>
      cases result : ingest modelValidate db key events now with
      | error failure => simp [respond, result, Except.map] at answered
      | ok answer =>
          obtain ⟨stored, received⟩ := answer
          obtain rfl : stored = after := by simpa [respond, result, Except.map] using answered
          obtain ⟨node, -, -, -, effect⟩ := ingest_ok result
          rcases effect with ⟨-, same⟩ | ⟨-, inserted, -⟩
          · rw [same]
          · rw [inserted]
            exact EventTable.insertAll_keeps_rows _ _
  | metrics payload =>
      simp only [respond, metrics, bind, Except.bind] at answered
      split at answered
      · contradiction
      · split at answered
        · rw [(Database.saveNode_eq_ok answered).2]
        · contradiction

theorem step_events (db : Database) (timed : Timed) :
    db.events.rows <+: (step modelValidate db timed).events.rows := by
  obtain ⟨now, op⟩ := timed
  cases op with
  | stateJob =>
      simp only [step, nodeStateTransitionsJob]
      split <;> exact List.prefix_rfl
  | message key message =>
      simp only [step]
      split
      · rename_i after answered
        exact respond_events answered
      · exact List.prefix_rfl

/-! ## A primary with one secondary -/

def secondary (status : NodeStatus) (lastSeen : Option DateTime) : Node where
  id := 1
  name := "edge"
  apiKey := "edge-key"
  ipAddress := none
  version := none
  status := status
  lastSeen := lastSeen
  lastHeartbeat := none
  lastError := none
  quarantineEntryTime := none
  quarantineReason := none
  queriesTotal := 0
  queriesBlocked := 0

theorem secondary_wellFormed (status : NodeStatus) (lastSeen : Option DateTime) :
    NodesWellFormed [secondary status lastSeen] where
  ids := List.nodup_singleton _
  keys := List.nodup_singleton _
  names := List.nodup_singleton _
  storable := by
    intro row member
    obtain rfl := List.mem_singleton.1 member
    have texts : (fitsText 255 "edge" && fitsText 64 "edge-key") = true := by decide
    simpa [Node.storable, secondary, fitsInteger] using texts

def office (status : NodeStatus) (lastSeen : Option DateTime) : Database where
  settings := []
  nodes := ⟨[secondary status lastSeen], secondary_wellFormed status lastSeen⟩
  clients := []
  clientSeq := 0
  events := ⟨[], List.nodup_nil⟩
  metrics := []

theorem secondary_mem (status : NodeStatus) (lastSeen : Option DateTime) :
    secondary status lastSeen ∈ (office status lastSeen).nodes.rows := List.mem_singleton_self _

end PowerBlockade.Primary
