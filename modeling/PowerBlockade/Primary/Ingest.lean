import PowerBlockade.Lib.Json
import PowerBlockade.Primary.Tables

/-!
# The primary and its ingest endpoint
-/

namespace PowerBlockade.Primary
open Lib

structure MetricsRequest where
  cacheHits : Int
  cacheMisses : Int
  cacheEntries : Int
  packetcacheHits : Int
  packetcacheMisses : Int
  answers0to1 : Int
  answers1to10 : Int
  answers10to100 : Int
  answers100to1000 : Int
  answersSlow : Int
  concurrentQueries : Int
  outgoingTimeouts : Int
  servfailAnswers : Int
  nxdomainAnswers : Int
  questions : Int
  allOutqueries : Int
  uptimeSeconds : Int
deriving DecidableEq

structure NodeMetrics where
  nodeId : Nat
  ts : DateTime
  counters : MetricsRequest
deriving DecidableEq

/-- The database of the primary; `clientSeq` is the last client id given out. -/
structure Database where
  settings : Settings
  nodes : NodeTable
  clients : List Client
  clientSeq : Nat
  events : EventTable
  metrics : List NodeMetrics

/-- Why a request fails: the two 401 answers, or an exception that ends it with a 500. -/
inductive Failure
  | missingKey
  | invalidKey
  | valueError
  | typeError
  | overflowError
  | databaseError
deriving DecidableEq

namespace Database

def getNodeFromApiKey (db : Database) (key : Option String) : Except Failure Node :=
  match key with
  | none | some "" => .error .missingKey
  | some key => match db.nodes.withKey key with
      | none => .error .invalidKey
      | some node => .ok node

def saveNode (db : Database) (node : Node) : Except Failure Database :=
  match db.nodes.save node with
  | none => .error .databaseError
  | some nodes => .ok { db with nodes := nodes }

theorem getNodeFromApiKey_eq_ok {db : Database} {key : Option String} {node : Node} :
    db.getNodeFromApiKey key = .ok node ↔
      node ∈ db.nodes.rows ∧ key = some node.apiKey ∧ node.apiKey ≠ "" := by
  unfold getNodeFromApiKey
  split
  · simp
  · constructor
    · intro found
      contradiction
    · rintro ⟨-, same, nonempty⟩
      exact absurd (Option.some.inj same).symm nonempty
  · rename_i key nonempty
    cases found : db.nodes.withKey key with
    | none =>
        simp only [reduceCtorEq, false_iff, not_and]
        intro member same
        have present := NodeTable.withKey_eq_some.2 ⟨member, (Option.some.inj same).symm⟩
        simp [found] at present
    | some other =>
        obtain ⟨member, named⟩ := NodeTable.withKey_eq_some.1 found
        constructor
        · intro same
          cases same
          exact ⟨member, congrArg some named.symm, fun empty => nonempty (named.symm.trans empty)⟩
        · rintro ⟨present, same, -⟩
          rw [NodeTable.eq_of_key member present (named.trans (Option.some.inj same))]

theorem saveNode_eq_ok {db saved : Database} {node : Node}
    (committed : db.saveNode node = .ok saved) :
    saved.nodes.rows = db.nodes.rows.map (replaceRow node) ∧
      saved = { db with nodes := saved.nodes } := by
  unfold saveNode at committed
  split at committed
  · contradiction
  · rename_i nodes kept
    cases committed
    exact ⟨NodeTable.save_rows kept, rfl⟩

theorem saveNode_isOk {db : Database} {node : Node} :
    (∃ saved, db.saveNode node = .ok saved) ↔ (db.nodes.save node).isSome = true := by
  unfold saveNode
  cases db.nodes.save node <;> simp

end Database

/-! ## Ingest -/

structure IngestEvent where
  ts : Option String
  clientIp : String
  qname : String
  qtype : Int
  rcode : Int
  blocked : Bool
  blockReason : Option String
  blocklistName : Option String
  latencyMs : Option Int
  eventId : Option String
  eventSeq : Option Int
  isInternal : Bool
deriving DecidableEq

/-- `IngestEvent.model_validate`; `none` is its `ValidationError`. -/
abbrev ModelValidate := Json.Members → Option IngestEvent

/-- An event each of whose members has exactly the declared type. -/
def IngestEvent.ofTyped (members : Json.Members) : Option IngestEvent := do
  return {
    ts := ← Json.defaulted members "ts" none (Json.nullable Json.asString)
    clientIp := ← Json.required members "client_ip" Json.asString
    qname := ← Json.required members "qname" Json.asString
    qtype := ← Json.required members "qtype" Json.asInteger
    rcode := ← Json.required members "rcode" Json.asInteger
    blocked := ← Json.defaulted members "blocked" false Json.asBool
    blockReason := ← Json.defaulted members "block_reason" none (Json.nullable Json.asString)
    blocklistName := ← Json.defaulted members "blocklist_name" none (Json.nullable Json.asString)
    latencyMs := ← Json.defaulted members "latency_ms" none (Json.nullable Json.asInteger)
    eventId := ← Json.defaulted members "event_id" none (Json.nullable Json.asString)
    eventSeq := ← Json.defaulted members "event_seq" none (Json.nullable Json.asInteger)
    isInternal := ← Json.defaulted members "is_internal" false Json.asBool }

/-- What pydantic documents of a model: an object whose members, under distinct names, have the
declared types is valid, a missing one takes its default and an undeclared one is ignored. -/
def AcceptsTyped (modelValidate : ModelValidate) : Prop :=
  ∀ members event, (members.map Prod.fst).Nodup → IngestEvent.ofTyped members = some event →
    modelValidate members = some event

theorem acceptsTyped_ofTyped : AcceptsTyped IngestEvent.ofTyped := fun _ _ _ typed => typed

def storedTime (now : DateTime) (event : IngestEvent) : Int :=
  match (event.ts.filter (· ≠ "")).bind fun text =>
      PyDateTime.fromisoformat (Python.replace 'Z' "+00:00" text) with
  | some ts => ts.utcMicros
  | none => now.micros

def normalizedQname (qname : String) : String := Python.rstrip '.' (Python.lower (Python.strip qname))

def addClient (known : List Client × Nat) (ip : String) : List Client × Nat :=
  if known.1.any (·.ip = ip) then known else (known.1 ++ [⟨known.2 + 1, ip, none⟩], known.2 + 1)

def touchClient (now : DateTime) (clients : List Client) (event : IngestEvent) : List Client :=
  clients.map fun client =>
    if client.ip = event.clientIp then { client with lastSeen := some (storedTime now event) } else client

def eventRow (now : DateTime) (node : Node) (clients : List Client) (event : IngestEvent) :
    DNSQueryEvent where
  eventId := event.eventId
  eventSeq := event.eventSeq
  ts := storedTime now event
  nodeId := some node.id
  clientIp := event.clientIp
  clientId := (clients.find? (·.ip = event.clientIp)).map (·.id)
  qname := normalizedQname event.qname
  qtype := event.qtype
  rcode := event.rcode
  blocked := event.blocked
  blockReason := event.blockReason
  blocklistName := event.blocklistName
  latencyMs := event.latencyMs
  isInternal := event.isInternal

/-- The rows of one request; the statement binds fourteen parameters for each, and the protocol takes
at most 65535. -/
def rowsFit (rows : List DNSQueryEvent) : Bool := 14 * rows.length ≤ 65535 && rows.all (·.storable)

def ingest (modelValidate : ModelValidate) (db : Database) (key : Option String)
    (payload : List Json.Members) (now : DateTime) : Except Failure (Database × Nat) := do
  let node ← db.getNodeFromApiKey key
  let parsed := payload.filterMap modelValidate
  if parsed = [] then return (db, 0)
  else
    let (clients, clientSeq) := (parsed.map (·.clientIp)).foldl addClient (db.clients, db.clientSeq)
    let rows := parsed.map (eventRow now node clients)
    if rowsFit rows then
      let events := db.events.insertAll rows
      let stored : Database := { db with
        clients := parsed.foldl (touchClient now) clients
        clientSeq := clientSeq
        events := events }
      let saved ← stored.saveNode { node with lastSeen := some now, status := .active }
      return (saved, events.rows.length - db.events.rows.length)
    else .error .databaseError

def ingestRows (modelValidate : ModelValidate) (db : Database) (node : Node)
    (payload : List Json.Members) (now : DateTime) : List DNSQueryEvent :=
  let parsed := payload.filterMap modelValidate
  parsed.map (eventRow now node
    ((parsed.map (·.clientIp)).foldl addClient (db.clients, db.clientSeq)).1)

theorem ingest_ok {modelValidate : ModelValidate} {db after : Database} {key : Option String}
    {payload : List Json.Members} {now : DateTime} {received : Nat}
    (answered : ingest modelValidate db key payload now = .ok (after, received)) :
    ∃ node ∈ db.nodes.rows, key = some node.apiKey ∧ node.apiKey ≠ "" ∧
      (payload.filterMap modelValidate = [] ∧ after = db ∨
        payload.filterMap modelValidate ≠ [] ∧
          after.events = db.events.insertAll (ingestRows modelValidate db node payload now) ∧
          after.nodes.rows = db.nodes.rows.map
            (replaceRow { node with lastSeen := some now, status := .active })) := by
  simp only [ingest, bind, Except.bind] at answered
  split at answered
  · contradiction
  · rename_i node found
    obtain ⟨member, named, nonempty⟩ := Database.getNodeFromApiKey_eq_ok.1 found
    refine ⟨node, member, named, nonempty, ?_⟩
    split at answered
    · rename_i nothing
      cases answered
      exact Or.inl ⟨nothing, rfl⟩
    · rename_i some
      split at answered
      · split at answered
        · contradiction
        · rename_i saved committed
          cases answered
          obtain ⟨rows, same⟩ := Database.saveNode_eq_ok committed
          exact Or.inr ⟨some, congrArg Database.events same, rows⟩
      · contradiction

theorem ingest_isOk_iff {modelValidate : ModelValidate} {db : Database} {node : Node}
    {payload : List Json.Members} {now : DateTime} (member : node ∈ db.nodes.rows)
    (nonempty : node.apiKey ≠ "") :
    (∃ answer, ingest modelValidate db (some node.apiKey) payload now = .ok answer) ↔
      payload.filterMap modelValidate = [] ∨
        rowsFit (ingestRows modelValidate db node payload now) = true := by
  have found := Database.getNodeFromApiKey_eq_ok.2 ⟨member, rfl, nonempty⟩
  simp only [ingest, found, bind, Except.bind]
  by_cases nothing : payload.filterMap modelValidate = []
  · simp [nothing, pure, Except.pure]
  · rw [if_neg nothing]
    change (∃ answer, (if rowsFit (ingestRows modelValidate db node payload now) = true then _ else _) = _) ↔ _
    cases fits : rowsFit (ingestRows modelValidate db node payload now) with
    | false => simp [nothing]
    | true =>
        have storable := db.nodes.wellFormed.storable node member
        obtain ⟨nodes, saved⟩ := Option.isSome_iff_exists.1
          ((NodeTable.save_isSome_of_name { node with lastSeen := some now, status := .active }
            member rfl rfl rfl).2 storable)
        simp [Database.saveNode, saved, pure, Except.pure]

end PowerBlockade.Primary
