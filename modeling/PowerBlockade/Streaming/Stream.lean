import PowerBlockade.Lib.CommitOrder
import PowerBlockade.Primary.Tables

/-!
# The live stream of query events

One client is connected while ingest transactions insert and commit.
-/

namespace PowerBlockade.Streaming
open Lib Primary

abbrev Database := CommitOrder DNSQueryEvent

/-- An event as it is sent; `ts` is the stored instant, whose ISO text is on the wire. -/
structure EventData where
  id : Nat
  ts : Int
  clientIp : String
  qname : String
  qtype : Int
  rcode : Int
  blocked : Bool
  latencyMs : Option Int
deriving DecidableEq

def eventData (row : Nat × DNSQueryEvent) : EventData where
  id := row.1
  ts := row.2.ts
  clientIp := row.2.clientIp
  qname := row.2.qname
  qtype := row.2.qtype
  rcode := row.2.rcode
  blocked := row.2.blocked
  latencyMs := row.2.latencyMs

def external (row : DNSQueryEvent) : Bool := !row.isInternal

def fetchRecentEvents (db : Database) (lastId limit : Nat) : List EventData :=
  (db.page external lastId limit).map eventData

/-- Internal rows count as well. -/
def getMaxEventId (db : Database) : Nat := (db.visible.map Prod.fst).max?.getD 0

/-- A client message by its `type`; the id is there when it is an integer. -/
inductive Incoming
  | ping
  | setLastId (lastId : Option Int)
  | other
deriving DecidableEq

def Incoming.leavesCursor : Incoming → Bool
  | .setLastId _ => false
  | .ping | .other => true

inductive Frame
  | connected (lastId : Nat)
  | pong
  | lastIdUpdated (lastId : Nat)
  | events (data : List EventData)
deriving DecidableEq

def Frame.data : Frame → List EventData
  | .events data => data
  | _ => []

structure Connection where
  lastId : Nat
  sent : List Frame
deriving DecidableEq

namespace Connection

def data (connection : Connection) : List EventData := connection.sent.flatMap Frame.data

def receive (connection : Connection) : Option Incoming → Connection
  | some .ping => { connection with sent := connection.sent ++ [.pong] }
  | some (.setLastId (some newLastId)) =>
      if 0 ≤ newLastId then
        ⟨newLastId.toNat, connection.sent ++ [.lastIdUpdated newLastId.toNat]⟩
      else connection
  | some (.setLastId none) | some .other | none => connection

def poll (connection : Connection) (db : Database) : Connection :=
  let events := fetchRecentEvents db connection.lastId 50
  match events.getLast? with
  | some last => ⟨last.id, connection.sent ++ [.events events]⟩
  | none => connection

end Connection

/-- The loop of `stream_queries`; a message that the wait for it timed out on is `none`. -/
def streamQueries (connection : Connection) (db : Database) (message : Option Incoming) : Connection :=
  (connection.receive message).poll db

def connect (db : Database) : Connection :=
  let lastId := getMaxEventId db
  ⟨lastId, [.connected lastId]⟩

/-! ## The stream among the transactions -/

/-- `first` is the database as the start id was read from it. -/
structure World where
  first : Database
  db : Database
  connection : Connection

/-- A row that `ON CONFLICT` drops is inserted and discarded. -/
inductive Label
  | insert (tx : Nat) (row : DNSQueryEvent)
  | discard (id : Nat)
  | commit (tx : Nat)
  | abort (tx : Nat)
  | poll (message : Option { message : Incoming // message.leavesCursor = true })

namespace World

def step (w : World) : Label → World
  | .insert tx row => { w with db := w.db.insert tx row }
  | .discard id => { w with db := w.db.discard id }
  | .commit tx => { w with db := w.db.finish tx .committed }
  | .abort tx => { w with db := w.db.finish tx .aborted }
  | .poll message => { w with connection := streamQueries w.connection w.db (message.map Subtype.val) }

def start (db : Database) : World := ⟨db, db, connect db⟩

end World

/-! ## What a poll sends -/

variable {connection : Connection}

theorem receive_leavesCursor (connection : Connection) (message : Option { message : Incoming // message.leavesCursor = true }) :
    (connection.receive (message.map Subtype.val)).lastId = connection.lastId ∧
      (connection.receive (message.map Subtype.val)).data = connection.data := by
  cases message with
  | none => exact ⟨rfl, rfl⟩
  | some message =>
      obtain ⟨message, leaves⟩ := message
      cases message with
      | ping => exact ⟨rfl, (List.flatMap_append ..).trans (List.append_nil _)⟩
      | setLastId => exact absurd leaves Bool.false_ne_true
      | other => exact ⟨rfl, rfl⟩

theorem poll_data (db : Database) : (connection.poll db).data =
    connection.data ++ (db.page external connection.lastId 50).map eventData := by
  unfold Connection.poll fetchRecentEvents
  cases page : (db.page external connection.lastId 50).getLast? with
  | none =>
      rw [List.getLast?_eq_none_iff.mp page]
      exact (List.append_nil _).symm
  | some last =>
      simp only [List.getLast?_map, page, Option.map_some, Connection.data, List.flatMap_append,
        List.flatMap_singleton, Frame.data]

theorem poll_lastId (db : Database) : (connection.poll db).lastId =
    CommitOrder.advance connection.lastId (db.page external connection.lastId 50) := by
  unfold Connection.poll fetchRecentEvents CommitOrder.advance
  cases page : (db.page external connection.lastId 50).getLast? with
  | none => simp only [List.getLast?_map, page, Option.map_none, Option.getD_none]
  | some last => simp only [List.getLast?_map, page, Option.map_some, Option.getD_some, eventData]

variable {message : Option { message : Incoming // message.leavesCursor = true }}

theorem streamQueries_data (db : Database) :
    (streamQueries connection db (message.map Subtype.val)).data =
      connection.data ++ (db.page external connection.lastId 50).map eventData := by
  obtain ⟨lastId, data⟩ := receive_leavesCursor connection message
  rw [streamQueries, poll_data, lastId, data]

theorem streamQueries_lastId (db : Database) :
    (streamQueries connection db (message.map Subtype.val)).lastId =
      CommitOrder.advance connection.lastId (db.page external connection.lastId 50) := by
  obtain ⟨lastId, -⟩ := receive_leavesCursor connection message
  rw [streamQueries, poll_lastId, lastId]

end PowerBlockade.Streaming
