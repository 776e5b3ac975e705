import PowerBlockade.Delivery.Received
import PowerBlockade.Lib.Run

/-!
# The processor, the network and the primary

A request stays in the network once it was sent: the primary may get it late, more than once or
never, and its answer may be lost. The processor may stop between any two steps.
-/

namespace PowerBlockade.Delivery
open Lib Primary Processor

structure Request where
  events : List Event
  answered : Bool

structure Attempt where
  request : Nat
  maxSeq : Nat

structure World where
  buffer : Buffer
  waiting : Option Attempt
  requests : List Request
  primary : Database

inductive Label
  /-- `PutBatch`, or one that fails after some sequence numbers were drawn. -/
  | putBatch (events : List Event) (failsAfter : Option Nat)
  | forward
  | serve (request : Nat) (now : DateTime)
  | acknowledge (deleteFails : Bool)
  | giveUp
  | prune (now : GoTime)
  | restart
  | elsewhere (timed : Timed)

def maxBatch : Nat := 500

variable (modelValidate : ModelValidate) (apiKey : Option String)

def forwardFromBuffer (world : World) : World :=
  match world.waiting, (world.buffer.peek maxBatch).getLast? with
  | none, some last => { world with
      waiting := some ⟨world.requests.length, last.eventSeq⟩
      requests := world.requests ++ [⟨world.buffer.peek maxBatch, false⟩] }
  | _, _ => world

def serveRequest (world : World) (i : Nat) (now : DateTime) : World :=
  match world.requests[i]? with
  | none => world
  | some request =>
      match ingest modelValidate world.primary apiKey (request.events.map Event.members) now with
      | .error _ => world
      | .ok (after, _) => { world with
          primary := after
          requests := world.requests.set i { request with answered := true } }

def takeAnswer (world : World) (deleteFails : Bool) : World :=
  match world.waiting with
  | none => world
  | some attempt =>
      if world.requests[attempt.request]?.any (·.answered) then
        { world with
          waiting := none
          buffer := if deleteFails then world.buffer else world.buffer.delete attempt.maxSeq }
      else world

def step (world : World) : Label → World
  | .putBatch events failsAfter => { world with buffer := world.buffer.putBatch events failsAfter }
  | .forward => forwardFromBuffer world
  | .serve request now => serveRequest modelValidate apiKey world request now
  | .acknowledge deleteFails => takeAnswer world deleteFails
  | .giveUp => { world with waiting := none }
  | .prune now => { world with buffer := world.buffer.prune now }
  | .restart => { world with
      waiting := none
      buffer := Buffer.open world.buffer.bucket world.buffer.maxAge }
  | .elsewhere timed => { world with primary := Primary.step modelValidate world.primary timed }

/-! ## The primary's side -/

variable {modelValidate} {apiKey}

theorem ingest_stores {db after : Database} {events : List Event} {now : DateTime} {count : Nat}
    (accepts : AcceptsTyped modelValidate)
    (answered : ingest modelValidate db apiKey (events.map Event.members) now = .ok (after, count)) :
    db.events.rows <+: after.events.rows ∧
      ∀ ev ∈ events, ev.eventID ≠ "" → after.events.hasId ev.eventID = true := by
  obtain ⟨node, -, -, -, effect⟩ := ingest_ok answered
  rw [filterMap_members accepts] at effect
  rcases effect with ⟨nothing, same⟩ | ⟨-, inserted, -⟩
  · rw [List.map_eq_nil_iff.1 nothing, same]
    exact ⟨List.prefix_rfl, by simp⟩
  · rw [inserted]
    refine ⟨EventTable.insertAll_keeps_rows _ _, fun ev member named => ?_⟩
    rw [ingestRows, filterMap_members accepts]
    refine EventTable.hasId_insertAll (List.mem_map_of_mem (List.mem_map_of_mem member)) ?_
    simp [eventRow, received, named]

end PowerBlockade.Delivery
