import PowerBlockade.Lib.Run
import PowerBlockade.Primary.NodeSync

/-!
# The agent's buffered metrics

From a scrape through the SQLite queue to a row of `node_metrics`. A post may be served after the
agent has given it up, and its answer may be lost.
-/

namespace PowerBlockade.Sync
open Lib PowerBlockade.Primary

/-- A row of `metrics_queue`. -/
structure Queued where
  id : Nat
  timestamp : DateTime
  metrics : MetricsRequest
deriving DecidableEq

/-- `metrics_queue` with its AUTOINCREMENT. -/
structure MetricsBuffer where
  rows : List Queued
  lastId : Nat
  maxAgeSeconds : Int

namespace MetricsBuffer

def put (buffer : MetricsBuffer) (metrics : MetricsRequest) (timestamp : DateTime) : MetricsBuffer :=
  { buffer with
    rows := buffer.rows ++ [⟨buffer.lastId + 1, timestamp, metrics⟩]
    lastId := buffer.lastId + 1 }

/-- The caller gets the id and the metrics of each row. -/
def peek (buffer : MetricsBuffer) (limit : Nat) : List Queued := buffer.rows.take limit

def delete (buffer : MetricsBuffer) (itemIds : List Nat) : MetricsBuffer :=
  { buffer with rows := buffer.rows.filter (·.id ∉ itemIds) }

def prune (buffer : MetricsBuffer) (now : DateTime) : MetricsBuffer :=
  if buffer.maxAgeSeconds ≤ 0 then buffer
  else { buffer with
    rows := buffer.rows.filter fun row =>
      (now.micros : Int) - buffer.maxAgeSeconds * secondMicros ≤ row.timestamp.micros }

end MetricsBuffer

/-- A request on its way; the body is `item.metrics` alone. `status`: whether it was accepted, once
the primary has served it. -/
structure Post where
  item : Queued
  status : Option Bool
deriving DecidableEq

structure Stored where
  scraped : DateTime
  row : NodeMetrics
deriving DecidableEq

structure Replay where
  now : DateTime
  buffer : MetricsBuffer
  pending : List Queued
  waiting : Option Nat
  idsToDelete : List Nat
  posts : List Post
  primary : Database
  stored : List Stored

namespace Replay

inductive Event
  | scrape (metrics : MetricsRequest)
  | peek
  | post
  | serve (post : Nat)
  | answer
  | giveUp
  | delete
  | prune
  | restart

structure Timed where
  time : DateTime
  event : Event

def stop (w : Replay) : Replay := { w with pending := [], waiting := none }

def serve (key : Option String) (w : Replay) (i : Nat) (post : Post) : Replay :=
  match Primary.metrics w.primary key post.item.metrics w.now with
  | .error _ => { w with posts := w.posts.set i { post with status := some false } }
  | .ok after =>
      { w with
        primary := after
        posts := w.posts.set i { post with status := some true }
        stored := w.stored ++ (after.metrics.drop w.primary.metrics.length).map fun row =>
          ⟨post.item.timestamp, row⟩ }

/-- A turn that is not the agent's next changes nothing. -/
def step (key : Option String) (w : Replay) (timed : Timed) : Replay :=
  let w := { w with now := timed.time }
  match timed.event, w.waiting, w.pending with
  | .scrape metrics, _, _ => { w with buffer := w.buffer.put metrics w.now }
  | .peek, none, [] => { w with pending := w.buffer.peek 50 }
  | .post, none, item :: _ => { w with posts := w.posts ++ [⟨item, none⟩], waiting := some w.posts.length }
  | .serve i, _, _ => match w.posts[i]? with
      | some ⟨item, none⟩ => serve key w i ⟨item, none⟩
      | _ => w
  | .answer, some i, item :: rest => match w.posts[i]?.bind (·.status) with
      | none => w
      | some true => { w with pending := rest, waiting := none, idsToDelete := w.idsToDelete ++ [item.id] }
      | some false => w.stop
  | .giveUp, _, _ => w.stop
  | .delete, none, [] => { w with buffer := w.buffer.delete w.idsToDelete, idsToDelete := [] }
  | .prune, _, _ => { w with buffer := w.buffer.prune w.now }
  | .restart, _, _ => { w.stop with idsToDelete := [] }
  | _, _, _ => w

def start (now : DateTime) (maxAgeSeconds : Int) (primary : Database) : Replay :=
  { now, primary, buffer := ⟨[], 0, maxAgeSeconds⟩, pending := [], waiting := none, idsToDelete := [],
    posts := [], stored := [] }

/-- Rows carry the time of their scrape, and so are in its order and as far apart. -/
structure KeepsTime (w : Replay) : Prop where
  times : ∀ s ∈ w.stored, s.row.ts = s.scraped
  ordered : ∀ s ∈ w.stored, ∀ t ∈ w.stored, s.scraped < t.scraped → s.row.ts < t.row.ts
  elapsed : ∀ s ∈ w.stored, ∀ t ∈ w.stored,
    (t.row.ts.micros : Int) - s.row.ts.micros = t.scraped.micros - s.scraped.micros

/-- The primary knows the node, and the columns take the counters. -/
def Accepts (key : Option String) (db : Database) (metrics : MetricsRequest) : Prop :=
  (∃ node, db.getNodeFromApiKey key = .ok node) ∧ metrics.fits = true

/-- An accepted request is served at the instant of its scrape. -/
def Instant (key : Option String) (w : Replay) (timed : Timed) : Prop :=
  match timed.event with
  | .serve i => ∀ item, w.posts[i]? = some ⟨item, none⟩ → Accepts key w.primary item.metrics →
      timed.time = item.timestamp
  | _ => True

/-! ## What one request stores -/

variable {key : Option String} {w : Replay}

theorem keepsTime_iff : w.KeepsTime ↔ ∀ s ∈ w.stored, s.row.ts = s.scraped := by
  constructor
  · exact KeepsTime.times
  · intro times
    refine ⟨times, fun s first t second before => ?_, fun s first t second => ?_⟩
    · rw [times s first, times t second]
      exact before
    · rw [times s first, times t second]

theorem metrics_ok {db after : Database} {payload : MetricsRequest} {now : DateTime}
    (accepted : Primary.metrics db key payload now = .ok after) :
    Accepts key db payload ∧ ∃ nodeId, after.metrics = db.metrics ++ [⟨nodeId, now, payload⟩] := by
  simp only [Primary.metrics, bind, Except.bind] at accepted
  split at accepted
  · contradiction
  · rename_i node found
    split at accepted
    · rename_i fits
      exact ⟨⟨⟨node, found⟩, fits⟩, node.id, by rw [(Database.saveNode_eq_ok accepted).2]⟩
    · contradiction

theorem metrics_isOk {db : Database} {payload : MetricsRequest} (accepts : Accepts key db payload)
    (now : DateTime) : ∃ after, Primary.metrics db key payload now = .ok after := by
  obtain ⟨⟨node, found⟩, fits⟩ := accepts
  have member := (Database.getNodeFromApiKey_eq_ok.1 found).1
  have storable := db.nodes.wellFormed.storable node member
  obtain ⟨nodes, saved⟩ := Option.isSome_iff_exists.1
    ((NodeTable.save_isSome_of_name { node with lastSeen := some now, status := .active }
      member rfl rfl rfl).2 storable)
  simp [Primary.metrics, found, fits, Database.saveNode, saved, bind, Except.bind]

theorem stored_serve (key : Option String) (w : Replay) (i : Nat) (item : Queued) :
    (serve key w i ⟨item, none⟩).stored = w.stored ∧ ¬ Accepts key w.primary item.metrics ∨
    ∃ nodeId, (serve key w i ⟨item, none⟩).stored =
      w.stored ++ [⟨item.timestamp, ⟨nodeId, w.now, item.metrics⟩⟩] ∧ Accepts key w.primary item.metrics := by
  unfold serve
  cases result : Primary.metrics w.primary key item.metrics w.now with
  | error failure =>
      refine Or.inl ⟨rfl, fun accepts => ?_⟩
      obtain ⟨after, ok⟩ := metrics_isOk accepts w.now
      rw [result] at ok
      contradiction
  | ok after =>
      obtain ⟨accepts, nodeId, rows⟩ := metrics_ok result
      exact Or.inr ⟨nodeId, by simp [rows], accepts⟩

theorem stored_step (timed : Timed) (other : ∀ i item, timed.event = .serve i →
    w.posts[i]? ≠ some ⟨item, none⟩) : (w.step key timed).stored = w.stored := by
  obtain ⟨time, event⟩ := timed
  unfold step
  dsimp only
  split
  all_goals try rfl
  · split
    · rename_i found
      exact absurd found (other _ _ rfl)
    · rfl
  · split <;> rfl

theorem step_serve {time : DateTime} {i : Nat} {item : Queued} (found : w.posts[i]? = some ⟨item, none⟩) :
    w.step key ⟨time, .serve i⟩ = serve key { w with now := time } i ⟨item, none⟩ := by
  simp [step, found]

theorem keepsTime_step_iff (timed : Timed) (keeps : w.KeepsTime) :
    (w.step key timed).KeepsTime ↔ w.Instant key timed := by
  rw [keepsTime_iff] at keeps ⊢
  obtain ⟨time, event⟩ := timed
  by_cases serving : ∃ i item, event = .serve i ∧ w.posts[i]? = some ⟨item, none⟩
  · obtain ⟨i, item, rfl, found⟩ := serving
    rw [step_serve found]
    rcases stored_serve key { w with now := time } i item with ⟨same, refused⟩ | ⟨nodeId, added, accepts⟩
    · rw [same]
      refine iff_of_true keeps fun other there accepts => ?_
      obtain rfl : item = other := by simpa [found] using there
      exact absurd accepts refused
    · rw [added]
      constructor
      · intro times other there _
        obtain rfl : item = other := by simpa [found] using there
        exact times _ (List.mem_append_right _ (List.mem_singleton_self _))
      · intro instant s member
        rcases List.mem_append.mp member with old | new
        · exact keeps s old
        · rw [List.mem_singleton.mp new]
          exact instant item found accepts
  · rw [stored_step ⟨time, event⟩ fun i item same found => serving ⟨i, item, same, found⟩]
    refine iff_of_true keeps ?_
    cases event with
    | serve i => exact fun item found => absurd ⟨i, item, rfl, found⟩ serving
    | _ => trivial

/-- Rows keep the times of their scrapes exactly as far as each request that is accepted is served at
the instant of its scrape. -/
theorem keepsTime_run_iff (key : Option String) (now : DateTime) (maxAgeSeconds : Int) (primary : Database)
    (run : List Timed) :
    (∀ w ∈ visited (step key) (start now maxAgeSeconds primary) run, w.KeepsTime) ↔
      Along (step key) (Instant key) (start now maxAgeSeconds primary) run :=
  forall_visited_iff_along (I := fun _ => True) trivial (fun _ _ _ => trivial)
    (keepsTime_iff.mpr fun _ member => absurd member List.not_mem_nil)
    fun _ timed _ keeps => keepsTime_step_iff timed keeps

/-- The primary is away for a minute after the scrape. -/
def outage : List Timed :=
  let counters : MetricsRequest := ⟨10, 2, 5, 0, 0, 0, 0, 0, 0, 0, 0, 0, 0, 0, 12, 2, 600⟩
  [⟨minute 0, .scrape counters⟩, ⟨minute 0, .peek⟩, ⟨minute 0, .post⟩, ⟨minute 0, .giveUp⟩,
    ⟨minute 1, .peek⟩, ⟨minute 1, .post⟩, ⟨minute 1, .serve 1⟩]

theorem outage_moves_row : ¬ ∀ w ∈ visited (step (some "edge-key"))
    (start (minute 0) 604800 (office .active none)) outage, w.KeepsTime := by
  intro keeps
  let w := outage.foldl (step (some "edge-key")) (start (minute 0) 604800 (office .active none))
  have stored : w.stored.map (fun s => (s.scraped, s.row.ts)) = [(minute 0, minute 1)] := by decide +kernel
  obtain ⟨s, rest, found, times, -⟩ := List.map_eq_cons_iff.mp stored
  have same := (keeps w (foldl_mem_visited _ outage)).times s (by rw [found]; exact List.mem_cons_self)
  rw [Prod.mk.injEq] at times
  rw [times.1, times.2] at same
  exact absurd same (by decide +kernel)

end Replay

end PowerBlockade.Sync
