import Mathlib.Data.List.Sort
import PowerBlockade.Lib.Lists
import PowerBlockade.Lib.Run
import PowerBlockade.Time

/-!
# The queue between the agent and the primary

`metrics_queue` with whatever texts are in it, the loop that pushes what it can decode, and what has
become of each row.
-/

namespace PowerBlockade.Sync.Queue
open Lib

/-! ## The table -/

structure Row where
  id : Nat
  timestamp : Int
  text : String
deriving DecidableEq

/-- AUTOINCREMENT gives out ids above all that it has given out. -/
structure Buffer where
  rows : List Row
  lastId : Nat
  ordered : rows.Pairwise fun row later => row.id < later.id
  bounded : ∀ row ∈ rows, row.id ≤ lastId

namespace Buffer

def put (buffer : Buffer) (text : String) (timestamp : Int) : Buffer where
  rows := buffer.rows ++ [⟨buffer.lastId + 1, timestamp, text⟩]
  lastId := buffer.lastId + 1
  ordered := by
    refine List.pairwise_append.2 ⟨buffer.ordered, List.pairwise_singleton _ _, ?_⟩
    intro row old new member
    rw [List.mem_singleton.1 member]
    exact Nat.lt_succ_of_le (buffer.bounded row old)
  bounded row member := by
    cases List.mem_append.1 member with
    | inl old => exact Nat.le_succ_of_le (buffer.bounded row old)
    | inr new => rw [List.mem_singleton.1 new]

def filter (buffer : Buffer) (keeps : Row → Bool) : Buffer where
  rows := buffer.rows.filter keeps
  lastId := buffer.lastId
  ordered := buffer.ordered.filter keeps
  bounded row member := buffer.bounded row (List.mem_filter.1 member).1

variable {Metrics : Type}

/-- What a caller of `peek` gets for a row, if `json.loads` takes its text. -/
def decoded (loads : String → Option Metrics) (row : Row) : Option (Nat × Metrics) :=
  (loads row.text).map fun metrics => (row.id, metrics)

def peek (loads : String → Option Metrics) (limit : Nat) (buffer : Buffer) : List (Nat × Metrics) :=
  (buffer.rows.take limit).filterMap (decoded loads)

def delete (buffer : Buffer) (itemIds : List Nat) : Buffer :=
  buffer.filter fun row => decide (row.id ∉ itemIds)

def tooOld (maxAgeSeconds now : Int) (row : Row) : Bool :=
  decide (0 < maxAgeSeconds) && decide (row.timestamp < now - maxAgeSeconds * secondMicros)

def prune (maxAgeSeconds now : Int) (buffer : Buffer) : Buffer :=
  if maxAgeSeconds ≤ 0 then buffer
  else buffer.filter fun row => !decide (row.timestamp < now - maxAgeSeconds * secondMicros)

end Buffer

/-! ## The agent -/

/-- How the push of one item ends: a status below 300, another status, an exception before the
primary took the item, or after it. -/
inductive Outcome
  | answered
  | refused
  | failed
  | lost
deriving DecidableEq

inductive Event
  | put (text : String) (timestamp : Int)
  | peek
  | push (outcome : Outcome)
  | delete
  | prune (now : Int)
  | restart

variable {Metrics : Type}

structure World (Metrics : Type) where
  buffer : Buffer
  /-- What is left of the last `peek`. -/
  pending : List (Nat × Metrics)
  idsToDelete : List Nat
  /-- The ids for which a status below 300 came back. -/
  accepted : List Nat
  /-- The ids that the primary has taken, each when it took it first. -/
  delivered : List Nat

namespace World

def start (buffer : Buffer) : World Metrics := ⟨buffer, [], [], [], []⟩

def deliver (delivered : List Nat) (id : Nat) : List Nat :=
  if id ∈ delivered then delivered else delivered ++ [id]

/-- The first push that fails ends the loop. -/
def push (world : World Metrics) (outcome : Outcome) : World Metrics :=
  match world.pending with
  | [] => world
  | (id, _) :: rest =>
      match outcome with
      | .answered =>
          { world with
            pending := rest
            idsToDelete := world.idsToDelete ++ [id]
            accepted := id :: world.accepted
            delivered := deliver world.delivered id }
      | .refused => { world with pending := [] }
      | .failed => { world with pending := [] }
      | .lost => { world with pending := [], delivered := deliver world.delivered id }

variable (loads : String → Option Metrics) (limit : Nat) (maxAgeSeconds : Int)

def step (world : World Metrics) : Event → World Metrics
  | .put text timestamp => { world with buffer := world.buffer.put text timestamp }
  | .peek => { world with pending := world.buffer.peek loads limit }
  | .push outcome => world.push outcome
  | .delete => { world with buffer := world.buffer.delete world.idsToDelete, idsToDelete := [] }
  | .prune now => { world with buffer := world.buffer.prune maxAgeSeconds now }
  | .restart => { world with pending := [], idsToDelete := [] }

/-! ## What the queue is for -/

/-- A row goes after an answer for it, or because `prune` found it too old. -/
def RemovedFor (world : World Metrics) (event : Event) (row : Row) : Prop :=
  row.id ∈ world.accepted ∨ ∃ now, event = .prune now ∧ Buffer.tooOld maxAgeSeconds now row = true

/-- `peek` begins with the oldest row that can be decoded. -/
def Unstarved (world : World Metrics) : Event → Prop
  | .peek => ∀ oldest ∈ world.buffer.rows.findSome? (Buffer.decoded loads),
      (world.buffer.peek loads limit).head? = some oldest
  | _ => True

structure Reliable (world : World Metrics) (event : Event) : Prop where
  removed : ∀ row ∈ world.buffer.rows, row ∉ (step loads limit maxAgeSeconds world event).buffer.rows →
    RemovedFor maxAgeSeconds world event row
  ordered : (step loads limit maxAgeSeconds world event).delivered.Pairwise (· < ·)
  unstarved : Unstarved loads limit world event

/-- The rows before the oldest that can be decoded leave it a place in the result. -/
def Unblocked (world : World Metrics) : Event → Prop
  | .peek => (world.buffer.rows.findSome? (Buffer.decoded loads)).isSome = true →
      (world.buffer.rows.takeWhile fun row => (loads row.text).isNone).length < limit
  | _ => True

/-! ## Why rows are delivered in their order -/

/-- Nothing that can be decoded and is still queued is passed over. -/
structure Fifo (world : World Metrics) : Prop where
  deletable : ∀ id ∈ world.idsToDelete, id ∈ world.accepted
  pending_bounded : ∀ item ∈ world.pending, item.1 ≤ world.buffer.lastId
  delivered_bounded : ∀ id ∈ world.delivered, id ≤ world.buffer.lastId
  pending_ordered : world.pending.Pairwise fun item later => item.1 < later.1
  delivered_ordered : world.delivered.Pairwise (· < ·)
  before_delivered : ∀ row ∈ world.buffer.rows, (loads row.text).isSome = true →
    ∀ id ∈ world.delivered, row.id < id → row.id ∈ world.delivered
  before_pending : ∀ row ∈ world.buffer.rows, (loads row.text).isSome = true →
    ∀ item ∈ world.pending, row.id < item.1 →
      row.id ∈ world.delivered ∨ ∃ other ∈ world.pending, other.1 = row.id
  pending_delivered : ∀ item ∈ world.pending, ∀ id ∈ world.delivered, item.1 < id →
    item.1 ∈ world.delivered

variable {loads limit maxAgeSeconds} {world : World Metrics}

theorem start_fifo (buffer : Buffer) : Fifo loads (start buffer : World Metrics) where
  deletable := by simp [start]
  pending_bounded := by simp [start]
  delivered_bounded := by simp [start]
  pending_ordered := List.Pairwise.nil
  delivered_ordered := List.Pairwise.nil
  before_delivered := by simp [start]
  before_pending := by simp [start]
  pending_delivered := by simp [start]

/-- Rows may go, and come with ids above all others. -/
theorem Fifo.withBuffer (fifo : Fifo loads world) {buffer : Buffer}
    (grows : world.buffer.lastId ≤ buffer.lastId)
    (known : ∀ row ∈ buffer.rows, row ∈ world.buffer.rows ∨ world.buffer.lastId < row.id) :
    Fifo loads { world with buffer := buffer } where
  deletable := fifo.deletable
  pending_bounded item member := (fifo.pending_bounded item member).trans grows
  delivered_bounded id member := (fifo.delivered_bounded id member).trans grows
  pending_ordered := fifo.pending_ordered
  delivered_ordered := fifo.delivered_ordered
  before_delivered row member decodable id taken before := by
    cases known row member with
    | inl old => exact fifo.before_delivered row old decodable id taken before
    | inr new =>
        have bound := fifo.delivered_bounded id taken
        exact absurd (new.trans before) (Nat.not_lt_of_le bound)
  before_pending row member decodable item waits before := by
    cases known row member with
    | inl old => exact fifo.before_pending row old decodable item waits before
    | inr new =>
        have bound := fifo.pending_bounded item waits
        exact absurd (new.trans before) (Nat.not_lt_of_le bound)
  pending_delivered := fifo.pending_delivered

/-- The loop is left, and the ids that it has collected may be forgotten. -/
theorem Fifo.stop (fifo : Fifo loads world) {ids : List Nat} (forgets : ids ⊆ world.idsToDelete) :
    Fifo loads { world with pending := [], idsToDelete := ids } where
  deletable id member := fifo.deletable id (forgets member)
  pending_bounded := by simp
  delivered_bounded := fifo.delivered_bounded
  pending_ordered := List.Pairwise.nil
  delivered_ordered := fifo.delivered_ordered
  before_delivered := fifo.before_delivered
  before_pending := by simp
  pending_delivered := by simp

theorem mem_deliver {delivered : List Nat} {id other : Nat} :
    other ∈ deliver delivered id ↔ other = id ∨ other ∈ delivered := by
  unfold deliver
  split
  · rename_i taken
    exact (or_iff_right_of_imp fun same => same ▸ taken).symm
  · simp [or_comm]

theorem deliver_ordered {delivered : List Nat} {id : Nat} (ordered : delivered.Pairwise (· < ·))
    (behind : ∀ other ∈ delivered, id < other → id ∈ delivered) :
    (deliver delivered id).Pairwise (· < ·) := by
  unfold deliver
  split
  · exact ordered
  · rename_i new
    refine List.pairwise_append.2 ⟨ordered, List.pairwise_singleton _ _, ?_⟩
    intro other taken last member
    rw [List.mem_singleton.1 member]
    have different : other ≠ id := fun same => new (same ▸ taken)
    exact lt_of_le_of_ne (not_lt.1 fun before => new (behind other taken before)) different

/-- The head of what is pending is taken by the primary. -/
theorem Fifo.deliver (fifo : Fifo loads world) {id : Nat} {metrics : Metrics} {rest : List (Nat × Metrics)}
    (next : world.pending = (id, metrics) :: rest) {ids accepted : List Nat}
    (deletable : ∀ other ∈ ids, other ∈ accepted) :
    Fifo loads { world with
      pending := rest, idsToDelete := ids, accepted := accepted
      delivered := World.deliver world.delivered id } := by
  have head : (id, metrics) ∈ world.pending := next ▸ List.mem_cons_self
  have tail : ∀ item ∈ rest, item ∈ world.pending := fun item member =>
    next ▸ List.mem_cons_of_mem _ member
  have ordered := next ▸ fifo.pending_ordered
  have first := List.pairwise_cons.1 ordered
  refine ⟨deletable, fun item member => fifo.pending_bounded item (tail item member), ?_, first.2, ?_, ?_, ?_, ?_⟩
  · intro other taken
    cases mem_deliver.1 taken with
    | inl same => exact same ▸ fifo.pending_bounded _ head
    | inr old => exact fifo.delivered_bounded other old
  · exact deliver_ordered fifo.delivered_ordered (fifo.pending_delivered _ head)
  · intro row member decodable other taken before
    apply mem_deliver.2
    cases mem_deliver.1 taken with
    | inr old => exact Or.inr (fifo.before_delivered row member decodable other old before)
    | inl same =>
        cases fifo.before_pending row member decodable _ head (same ▸ before) with
        | inl old => exact Or.inr old
        | inr waits =>
            -- nothing that is pending comes before its head
            obtain ⟨item, waiting, same'⟩ := waits
            rw [next] at waiting
            cases List.mem_cons.1 waiting with
            | inl isHead => exact Or.inl (by rw [← same', isHead])
            | inr later =>
                have after := first.1 item later
                rw [same'] at after
                exact absurd (same ▸ before) (Nat.lt_asymm after)
  · intro row member decodable item waiting before
    cases fifo.before_pending row member decodable item (tail item waiting) before with
    | inl old => exact Or.inl (mem_deliver.2 (Or.inr old))
    | inr waits =>
        obtain ⟨other, there, same⟩ := waits
        rw [next] at there
        cases List.mem_cons.1 there with
        | inl isHead => exact Or.inl (mem_deliver.2 (Or.inl (by rw [← same, isHead])))
        | inr later => exact Or.inr ⟨other, later, same⟩
  · intro item waiting other taken before
    apply mem_deliver.2
    cases mem_deliver.1 taken with
    | inr old => exact Or.inr (fifo.pending_delivered item (tail item waiting) other old before)
    | inl same => exact absurd (same ▸ before) (Nat.lt_asymm (first.1 item waiting))

theorem mem_peek {buffer : Buffer} {item : Nat × Metrics} (member : item ∈ buffer.peek loads limit) :
    ∃ row ∈ buffer.rows.take limit, row.id = item.1 ∧ (loads row.text).isSome = true := by
  obtain ⟨row, there, same⟩ := List.mem_filterMap.1 member
  obtain ⟨metrics, loaded, rfl⟩ := Option.map_eq_some_iff.1 same
  exact ⟨row, there, rfl, by rw [loaded]; rfl⟩

/-- What is older than a row of the result is among the rows that `peek` looks at. -/
theorem mem_take_of_lt {buffer : Buffer} {row later : Row} (member : row ∈ buffer.rows)
    (taken : later ∈ buffer.rows.take limit) (before : row.id < later.id) :
    row ∈ buffer.rows.take limit := by
  have ordered := buffer.ordered
  rw [← List.take_append_drop limit buffer.rows] at ordered member
  cases List.mem_append.1 member with
  | inl here => exact here
  | inr left =>
      have after := (List.pairwise_append.1 ordered).2.2 later taken row left
      exact absurd before (Nat.lt_asymm after)

theorem peek_ordered (buffer : Buffer) :
    (buffer.peek loads limit).Pairwise fun item later => item.1 < later.1 := by
  have ordered := buffer.ordered.sublist (List.take_sublist limit buffer.rows)
  refine List.pairwise_filterMap.2 (ordered.imp fun before item same other same' => ?_)
  obtain ⟨_, -, rfl⟩ := Option.map_eq_some_iff.1 same
  obtain ⟨_, -, rfl⟩ := Option.map_eq_some_iff.1 same'
  exact before

theorem Fifo.peek (fifo : Fifo loads world) :
    Fifo loads { world with pending := world.buffer.peek loads limit } where
  deletable := fifo.deletable
  pending_bounded item member := by
    obtain ⟨row, there, same, -⟩ := mem_peek member
    exact same ▸ world.buffer.bounded row (List.mem_of_mem_take there)
  delivered_bounded := fifo.delivered_bounded
  pending_ordered := peek_ordered world.buffer
  delivered_ordered := fifo.delivered_ordered
  before_delivered := fifo.before_delivered
  before_pending row member decodable item waits before := by
    obtain ⟨later, there, same, -⟩ := mem_peek waits
    obtain ⟨metrics, loaded⟩ := Option.isSome_iff_exists.1 decodable
    have taken := mem_take_of_lt member there (same ▸ before)
    exact Or.inr ⟨(row.id, metrics), List.mem_filterMap.2 ⟨row, taken, by simp [Buffer.decoded, loaded]⟩, rfl⟩
  pending_delivered item waits id taken before := by
    obtain ⟨row, there, same, decodable⟩ := mem_peek waits
    rw [← same] at before ⊢
    exact fifo.before_delivered row (List.mem_of_mem_take there) decodable id taken before

theorem Fifo.push (fifo : Fifo loads world) (outcome : Outcome) : Fifo loads (world.push outcome) := by
  unfold World.push
  cases waiting : world.pending with
  | nil => exact fifo
  | cons item rest =>
      obtain ⟨id, metrics⟩ := item
      cases outcome with
      | answered =>
          apply fifo.deliver waiting
          intro other collected
          cases List.mem_append.1 collected with
          | inl old => exact List.mem_cons_of_mem _ (fifo.deletable other old)
          | inr new => exact List.mem_singleton.1 new ▸ List.mem_cons_self
      | refused => exact fifo.stop (List.Subset.refl _)
      | failed => exact fifo.stop (List.Subset.refl _)
      | lost => exact (fifo.deliver waiting fifo.deletable).stop (List.Subset.refl _)

theorem Fifo.filter (fifo : Fifo loads world) (keeps : Row → Bool) :
    Fifo loads { world with buffer := world.buffer.filter keeps } :=
  fifo.withBuffer (le_refl _) fun _ member => Or.inl (List.mem_filter.1 member).1

theorem Fifo.step (fifo : Fifo loads world) (event : Event) :
    Fifo loads (step loads limit maxAgeSeconds world event) := by
  cases event with
  | put text timestamp =>
      apply fifo.withBuffer (Nat.le_succ _)
      intro row member
      refine (List.mem_append.1 member).imp_right fun new => ?_
      rw [List.mem_singleton.1 new]
      exact Nat.lt_succ_self _
  | peek => exact fifo.peek
  | push outcome => exact fifo.push outcome
  | delete =>
      have kept := fifo.filter fun row => decide (row.id ∉ world.idsToDelete)
      exact { kept with deletable := by simp [World.step] }
  | prune now =>
      simp only [World.step, Buffer.prune]
      split
      · exact fifo
      · exact fifo.filter _
  | restart => exact fifo.stop (List.nil_subset _)

/-! ## What removes rows -/

theorem buffer_push (outcome : Outcome) : (world.push outcome).buffer = world.buffer := by
  unfold World.push
  cases world.pending with
  | nil => rfl
  | cons item rest => cases outcome <;> rfl

theorem Fifo.removedFor (fifo : Fifo loads world) (event : Event) {row : Row}
    (member : row ∈ world.buffer.rows)
    (gone : row ∉ (World.step loads limit maxAgeSeconds world event).buffer.rows) :
    RemovedFor maxAgeSeconds world event row := by
  cases event with
  | put text timestamp => exact absurd (List.mem_append_left _ member) gone
  | peek => exact absurd member gone
  | push outcome =>
      simp only [World.step, buffer_push] at gone
      exact absurd member gone
  | delete =>
      by_cases collected : row.id ∈ world.idsToDelete
      · exact Or.inl (fifo.deletable row.id collected)
      · exact absurd (List.mem_filter.2 ⟨member, decide_eq_true collected⟩) gone
  | prune now =>
      refine Or.inr ⟨now, rfl, ?_⟩
      simp only [World.step, Buffer.prune] at gone
      split at gone
      · exact absurd member gone
      · rename_i limited
        have old : row.timestamp < now - maxAgeSeconds * secondMicros := by
          by_contra young
          exact gone (List.mem_filter.2 ⟨member, by simp [young]⟩)
        simp [Buffer.tooOld, old, not_le.1 limited]
  | restart => exact absurd member gone

/-! ## What a result begins with -/

theorem unstarved_iff (event : Event) : Unstarved loads limit world event ↔ Unblocked loads limit world event := by
  cases event with
  | peek =>
      have blank : (fun row : Row => (loads row.text).isNone) =
          fun row => (Buffer.decoded loads row).isNone := by
        funext row
        exact Option.isNone_map.symm
      simp only [Unstarved, Unblocked, Buffer.peek, List.head?_filterMap, blank]
      cases found : world.buffer.rows.findSome? (Buffer.decoded loads) with
      | none => simp
      | some oldest => simp [findSome?_take_iff found]
  | put text timestamp => exact Iff.rfl
  | push outcome => exact Iff.rfl
  | delete => exact Iff.rfl
  | prune now => exact Iff.rfl
  | restart => exact Iff.rfl

/-! ## Over all runs -/

theorem Fifo.reliable_iff (fifo : Fifo loads world) (event : Event) :
    Reliable loads limit maxAgeSeconds world event ↔ Unblocked loads limit world event := by
  rw [← unstarved_iff]
  constructor
  · intro reliable
    exact reliable.unstarved
  · intro unstarved
    exact ⟨fun _ member gone => fifo.removedFor event member gone, (fifo.step event).delivered_ordered, unstarved⟩

/-- As `json.loads` does with the texts below. -/
def loadsNonempty (text : String) : Option String := if text = "" then none else some text

def fiftyEmpty : Buffer where
  rows := (List.range 50).map (fun i => ⟨i + 1, 1700000000000000, ""⟩) ++ [⟨51, 1700000000000000, "1"⟩]
  lastId := 51
  ordered := by decide +kernel
  bounded := by decide +kernel

end World
end PowerBlockade.Sync.Queue
