import PowerBlockade.Processor.Spool

/-!
# Writers beside the consumer of the buffer

`Put` draws its number before its transaction and `PutBatch` inside of it. One transaction writes at a
time, and a reader sees what is committed.
-/

namespace PowerBlockade.Processor.Acknowledgement
open Lib

inductive Consumer
  | idle
  | peeked (batch : List Event)
  | shipped (batch : List Event)

/-- The open transaction of a `PutBatch`. -/
structure Writing where
  pending : List Event
  numbered : List Event

structure State where
  buffer : Buffer
  -- the calls of `Put` between `NextSeq` and their transaction
  putting : List Event
  writer : Option Writing
  consumer : Consumer
  -- the events in the bucket that were stored since the last peek
  since : List Event

inductive Label
  | nextSeq (ev : Event)
  | put (call : Nat) (fails : Bool)
  | lock (events : List Event)
  | number
  | commit (fails : Bool)
  | peek (limit : Nat)
  | ship (accepted : Bool)
  | delete (fails : Bool)

namespace State

def storeEvent (s : State) (ev : Event) : State :=
  { s with
    buffer := { s.buffer with bucket := s.buffer.bucket.put ev.eventSeq (some ev.marshal) }
    since := s.since.filter (·.eventSeq ≠ ev.eventSeq) ++ [ev] }

def nextSeq (s : State) (ev : Event) : State :=
  { s with
    buffer := s.buffer.draw 1
    putting := s.putting ++ [{ ev with eventSeq := s.buffer.nextSeq }] }

def put (s : State) (call : Nat) (fails : Bool) : State :=
  match s.writer, s.putting[call]? with
  | none, some ev =>
      let returned := { s with putting := s.putting.eraseIdx call }
      if fails then returned else returned.storeEvent ev
  | _, _ => s

def lock (s : State) (events : List Event) : State :=
  if s.writer.isNone then { s with writer := some ⟨events, []⟩ } else s

def number (s : State) : State :=
  match s.writer with
  | some ⟨ev :: rest, numbered⟩ => { s with
      buffer := s.buffer.draw 1
      writer := some ⟨rest, numbered ++ [{ ev with eventSeq := s.buffer.nextSeq }]⟩ }
  | _ => s

/-- A transaction that fails is rolled back, wherever it is. -/
def commit (s : State) (fails : Bool) : State :=
  if fails then { s with writer := none }
  else match s.writer with
    | some ⟨[], numbered⟩ => numbered.foldl storeEvent { s with writer := none }
    | _ => s

def peek (s : State) (limit : Nat) : State :=
  match s.consumer, s.buffer.peek limit with
  | .idle, first :: rest => { s with consumer := .peeked (first :: rest), since := [] }
  | _, _ => s

def ship (s : State) (accepted : Bool) : State :=
  match s.consumer with
  | .peeked batch => { s with consumer := if accepted then .shipped batch else .idle }
  | _ => s

def delete (s : State) (fails : Bool) : State :=
  match s.writer, s.consumer with
  | none, .shipped batch =>
      match batch.getLast? with
      | some last => { s with
          consumer := .idle
          buffer := if fails then s.buffer else s.buffer.delete last.eventSeq }
      | none => s
  | _, _ => s

end State

def step (s : State) : Label → State
  | .nextSeq ev => s.nextSeq ev
  | .put call fails => s.put call fails
  | .lock events => s.lock events
  | .number => s.number
  | .commit fails => s.commit fails
  | .peek limit => s.peek limit
  | .ship accepted => s.ship accepted
  | .delete fails => s.delete fails

def start (file : Bucket) (maxAge : Int) : State := ⟨Buffer.open file maxAge, [], none, .idle, []⟩

/-- What a delete removes was shipped with the batch, or cannot be decoded. -/
def Acknowledged (s : State) : Label → Prop
  | .delete fails => ∀ entry ∈ s.buffer.bucket, entry ∉ (s.delete fails).buffer.bucket →
      decode entry.2 = none ∨
        ∃ batch ev, s.consumer = .shipped batch ∧ ev ∈ batch ∧ decode entry.2 = some ev
  | _ => True

/-- What a delete finds stored since the peek has numbers beyond the last one peeked. An event in the
batch itself can only be met again after the counter has wrapped around. -/
def InOrder (s : State) : Label → Prop
  | .delete false => s.writer = none → ∀ batch last, s.consumer = .shipped batch →
      batch.getLast? = some last → ∀ ev ∈ s.since, last.eventSeq < ev.eventSeq ∨ ev ∈ batch
  | _ => True

/-! ## What the consumer holds -/

def Consumer.batch : Consumer → List Event
  | idle => []
  | peeked batch | shipped batch => batch

structure Held (s : State) : Prop where
  own : ∀ entry ∈ s.buffer.bucket, ∀ ev, decode entry.2 = some ev → ev.eventSeq = entry.1
  stored : ∀ last, s.consumer.batch.getLast? = some last → ∀ ev ∈ s.since, entryOf ev ∈ s.buffer.bucket
  covered : ∀ last, s.consumer.batch.getLast? = some last → ∀ entry ∈ s.buffer.bucket,
    (∃ ev ∈ s.since, entryOf ev = entry) ∨
      ∀ ev, decode entry.2 = some ev → entry.1 ≤ last.eventSeq → ev ∈ s.consumer.batch

variable {s : State}

theorem held_start {file : Bucket} (maxAge : Int)
    (own : ∀ entry ∈ file, ∀ ev, decode entry.2 = some ev → ev.eventSeq = entry.1) :
    Held (start file maxAge) where
  own := own
  stored := fun _ final => by contradiction
  covered := fun _ final => by contradiction

theorem mem_storeEvent (ev : Event) {entry : Nat × Stored} :
    entry ∈ (s.storeEvent ev).buffer.bucket ↔
      entry = entryOf ev ∨ entry ∈ s.buffer.bucket ∧ entry.1 ≠ ev.eventSeq :=
  OrderedMap.mem_put

theorem mem_since {ev other : Event} :
    other ∈ (s.storeEvent ev).since ↔ other = ev ∨ other ∈ s.since ∧ other.eventSeq ≠ ev.eventSeq := by
  simp only [State.storeEvent, List.mem_append, List.mem_filter, decide_eq_true_eq, List.mem_singleton]
  exact or_comm

theorem Held.storeEvent (held : Held s) (ev : Event) : Held (s.storeEvent ev) where
  own := by
    intro entry member found decoded
    rcases (mem_storeEvent ev).1 member with rfl | ⟨old, -⟩
    · rw [entryOf, Buffer.decode_marshal, Option.some.injEq] at decoded
      rw [← decoded, entryOf]
    · exact held.own entry old found decoded
  stored := by
    intro last final other since
    rcases mem_since.1 since with rfl | ⟨old, apart⟩
    · exact (mem_storeEvent other).2 (Or.inl rfl)
    · exact (mem_storeEvent ev).2 (Or.inr ⟨held.stored last final other old, apart⟩)
  covered := by
    intro last final entry member
    rcases (mem_storeEvent ev).1 member with rfl | ⟨old, apart⟩
    · exact Or.inl ⟨ev, mem_since.2 (Or.inl rfl), rfl⟩
    · rcases held.covered last final entry old with ⟨other, since, rfl⟩ | before
      · exact Or.inl ⟨other, mem_since.2 (Or.inr ⟨since, apart⟩), rfl⟩
      · exact Or.inr before

theorem Held.storeEvents (held : Held s) (events : List Event) : Held (events.foldl State.storeEvent s) := by
  induction events generalizing s with
  | nil => exact held
  | cons ev rest ih => exact ih (held.storeEvent ev)

theorem Held.idle (held : Held s) : Held { s with consumer := .idle } where
  own := held.own
  stored := fun _ final => by contradiction
  covered := fun _ final => by contradiction

theorem Held.peeked (held : Held s) (limit : Nat) :
    Held { s with consumer := .peeked (s.buffer.peek limit), since := [] } where
  own := held.own
  stored := fun _ _ _ since => absurd since List.not_mem_nil
  covered := fun _ final _ member =>
    Or.inr fun _ decoded le => Buffer.mem_peek held.own final member decoded le

theorem Held.deleted (held : Held s) (upToSeq : Nat) :
    Held { s with consumer := .idle, buffer := s.buffer.delete upToSeq } where
  own := fun entry member => held.own entry (OrderedMap.mem_retain.1 member).1
  stored := fun _ final => by contradiction
  covered := fun _ final => by contradiction

theorem Held.number (held : Held s) : Held s.number := by
  unfold State.number
  split
  · exact ⟨held.own, held.stored, held.covered⟩
  · exact held

theorem Held.put (held : Held s) (call : Nat) (fails : Bool) : Held (s.put call fails) := by
  unfold State.put
  split
  · cases fails with
    | true => exact ⟨held.own, held.stored, held.covered⟩
    | false =>
        apply Held.storeEvent
        exact ⟨held.own, held.stored, held.covered⟩
  · exact held

theorem Held.commit (held : Held s) (fails : Bool) : Held (s.commit fails) := by
  unfold State.commit
  split
  · exact ⟨held.own, held.stored, held.covered⟩
  · split
    · apply Held.storeEvents
      exact ⟨held.own, held.stored, held.covered⟩
    · exact held

theorem Held.peek (held : Held s) (limit : Nat) : Held (s.peek limit) := by
  unfold State.peek
  split
  · rename_i first rest _ peeked
    rw [← peeked]
    exact held.peeked limit
  · exact held

theorem Held.ship (held : Held s) (accepted : Bool) : Held (s.ship accepted) := by
  unfold State.ship
  split
  · rename_i batch holds
    cases accepted with
    | true =>
        have same : s.consumer.batch = batch := by rw [holds]; rfl
        exact ⟨held.own, same ▸ held.stored, same ▸ held.covered⟩
    | false => exact held.idle
  · exact held

theorem Held.delete (held : Held s) (fails : Bool) : Held (s.delete fails) := by
  unfold State.delete
  split
  · split
    · cases fails with
      | true => exact held.idle
      | false => exact held.deleted _
    · exact held
  · exact held

theorem held_step (held : Held s) (label : Label) : Held (step s label) := by
  cases label with
  | nextSeq ev => exact ⟨held.own, held.stored, held.covered⟩
  | put call fails => exact held.put call fails
  | lock events =>
      change Held (if s.writer.isNone then { s with writer := some ⟨events, []⟩ } else s)
      split
      · exact ⟨held.own, held.stored, held.covered⟩
      · exact held
  | number => exact held.number
  | commit fails => exact held.commit fails
  | peek limit => exact held.peek limit
  | ship accepted => exact held.ship accepted
  | delete fails => exact held.delete fails

/-! ## Acknowledgement -/

/-- A delete either leaves the bucket as it is, or follows a shipped batch up to its last event. -/
theorem delete_cases (s : State) (fails : Bool) :
    (s.delete fails).buffer = s.buffer ∨
      fails = false ∧ s.writer = none ∧ ∃ batch last, s.consumer = .shipped batch ∧
        batch.getLast? = some last ∧ (s.delete fails).buffer = s.buffer.delete last.eventSeq := by
  unfold State.delete
  split
  · rename_i batch free shipped
    split
    · rename_i last final
      cases fails with
      | true => exact Or.inl rfl
      | false => exact Or.inr ⟨rfl, free, batch, last, shipped, final, rfl⟩
    · exact Or.inl rfl
  · exact Or.inl rfl

theorem delete_of_shipped {batch : List Event} {last : Event} (free : s.writer = none)
    (shipped : s.consumer = .shipped batch) (final : batch.getLast? = some last) :
    (s.delete false).buffer = s.buffer.delete last.eventSeq := by
  simp only [State.delete, free, shipped, final, Bool.false_eq_true, if_false]

theorem acknowledged_of_inOrder (held : Held s) {label : Label} (inOrder : InOrder s label) :
    Acknowledged s label := by
  cases label with
  | delete fails =>
      intro entry member gone
      rcases delete_cases s fails with same | ⟨rfl, free, batch, last, shipped, final, after⟩
      · rw [same] at gone
        exact absurd member gone
      · rw [after, Buffer.delete, OrderedMap.mem_retain, decide_eq_true_eq] at gone
        have le : entry.1 ≤ last.eventSeq := not_lt.1 fun above => gone ⟨member, above⟩
        have covered := held.covered
        simp only [shipped, Consumer.batch] at covered
        rcases covered last final entry member with ⟨ev, since, rfl⟩ | before
        · rcases inOrder free batch last shipped final ev since with above | inside
          · exact absurd le (not_le.2 above)
          · exact Or.inr ⟨batch, ev, shipped, inside, Buffer.decode_marshal ev⟩
        · cases decoded : decode entry.2 with
          | none => exact Or.inl rfl
          | some ev => exact Or.inr ⟨batch, ev, shipped, before ev decoded le, rfl⟩
  | _ => trivial

theorem inOrder_of_acknowledged (held : Held s) {label : Label} (acknowledged : Acknowledged s label) :
    InOrder s label := by
  cases label with
  | delete fails =>
      cases fails with
      | true => trivial
      | false =>
          intro free batch last shipped final ev since
          rcases lt_or_ge last.eventSeq ev.eventSeq with above | le
          · exact Or.inl above
          · have stored := held.stored
            simp only [shipped, Consumer.batch] at stored
            have gone : entryOf ev ∉ (s.delete false).buffer.bucket := by
              rw [delete_of_shipped free shipped final, Buffer.delete, OrderedMap.mem_retain,
                decide_eq_true_eq]
              exact fun there => absurd there.2 (not_lt.2 le)
            rcases acknowledged (entryOf ev) (stored last final ev since) gone with lost | found
            · rw [entryOf, Buffer.decode_marshal] at lost
              contradiction
            · obtain ⟨other, _, here, inside, decoded⟩ := found
              rw [entryOf, Buffer.decode_marshal, Option.some.injEq] at decoded
              rw [shipped, Consumer.shipped.injEq] at here
              exact Or.inr (by rw [here, decoded]; exact inside)
  | _ => trivial

def lookupOf (qname : String) : Event := { Event.empty with qname := qname }

/-- A `Put` that draws its number before a `PutBatch` and stores after the peek. -/
def latePut : List Label :=
  [.nextSeq (lookupOf "late."), .lock [lookupOf "early."], .number, .commit false, .peek 500, .put 0 false,
    .ship true, .delete false]

theorem late_put_removed :
    ¬ ∀ (file : Bucket) (maxAge : Int) (run : List Label),
      (∀ entry ∈ file, ∀ ev, decode entry.2 = some ev → ev.eventSeq = entry.1) →
        Along step Acknowledged (start file maxAge) run := by
  intro acknowledged
  have removed := (acknowledged OrderedMap.empty 86400 latePut (by simp)).2.2.2.2.2.2.2.1
    (entryOf { lookupOf "late." with eventSeq := 1 }) List.mem_cons_self List.not_mem_nil
  rcases removed with undecodable | ⟨batch, ev, shipped, inside, decoded⟩
  · rw [entryOf, Buffer.decode_marshal] at undecodable
    contradiction
  · rw [entryOf, Buffer.decode_marshal, Option.some.injEq] at decoded
    have batched : batch = [{ lookupOf "early." with eventSeq := 2 }] := (Consumer.shipped.inj shipped).symm
    rw [batched, ← decoded] at inside
    exact absurd inside (by decide)

theorem run_acknowledged_iff (file : Bucket) (maxAge : Int) (run : List Label)
    (own : ∀ entry ∈ file, ∀ ev, decode entry.2 = some ev → ev.eventSeq = entry.1) :
    Along step Acknowledged (start file maxAge) run ↔ Along step InOrder (start file maxAge) run :=
  along_congr_of_preserved run (held_start maxAge own) (fun _ label held => held_step held label)
    fun _ _ held => ⟨inOrder_of_acknowledged held, acknowledged_of_inOrder held⟩

theorem run_acknowledged_iff_late :
    Along step Acknowledged (start OrderedMap.empty 86400) latePut ↔
      Along step InOrder (start OrderedMap.empty 86400) latePut :=
  run_acknowledged_iff OrderedMap.empty 86400 latePut (by simp)

/-! ## Batches alone -/

/-- No `Put` is called, and the counter does not wrap around. -/
def Batches (s : State) : Label → Prop
  | .nextSeq _ => False
  | .number => s.buffer.seq + 1 < 2 ^ 64
  | _ => True

structure Sequenced (s : State) : Prop where
  calls : s.putting = []
  bounded : ∀ entry ∈ s.buffer.bucket, entry.1 ≤ s.buffer.seq
  fresh : ∀ writing, s.writer = some writing → ∀ ev ∈ writing.numbered,
    ev.eventSeq ≤ s.buffer.seq ∧ ∀ entry ∈ s.buffer.bucket, entry.1 < ev.eventSeq
  known : ∀ ev ∈ s.consumer.batch, ∃ entry ∈ s.buffer.bucket, entry.1 = ev.eventSeq
  later : ∀ ev ∈ s.consumer.batch, ∀ other ∈ s.since, ev.eventSeq < other.eventSeq

theorem sequenced_start (file : Bucket) (maxAge : Int) : Sequenced (start file maxAge) where
  calls := rfl
  bounded := by
    intro entry member
    obtain ⟨last, found, le⟩ := OrderedMap.le_lastKey file member
    simpa [start, Buffer.open, found] using le
  fresh := fun _ none => by contradiction
  known := fun _ none => absurd none List.not_mem_nil
  later := fun _ none => absurd none List.not_mem_nil

theorem storeEvents_spec (s : State) (events : List Event) :
    (events.foldl State.storeEvent s).putting = s.putting ∧
      (events.foldl State.storeEvent s).consumer = s.consumer ∧
      (events.foldl State.storeEvent s).writer = s.writer ∧
      (events.foldl State.storeEvent s).buffer.seq = s.buffer.seq ∧
      (∀ entry ∈ (events.foldl State.storeEvent s).buffer.bucket,
        entry ∈ s.buffer.bucket ∨ ∃ ev ∈ events, entry = entryOf ev) ∧
      (∀ entry ∈ s.buffer.bucket, ∃ other ∈ (events.foldl State.storeEvent s).buffer.bucket,
        other.1 = entry.1) ∧
      ∀ ev ∈ (events.foldl State.storeEvent s).since, ev ∈ s.since ∨ ev ∈ events := by
  induction events generalizing s with
  | nil => exact ⟨rfl, rfl, rfl, rfl, fun _ => Or.inl, fun entry there => ⟨entry, there, rfl⟩, fun _ => Or.inl⟩
  | cons ev rest ih =>
      obtain ⟨calls, consumer, writer, seq, stored, kept, since⟩ := ih (s.storeEvent ev)
      refine ⟨calls, consumer, writer, seq, ?_, ?_, ?_⟩
      · intro entry member
        rcases stored entry member with here | ⟨other, inside, rfl⟩
        · rcases (mem_storeEvent ev).1 here with rfl | ⟨old, -⟩
          · exact Or.inr ⟨ev, List.mem_cons_self, rfl⟩
          · exact Or.inl old
        · exact Or.inr ⟨other, List.mem_cons_of_mem _ inside, rfl⟩
      · intro entry member
        by_cases same : entry.1 = ev.eventSeq
        · obtain ⟨other, there, key⟩ := kept (entryOf ev) ((mem_storeEvent ev).2 (Or.inl rfl))
          exact ⟨other, there, key.trans same.symm⟩
        · exact kept entry ((mem_storeEvent ev).2 (Or.inr ⟨member, same⟩))
      · intro other member
        rcases since other member with here | inside
        · rcases mem_since.1 here with rfl | ⟨old, -⟩
          · exact Or.inr List.mem_cons_self
          · exact Or.inl old
        · exact Or.inr (List.mem_cons_of_mem _ inside)

theorem Sequenced.committed (sequenced : Sequenced s) {numbered : List Event}
    (locked : s.writer = some ⟨[], numbered⟩) :
    Sequenced (numbered.foldl State.storeEvent { s with writer := none }) := by
  obtain ⟨calls, consumer, writer, seq, stored, kept, since⟩ :=
    storeEvents_spec { s with writer := none } numbered
  have fresh := sequenced.fresh _ locked
  refine ⟨calls.trans sequenced.calls, ?_, ?_, ?_, ?_⟩
  · intro entry member
    rw [seq]
    rcases stored entry member with old | ⟨ev, inside, rfl⟩
    · exact sequenced.bounded entry old
    · exact (fresh ev inside).1
  · intro writing again
    rw [writer] at again
    contradiction
  · intro ev inside
    rw [consumer] at inside
    obtain ⟨entry, member, key⟩ := sequenced.known ev inside
    obtain ⟨other, there, same⟩ := kept entry member
    exact ⟨other, there, same.trans key⟩
  · intro ev inside other member
    rw [consumer] at inside
    rcases since other member with old | new
    · exact sequenced.later ev inside other old
    · obtain ⟨entry, there, key⟩ := sequenced.known ev inside
      rw [← key]
      exact (fresh other new).2 entry there

theorem Sequenced.number (sequenced : Sequenced s) (room : s.buffer.seq + 1 < 2 ^ 64) :
    Sequenced s.number := by
  unfold State.number
  split
  · rename_i ev rest numbered locked
    have next : (s.buffer.draw 1).seq = s.buffer.seq + 1 := Buffer.seq_draw room
    refine ⟨sequenced.calls, ?_, ?_, sequenced.known, sequenced.later⟩
    · intro entry member
      rw [next]
      exact Nat.le_succ_of_le (sequenced.bounded entry member)
    · rintro writing ⟨⟩ other member
      rw [next]
      rcases List.mem_append.1 member with old | new
      · obtain ⟨le, above⟩ := sequenced.fresh _ locked other old
        exact ⟨Nat.le_succ_of_le le, above⟩
      · have number : other.eventSeq = s.buffer.seq + 1 := by
          rw [List.mem_singleton.1 new]
          exact next
        rw [number]
        exact ⟨le_rfl, fun entry there => Nat.lt_succ_of_le (sequenced.bounded entry there)⟩
  · exact sequenced

theorem Sequenced.peek (sequenced : Sequenced s) (held : Held s) (limit : Nat) :
    Sequenced (s.peek limit) := by
  unfold State.peek
  split
  · rename_i first rest _ peeked
    rw [← peeked]
    refine ⟨sequenced.calls, sequenced.bounded, sequenced.fresh, ?_, fun _ _ _ => (absurd · List.not_mem_nil)⟩
    intro ev inside
    obtain ⟨entry, member, decoded⟩ := List.mem_filterMap.1 (List.mem_of_mem_take inside)
    exact ⟨entry, member, (held.own entry member ev decoded).symm⟩
  · exact sequenced

theorem Sequenced.idle (sequenced : Sequenced s) : Sequenced { s with consumer := .idle } :=
  ⟨sequenced.calls, sequenced.bounded, sequenced.fresh, fun _ none => absurd none List.not_mem_nil,
    fun _ none => absurd none List.not_mem_nil⟩

theorem Sequenced.ship (sequenced : Sequenced s) (accepted : Bool) : Sequenced (s.ship accepted) := by
  unfold State.ship
  split
  · rename_i batch holds
    cases accepted with
    | true =>
        have same : s.consumer.batch = batch := by rw [holds]; rfl
        exact ⟨sequenced.calls, sequenced.bounded, sequenced.fresh, same ▸ sequenced.known,
          same ▸ sequenced.later⟩
    | false => exact sequenced.idle
  · exact sequenced

theorem Sequenced.delete (sequenced : Sequenced s) (fails : Bool) : Sequenced (s.delete fails) := by
  unfold State.delete
  split
  · split
    · cases fails with
      | true => exact sequenced.idle
      | false =>
          refine ⟨sequenced.calls, ?_, ?_, fun _ none => absurd none List.not_mem_nil,
            fun _ none => absurd none List.not_mem_nil⟩
          · exact fun entry member => sequenced.bounded entry (OrderedMap.mem_retain.1 member).1
          · intro writing locked ev inside
            obtain ⟨le, above⟩ := sequenced.fresh writing locked ev inside
            exact ⟨le, fun entry member => above entry (OrderedMap.mem_retain.1 member).1⟩
    · exact sequenced
  · exact sequenced

theorem Sequenced.step (sequenced : Sequenced s) (held : Held s) {label : Label} (batches : Batches s label) :
    Sequenced (step s label) := by
  cases label with
  | nextSeq ev => exact batches.elim
  | put call fails =>
      have same : s.put call fails = s := by
        unfold State.put
        rw [sequenced.calls]
        split
        · contradiction
        · rfl
      change Sequenced (s.put call fails)
      rw [same]
      exact sequenced
  | lock events =>
      change Sequenced (if s.writer.isNone then { s with writer := some ⟨events, []⟩ } else s)
      split
      · refine ⟨sequenced.calls, sequenced.bounded, ?_, sequenced.known, sequenced.later⟩
        rintro writing ⟨⟩ ev none
        exact absurd none List.not_mem_nil
      · exact sequenced
  | number => exact sequenced.number batches
  | commit fails =>
      change Sequenced (s.commit fails)
      unfold State.commit
      split
      · exact ⟨sequenced.calls, sequenced.bounded, fun _ none => by contradiction, sequenced.known,
          sequenced.later⟩
      · split
        · exact sequenced.committed ‹_›
        · exact sequenced
  | peek limit => exact sequenced.peek held limit
  | ship accepted => exact sequenced.ship accepted
  | delete fails => exact sequenced.delete fails

theorem Sequenced.inOrder (sequenced : Sequenced s) (label : Label) : InOrder s label := by
  cases label with
  | delete fails =>
      cases fails with
      | true => trivial
      | false =>
          intro _ batch last shipped final ev since
          have later := sequenced.later
          rw [shipped] at later
          exact Or.inl (later last (List.mem_of_getLast? final) ev since)
  | _ => trivial

/-- `PutBatch` beside the consumer loses nothing, however its transactions and the consumer's fall. -/
theorem batches_acknowledged {file : Bucket} (maxAge : Int) {run : List Label}
    (own : ∀ entry ∈ file, ∀ ev, decode entry.2 = some ev → ev.eventSeq = entry.1)
    (batches : Along step Batches (start file maxAge) run) :
    Along step Acknowledged (start file maxAge) run := by
  have initial : Held (start file maxAge) ∧ Sequenced (start file maxAge) :=
    ⟨held_start maxAge own, sequenced_start file maxAge⟩
  refine (along_congr_of_invariant (P := fun s => Held s ∧ Sequenced s) (Q := Batches) initial batches ?_ ?_).1
    batches
  · exact fun s label holds next => ⟨held_step holds.1 label, holds.2.step holds.1 next⟩
  · intro s label holds next
    exact iff_of_true next (acknowledged_of_inOrder holds.1 (holds.2.inOrder label))

end PowerBlockade.Processor.Acknowledgement
