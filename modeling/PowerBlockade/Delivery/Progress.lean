import PowerBlockade.Delivery.System
import PowerBlockade.Processor.Spool

/-!
# The forwarder against a primary that answers

Each tick posts the first records of the buffer, and deletes them once the primary has committed all
of their rows.
-/

namespace PowerBlockade.Delivery
open Lib Primary Processor

/-- The database takes the row that `ingest` makes of the event, whenever it does. -/
def storable (ev : Event) : Bool :=
  let sent := received ev
  sent.eventId.all (fitsText 64) && sent.eventSeq.all (fitsInteger 64) && fitsText 64 sent.clientIp &&
    storableText (normalizedQname sent.qname) && fitsInteger 32 sent.qtype && fitsInteger 32 sent.rcode &&
    sent.blockReason.all (fitsText 50) && sent.blocklistName.all (fitsText 255) &&
    sent.latencyMs.all (fitsInteger 32)

structure Forwarding where
  buffer : Buffer
  primary : Database

/-- A named event is stored as soon as its id is. -/
def Stored (db : Database) (ev : Event) : Prop :=
  ∃ row ∈ db.events.rows, (ev.eventID ≠ "" ∧ row.eventId = some ev.eventID) ∨
    ∃ now node clients, row = eventRow now node clients (received ev)

theorem Stored.mono {before after : Database} {ev : Event} (stored : Stored before ev)
    (kept : before.events.rows <+: after.events.rows) : Stored after ev := by
  obtain ⟨row, present, same⟩ := stored
  exact ⟨row, kept.subset present, same⟩

namespace Forwarding

def queue (w : Forwarding) : List Event := decodable w.buffer.bucket

def tick (modelValidate : ModelValidate) (apiKey : String) (now : DateTime) (w : Forwarding) : Forwarding :=
  match (w.buffer.peek maxBatch).getLast? with
  | none => w
  | some last =>
      match ingest modelValidate w.primary (some apiKey) ((w.buffer.peek maxBatch).map Event.members) now with
      | .error _ => w
      | .ok (after, _) => ⟨w.buffer.delete last.eventSeq, after⟩

def ticks (modelValidate : ModelValidate) (apiKey : String) (times : Nat → DateTime) (w : Forwarding) :
    Nat → Forwarding
  | 0 => w
  | n + 1 => tick modelValidate apiKey (times n) (ticks modelValidate apiKey times w n)

/-- The records are those that the buffer numbered, and the primary knows the key. -/
structure Ready (apiKey : String) (w : Forwarding) : Prop where
  own : ∀ entry ∈ w.buffer.bucket, ∀ ev, decode entry.2 = some ev → ev.eventSeq = entry.1
  nonempty : apiKey ≠ ""
  registered : ∃ node ∈ w.primary.nodes.rows, node.apiKey = apiKey

/-- Every storable event that was queued is stored and no longer queued. -/
def Delivered (w after : Forwarding) : Prop :=
  ∀ ev ∈ w.queue, storable ev = true → Stored after.primary ev ∧ ev ∉ after.queue

/-- Of the batches from the front, the ones with storable events come before those with others. -/
def Apart (queue : List Event) : Prop :=
  ∀ i j good bad, queue[i]? = some good → queue[j]? = some bad → storable good = true →
    storable bad = false → i / maxBatch < j / maxBatch

/-! ## One tick -/

variable {modelValidate : ModelValidate} {apiKey : String} {w : Forwarding} {now : DateTime}

theorem storable_eventRow (now : DateTime) (node : Node) (clients : List Client) (ev : Event) :
    (eventRow now node clients (received ev)).storable = storable ev := rfl

theorem rowsFit_iff (accepts : AcceptsTyped modelValidate) (db : Database) (node : Node) (now : DateTime)
    {events : List Event} (few : events.length ≤ maxBatch) :
    rowsFit (ingestRows modelValidate db node (events.map Event.members) now) = true ↔
      ∀ ev ∈ events, storable ev = true := by
  have bound : 14 * events.length ≤ 65535 := by
    unfold maxBatch at few
    omega
  rw [ingestRows, filterMap_members accepts, rowsFit]
  simp [storable_eventRow, bound]

theorem queue_peek (w : Forwarding) : w.buffer.peek maxBatch = w.queue.take maxBatch := rfl

theorem stored_of_ingest (accepts : AcceptsTyped modelValidate) {db after : Database} {key : Option String}
    {events : List Event} {count : Nat}
    (answered : ingest modelValidate db key (events.map Event.members) now = .ok (after, count)) :
    ∀ ev ∈ events, Stored after ev := by
  intro ev member
  obtain ⟨node, -, -, -, effect⟩ := ingest_ok answered
  rw [filterMap_members accepts] at effect
  rcases effect with ⟨nothing, -⟩ | ⟨-, inserted, -⟩
  · rw [List.map_eq_nil_iff.1 nothing] at member
    contradiction
  · obtain ⟨clients, same⟩ : ∃ clients, ingestRows modelValidate db node (events.map Event.members) now =
        (events.map received).map (eventRow now node clients) := ⟨_, by
      rw [ingestRows, filterMap_members accepts]⟩
    have given : eventRow now node clients (received ev) ∈
        ingestRows modelValidate db node (events.map Event.members) now := by
      rw [same]
      exact List.mem_map_of_mem (List.mem_map_of_mem member)
    obtain ⟨row, present, whole | ⟨sameId, named⟩⟩ := EventTable.exists_insertAll db.events given
    · exact ⟨row, inserted ▸ present, Or.inr ⟨now, node, clients, whole⟩⟩
    · refine ⟨row, inserted ▸ present, Or.inl ?_⟩
      by_cases empty : ev.eventID = ""
      · simp [eventRow, received, empty] at sameId
        contradiction
      · exact ⟨empty, by simpa [eventRow, received, empty] using sameId⟩

theorem registered_of_ingest {db after : Database} {key : Option String} {payload : List Json.Members}
    {count : Nat} (answered : ingest modelValidate db key payload now = .ok (after, count))
    (registered : ∃ node ∈ db.nodes.rows, node.apiKey = apiKey) :
    ∃ node ∈ after.nodes.rows, node.apiKey = apiKey := by
  obtain ⟨row, present, named⟩ := registered
  obtain ⟨node, member, -, -, effect⟩ := ingest_ok answered
  rcases effect with ⟨-, same⟩ | ⟨-, -, rows⟩
  · exact ⟨row, same ▸ present, named⟩
  · refine ⟨replaceRow _ row, rows ▸ List.mem_map_of_mem present, ?_⟩
    unfold replaceRow
    split
    · rename_i same
      rw [← named, NodeTable.eq_of_id present member same]
    · exact named

theorem queue_delete (ready : w.Ready apiKey) {last : Event}
    (final : (w.buffer.peek maxBatch).getLast? = some last) :
    decodable (w.buffer.delete last.eventSeq).bucket = w.queue.drop maxBatch := by
  obtain ⟨removed, kept, split, left, peeked, -⟩ := Buffer.peekThenDelete ready.own final
  have whole : w.queue = w.queue.take maxBatch ++ kept.filterMap fun entry => decode entry.2 := by
    calc w.queue = (removed ++ kept).filterMap fun entry => decode entry.2 := by rw [← split]; rfl
      _ = w.queue.take maxBatch ++ kept.filterMap fun entry => decode entry.2 := by
        rw [List.filterMap_append, peeked, queue_peek]
  rw [decodable, left]
  exact List.append_cancel_left (whole.symm.trans (List.take_append_drop maxBatch w.queue).symm)

theorem storable_of_ingest (now : DateTime) (accepts : AcceptsTyped modelValidate) {db : Database} {node : Node}
    (member : node ∈ db.nodes.rows) (nonempty : node.apiKey ≠ "") {events : List Event}
    (few : events.length ≤ maxBatch) (nonempty' : events ≠ []) :
    (∃ answer, ingest modelValidate db (some node.apiKey) (events.map Event.members) now = .ok answer) ↔
      ∀ ev ∈ events, storable ev = true := by
  rw [ingest_isOk_iff member nonempty, rowsFit_iff accepts db node now few, filterMap_members accepts,
    List.map_eq_nil_iff, or_iff_right nonempty']

/-- A tick delivers the first batch whole, or changes nothing. -/
theorem tick_spec (accepts : AcceptsTyped modelValidate) (ready : w.Ready apiKey) (now : DateTime) :
    (tick modelValidate apiKey now w).Ready apiKey ∧
      w.primary.events.rows <+: (tick modelValidate apiKey now w).primary.events.rows ∧
      if ∀ ev ∈ w.queue.take maxBatch, storable ev = true then
        (tick modelValidate apiKey now w).queue = w.queue.drop maxBatch ∧
          ∀ ev ∈ w.queue.take maxBatch, Stored (tick modelValidate apiKey now w).primary ev
      else (tick modelValidate apiKey now w).queue = w.queue := by
  obtain ⟨own, nonempty, node, member, named⟩ := id ready
  unfold tick
  cases final : (w.buffer.peek maxBatch).getLast? with
  | none =>
      have empty : w.queue = [] := by
        have none := List.getLast?_eq_none_iff.mp final
        rw [queue_peek, List.take_eq_nil_iff] at none
        exact none.resolve_left (by decide)
      exact ⟨ready, List.prefix_rfl, by simp [empty]⟩
  | some last =>
      have some : w.queue.take maxBatch ≠ [] := fun none => by
        rw [queue_peek, none] at final
        contradiction
      have fits := storable_of_ingest now accepts member (named ▸ nonempty)
        (List.length_take_le maxBatch w.queue) some
      rw [named, ← queue_peek] at fits
      cases answered : ingest modelValidate w.primary (Option.some apiKey)
          ((w.buffer.peek maxBatch).map Event.members) now with
      | error failure =>
          refine ⟨ready, List.prefix_rfl, ?_⟩
          rw [if_neg]
          · intro all
            obtain ⟨answer, ok⟩ := fits.mpr all
            rw [answered] at ok
            contradiction
      | ok answer =>
          obtain ⟨after, count⟩ := answer
          have all := fits.mp ⟨_, answered⟩
          refine ⟨⟨?_, nonempty, registered_of_ingest answered ready.registered⟩, ?_, ?_⟩
          · exact fun entry kept => own entry (OrderedMap.mem_retain.1 kept).1
          · exact (ingest_stores accepts answered).1
          · rw [← queue_peek, if_pos all]
            exact ⟨queue_delete ready final, stored_of_ingest accepts answered⟩

/-! ## Any number of ticks -/

variable {times : Nat → DateTime}

theorem ticks_deliver (times : Nat → DateTime) (accepts : AcceptsTyped modelValidate)
    (ready : w.Ready apiKey) {n : Nat}
    (good : ∀ ev ∈ w.queue.take (n * maxBatch), storable ev = true) :
    (ticks modelValidate apiKey times w n).Ready apiKey ∧
      (ticks modelValidate apiKey times w n).queue = w.queue.drop (n * maxBatch) ∧
      ∀ ev ∈ w.queue.take (n * maxBatch), Stored (ticks modelValidate apiKey times w n).primary ev := by
  induction n with
  | zero => exact ⟨ready, by simp [ticks], by simp⟩
  | succ n ih =>
      rw [Nat.succ_mul] at good ⊢
      rw [List.take_add] at good ⊢
      obtain ⟨ready', left, stored⟩ := ih fun ev member => good ev (List.mem_append_left _ member)
      obtain ⟨ready'', kept, effect⟩ := tick_spec accepts ready' (times n)
      rw [left, if_pos fun ev member => good ev (List.mem_append_right _ member)] at effect
      refine ⟨ready'', effect.1.trans (List.drop_drop ..), fun ev member => ?_⟩
      rcases List.mem_append.mp member with earlier | new
      · exact (stored ev earlier).mono kept
      · exact effect.2 ev new

theorem ticks_stuck (times : Nat → DateTime) (accepts : AcceptsTyped modelValidate)
    (ready : w.Ready apiKey) {j : Nat} {bad : Event}
    (found : w.queue[j]? = some bad) (refused : storable bad = false) (n : Nat) :
    (ticks modelValidate apiKey times w n).Ready apiKey ∧ ∃ c ≤ j / maxBatch,
      (ticks modelValidate apiKey times w n).queue = w.queue.drop (c * maxBatch) := by
  induction n with
  | zero => exact ⟨ready, 0, Nat.zero_le _, by simp [ticks]⟩
  | succ n ih =>
      obtain ⟨ready', c, le, left⟩ := ih
      obtain ⟨ready'', -, effect⟩ := tick_spec accepts ready' (times n)
      refine ⟨ready'', ?_⟩
      rw [left] at effect
      split at effect
      · rename_i good
        refine ⟨c + 1, ?_, by rw [Nat.succ_mul, ← List.drop_drop]; exact effect.1⟩
        by_contra beyond
        have here : c = j / maxBatch := by omega
        have member : bad ∈ (w.queue.drop (c * maxBatch)).take maxBatch := by
          apply List.mem_of_getElem? (i := j - c * maxBatch)
          unfold maxBatch at here ⊢
          rw [List.getElem?_take_of_lt (by omega), List.getElem?_drop, show c * 500 + (j - c * 500) = j by omega]
          exact found
        rw [good bad member] at refused
        contradiction
      · exact ⟨c, le, effect⟩

theorem queue_nodup (ready : w.Ready apiKey) : w.queue.Nodup :=
  (Buffer.decodable_sorted ready.own).imp fun less same => absurd (congrArg Event.eventSeq same) less.ne

theorem delivered_of_clear (accepts : AcceptsTyped modelValidate) (ready : w.Ready apiKey) {n : Nat}
    (good : ∀ ev ∈ w.queue.take (n * maxBatch), storable ev = true)
    (within : ∀ i ev, w.queue[i]? = some ev → storable ev = true → i < n * maxBatch) :
    w.Delivered (ticks modelValidate apiKey times w n) := by
  obtain ⟨-, left, stored⟩ := ticks_deliver times accepts ready good
  intro ev member fits
  obtain ⟨i, found⟩ := List.mem_iff_getElem?.mp member
  have taken : ev ∈ w.queue.take (n * maxBatch) :=
    List.mem_of_getElem? ((List.getElem?_take_of_lt (within i ev found fits)).trans found)
  refine ⟨stored ev taken, fun remains => ?_⟩
  rw [left] at remains
  exact List.disjoint_take_drop (queue_nodup ready) le_rfl taken remains

theorem apart_of_delivered (accepts : AcceptsTyped modelValidate) (ready : w.Ready apiKey) {n : Nat}
    (delivered : w.Delivered (ticks modelValidate apiKey times w n)) : Apart w.queue := by
  intro i j good bad here there fits refused
  by_contra behind
  obtain ⟨-, c, le, left⟩ := ticks_stuck times accepts ready there refused n
  apply (delivered good (List.mem_of_getElem? here) fits).2
  rw [left]
  have within : c * maxBatch ≤ i := by
    unfold maxBatch at *
    omega
  apply List.mem_of_getElem? (i := i - c * maxBatch)
  rw [List.getElem?_drop, Nat.add_sub_cancel' within]
  exact here

theorem exists_delivered_of_apart (accepts : AcceptsTyped modelValidate) (ready : w.Ready apiKey)
    (apart : Apart w.queue) : ∃ n, w.Delivered (ticks modelValidate apiKey times w n) := by
  classical
  by_cases refused : ∃ c j bad, w.queue[j]? = some bad ∧ storable bad = false ∧ j / maxBatch = c
  · -- The first batch with a bad event: those before it are delivered, and hold what is storable.
    obtain ⟨j, bad, there, refuses, first⟩ := Nat.find_spec refused
    refine ⟨Nat.find refused, delivered_of_clear accepts ready (fun ev member => ?_) ?_⟩
    · obtain ⟨i, found⟩ := List.mem_iff_getElem?.mp member
      rw [List.getElem?_take] at found
      split at found
      · rename_i before
        by_contra bad'
        have least := Nat.find_min' refused ⟨i, ev, found, by simpa using bad', rfl⟩
        have batch : i / maxBatch < Nat.find refused := by
          unfold maxBatch at before ⊢
          omega
        omega
      · contradiction
    · intro i ev found fits
      have batch := apart i j ev bad found there fits refuses
      rw [first] at batch
      unfold maxBatch at batch ⊢
      omega
  · have good : ∀ ev ∈ w.queue, storable ev = true := by
      intro ev member
      obtain ⟨j, found⟩ := List.mem_iff_getElem?.mp member
      by_contra bad
      exact refused ⟨_, j, ev, found, by simpa using bad, rfl⟩
    refine ⟨w.queue.length, delivered_of_clear accepts ready
      (fun ev member => good ev (List.mem_of_mem_take member)) fun i ev found _ => ?_⟩
    have below := (List.getElem?_eq_some_iff.mp found).1
    unfold maxBatch
    omega

/-- The forwarder gets every storable event to the primary exactly when none stands in the batch of
a bad one or behind it. -/
theorem delivered_iff_apart (accepts : AcceptsTyped modelValidate) (apiKey : String) (w : Forwarding)
    (ready : w.Ready apiKey) (times : Nat → DateTime) :
    (∃ n, w.Delivered (ticks modelValidate apiKey times w n)) ↔ Apart w.queue :=
  ⟨fun ⟨_, delivered⟩ => apart_of_delivered accepts ready delivered,
    fun apart => exists_delivered_of_apart accepts ready apart⟩

/-! ## A latency of 25 days -/

def buffered (events : List Event) : Forwarding :=
  ⟨events.foldl Buffer.putEvent (Buffer.open OrderedMap.empty 0), office .active none⟩

theorem ready_buffered (events : List Event) : (buffered events).Ready "edge-key" where
  own := (Buffer.putEvents_spec
    (Buffer.sound_open 0 fun _ member => absurd member List.not_mem_nil) events).1.own
  nonempty := by decide
  registered := ⟨secondary .active none, secondary_mem _ _, rfl⟩

def lookup (eventID : String) (latencyMS : GoInt) : Event :=
  { Event.empty with
    ts := "2024-05-01T12:00:00Z"
    clientIP := "192.0.2.7"
    qname := "example.org."
    latencyMS := latencyMS
    eventID := eventID }

def quick : Forwarding := buffered [lookup "a" ⟨7, rfl⟩]

theorem quick_lookup_delivered :
    ∃ n, quick.Delivered (ticks IngestEvent.ofTyped "edge-key" (fun _ => minute 0) quick n) := by
  refine (delivered_iff_apart acceptsTyped_ofTyped "edge-key" quick (ready_buffered _) _).mpr ?_
  intro i j good bad here there fits refused
  have all : ∀ ev ∈ quick.queue, storable ev = true := by decide +kernel
  rw [all bad (List.mem_of_getElem? there)] at refused
  contradiction

/-- An answer 25 days after its query, which is more milliseconds than the column takes. -/
def late : Forwarding := buffered [lookup "a" ⟨2 ^ 31, rfl⟩, lookup "b" ⟨7, rfl⟩]

theorem late_lookup_blocks :
    ¬ ∃ n, late.Delivered (ticks IngestEvent.ofTyped "edge-key" (fun _ => minute 0) late n) := by
  rintro ⟨n, delivered⟩
  have apart : Apart late.queue := apart_of_delivered acceptsTyped_ofTyped (ready_buffered _) delivered
  have fits : late.queue.map storable = [false, true] := by decide +kernel
  obtain ⟨bad, rest, queue, refused, tail⟩ := List.map_eq_cons_iff.mp fits
  obtain ⟨good, none, rfl, stored, -⟩ := List.map_eq_cons_iff.mp tail
  have batches := apart 1 0 good bad (by rw [queue]; rfl) (by rw [queue]; rfl) stored refused
  exact absurd batches (by decide)

end Forwarding

end PowerBlockade.Delivery
