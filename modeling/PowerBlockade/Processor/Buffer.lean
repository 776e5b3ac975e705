import PowerBlockade.Lib.OrderedMap
import PowerBlockade.Processor.Event
import PowerBlockade.Time

/-!
# The processor's durable buffer

The bucket is an ordered map from sequence numbers to the JSON of events. Its transactions are
atomic; the sequence counter lives in memory and starts again from the last key.
-/

namespace PowerBlockade.Processor
open Lib

/-- The bytes of a value, as the JSON they hold if they hold any. -/
abbrev Stored := Option Json

abbrev Bucket := OrderedMap Nat Stored

def decode (stored : Stored) : Option Event := stored.bind Event.unmarshal

structure Buffer where
  bucket : Bucket
  seq : Nat
  maxAge : Int

namespace Buffer

/-- `Open`: the counter continues from the last key, or from 0. -/
def «open» (bucket : Bucket) (maxAge : Int) : Buffer := ⟨bucket, bucket.lastKey.getD 0, maxAge⟩

def putEvent (buffer : Buffer) (ev : Event) : Buffer :=
  let seq := buffer.seq + 1
  { buffer with bucket := buffer.bucket.put seq (some (Event.marshal { ev with eventSeq := seq })), seq := seq }

/-- `PutBatch`; a transaction that fails rolls back the bucket, not the counter. -/
def putBatch (buffer : Buffer) (events : List Event) (failsAfter : Option Nat) : Buffer :=
  match failsAfter with
  | none => events.foldl putEvent buffer
  | some drawn => { buffer with seq := buffer.seq + min drawn events.length }

/-- `Peek`: the first events that can be decoded. -/
def peek (buffer : Buffer) (limit : Nat) : List Event :=
  (buffer.bucket.entries.filterMap fun entry => decode entry.2).take limit

def delete (buffer : Buffer) (upToSeq : Nat) : Buffer :=
  { buffer with bucket := buffer.bucket.retain fun entry => upToSeq < entry.1 }

/-- What `Prune` removes: what it cannot decode, and what is older than the maximum age. An event
whose time it cannot read stays. -/
def expired (maxAge : Int) (now : GoTime) (stored : Stored) : Bool :=
  match decode stored with
  | none => true
  | some ev => match GoTime.parseRFC3339Nano ev.ts with
      | none => false
      | some ts => ts < now - maxAge

def prune (buffer : Buffer) (now : GoTime) : Buffer :=
  if buffer.maxAge ≤ 0 then buffer
  else { buffer with bucket := buffer.bucket.retain fun entry => !expired buffer.maxAge now entry.2 }

/-! ## What the writers keep -/

structure Sound (buffer : Buffer) : Prop where
  bounded : ∀ entry ∈ buffer.bucket, entry.1 ≤ buffer.seq
  own : ∀ entry ∈ buffer.bucket, ∀ ev, decode entry.2 = some ev → ev.eventSeq = entry.1

variable {buffer : Buffer}

@[simp] theorem decode_marshal (ev : Event) : decode (some ev.marshal) = some ev := unmarshal_marshal ev

theorem sound_open {bucket : Bucket} (maxAge : Int)
    (own : ∀ entry ∈ bucket, ∀ ev, decode entry.2 = some ev → ev.eventSeq = entry.1) :
    (Buffer.open bucket maxAge).Sound where
  bounded := by
    intro entry member
    obtain ⟨last, found, le⟩ := OrderedMap.le_lastKey bucket member
    simpa [Buffer.open, found] using le
  own := own

theorem mem_putEvent (sound : buffer.Sound) (ev : Event) {entry : Nat × Stored} :
    entry ∈ (buffer.putEvent ev).bucket ↔
      entry = (buffer.seq + 1, some (Event.marshal { ev with eventSeq := buffer.seq + 1 })) ∨
        entry ∈ buffer.bucket := by
  simp only [putEvent, OrderedMap.mem_put]
  constructor
  · rintro (new | ⟨old, -⟩)
    · exact Or.inl new
    · exact Or.inr old
  · rintro (new | old)
    · exact Or.inl new
    · have below := sound.bounded entry old
      exact Or.inr ⟨old, by omega⟩

theorem sound_putEvent (sound : buffer.Sound) (ev : Event) : (buffer.putEvent ev).Sound where
  bounded := by
    intro entry member
    rcases (mem_putEvent sound ev).1 member with rfl | old
    · exact le_rfl
    · exact (sound.bounded entry old).trans (Nat.le_succ _)
  own := by
    intro entry member found decoded
    rcases (mem_putEvent sound ev).1 member with rfl | old
    · simp only [decode_marshal, Option.some.injEq] at decoded
      rw [← decoded]
    · exact sound.own entry old found decoded

theorem putEvents_spec (sound : buffer.Sound) (events : List Event) :
    (events.foldl putEvent buffer).Sound ∧ buffer.seq ≤ (events.foldl putEvent buffer).seq ∧
      (∀ entry ∈ buffer.bucket, entry ∈ (events.foldl putEvent buffer).bucket) ∧
      (∀ entry ∈ (events.foldl putEvent buffer).bucket, entry ∈ buffer.bucket ∨ buffer.seq < entry.1) ∧
      ∀ ev ∈ events, ∃ key, (key, some (Event.marshal { ev with eventSeq := key })) ∈
        (events.foldl putEvent buffer).bucket := by
  induction events generalizing buffer with
  | nil => exact ⟨sound, le_rfl, fun _ old => old, fun _ old => Or.inl old, by simp⟩
  | cons first rest ih =>
      obtain ⟨kept, grown, old, fresh, each⟩ := ih (sound_putEvent sound first)
      refine ⟨kept, (Nat.le_succ _).trans grown, ?_, ?_, ?_⟩
      · exact fun entry member => old entry ((mem_putEvent sound first).2 (Or.inr member))
      · intro entry member
        rcases fresh entry member with here | beyond
        · rcases (mem_putEvent sound first).1 here with rfl | before
          · exact Or.inr (Nat.lt_succ_self _)
          · exact Or.inl before
        · exact Or.inr ((Nat.lt_succ_self _).trans beyond)
      · intro ev member
        rcases List.mem_cons.1 member with rfl | later
        · exact ⟨buffer.seq + 1, old _ ((mem_putEvent sound ev).2 (Or.inl rfl))⟩
        · exact each ev later

theorem sound_failed (sound : buffer.Sound) (drawn : Nat) :
    Sound { buffer with seq := buffer.seq + drawn } where
  bounded := fun entry member => (sound.bounded entry member).trans (Nat.le_add_right _ _)
  own := sound.own

theorem sound_retain (sound : buffer.Sound) (keeps : Nat × Stored → Bool) :
    Sound { buffer with bucket := buffer.bucket.retain keeps } where
  bounded := fun entry member => sound.bounded entry (OrderedMap.mem_retain.1 member).1
  own := fun entry member => sound.own entry (OrderedMap.mem_retain.1 member).1

theorem mem_peek (own : ∀ entry ∈ buffer.bucket, ∀ ev, decode entry.2 = some ev → ev.eventSeq = entry.1)
    {limit : Nat} {last : Event} (final : (buffer.peek limit).getLast? = some last) {entry : Nat × Stored} {ev : Event}
    (member : entry ∈ buffer.bucket) (decoded : decode entry.2 = some ev)
    (le : entry.1 ≤ last.eventSeq) : ev ∈ buffer.peek limit := by
  have sorted : (buffer.bucket.entries.filterMap fun entry => decode entry.2).Pairwise
      fun a b => a.eventSeq < b.eventSeq := by
    rw [List.pairwise_filterMap]
    refine buffer.bucket.sorted.imp_of_mem ?_
    intro a b left right before found decodedA other decodedB
    rw [own a left found decodedA, own b right other decodedB]
    exact before
  refine mem_take_of_le sorted final (List.mem_filterMap.2 ⟨entry, member, decoded⟩) ?_
  rw [own entry member ev decoded]
  exact le

theorem last_le_seq (sound : buffer.Sound) {limit : Nat} {last : Event}
    (final : (buffer.peek limit).getLast? = some last) : last.eventSeq ≤ buffer.seq := by
  have peeked := List.mem_of_mem_take (List.mem_of_getLast? final)
  obtain ⟨entry, member, decoded⟩ := List.mem_filterMap.1 peeked
  rw [sound.own entry member last decoded]
  exact sound.bounded entry member

end Buffer

end PowerBlockade.Processor
