import Mathlib.Algebra.Order.Group.Multiset
import Mathlib.Tactic.Abel
import PowerBlockade.Processor.Dnstap
import PowerBlockade.Processor.Spool

/-!
# The main loop of the processor

One label for each branch of the loop and for the goroutine that offers protobuf events. The ledger
remembers the events themselves where the metrics only count.
-/

namespace PowerBlockade.Processor
open Lib

structure Pipeline where
  channel : List Event
  batch : List Event
  buffer : Buffer
  running : Bool
  eventsReceived : Nat
  eventsBuffered : Nat
  eventsShipped : Nat
  eventsDropped : Nat
  -- the ledger
  handed : List Event
  shipped : List Event
  dropped : List Event

def channelCapacity : Nat := 2048

def maxBatch : Nat := 500

/-- How far `forwardFromBuffer` comes. -/
inductive Forward
  | peekFailed
  | postFailed
  | rejected
  | deleteFailed
  | deleted
deriving DecidableEq

inductive Label
  -- a frame from dnsdist; `none` is one that is no dnstap message
  | frame (env : Environment) (now : GoTime) (msg : Option DnstapMessage) (failsAfter : Option Nat)
  | offer (ev : Event)
  | receive (failsAfter : Option Nat)
  | tick (failsAfter : Option Nat) (outcome : Forward)
  | prune (now : GoTime) (fails : Bool)
  | close

namespace Pipeline

def flushToBuffer (p : Pipeline) (failsAfter : Option Nat) : Pipeline :=
  if p.batch = [] then p
  else
    let buffer := p.buffer.putBatch p.batch failsAfter
    match failsAfter with
    | some _ =>
        { p with
          buffer := buffer
          batch := []
          eventsDropped := p.eventsDropped + p.batch.length
          dropped := p.dropped ++ p.batch }
    | none =>
        { p with
          buffer := buffer
          batch := []
          eventsBuffered := p.eventsBuffered + p.batch.length }

def append (p : Pipeline) (ev : Event) (failsAfter : Option Nat) : Pipeline :=
  let grown := { p with batch := p.batch ++ [ev] }
  if maxBatch ≤ grown.batch.length then grown.flushToBuffer failsAfter else grown

def forwardFromBuffer (p : Pipeline) (outcome : Forward) : Pipeline :=
  let events := p.buffer.peek maxBatch
  match events.getLast?, outcome with
  | some last, .deleted =>
      { p with
        buffer := p.buffer.delete last.eventSeq
        eventsShipped := p.eventsShipped + events.length
        shipped := p.shipped ++ events }
  | _, _ => p

def offer (p : Pipeline) (ev : Event) : Pipeline :=
  if p.channel.length < channelCapacity then
    { p with channel := p.channel ++ [ev], handed := p.handed ++ [ev] }
  else
    { p with
      eventsDropped := p.eventsDropped + 1
      dropped := p.dropped ++ [ev]
      handed := p.handed ++ [ev] }

def frame (p : Pipeline) (env : Environment) (now : GoTime) (msg : Option DnstapMessage)
    (failsAfter : Option Nat) : Pipeline :=
  let received := { p with eventsReceived := p.eventsReceived + 1 }
  match msg.bind (process env now) with
  | some ev => { received with handed := p.handed ++ [ev] }.append ev failsAfter
  | none => received

def receive (p : Pipeline) (failsAfter : Option Nat) : Pipeline :=
  match p.channel with
  | [] => p
  | ev :: rest => { p with channel := rest }.append ev failsAfter

/-- The loop returns, and what the process held in memory is gone. -/
def close (p : Pipeline) : Pipeline := { p with running := false, channel := [], batch := [] }

def step (p : Pipeline) (label : Label) : Pipeline :=
  if p.running then
    match label with
    | .frame env now msg failsAfter => p.frame env now msg failsAfter
    | .offer ev => p.offer ev
    | .receive failsAfter => p.receive failsAfter
    | .tick failsAfter outcome => (p.flushToBuffer failsAfter).forwardFromBuffer outcome
    | .prune now fails => if fails then p else { p with buffer := p.buffer.prune now }
    | .close => p.close
  else p

def start (file : Bucket) (maxAge : Int) : Pipeline :=
  ⟨[], [], Buffer.open file maxAge, true, 0, 0, 0, 0, [], [], []⟩

end Pipeline

/-! ## Where the events are -/

/-- The events without the numbers that the buffer gives them. -/
def tally (events : List Event) : Multiset Event := events.map fun ev => { ev with eventSeq := 0 }

@[simp] theorem tally_nil : tally [] = 0 := rfl

@[simp] theorem tally_append (xs ys : List Event) : tally (xs ++ ys) = tally xs + tally ys := by
  rw [tally, List.map_append, ← Multiset.coe_add]
  rfl

@[simp] theorem card_tally (events : List Event) : (tally events).card = events.length := by
  rw [tally, Multiset.coe_card, List.length_map]

/-- Every event is in one place, and the metrics count those that left. -/
structure Accounted (pending : List Event) (p : Pipeline) : Prop where
  events : tally pending + tally p.handed = tally p.channel + tally p.batch +
    tally (decodable p.buffer.bucket) + tally p.shipped + tally p.dropped
  shipped : p.eventsShipped = p.shipped.length
  dropped : p.eventsDropped = p.dropped.length

theorem Accounted.count {pending : List Event} {p : Pipeline} (accounted : Accounted pending p) :
    pending.length + p.handed.length = p.channel.length + p.batch.length +
      (decodable p.buffer.bucket).length + p.eventsShipped + p.eventsDropped := by
  have cards := congrArg Multiset.card accounted.events
  simp only [Multiset.card_add, card_tally] at cards
  rw [accounted.shipped, accounted.dropped]
  exact cards

/-! ## The buffer's share -/

namespace Buffer

variable {buffer : Buffer}

theorem tally_putEvent (sound : buffer.Sound) (ev : Event) :
    tally (decodable (buffer.putEvent ev).bucket) = tally (decodable buffer.bucket) + tally [ev] := by
  have appended := OrderedMap.entries_put_last (some (Event.marshal { ev with eventSeq := buffer.seq + 1 }))
    fun entry member => Nat.lt_succ_of_le (sound.bounded entry member)
  rw [decodable, putEvent, appended, List.filterMap_append, tally_append]
  simp [tally, decodable]

theorem tally_putEvents (sound : buffer.Sound) (events : List Event) :
    tally (decodable (events.foldl putEvent buffer).bucket) =
      tally (decodable buffer.bucket) + tally events := by
  induction events generalizing buffer with
  | nil => simp
  | cons ev rest ih =>
      rw [List.foldl_cons, ih (sound_putEvent sound ev), tally_putEvent sound, add_assoc, ← tally_append]
      rfl

theorem sound_putBatch (sound : buffer.Sound) (events : List Event) (failsAfter : Option Nat) :
    (buffer.putBatch events failsAfter).Sound := by
  cases failsAfter with
  | none => exact (putEvents_spec sound events).1
  | some drawn => exact sound_failed sound _

theorem sound_prune (sound : buffer.Sound) (now : GoTime) : (buffer.prune now).Sound := by
  unfold prune
  split
  · exact sound
  · exact sound_retain sound _

/-- What is deleted after a peek is what was peeked. -/
theorem decodable_delete (sound : buffer.Sound) {limit : Nat} {last : Event}
    (final : (buffer.peek limit).getLast? = some last) :
    decodable buffer.bucket = buffer.peek limit ++ decodable (buffer.delete last.eventSeq).bucket := by
  obtain ⟨removed, kept, split, left, events, -⟩ := peekThenDelete sound.own final
  rw [decodable, decodable, split, left, List.filterMap_append, events]

end Buffer

/-! ## Steps that account for every event -/

structure Balanced (pending : List Event) (p : Pipeline) : Prop where
  accounted : Accounted pending p
  sound : p.buffer.Sound

namespace Pipeline

variable {pending : List Event} {p : Pipeline}

theorem balanced_flush (balanced : Balanced pending p) (failsAfter : Option Nat) :
    Balanced pending (p.flushToBuffer failsAfter) := by
  obtain ⟨⟨events, shipped, dropped⟩, sound⟩ := balanced
  unfold flushToBuffer
  split
  · exact ⟨⟨events, shipped, dropped⟩, sound⟩
  · cases failsAfter with
    | none =>
        refine ⟨⟨?_, shipped, dropped⟩, Buffer.sound_putBatch sound p.batch none⟩
        rw [events]
        simp only [Buffer.putBatch, Buffer.tally_putEvents sound, tally_nil]
        abel
    | some drawn =>
        refine ⟨⟨?_, shipped, ?_⟩, Buffer.sound_putBatch sound p.batch (some drawn)⟩
        · rw [events]
          simp only [Buffer.putBatch, tally_append, tally_nil]
          abel
        · simp only [List.length_append, dropped]

theorem balanced_append {ev : Event} (balanced : Balanced pending { p with batch := p.batch ++ [ev] })
    (failsAfter : Option Nat) : Balanced pending (p.append ev failsAfter) := by
  unfold append
  dsimp only
  split
  · exact balanced_flush balanced failsAfter
  · exact balanced

theorem balanced_forward (balanced : Balanced pending p) (outcome : Forward) :
    Balanced pending (p.forwardFromBuffer outcome) := by
  unfold forwardFromBuffer
  dsimp only
  split
  · rename_i last final
    obtain ⟨⟨events, shipped, dropped⟩, sound⟩ := balanced
    refine ⟨⟨?_, ?_, dropped⟩, Buffer.sound_retain sound _⟩
    · rw [events, Buffer.decodable_delete sound final]
      simp only [tally_append]
      abel
    · simp only [List.length_append, shipped]
  · exact balanced

theorem balanced_offer (balanced : Balanced pending p) (ev : Event) : Balanced pending (p.offer ev) := by
  obtain ⟨⟨events, shipped, dropped⟩, sound⟩ := balanced
  unfold offer
  split
  · refine ⟨⟨?_, shipped, dropped⟩, sound⟩
    simp only [tally_append]
    rw [← add_assoc, events]
    abel
  · refine ⟨⟨?_, shipped, ?_⟩, sound⟩
    · simp only [tally_append]
      rw [← add_assoc, events]
      abel
    · simp only [List.length_append, List.length_singleton, dropped]

theorem balanced_frame (balanced : Balanced pending p) (env : Environment) (now : GoTime)
    (msg : Option DnstapMessage) (failsAfter : Option Nat) :
    Balanced pending (p.frame env now msg failsAfter) := by
  obtain ⟨⟨events, shipped, dropped⟩, sound⟩ := balanced
  unfold frame
  dsimp only
  split
  · apply balanced_append
    refine ⟨⟨?_, shipped, dropped⟩, sound⟩
    simp only [tally_append]
    rw [← add_assoc, events]
    abel
  · exact ⟨⟨events, shipped, dropped⟩, sound⟩

theorem balanced_receive (balanced : Balanced pending p) (failsAfter : Option Nat) :
    Balanced pending (p.receive failsAfter) := by
  unfold receive
  split
  · exact balanced
  · rename_i ev rest waiting
    obtain ⟨⟨events, shipped, dropped⟩, sound⟩ := balanced
    apply balanced_append
    refine ⟨⟨?_, shipped, dropped⟩, sound⟩
    have taken : tally p.channel = tally [ev] + tally rest := by
      rw [waiting, ← tally_append]
      rfl
    rw [events, taken]
    simp only [tally_append]
    abel

/-! ## The two steps that lose events -/

theorem filterMap_filter_eq_iff {α β : Type} {f : α → Option β} {keeps : α → Bool} {xs : List α} :
    (xs.filter keeps).filterMap f = xs.filterMap f ↔ ∀ x ∈ xs, f x ≠ none → keeps x = true := by
  induction xs with
  | nil => simp
  | cons x rest ih =>
      have shorter : ((rest.filter keeps).filterMap f).length ≤ (rest.filterMap f).length :=
        (List.filter_sublist.filterMap f).length_le
      rw [List.forall_mem_cons, ← ih]
      cases kept : keeps x <;> cases found : f x
      · simp [kept, found]
      · rw [List.filter_cons_of_neg (by simp [kept]), List.filterMap_cons_some found]
        refine iff_of_false (fun same => ?_) (by simp)
        have lengths := congrArg List.length same
        rw [List.length_cons] at lengths
        omega
      · simp [kept, found]
      · simp [kept, found]

theorem balanced_prune_iff (balanced : Balanced pending p) (now : GoTime) :
    Balanced pending { p with buffer := p.buffer.prune now } ↔
      (0 < p.buffer.maxAge → ∀ entry ∈ p.buffer.bucket.entries, decode entry.2 ≠ none →
        Buffer.expired p.buffer.maxAge now entry.2 = false) := by
  obtain ⟨⟨events, shipped, dropped⟩, sound⟩ := balanced
  unfold Buffer.prune
  split
  · rename_i off
    exact iff_of_true ⟨⟨events, shipped, dropped⟩, sound⟩ fun on => absurd on (not_lt_of_ge off)
  · rename_i on
    rw [imp_iff_right (not_le.1 on)]
    let keeps : Nat × Stored → Bool := fun entry => !Buffer.expired p.buffer.maxAge now entry.2
    have stays : (∀ entry ∈ p.buffer.bucket.entries, decode entry.2 ≠ none →
        Buffer.expired p.buffer.maxAge now entry.2 = false) ↔
          decodable (p.buffer.bucket.retain keeps) = decodable p.buffer.bucket := by
      refine Iff.trans ?_ (filterMap_filter_eq_iff (f := fun entry : Nat × Stored => decode entry.2)).symm
      simp [keeps]
    rw [stays]
    constructor
    · rintro ⟨⟨after, -, -⟩, -⟩
      have same : tally (decodable p.buffer.bucket) = tally (decodable (p.buffer.bucket.retain keeps)) := by
        have both := events.symm.trans after
        simpa only [add_left_inj, add_right_inj] using both
      have lengths := congrArg Multiset.card same
      rw [card_tally, card_tally] at lengths
      have fewer : (decodable (p.buffer.bucket.retain keeps)).Sublist (decodable p.buffer.bucket) :=
        List.filter_sublist.filterMap _
      exact fewer.eq_of_length lengths.symm
    · intro same
      refine ⟨⟨?_, shipped, dropped⟩, Buffer.sound_retain sound _⟩
      rw [events]
      exact congrArg (fun events => _ + tally events + _ + _) same.symm

theorem balanced_close_iff (balanced : Balanced pending p) :
    Balanced pending p.close ↔ p.channel = [] ∧ p.batch = [] := by
  obtain ⟨⟨events, shipped, dropped⟩, sound⟩ := balanced
  constructor
  · rintro ⟨⟨after, -, -⟩, -⟩
    have cards := congrArg Multiset.card (events.symm.trans after)
    simp only [close, Multiset.card_add, card_tally, List.length_nil] at cards
    exact ⟨List.eq_nil_of_length_eq_zero (by omega), List.eq_nil_of_length_eq_zero (by omega)⟩
  · rintro ⟨noneWaiting, noneHeld⟩
    refine ⟨⟨?_, shipped, dropped⟩, sound⟩
    rw [noneWaiting, noneHeld] at events
    exact events

/-! ## Runs -/

/-- The step loses no event: a prune finds nothing too old, and the loop returns with nothing in
memory. -/
def Kept (p : Pipeline) (label : Label) : Prop :=
  p.running = true → match label with
    | .prune now false => 0 < p.buffer.maxAge → ∀ entry ∈ p.buffer.bucket.entries,
        decode entry.2 ≠ none → Buffer.expired p.buffer.maxAge now entry.2 = false
    | .close => p.channel = [] ∧ p.batch = []
    | _ => True

theorem balanced_step_iff (balanced : Balanced pending p) (label : Label) :
    Balanced pending (p.step label) ↔ p.Kept label := by
  unfold step Kept
  by_cases running : p.running = true
  · rw [if_pos running, imp_iff_right running]
    cases label with
    | frame env now msg failsAfter => exact iff_of_true (balanced_frame balanced env now msg failsAfter) trivial
    | offer ev => exact iff_of_true (balanced_offer balanced ev) trivial
    | receive failsAfter => exact iff_of_true (balanced_receive balanced failsAfter) trivial
    | tick failsAfter outcome =>
        exact iff_of_true (balanced_forward (balanced_flush balanced failsAfter) outcome) trivial
    | prune now fails =>
        cases fails with
        | true => exact iff_of_true balanced trivial
        | false => exact balanced_prune_iff balanced now
    | close => exact balanced_close_iff balanced
  · rw [if_neg running]
    exact iff_of_true balanced (absurd · running)

theorem sound_step (balanced : Balanced pending p) (label : Label) : (p.step label).buffer.Sound := by
  by_cases running : p.running = true
  · cases label with
    | prune now fails =>
        rw [step, if_pos running]
        cases fails with
        | true => exact balanced.sound
        | false => exact Buffer.sound_prune balanced.sound now
    | close =>
        rw [step, if_pos running]
        exact balanced.sound
    | _ => exact ((balanced_step_iff balanced _).mpr fun _ => trivial).sound
  · unfold step
    rw [if_neg running]
    exact balanced.sound

theorem balanced_start {file : Bucket} (maxAge : Int)
    (own : ∀ entry ∈ file, ∀ ev, decode entry.2 = some ev → ev.eventSeq = entry.1) :
    Balanced (decodable file) (start file maxAge) where
  accounted :=
    { events := by simp [start, Buffer.open]
      shipped := rfl
      dropped := rfl }
  sound := Buffer.sound_open maxAge own

end Pipeline

end PowerBlockade.Processor
