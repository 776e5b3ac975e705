import Mathlib.Algebra.Group.Nat.Defs
import PowerBlockade.Lib.Run
import PowerBlockade.Processor.Buffer

/-!
# The buffer file from open to crash

The calls as the processor makes them: a 64-bit counter, a cursor over the bucket, transactions that
may fail after they have drawn numbers, and a file that is all that a crash leaves.
-/

namespace PowerBlockade.Processor
open Lib

namespace Buffer

/-- `atomic.AddUint64`. -/
def draw (buffer : Buffer) (count : Nat) : Buffer := { buffer with seq := (buffer.seq + count) % 2 ^ 64 }

def nextSeq (buffer : Buffer) : Nat := (buffer.draw 1).seq

def write (buffer : Buffer) (ev : Event) : Buffer :=
  { buffer.draw 1 with
    bucket := buffer.bucket.put buffer.nextSeq
      (some (Event.marshal { ev with eventSeq := buffer.nextSeq })) }

def put (buffer : Buffer) (ev : Event) (fails : Bool) : Buffer :=
  if fails then buffer.draw 1 else buffer.write ev

/-- The transaction fails after some writes, and rolls them back. -/
def putAll (buffer : Buffer) (events : List Event) (failsAfter : Option Nat) : Buffer :=
  match failsAfter with
  | none => events.foldl write buffer
  | some drawn => buffer.draw (min drawn events.length)

/-- `Peek`, whose count only the decodable records raise. -/
def peekFrom : Nat → List (Nat × Stored) → List Event
  | 0, _ | _, [] => []
  | limit + 1, entry :: rest =>
      match decode entry.2 with
      | none => peekFrom (limit + 1) rest
      | some ev => ev :: peekFrom limit rest

/-- `Delete`, whose cursor stops at the first key above. -/
def deleteFrom (upToSeq : Nat) (entries : List (Nat × Stored)) : List (Nat × Stored) :=
  entries.dropWhile (·.1 ≤ upToSeq)

end Buffer

def decodable (bucket : Bucket) : List Event := bucket.entries.filterMap fun entry => decode entry.2

/-! ## The file and the process -/

inductive Handle
  | opened (buffer : Buffer)
  | closed (file : Bucket)

/-- `inserted`: the events the file began with and those since committed, in order. -/
structure Spool where
  handle : Handle
  inserted : List Event

inductive Call
  | «open» (maxAge : Int)
  | put (ev : Event) (fails : Bool)
  | putBatch (events : List Event) (failsAfter : Option Nat)
  | peek (limit : Nat)
  | delete (upToSeq : Nat)
  | prune (now : GoTime)
  | close
  | crash

namespace Call

def draws : Call → Nat
  | put _ _ => 1
  | putBatch events _ => events.length
  | _ => 0

/-- The events that the call commits. -/
def commits : Call → List Event
  | put ev false => [ev]
  | putBatch events none => events
  | _ => []

end Call

/-- The events with the numbers they are given. -/
def stamped (seq : Nat) : List Event → List Event
  | [] => []
  | ev :: rest => { ev with eventSeq := seq + 1 } :: stamped (seq + 1) rest

namespace Spool

def file (spool : Spool) : Bucket :=
  match spool.handle with
  | .opened buffer => buffer.bucket
  | .closed file => file

def start (file : Bucket) : Spool := ⟨.closed file, decodable file⟩

/-- A call on a closed buffer fails, and a second `Open` waits for the lock in vain. -/
def step (spool : Spool) (call : Call) : Spool :=
  match spool.handle, call with
  | .closed file, .open maxAge => { spool with handle := .opened (Buffer.open file maxAge) }
  | .closed _, _ => spool
  | .opened buffer, .put ev fails =>
      { handle := .opened (buffer.put ev fails)
        inserted := spool.inserted ++ stamped buffer.seq call.commits }
  | .opened buffer, .putBatch events failsAfter =>
      { handle := .opened (buffer.putAll events failsAfter)
        inserted := spool.inserted ++ stamped buffer.seq call.commits }
  | .opened buffer, .delete upToSeq => { spool with handle := .opened (buffer.delete upToSeq) }
  | .opened buffer, .prune now => { spool with handle := .opened (buffer.prune now) }
  | .opened buffer, .close | .opened buffer, .crash => { spool with handle := .closed buffer.bucket }
  | .opened _, .open _ | .opened _, .peek _ => spool

end Spool

/-! ## The cursors -/

namespace Buffer

variable {buffer : Buffer}

theorem peekFrom_eq (limit : Nat) (entries : List (Nat × Stored)) :
    peekFrom limit entries = (entries.filterMap fun entry => decode entry.2).take limit := by
  induction entries generalizing limit with
  | nil => cases limit <;> rfl
  | cons entry rest ih =>
      cases limit with
      | zero => rfl
      | succ limit =>
          rw [peekFrom, List.filterMap_cons]
          cases decode entry.2 with
          | none => exact ih (limit + 1)
          | some ev => exact congrArg (ev :: ·) (ih limit)

theorem peek_eq (buffer : Buffer) (limit : Nat) :
    buffer.peek limit = peekFrom limit buffer.bucket.entries := (peekFrom_eq limit _).symm

theorem delete_eq (buffer : Buffer) (upToSeq : Nat) :
    (buffer.delete upToSeq).bucket.entries = deleteFrom upToSeq buffer.bucket.entries :=
  (OrderedMap.dropWhile_le_key buffer.bucket.sorted upToSeq).symm

/-- Up to the last peeked number stand the peeked records and undecodable ones. -/
def PeekThenDelete (buffer : Buffer) (limit : Nat) (last : Event) : Prop :=
  ∃ removed kept, buffer.bucket.entries = removed ++ kept ∧
    (buffer.delete last.eventSeq).bucket.entries = kept ∧
    (removed.filterMap fun entry => decode entry.2) = buffer.peek limit ∧
    (removed.getLast?.bind fun entry => decode entry.2) = some last

theorem take_of_getLast? {xs ys : List Event} {x : Event} {limit : Nat}
    (distinct : ((xs ++ x :: ys).map (·.eventSeq)).Nodup)
    (final : ((xs ++ x :: ys).take limit).getLast? = some x) :
    (xs ++ x :: ys).take limit = xs ++ [x] := by
  rw [List.take_append] at final ⊢
  rw [List.map_append, List.map_cons, List.nodup_append, List.nodup_cons] at distinct
  obtain ⟨-, ⟨notLater, -⟩, apart⟩ := distinct
  rcases Nat.lt_or_ge xs.length limit with beyond | within
  · obtain ⟨more, rfl⟩ := Nat.exists_eq_add_of_lt beyond
    rw [List.take_of_length_le (by omega)] at final ⊢
    rw [show xs.length + more + 1 - xs.length = more + 1 by omega, List.take_succ_cons] at final ⊢
    cases rest : ys.take more with
    | nil => rfl
    | cons y others =>
        rw [rest, List.getLast?_append_of_ne_nil _ (List.cons_ne_nil _ _), List.getLast?_cons_cons] at final
        have later := List.mem_of_mem_take (rest ▸ List.mem_of_getLast? final)
        exact absurd (List.mem_map_of_mem later) notLater
  · rw [Nat.sub_eq_zero_of_le within, List.take_zero, List.append_nil] at final
    have earlier := List.mem_of_mem_take (List.mem_of_getLast? final)
    exact absurd rfl (apart _ (List.mem_map_of_mem earlier) _ List.mem_cons_self)

variable (own : ∀ entry ∈ buffer.bucket, ∀ ev, decode entry.2 = some ev → ev.eventSeq = entry.1)
include own

theorem decodable_sorted : (decodable buffer.bucket).Pairwise fun a b => a.eventSeq < b.eventSeq := by
  rw [decodable, List.pairwise_filterMap]
  refine buffer.bucket.sorted.imp_of_mem ?_
  intro a b left right before found decodedA other decodedB
  rw [own a left found decodedA, own b right other decodedB]
  exact before

theorem peekThenDelete {limit : Nat} {last : Event} (final : (buffer.peek limit).getLast? = some last) :
    PeekThenDelete buffer limit last := by
  have peeked := List.mem_of_mem_take (List.mem_of_getLast? final)
  obtain ⟨entry, member, decoded⟩ := List.mem_filterMap.1 peeked
  obtain ⟨before, after, split⟩ := List.append_of_mem member
  have key : last.eventSeq = entry.1 := own entry member last decoded
  have sorted := buffer.bucket.sorted
  rw [split, List.pairwise_append, List.pairwise_cons] at sorted
  obtain ⟨-, ⟨above, -⟩, below⟩ := sorted
  have here (rest : List (Nat × Stored)) : (entry :: rest).filterMap (fun entry => decode entry.2) =
      last :: rest.filterMap fun entry => decode entry.2 := List.filterMap_cons_some decoded
  have events : decodable buffer.bucket =
      before.filterMap (fun entry => decode entry.2) ++ last ::
        after.filterMap fun entry => decode entry.2 := by
    rw [decodable, split, List.filterMap_append, here]
  have distinct : ((decodable buffer.bucket).map (·.eventSeq)).Nodup :=
    List.pairwise_map.2 ((decodable_sorted own).imp fun less => ne_of_lt less)
  refine ⟨before ++ [entry], after, by rw [split, List.append_assoc, List.singleton_append], ?_, ?_, ?_⟩
  · have dropped : ∀ other ∈ before, ¬ entry.1 < other.1 := fun other there =>
      lt_asymm (below other there entry List.mem_cons_self)
    change buffer.bucket.entries.filter (fun other => last.eventSeq < other.1) = after
    rw [split, key, List.filter_append, List.filter_eq_nil_iff.2 (by simpa using dropped),
      List.nil_append, List.filter_cons_of_neg (by simp)]
    exact List.filter_eq_self.2 fun other there => decide_eq_true (above other there)
  · change _ = (decodable buffer.bucket).take limit
    change ((decodable buffer.bucket).take limit).getLast? = some last at final
    rw [events] at distinct final ⊢
    rw [take_of_getLast? distinct final, List.filterMap_append, here]
    rfl
  · rw [List.getLast?_concat]
    exact decoded

end Buffer

/-! ## What a put appends -/

def entryOf (ev : Event) : Nat × Stored := (ev.eventSeq, some ev.marshal)

theorem mem_stamped {seq : Nat} {events : List Event} {ev : Event} (member : ev ∈ stamped seq events) :
    seq < ev.eventSeq ∧ ev.eventSeq ≤ seq + events.length := by
  induction events generalizing seq with
  | nil => exact absurd member List.not_mem_nil
  | cons first rest ih =>
      rw [List.length_cons]
      rcases List.mem_cons.1 member with rfl | later
      · exact ⟨Nat.lt_succ_self _, by simp only; omega⟩
      · have bounds := ih later
        omega

theorem decode_entryOf (events : List Event) :
    ((events.map entryOf).filterMap fun entry => decode entry.2) = events := by
  rw [List.filterMap_map]
  exact (List.filterMap_congr fun ev _ => Buffer.decode_marshal ev).trans List.filterMap_some

theorem forall₂_stamped (seq : Nat) (events : List Event) :
    List.Forall₂ (fun entry ev => decode entry.2 = some { ev with eventSeq := entry.1 })
      ((stamped seq events).map entryOf) events := by
  induction events generalizing seq with
  | nil => exact .nil
  | cons ev rest ih => exact .cons (Buffer.decode_marshal _) (ih (seq + 1))

namespace Buffer

variable {buffer : Buffer}

theorem seq_draw {count : Nat} (room : buffer.seq + count < 2 ^ 64) :
    (buffer.draw count).seq = buffer.seq + count := Nat.mod_eq_of_lt room

theorem write_spec (ev : Event) (bounded : ∀ entry ∈ buffer.bucket.entries, entry.1 ≤ buffer.seq)
    (room : buffer.seq + 1 < 2 ^ 64) :
    (buffer.write ev).seq = buffer.seq + 1 ∧ (buffer.write ev).bucket.entries =
      buffer.bucket.entries ++ (stamped buffer.seq [ev]).map entryOf := by
  have next : buffer.nextSeq = buffer.seq + 1 := seq_draw room
  refine ⟨next, ?_⟩
  rw [write, next]
  exact OrderedMap.entries_put_last _ fun entry member => Nat.lt_succ_of_le (bounded entry member)

theorem writes_spec (events : List Event)
    (bounded : ∀ entry ∈ buffer.bucket.entries, entry.1 ≤ buffer.seq)
    (room : buffer.seq + events.length < 2 ^ 64) :
    (events.foldl write buffer).seq = buffer.seq + events.length ∧
      (events.foldl write buffer).bucket.entries =
        buffer.bucket.entries ++ (stamped buffer.seq events).map entryOf := by
  induction events generalizing buffer with
  | nil => exact ⟨rfl, (List.append_nil _).symm⟩
  | cons ev rest ih =>
      rw [List.length_cons] at room ⊢
      obtain ⟨seq, entries⟩ := write_spec ev bounded (by omega)
      have grown : ∀ entry ∈ (buffer.write ev).bucket.entries, entry.1 ≤ (buffer.write ev).seq := by
        intro entry member
        rw [entries, List.mem_append] at member
        rw [seq]
        rcases member with old | new
        · exact Nat.le_succ_of_le (bounded entry old)
        · rw [List.mem_singleton.1 new]
          exact le_rfl
      obtain ⟨seqAll, entriesAll⟩ := ih grown (by omega)
      rw [List.foldl_cons, seqAll, entriesAll, seq, entries, List.append_assoc]
      exact ⟨by omega, rfl⟩

end Buffer

/-- What a call leaves of the open buffer it puts into. -/
def Buffer.puts (buffer : Buffer) : Call → Buffer
  | .put ev fails => buffer.put ev fails
  | .putBatch events failsAfter => buffer.putAll events failsAfter
  | _ => buffer

/-- A put appends what it commits, and draws at least a number for each of them. -/
theorem Buffer.puts_spec {buffer : Buffer} {call : Call}
    (bounded : ∀ entry ∈ buffer.bucket.entries, entry.1 ≤ buffer.seq)
    (room : buffer.seq + call.draws < 2 ^ 64) :
    (buffer.puts call).bucket.entries =
        buffer.bucket.entries ++ (stamped buffer.seq call.commits).map entryOf ∧
      buffer.seq + call.commits.length ≤ (buffer.puts call).seq ∧
      (buffer.puts call).seq ≤ buffer.seq + call.draws := by
  have none : buffer.bucket.entries = buffer.bucket.entries ++ (stamped buffer.seq []).map entryOf :=
    (List.append_nil _).symm
  cases call with
  | put ev fails =>
      cases fails with
      | true =>
          have seq : (buffer.puts (.put ev true)).seq = buffer.seq + 1 := seq_draw room
          rw [seq]
          exact ⟨none, Nat.le_add_right _ _, le_rfl⟩
      | false =>
          obtain ⟨seq, entries⟩ := write_spec ev bounded room
          exact ⟨entries, seq.ge, seq.le⟩
  | putBatch events failsAfter =>
      cases failsAfter with
      | none =>
          obtain ⟨seq, entries⟩ := writes_spec events bounded room
          exact ⟨entries, seq.ge, seq.le⟩
      | some drawn =>
          have few : buffer.seq + min drawn events.length ≤ buffer.seq + events.length :=
            Nat.add_le_add_left (min_le_right _ _) _
          have seq : (buffer.puts (.putBatch events (some drawn))).seq =
              buffer.seq + min drawn events.length := seq_draw (few.trans_lt room)
          rw [seq]
          exact ⟨none, Nat.le_add_right _ _, few⟩
  | _ => exact ⟨none, le_rfl, le_rfl⟩

/-! ## Runs -/

namespace Spool

structure Sound (spool : Spool) : Prop where
  bounded : ∀ buffer, spool.handle = .opened buffer → ∀ entry ∈ buffer.bucket, entry.1 ≤ buffer.seq
  own : ∀ entry ∈ spool.file, ∀ ev, decode entry.2 = some ev → ev.eventSeq = entry.1
  order : (decodable spool.file).Sublist spool.inserted
  peek : ∀ buffer limit, spool.handle = .opened buffer →
    buffer.peek limit = (decodable buffer.bucket).take limit ∧
      ∀ last, (buffer.peek limit).getLast? = some last → buffer.PeekThenDelete limit last

/-- What a put does: its numbers are above every live key, and it appends one record for each event
that it commits. -/
def Appends (spool : Spool) (call : Call) : Prop :=
  ∀ buffer, spool.handle = .opened buffer → 0 < call.draws →
    (∀ entry ∈ buffer.bucket, entry.1 < buffer.nextSeq) ∧
      ∃ new, (spool.step call).file.entries = buffer.bucket.entries ++ new ∧
        (∀ old ∈ buffer.bucket, ∀ entry ∈ new, old.1 < entry.1) ∧
        List.Forall₂ (fun entry ev => decode entry.2 = some { ev with eventSeq := entry.1 }) new
          call.commits

/-- The counter, or what it will start from. -/
def reach (spool : Spool) : Nat :=
  match spool.handle with
  | .opened buffer => buffer.seq
  | .closed file => file.lastKey.getD 0

structure Held (spool : Spool) : Prop where
  bounded : ∀ entry ∈ spool.file.entries, entry.1 ≤ spool.reach
  own : ∀ entry ∈ spool.file, ∀ ev, decode entry.2 = some ev → ev.eventSeq = entry.1
  order : (decodable spool.file).Sublist spool.inserted

theorem Held.sound {spool : Spool} (held : spool.Held) : spool.Sound where
  bounded := by
    intro buffer opened
    have bounded := held.bounded
    rw [file, reach, opened] at bounded
    exact bounded
  own := held.own
  order := held.order
  peek := by
    intro buffer limit opened
    have own := held.own
    rw [file, opened] at own
    exact ⟨rfl, fun last final => Buffer.peekThenDelete own final⟩

theorem held_puts {spool : Spool} {buffer : Buffer} {call : Call} (held : spool.Held)
    (opened : spool.handle = .opened buffer) (room : spool.reach + call.draws < 2 ^ 64) :
    Held ⟨.opened (buffer.puts call), spool.inserted ++ stamped buffer.seq call.commits⟩ ∧
      (buffer.puts call).seq ≤ spool.reach + call.draws := by
  obtain ⟨bounded, own, order⟩ := held
  rw [reach, opened] at room
  rw [file, reach, opened] at bounded
  rw [file, opened] at own order
  rw [reach, opened]
  obtain ⟨entries, low, high⟩ := Buffer.puts_spec bounded room
  refine ⟨⟨?_, ?_, ?_⟩, high⟩
  · intro entry member
    simp only [file, reach, entries, List.mem_append, List.mem_map] at member ⊢
    rcases member with old | ⟨ev, new, rfl⟩
    · exact (bounded entry old).trans ((Nat.le_add_right _ _).trans low)
    · exact (mem_stamped new).2.trans low
  · intro entry member ev decoded
    simp only [file, OrderedMap.mem_def, entries, List.mem_append, List.mem_map] at member
    rcases member with old | ⟨new, -, rfl⟩
    · exact own entry old ev decoded
    · rw [← Option.some.inj ((Buffer.decode_marshal new).symm.trans decoded)]
      rfl
  · have appended : decodable (buffer.puts call).bucket =
        decodable buffer.bucket ++ stamped buffer.seq call.commits := by
      rw [decodable, entries, List.filterMap_append, decode_entryOf]
      rfl
    rw [file, appended]
    exact order.append (List.Sublist.refl _)

theorem held_retain {spool : Spool} {buffer : Buffer} (held : spool.Held)
    (opened : spool.handle = .opened buffer) (keeps : Nat × Stored → Bool) :
    Held ⟨.opened { buffer with bucket := buffer.bucket.retain keeps }, spool.inserted⟩ := by
  obtain ⟨bounded, own, order⟩ := held
  rw [file, reach, opened] at bounded
  rw [file, opened] at own order
  refine ⟨fun entry member => bounded entry (List.mem_filter.1 member).1,
    fun entry member => own entry (OrderedMap.mem_retain.1 member).1, ?_⟩
  exact (List.filter_sublist.filterMap _).trans order

theorem held_closed {spool : Spool} {buffer : Buffer} (held : spool.Held)
    (opened : spool.handle = .opened buffer) : Held ⟨.closed buffer.bucket, spool.inserted⟩ := by
  obtain ⟨-, own, order⟩ := held
  rw [file, opened] at own order
  refine ⟨fun entry member => ?_, own, order⟩
  obtain ⟨last, found, le⟩ := OrderedMap.le_lastKey buffer.bucket member
  simpa [reach, found] using le

theorem reach_closed {buffer : Buffer} (bounded : ∀ entry ∈ buffer.bucket.entries, entry.1 ≤ buffer.seq) :
    buffer.bucket.lastKey.getD 0 ≤ buffer.seq := by
  cases last : buffer.bucket.entries.getLast? with
  | none => simp [OrderedMap.lastKey, last]
  | some entry => simpa [OrderedMap.lastKey, last] using bounded entry (List.mem_of_getLast? last)

/-- One call keeps the file in order as long as its numbers do not run out. -/
theorem held_step {spool : Spool} {call : Call} (held : spool.Held)
    (room : spool.reach + call.draws < 2 ^ 64) :
    (spool.step call).Held ∧ (spool.step call).reach ≤ spool.reach + call.draws := by
  obtain ⟨handle, inserted⟩ := spool
  cases handle with
  | closed file =>
      cases call with
      | «open» maxAge => exact ⟨⟨held.bounded, held.own, held.order⟩, Nat.le_add_right _ _⟩
      | _ => exact ⟨held, Nat.le_add_right _ _⟩
  | opened buffer =>
      cases call with
      | put ev fails => exact held_puts held rfl room
      | putBatch events failsAfter => exact held_puts held rfl room
      | delete upToSeq => exact ⟨held_retain held rfl _, le_rfl⟩
      | prune now =>
          unfold step Buffer.prune
          dsimp only
          split
          · exact ⟨held, le_rfl⟩
          · exact ⟨held_retain held rfl _, le_rfl⟩
      | close | crash => exact ⟨held_closed held rfl, reach_closed held.bounded⟩
      | «open» | peek => exact ⟨held, le_rfl⟩

theorem appends_of_held {spool : Spool} {call : Call} (held : spool.Held)
    (room : spool.reach + call.draws < 2 ^ 64) : spool.Appends call := by
  intro buffer opened some
  have bounded := held.bounded
  rw [file, reach, opened] at bounded
  simp only [reach, opened] at room
  have next : buffer.nextSeq = buffer.seq + 1 := Buffer.seq_draw (by omega)
  obtain ⟨entries, -, -⟩ := Buffer.puts_spec bounded room
  have left : (spool.step call).file = (buffer.puts call).bucket := by
    unfold step
    rw [opened]
    cases call with
    | put | putBatch => rfl
    | _ => exact absurd some (lt_irrefl 0)
  rw [next, left, entries]
  refine ⟨fun entry member => Nat.lt_succ_of_le (bounded entry member), _, rfl, ?_,
    forall₂_stamped _ _⟩
  intro old before entry new
  obtain ⟨ev, member, rfl⟩ := List.mem_map.1 new
  exact (bounded old before).trans_lt (mem_stamped member).1

theorem held_start {file : Bucket}
    (own : ∀ entry ∈ file, ∀ ev, decode entry.2 = some ev → ev.eventSeq = entry.1) :
    (start file).Held where
  bounded := by
    intro entry member
    obtain ⟨last, found, le⟩ := OrderedMap.le_lastKey file member
    simpa [reach, start, found] using le
  own := own
  order := List.Sublist.refl _

def Room (spool : Spool) (call : Call) : Prop := spool.reach + call.draws < 2 ^ 64

theorem along_room {spool : Spool} {run : List Call} (held : spool.Held)
    (few : spool.reach + (run.map Call.draws).sum < 2 ^ 64) :
    Along step (fun spool call => spool.Held ∧ spool.Room call) spool run := by
  induction run generalizing spool with
  | nil => trivial
  | cons call rest ih =>
      rw [List.map_cons, List.sum_cons] at few
      have room : spool.Room call := by
        unfold Room
        omega
      obtain ⟨next, grown⟩ := held_step held room
      exact ⟨⟨held, room⟩, ih next (by omega)⟩

/-- Whatever is called, and whenever it crashes. -/
theorem spool_sound (file : Bucket) (run : List Call)
    (own : ∀ entry ∈ file, ∀ ev, decode entry.2 = some ev → ev.eventSeq = entry.1)
    (few : file.lastKey.getD 0 + (run.map Call.draws).sum < 2 ^ 64) :
    (∀ spool ∈ visited step (start file) run, spool.Sound) ∧ Along step Appends (start file) run := by
  have along : Along step (fun spool call => spool.Held ∧ spool.Room call) (start file) run :=
    along_room (held_start own) few
  refine ⟨fun spool member => ?_, along.imp fun spool call rooms => appends_of_held rooms.1 rooms.2⟩
  exact (visited_invariant (held_start own) along (fun _ _ held rooms => (held_step held rooms.2).1)
    spool member).sound

/-! ### A crash between two puts -/

def crashRun : List Call :=
  [.open 86400, .put Event.empty false, .putBatch [Event.empty, Event.empty] (some 1), .crash, .open 86400,
    .putBatch [Event.empty, Event.empty] none, .peek 2, .delete 2, .close]

theorem spool_sound_crashRun :
    (∀ spool ∈ visited step (start OrderedMap.empty) crashRun, spool.Sound) ∧
      Along step Appends (start OrderedMap.empty) crashRun :=
  spool_sound OrderedMap.empty crashRun (by simp) (by decide)

end Spool

end PowerBlockade.Processor
