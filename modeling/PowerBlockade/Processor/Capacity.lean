import PowerBlockade.Processor.Spool

/-!
# The configured size of the buffer

`Open` takes `maxBytes` and keeps it; no call reads it.
-/

namespace PowerBlockade.Processor
open Lib

def total (valueSize : Stored → Nat) (entries : List (Nat × Stored)) : Nat :=
  (entries.map fun entry => valueSize entry.2).sum

def Call.isPut : Call → Bool
  | put .. | putBatch .. => true
  | _ => false

namespace Spool

variable (valueSize : Stored → Nat) (maxBytes : Int)

/-- After a put the stored records fit, and those that had to go are the oldest. -/
def Bounded (spool : Spool) (call : Call) : Prop :=
  ∀ buffer, spool.handle = .opened buffer → call.isPut = true → 0 < maxBytes →
    (total valueSize (spool.step call).file.entries : Int) ≤ maxBytes ∧
      ∃ discarded, buffer.bucket.entries ++ (stamped buffer.seq call.commits).map entryOf =
        discarded ++ (spool.step call).file.entries

/-- What is stored and what the put commits fit together. -/
def Fits (spool : Spool) (call : Call) : Prop :=
  ∀ buffer, spool.handle = .opened buffer → call.isPut = true → 0 < maxBytes →
    (total valueSize buffer.bucket.entries +
      total valueSize ((stamped buffer.seq call.commits).map entryOf) : Int) ≤ maxBytes

variable {spool : Spool} {call : Call}

theorem entries_put {buffer : Buffer} (held : spool.Held) (room : spool.Room call)
    (opened : spool.handle = .opened buffer) (puts : call.isPut = true) :
    (spool.step call).file.entries =
      buffer.bucket.entries ++ (stamped buffer.seq call.commits).map entryOf := by
  have bounded := held.bounded
  simp only [file, reach, opened] at bounded
  simp only [Room, reach, opened] at room
  rw [← (Buffer.puts_spec bounded room).1]
  unfold step
  rw [opened]
  cases call with
  | put | putBatch => rfl
  | _ => exact absurd puts Bool.false_ne_true

theorem bounded_iff_fits (held : spool.Held) (room : spool.Room call) :
    spool.Bounded valueSize maxBytes call ↔ spool.Fits valueSize maxBytes call := by
  refine forall_congr' fun buffer => forall_congr' fun opened => forall_congr' fun puts =>
    imp_congr_right fun _ => ?_
  rw [entries_put held room opened puts, total, List.map_append, List.sum_append, Nat.cast_add]
  exact and_iff_left ⟨[], rfl⟩

/-- The bound holds after every put of a run exactly when no put ever finds too little room. -/
theorem bounded_run_iff (valueSize : Stored → Nat) (maxBytes : Int) (file : Bucket) (run : List Call)
    (own : ∀ entry ∈ file, ∀ ev, decode entry.2 = some ev → ev.eventSeq = entry.1)
    (few : file.lastKey.getD 0 + (run.map Call.draws).sum < 2 ^ 64) :
    Along step (Bounded valueSize maxBytes) (start file) run ↔
      Along step (Fits valueSize maxBytes) (start file) run :=
  along_congr (P := fun _ => True) trivial (along_room (held_start own) few) (fun _ _ _ _ => trivial)
    fun _ _ _ rooms => bounded_iff_fits valueSize maxBytes rooms.1 rooms.2

end Spool

/-! ## One event in a buffer of a hundred bytes -/

/-- The bytes of a character in a string that `json.Marshal` writes. -/
def charSize (c : Char) : Nat :=
  if c = '"' ∨ c = '\\' ∨ c = '\n' ∨ c = '\r' ∨ c = '\t' ∨ c = '\x08' ∨ c = '\x0c' then 2
  else if c.toNat < 32 ∨ c = '<' ∨ c = '>' ∨ c = '&' ∨ c = '\u2028' ∨ c = '\u2029' then 6
  else c.utf8Size

def stringSize (text : String) : Nat := 2 + (text.toList.map charSize).sum

def scalarSize : Json → Nat
  | .bool b => if b then 4 else 5
  | .integer n => (toString n).length
  | .string text => stringSize text
  | _ => 4

/-- The bytes of an event's JSON, with a colon and a comma or brace for each member. -/
def marshalSize : Stored → Nat
  | some (.object members) =>
      1 + (members.map fun member => stringSize member.1 + scalarSize member.2 + 2).sum
  | _ => 0

def lookupEvent : Event :=
  { Event.empty with
    ts := "2024-05-01T12:00:00Z"
    clientIP := "192.168.1.20"
    qname := "example.com."
    qtype := ⟨1, by decide⟩ }

def oneLookup : List Call := [.open 86400, .put lookupEvent false]

theorem put_beyond_maxBytes :
    ¬ ∀ (maxBytes : Int) (file : Bucket) (run : List Call),
      (∀ entry ∈ file, ∀ ev, decode entry.2 = some ev → ev.eventSeq = entry.1) →
      file.lastKey.getD 0 + (run.map Call.draws).sum < 2 ^ 64 →
        Along Spool.step (Spool.Bounded marshalSize maxBytes) (Spool.start file) run := by
  intro bounded
  have along := bounded 100 OrderedMap.empty oneLookup (by simp) (by decide)
  have within := (along.2.1 _ rfl rfl (by decide)).1
  exact absurd within (by decide)

theorem bounded_run_iff_lookup :
    Along Spool.step (Spool.Bounded marshalSize 1000) (Spool.start OrderedMap.empty) oneLookup ↔
      Along Spool.step (Spool.Fits marshalSize 1000) (Spool.start OrderedMap.empty) oneLookup :=
  Spool.bounded_run_iff marshalSize 1000 OrderedMap.empty oneLookup (by simp) (by decide)

end PowerBlockade.Processor
