import PowerBlockade.Delivery.System

/-!
# Exactly-once delivery

At-least-once sending, deletion up to the last acknowledged sequence number and an insert that skips
known ids together store every buffered event once.
-/

namespace PowerBlockade.Delivery
open Lib Primary Processor

variable {modelValidate : ModelValidate} {apiKey : Option String}

/-- The invariant: answered requests are stored, and the batch in flight covers the buffer up to its
last sequence number. -/
structure Sound (world : World) : Prop where
  buffer : world.buffer.Sound
  answered : ∀ request ∈ world.requests, request.answered = true → ∀ ev ∈ request.events,
    ev.eventID ≠ "" → world.primary.events.hasId ev.eventID = true
  waiting : ∀ attempt, world.waiting = some attempt → attempt.maxSeq ≤ world.buffer.seq ∧
    ∃ request, world.requests[attempt.request]? = some request ∧ ∀ entry ∈ world.buffer.bucket, ∀ ev,
      decode entry.2 = some ev → entry.1 ≤ attempt.maxSeq → ev ∈ request.events

def started (bucket : Bucket) (maxAge : Int) (primary : Database) : World :=
  ⟨Buffer.open bucket maxAge, none, [], primary⟩

/-- The decodable entries of the bucket carry their own key, as every writer leaves them. -/
def OwnKeys (bucket : Bucket) : Prop :=
  ∀ entry ∈ bucket, ∀ ev, decode entry.2 = some ev → ev.eventSeq = entry.1

theorem sound_started {bucket : Bucket} (own : OwnKeys bucket) (maxAge : Int) (primary : Database) :
    Sound (started bucket maxAge primary) where
  buffer := Buffer.sound_open maxAge own
  answered := by simp [started]
  waiting := by simp [started]

/-! ## One step -/

theorem sound_buffer {world : World} {buffer : Buffer} (sound : Sound world) (kept : buffer.Sound)
    (grown : world.buffer.seq ≤ buffer.seq)
    (fresh : ∀ entry ∈ buffer.bucket, entry ∈ world.buffer.bucket ∨ world.buffer.seq < entry.1) :
    Sound { world with buffer := buffer } where
  buffer := kept
  answered := sound.answered
  waiting := by
    intro attempt pending
    obtain ⟨bound, request, sent, covers⟩ := sound.waiting attempt pending
    refine ⟨bound.trans grown, request, sent, fun entry member ev decoded le => ?_⟩
    rcases fresh entry member with old | beyond
    · exact covers entry old ev decoded le
    · omega

theorem sound_idle {world : World} (sound : Sound world) : Sound { world with waiting := none } :=
  ⟨sound.buffer, sound.answered, by simp⟩

theorem sound_primary {world : World} {primary : Database} (sound : Sound world)
    (kept : world.primary.events.rows <+: primary.events.rows) :
    Sound { world with primary := primary } where
  buffer := sound.buffer
  answered := fun request sent done ev member named =>
    EventTable.hasId_mono kept (sound.answered request sent done ev member named)
  waiting := sound.waiting

theorem sound_forward {world : World} (sound : Sound world) : Sound (forwardFromBuffer world) := by
  unfold forwardFromBuffer
  split
  · rename_i last idle final
    refine ⟨sound.buffer, ?_, ?_⟩
    · intro request member done
      rcases List.mem_append.1 member with old | new
      · exact sound.answered request old done
      · rw [List.mem_singleton.1 new] at done
        contradiction
    · rintro attempt pending
      obtain rfl := Option.some.inj pending
      exact ⟨Buffer.last_le_seq sound.buffer final, _, List.getElem?_concat_length,
        fun entry member ev decoded le => Buffer.mem_peek sound.buffer.own final member decoded le⟩
  · exact sound

theorem sound_serve (accepts : AcceptsTyped modelValidate) {world : World} (sound : Sound world)
    (i : Nat) (now : DateTime) : Sound (serveRequest modelValidate apiKey world i now) := by
  unfold serveRequest
  split
  · exact sound
  · rename_i request sent
    split
    · exact sound
    · rename_i after count answered
      obtain ⟨kept, stored⟩ := ingest_stores accepts answered
      refine ⟨sound.buffer, ?_, ?_⟩
      · intro other member done ev present named
        rcases List.mem_or_eq_of_mem_set member with old | rfl
        · exact EventTable.hasId_mono kept (sound.answered other old done ev present named)
        · exact stored ev present named
      · intro attempt pending
        obtain ⟨bound, own, found, covers⟩ := sound.waiting attempt pending
        by_cases same : i = attempt.request
        · subst same
          obtain rfl := Option.some.inj (sent.symm.trans found)
          have inside := (List.getElem?_eq_some_iff.1 found).1
          exact ⟨bound, _, List.getElem?_set_self inside, covers⟩
        · exact ⟨bound, own, (List.getElem?_set_ne same).trans found, covers⟩

theorem sound_takeAnswer {world : World} (sound : Sound world) (deleteFails : Bool) :
    Sound (takeAnswer world deleteFails) := by
  unfold takeAnswer
  split
  · exact sound
  · split
    · cases deleteFails with
      | true => exact sound_idle sound
      | false =>
          exact sound_buffer (sound_idle sound) (Buffer.sound_retain sound.buffer _) le_rfl
            fun entry member => Or.inl (OrderedMap.mem_retain.1 member).1
    · exact sound

theorem sound_step (accepts : AcceptsTyped modelValidate) {world : World} (sound : Sound world)
    (label : Label) : Sound (step modelValidate apiKey world label) := by
  cases label with
  | putBatch events failsAfter =>
      cases failsAfter with
      | none =>
          obtain ⟨kept, grown, -, fresh, -⟩ := Buffer.putEvents_spec sound.buffer events
          exact sound_buffer sound kept grown fresh
      | some drawn =>
          exact sound_buffer sound (Buffer.sound_failed sound.buffer _) (Nat.le_add_right _ _)
            fun entry member => Or.inl member
  | forward => exact sound_forward sound
  | serve request now => exact sound_serve accepts sound request now
  | acknowledge deleteFails => exact sound_takeAnswer sound deleteFails
  | giveUp => exact sound_idle sound
  | prune now =>
      simp only [step, Buffer.prune]
      split
      · exact sound
      · exact sound_buffer sound (Buffer.sound_retain sound.buffer _) le_rfl
          fun entry member => Or.inl (OrderedMap.mem_retain.1 member).1
  | restart =>
      refine ⟨Buffer.sound_open _ sound.buffer.own, sound.answered, ?_⟩
      intro attempt pending
      contradiction
  | elsewhere timed => exact sound_primary sound (step_events _ timed)

/-! ## Who removes an entry -/

def Acknowledged (world : World) (ev : Event) (label : Label) : Prop :=
  label = .acknowledge false ∧
    ∃ request ∈ world.requests, request.answered = true ∧ ev ∈ request.events

def Pruned (world : World) (stored : Stored) (label : Label) : Prop :=
  ∃ now, label = .prune now ∧ 0 < world.buffer.maxAge ∧ Buffer.expired world.buffer.maxAge now stored = true

variable (modelValidate apiKey) in
theorem entry_step {world : World} (sound : Sound world) {entry : Nat × Stored} {ev : Event}
    (member : entry ∈ world.buffer.bucket) (decoded : decode entry.2 = some ev) (label : Label) :
    entry ∈ (step modelValidate apiKey world label).buffer.bucket ∨ Acknowledged world ev label ∨
      Pruned world entry.2 label := by
  cases label with
  | putBatch events failsAfter =>
      cases failsAfter with
      | none =>
          obtain ⟨-, -, old, -, -⟩ := Buffer.putEvents_spec sound.buffer events
          exact Or.inl (old entry member)
      | some drawn => exact Or.inl member
  | forward =>
      refine Or.inl ?_
      simp only [step, forwardFromBuffer]
      split <;> exact member
  | serve request now =>
      refine Or.inl ?_
      simp only [step, serveRequest]
      split
      · exact member
      · split <;> exact member
  | acknowledge deleteFails =>
      simp only [step, takeAnswer]
      split
      · exact Or.inl member
      · rename_i attempt pending
        split
        · rename_i answered
          cases deleteFails with
          | true => exact Or.inl member
          | false =>
              obtain ⟨-, request, sent, covers⟩ := sound.waiting attempt pending
              by_cases le : entry.1 ≤ attempt.maxSeq
              · rw [sent] at answered
                exact Or.inr (Or.inl ⟨rfl, request, List.mem_of_getElem? sent, answered,
                  covers entry member ev decoded le⟩)
              · exact Or.inl (OrderedMap.mem_retain.2 ⟨member, decide_eq_true (not_le.1 le)⟩)
        · exact Or.inl member
  | giveUp => exact Or.inl member
  | prune now =>
      simp only [step, Buffer.prune]
      split
      · exact Or.inl member
      · rename_i positive
        by_cases old : Buffer.expired world.buffer.maxAge now entry.2 = true
        · exact Or.inr (Or.inr ⟨now, rfl, not_le.1 positive, old⟩)
        · exact Or.inl (OrderedMap.mem_retain.2 ⟨member, by simp [old]⟩)
  | restart => exact Or.inl member
  | elsewhere timed => exact Or.inl member

/-! ## Runs -/

theorem hasId_step (accepts : AcceptsTyped modelValidate) {world : World} {eventId : String}
    (stored : world.primary.events.hasId eventId = true) (label : Label) :
    (step modelValidate apiKey world label).primary.events.hasId eventId = true := by
  refine EventTable.hasId_mono ?_ stored
  cases label with
  | putBatch | giveUp | prune | restart => exact List.prefix_rfl
  | forward =>
      simp only [step, forwardFromBuffer]
      split <;> exact List.prefix_rfl
  | serve request now =>
      simp only [step, serveRequest]
      split
      · exact List.prefix_rfl
      · split
        · exact List.prefix_rfl
        · rename_i after count answered
          exact (ingest_stores accepts answered).1
  | acknowledge deleteFails =>
      simp only [step, takeAnswer]
      split
      · exact List.prefix_rfl
      · split <;> exact List.prefix_rfl
  | elsewhere timed => exact step_events _ timed

def StoredOnce (db : Database) (eventId : String) : Prop :=
  (db.events.rows.filter (·.eventId = some eventId)).length = 1

theorem storedOnce_of_hasId {db : Database} {eventId : String}
    (stored : db.events.hasId eventId = true) : StoredOnce db eventId := by
  obtain ⟨row, member, named⟩ := EventTable.hasId_iff.1 stored
  have some : 0 < (db.events.rows.filter (·.eventId = some eventId)).length :=
    List.length_pos_of_mem (List.mem_filter.2 ⟨member, decide_eq_true named⟩)
  have one := EventTable.length_filter_le_one db.events eventId
  exact le_antisymm one some

def PrunedAlong (modelValidate : ModelValidate) (apiKey : Option String) (world : World)
    (entry : Nat × Stored) (run : List Label) : Prop :=
  ∃ before now after, run = before ++ .prune now :: after ∧
    entry ∈ (before.foldl (step modelValidate apiKey) world).buffer.bucket ∧
    Pruned (before.foldl (step modelValidate apiKey) world) entry.2 (.prune now)

theorem custody (accepts : AcceptsTyped modelValidate) {world : World} (sound : Sound world)
    {entry : Nat × Stored} {ev : Event} (member : entry ∈ world.buffer.bucket)
    (decoded : decode entry.2 = some ev) (named : ev.eventID ≠ "") (run : List Label) :
    entry ∈ (run.foldl (step modelValidate apiKey) world).buffer.bucket ∨
      StoredOnce (run.foldl (step modelValidate apiKey) world).primary ev.eventID ∨
      PrunedAlong modelValidate apiKey world entry run := by
  induction run generalizing world with
  | nil => exact Or.inl member
  | cons label rest ih =>
      rcases entry_step modelValidate apiKey sound member decoded label with
        here | ⟨-, request, sent, answered, inside⟩ | pruned
      · rcases ih (sound_step accepts sound label) here with held | stored | pruned
        · exact Or.inl held
        · exact Or.inr (Or.inl stored)
        · obtain ⟨before, now, after, rfl, present, aged⟩ := pruned
          exact Or.inr (Or.inr ⟨label :: before, now, after, rfl, present, aged⟩)
      · have stored := sound.answered request sent answered ev inside named
        refine Or.inr (Or.inl (storedOnce_of_hasId ?_))
        exact foldl_preserves (P := fun u : World => u.primary.events.hasId ev.eventID = true) (label :: rest)
          stored fun u label stored => hasId_step accepts stored label
      · obtain ⟨now, rfl, positive, aged⟩ := pruned
        exact Or.inr (Or.inr ⟨[], now, rest, rfl, member, now, rfl, positive, aged⟩)

theorem sound_run (accepts : AcceptsTyped modelValidate) {world : World} (sound : Sound world)
    (run : List Label) : Sound (run.foldl (step modelValidate apiKey) world) :=
  foldl_preserves run sound fun _ label kept => sound_step accepts kept label

def entryOf (ev : Event) (key : Nat) : Nat × Stored :=
  (key, some (Event.marshal { ev with eventSeq := key }))

theorem putBatch_entry {world : World} (sound : Sound world) {events : List Event} {ev : Event}
    (member : ev ∈ events) : ∃ key, entryOf ev key ∈
      (step modelValidate apiKey world (.putBatch events none)).buffer.bucket :=
  (Buffer.putEvents_spec sound.buffer events).2.2.2.2 ev member

def Delivered (modelValidate : ModelValidate) (apiKey : Option String) (world : World) (ev : Event)
    (run : List Label) : Prop :=
  ∃ key, entryOf ev key ∈ world.buffer.bucket ∧
    (entryOf ev key ∈ (run.foldl (step modelValidate apiKey) world).buffer.bucket ∨
      StoredOnce (run.foldl (step modelValidate apiKey) world).primary ev.eventID ∨
      PrunedAlong modelValidate apiKey world (entryOf ev key) run)

def lookup : Event where
  eventSeq := 0
  ts := "2024-05-01T12:00:00Z"
  clientIP := "192.0.2.7"
  qname := "example.org."
  qtype := ⟨1, rfl⟩
  rcode := GoInt.zero
  blocked := false
  latencyMS := ⟨12, rfl⟩
  eventID := "a1"
  blockReason := ""
  isInternal := false

/-- The first answer is lost and the processor restarts; the second request is a duplicate. -/
def retransmission : List Label :=
  [.forward, .serve 0 (minute 0), .giveUp, .restart, .forward, .serve 1 (minute 0), .acknowledge false]

end PowerBlockade.Delivery
