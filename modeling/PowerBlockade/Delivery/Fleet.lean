import PowerBlockade.Delivery.Wire
import PowerBlockade.Rollups.Freshness

/-!
# Many processors, one primary

Every node has its own buffer, requests and key; what they store meets in one table, which the rollup
job reads while they go on. The nodes do not see each other but in the primary.
-/

namespace PowerBlockade.Delivery

open Lib Primary Processor Rollups

/-! ## Where a step of one node takes its events from -/

section Sources

variable {modelValidate : ModelValidate} {apiKey : Option String}

/-- An event as the buffer numbered it. -/
def Numbered (ev sent : Event) : Prop := sent = { ev with eventSeq := sent.eventSeq }

theorem mem_putEvents {buffer : Buffer} {events : List Event} {entry : Nat × Processor.Stored}
    (member : entry ∈ (events.foldl Buffer.putEvent buffer).bucket) :
    entry ∈ buffer.bucket ∨ ∃ ev ∈ events, ∃ key, entry = entryOf ev key := by
  induction events generalizing buffer with
  | nil => exact Or.inl member
  | cons first rest ih =>
      rcases ih member with here | ⟨ev, later, found⟩
      · rcases OrderedMap.mem_put.1 here with new | ⟨old, -⟩
        · exact Or.inr ⟨first, List.mem_cons_self, _, new⟩
        · exact Or.inl old
      · exact Or.inr ⟨ev, List.mem_cons_of_mem _ later, found⟩

theorem bucket_step (world : World) (label : Label) {entry : Nat × Processor.Stored}
    (member : entry ∈ (step modelValidate apiKey world label).buffer.bucket) :
    entry ∈ world.buffer.bucket ∨
      ∃ events, label = .putBatch events none ∧ ∃ ev ∈ events, ∃ key, entry = entryOf ev key := by
  cases label with
  | putBatch events failsAfter =>
      cases failsAfter with
      | none => exact (mem_putEvents member).imp_right fun found => ⟨events, rfl, found⟩
      | some drawn => exact Or.inl member
  | forward =>
      simp only [step, forwardFromBuffer] at member
      split at member <;> exact Or.inl member
  | serve request now =>
      simp only [step, serveRequest] at member
      split at member
      · exact Or.inl member
      · split at member <;> exact Or.inl member
  | acknowledge deleteFails =>
      simp only [step, takeAnswer] at member
      split at member
      · exact Or.inl member
      · split at member
        · cases deleteFails with
          | true => exact Or.inl member
          | false => exact Or.inl (OrderedMap.mem_retain.1 member).1
        · exact Or.inl member
  | prune now =>
      simp only [step, Buffer.prune] at member
      split at member
      · exact Or.inl member
      · exact Or.inl (OrderedMap.mem_retain.1 member).1
  | giveUp | restart | elsewhere => exact Or.inl member

theorem requests_step (world : World) (label : Label) {request : Request}
    (member : request ∈ (step modelValidate apiKey world label).requests) :
    (∃ old ∈ world.requests, request.events = old.events) ∨
      ∀ ev ∈ request.events, ∃ entry ∈ world.buffer.bucket, decode entry.2 = some ev := by
  cases label with
  | forward =>
      simp only [step, forwardFromBuffer] at member
      split at member
      · rcases List.mem_append.1 member with old | new
        · exact Or.inl ⟨request, old, rfl⟩
        · rw [List.mem_singleton.1 new]
          refine Or.inr fun ev peeked => ?_
          obtain ⟨entry, held, decoded⟩ := List.mem_filterMap.1 (List.mem_of_mem_take peeked)
          exact ⟨entry, held, decoded⟩
      · exact Or.inl ⟨request, member, rfl⟩
  | serve i now =>
      simp only [step, serveRequest] at member
      split at member
      · exact Or.inl ⟨request, member, rfl⟩
      · rename_i served sent
        split at member
        · exact Or.inl ⟨request, member, rfl⟩
        · rcases List.mem_or_eq_of_mem_set member with old | rfl
          · exact Or.inl ⟨request, old, rfl⟩
          · exact Or.inl ⟨served, List.mem_of_getElem? sent, rfl⟩
  | acknowledge deleteFails =>
      simp only [step, takeAnswer] at member
      split at member
      · exact Or.inl ⟨request, member, rfl⟩
      · split at member <;> exact Or.inl ⟨request, member, rfl⟩
  | putBatch | giveUp | prune | restart | elsewhere => exact Or.inl ⟨request, member, rfl⟩

/-- What a request of another kind leaves of the events. -/
def StoresNothing (modelValidate : ModelValidate) (timed : Timed) : Prop :=
  ∀ db, (Primary.step modelValidate db timed).events = db.events

theorem rows_step (accepts : AcceptsTyped modelValidate) (world : World) (label : Label)
    (others : ∀ timed, label = .elsewhere timed → StoresNothing modelValidate timed) {row : DNSQueryEvent}
    (member : row ∈ (step modelValidate apiKey world label).primary.events.rows) :
    row ∈ world.primary.events.rows ∨
      ∃ request ∈ world.requests, ∃ ev ∈ request.events, ∃ now node clients,
        row = eventRow now node clients (received ev) := by
  cases label with
  | forward =>
      simp only [step, forwardFromBuffer] at member
      split at member <;> exact Or.inl member
  | serve i now =>
      simp only [step, serveRequest] at member
      split at member
      · exact Or.inl member
      · rename_i request sent
        split at member
        · exact Or.inl member
        · rename_i after count answered
          obtain ⟨node, -, -, -, effect⟩ := ingest_ok answered
          rcases effect with ⟨-, rfl⟩ | ⟨-, inserted, -⟩
          · exact Or.inl member
          · simp only [inserted] at member
            refine (EventTable.mem_insertAll member).imp_right fun new => ?_
            rw [ingestRows, filterMap_members accepts, List.map_map] at new
            obtain ⟨ev, present, rfl⟩ := List.mem_map.1 new
            exact ⟨request, List.mem_of_getElem? sent, ev, present, now, node, _, rfl⟩
  | acknowledge deleteFails =>
      simp only [step, takeAnswer] at member
      split at member
      · exact Or.inl member
      · split at member <;> exact Or.inl member
  | elsewhere timed =>
      rw [step] at member
      exact Or.inl (others timed rfl world.primary ▸ member)
  | putBatch | giveUp | prune | restart => exact Or.inl member

end Sources

namespace Fleet

/-- What one node has of a delivery. -/
structure Side where
  buffer : Buffer
  waiting : Option Attempt
  requests : List Request

structure World (ι : Type) where
  sides : ι → Side
  primary : Database
  table : RollupTable

/-- How the nodes are set up. -/
structure Site (ι : Type) where
  apiKey : ι → Option String
  env : ι → Environment

/-- What a node does with its buffer and the network. -/
inductive Link
  | forward
  | serve (request : Nat) (now : DateTime)
  | acknowledge (deleteFails : Bool)
  | giveUp
  | prune (now : GoTime)
  | restart

def Link.label : Link → Delivery.Label
  | forward => .forward
  | serve request now => .serve request now
  | acknowledge deleteFails => .acknowledge deleteFails
  | giveUp => .giveUp
  | prune now => .prune now
  | restart => .restart

inductive Label (ι : Type)
  /-- Frames that a node gets, each with its clock, and the `PutBatch` of their events. -/
  | frames (node : ι) (seen : List (GoTime × DnstapMessage)) (failsAfter : Option Nat)
  | link (node : ι) (link : Link)
  | elsewhere (timed : Timed)
  | rollupJob (now : DateTime)

section Steps

variable {ι : Type} [DecidableEq ι] (modelValidate : ModelValidate) (site : Site ι)

/-- The delivery that a node takes part in. -/
def World.view (world : World ι) (i : ι) : Delivery.World :=
  ⟨(world.sides i).buffer, (world.sides i).waiting, (world.sides i).requests, world.primary⟩

def act (world : World ι) (i : ι) (label : Delivery.Label) : World ι :=
  let after := Delivery.step modelValidate (site.apiKey i) (world.view i) label
  { world with
    sides := Function.update world.sides i ⟨after.buffer, after.waiting, after.requests⟩
    primary := after.primary }

/-- The answers that a node logs, with their times. -/
def sightings (env : Environment) (seen : List (GoTime × DnstapMessage)) : List (GoTime × Event) :=
  seen.filterMap fun frame => (process env frame.1 frame.2).map fun ev => (eventTime frame.1 frame.2, ev)

def step (world : World ι) : Label ι → World ι
  | .frames i seen failsAfter =>
      act modelValidate site world i (.putBatch ((sightings (site.env i) seen).map (·.2)) failsAfter)
  | .link i link => act modelValidate site world i link.label
  | .elsewhere timed => { world with primary := Primary.step modelValidate world.primary timed }
  | .rollupJob now => { world with table := Rollups.rollupJob world.primary.events.rows world.table now }

/-- What was buffered of what the nodes saw. -/
def Label.logged : Label ι → List (GoTime × Event)
  | .frames i seen none => sightings (site.env i) seen
  | .frames _ _ (some _) | .link _ _ | .elsewhere _ | .rollupJob _ => []

def logged (run : List (Label ι)) : List (GoTime × Event) := run.flatMap (Label.logged site)

end Steps

/-! ## Every logged answer is held somewhere, and nothing else is -/

section Accounted

variable {ι : Type} [DecidableEq ι] {modelValidate : ModelValidate} {site : Site ι}

/-- The invariant: what the buffers, the network and the table hold was logged, and what was logged is in
a buffer or in the table. -/
structure Accounted (seen : List (GoTime × Event)) (world : World ι) : Prop where
  sound : ∀ i, Sound (world.view i)
  spooled : ∀ i, ∀ entry ∈ (world.sides i).buffer.bucket, ∃ s ∈ seen, ∃ key, entry = entryOf s.2 key
  sent : ∀ i, ∀ request ∈ (world.sides i).requests, ∀ ev ∈ request.events, ∃ s ∈ seen, Numbered s.2 ev
  rows : ∀ row ∈ world.primary.events.rows, ∃ s ∈ seen, ∃ ev, Numbered s.2 ev ∧
    ∃ now node clients, row = eventRow now node clients (received ev)
  held : ∀ s ∈ seen, (∃ i key, entryOf s.2 key ∈ (world.sides i).buffer.bucket) ∨
    world.primary.events.hasId s.2.eventID = true

/-- The node does not age out anything that it still has to deliver. -/
def Unaged (world : World ι) : Label ι → Prop
  | .link i (.prune now) => ((world.sides i).buffer.prune now).bucket = (world.sides i).buffer.bucket
  | _ => True

theorem view_act_self (world : World ι) (i : ι) (label : Delivery.Label) :
    (act modelValidate site world i label).view i =
      Delivery.step modelValidate (site.apiKey i) (world.view i) label := by
  simp [act, World.view]

theorem view_act_other (world : World ι) {i j : ι} (other : j ≠ i) (label : Delivery.Label) :
    (act modelValidate site world i label).view j =
      { world.view j with
        primary := (Delivery.step modelValidate (site.apiKey i) (world.view i) label).primary } := by
  simp [act, World.view, other]

/-- What a node stores is new rows at the end. -/
theorem primary_step (accepts : AcceptsTyped modelValidate) {apiKey : Option String} (world : Delivery.World)
    (label : Delivery.Label) :
    world.primary.events.rows <+: (Delivery.step modelValidate apiKey world label).primary.events.rows := by
  cases label with
  | putBatch | giveUp | prune | restart => exact List.prefix_rfl
  | forward =>
      simp only [Delivery.step, forwardFromBuffer]
      split <;> exact List.prefix_rfl
  | serve request now =>
      simp only [Delivery.step, serveRequest]
      split
      · exact List.prefix_rfl
      · split
        · exact List.prefix_rfl
        · rename_i after count answered
          exact (ingest_stores accepts answered).1
  | acknowledge deleteFails =>
      simp only [Delivery.step, takeAnswer]
      split
      · exact List.prefix_rfl
      · split <;> exact List.prefix_rfl
  | elsewhere timed => exact step_events _ timed

theorem numbered_of_entry {ev sent : Event} {key : Nat} (decoded : decode (entryOf ev key).2 = some sent) :
    Numbered ev sent := by
  rw [entryOf, Buffer.decode_marshal] at decoded
  rw [Numbered, ← Option.some.inj decoded]

theorem accounted_act (accepts : AcceptsTyped modelValidate) {seen more : List (GoTime × Event)} {world : World ι}
    (accounted : Accounted seen world) (named : ∀ s ∈ seen, s.2.eventID ≠ "") (i : ι) {label : Delivery.Label}
    (others : ∀ timed, label ≠ .elsewhere timed)
    (put : ∀ events, label = .putBatch events none → events = more.map (·.2))
    (fresh : more ≠ [] → label = .putBatch (more.map (·.2)) none)
    (unaged : ∀ now, label = .prune now →
      ((world.sides i).buffer.prune now).bucket = (world.sides i).buffer.bucket) :
    Accounted (seen ++ more) (act modelValidate site world i label) where
  sound := by
    intro j
    by_cases same : j = i
    · subst same
      rw [view_act_self]
      exact sound_step accepts (accounted.sound j) label
    · rw [view_act_other world same]
      exact sound_primary (accounted.sound j) (primary_step accepts (world.view i) label)
  spooled := by
    intro j entry member
    by_cases same : j = i
    · subst same
      have inside : entry ∈ (Delivery.step modelValidate (site.apiKey j) (world.view j) label).buffer.bucket := by
        simpa [act] using member
      rcases bucket_step (world.view j) label inside with old | ⟨events, isPut, ev, present, key, found⟩
      · obtain ⟨s, logged, held⟩ := accounted.spooled j entry old
        exact ⟨s, List.mem_append_left _ logged, held⟩
      · rw [put events isPut] at present
        obtain ⟨s, logged, rfl⟩ := List.mem_map.1 present
        exact ⟨s, List.mem_append_right _ logged, key, found⟩
    · have old : entry ∈ (world.sides j).buffer.bucket := by simpa [act, same] using member
      obtain ⟨s, logged, held⟩ := accounted.spooled j entry old
      exact ⟨s, List.mem_append_left _ logged, held⟩
  sent := by
    intro j request member ev present
    by_cases same : j = i
    · subst same
      have inside : request ∈ (Delivery.step modelValidate (site.apiKey j) (world.view j) label).requests := by
        simpa [act] using member
      rcases requests_step (world.view j) label inside with ⟨old, before, events⟩ | peeked
      · obtain ⟨s, logged, numbered⟩ := accounted.sent j old before ev (events ▸ present)
        exact ⟨s, List.mem_append_left _ logged, numbered⟩
      · obtain ⟨entry, held, decoded⟩ := peeked ev present
        obtain ⟨s, logged, key, rfl⟩ := accounted.spooled j entry held
        exact ⟨s, List.mem_append_left _ logged, numbered_of_entry decoded⟩
    · have old : request ∈ (world.sides j).requests := by simpa [act, same] using member
      obtain ⟨s, logged, numbered⟩ := accounted.sent j request old ev present
      exact ⟨s, List.mem_append_left _ logged, numbered⟩
  rows := by
    intro row member
    have inside : row ∈ (Delivery.step modelValidate (site.apiKey i) (world.view i) label).primary.events.rows :=
      member
    rcases rows_step accepts (world.view i) label (fun timed same => absurd same (others timed)) inside with
      old | ⟨request, sent, ev, present, origin⟩
    · obtain ⟨s, logged, source⟩ := accounted.rows row old
      exact ⟨s, List.mem_append_left _ logged, source⟩
    · obtain ⟨s, logged, numbered⟩ := accounted.sent i request sent ev present
      exact ⟨s, List.mem_append_left _ logged, ev, numbered, origin⟩
  held := by
    intro s member
    have grown : world.primary.events.rows <+: (act modelValidate site world i label).primary.events.rows :=
      primary_step accepts (world.view i) label
    rcases List.mem_append.1 member with old | new
    · rcases accounted.held s old with ⟨j, key, inside⟩ | stored
      · by_cases same : j = i
        · subst same
          rcases entry_step modelValidate (site.apiKey j) (accounted.sound j) inside (Buffer.decode_marshal _) label with
            here | ⟨-, request, sent, answered, inBatch⟩ | ⟨now, rfl, -⟩
          · exact Or.inl ⟨j, key, by simpa [act] using here⟩
          · have stored := (accounted.sound j).answered request sent answered _ inBatch (named s old)
            exact Or.inr (EventTable.hasId_mono grown stored)
          · refine Or.inl ⟨j, key, ?_⟩
            simpa [act, Delivery.step, World.view, unaged now rfl] using inside
        · exact Or.inl ⟨j, key, by simpa [act, same] using inside⟩
      · exact Or.inr (EventTable.hasId_mono grown stored)
    · have isPut := fresh (List.ne_nil_of_mem new)
      subst isPut
      have put : ∃ key, entryOf s.2 key ∈ (Delivery.step modelValidate (site.apiKey i) (world.view i)
          (.putBatch (more.map (·.2)) none)).buffer.bucket := putBatch_entry (accounted.sound i) (List.mem_map_of_mem new)
      obtain ⟨key, inside⟩ := put
      exact Or.inl ⟨i, key, by simpa [act] using inside⟩

theorem mem_sightings {env : Environment} {seen : List (GoTime × DnstapMessage)} {s : GoTime × Event}
    (member : s ∈ sightings env seen) :
    ∃ frame ∈ seen, process env frame.1 frame.2 = some s.2 ∧ s.1 = eventTime frame.1 frame.2 := by
  obtain ⟨frame, present, made⟩ := List.mem_filterMap.1 member
  obtain ⟨ev, accepted, rfl⟩ := Option.map_eq_some_iff.1 made
  exact ⟨frame, present, accepted, rfl⟩

/-- An answer as the processor logs it. -/
structure Genuine (s : GoTime × Event) : Prop where
  named : s.2.eventID ≠ ""
  ts : s.2.ts = GoTime.formatRFC3339Nano s.1

theorem genuine_of_sighting {env : Environment} {seen : List (GoTime × DnstapMessage)} {s : GoTime × Event}
    (member : s ∈ sightings env seen) : Genuine s := by
  obtain ⟨frame, -, accepted, time⟩ := mem_sightings member
  obtain ⟨clientIP, dnsMsg, question, -, -, made⟩ := process_some accepted
  constructor
  · rw [made]
    exact makeEvent_eventID_ne _ _ _ _ _ _ _
  · rw [made, time]
    rfl

omit [DecidableEq ι] in
theorem genuine_of_label {label : Label ι} {s : GoTime × Event} (inside : s ∈ label.logged site) : Genuine s := by
  cases label with
  | frames i seen failsAfter =>
      cases failsAfter with
      | none => exact genuine_of_sighting inside
      | some drawn => exact absurd inside List.not_mem_nil
  | link | elsewhere | rollupJob => exact absurd inside List.not_mem_nil

omit [DecidableEq ι] in
theorem genuine_of_logged {run : List (Label ι)} {s : GoTime × Event} (member : s ∈ logged site run) : Genuine s := by
  obtain ⟨label, -, inside⟩ := List.mem_flatMap.1 member
  exact genuine_of_label inside

/-- The other requests to the primary are not batches of events. -/
def Quiet (modelValidate : ModelValidate) : Label ι → Prop
  | .elsewhere timed => StoresNothing modelValidate timed
  | _ => True

theorem accounted_step (accepts : AcceptsTyped modelValidate) {seen : List (GoTime × Event)} {world : World ι}
    (accounted : Accounted seen world) (named : ∀ s ∈ seen, s.2.eventID ≠ "") (label : Label ι)
    (unaged : Unaged world label) (quiet : Quiet modelValidate label) :
    Accounted (seen ++ label.logged site) (step modelValidate site world label) := by
  cases label with
  | frames i frames failsAfter =>
      cases failsAfter with
      | none =>
          exact accounted_act accepts accounted named i (fun _ => Delivery.Label.noConfusion)
            (fun events same => (Delivery.Label.putBatch.inj same).1.symm) (fun _ => rfl)
            (fun _ => Delivery.Label.noConfusion)
      | some drawn =>
          refine accounted_act accepts accounted named i (fun _ => Delivery.Label.noConfusion) ?_
            (fun nonempty => absurd rfl nonempty) (fun _ => Delivery.Label.noConfusion)
          intro events same
          exact nomatch (Delivery.Label.putBatch.inj same).2
  | link i link =>
      refine accounted_act accepts accounted named i ?_ ?_ (fun nonempty => absurd rfl nonempty) ?_
      · cases link <;> exact fun _ => Delivery.Label.noConfusion
      · cases link <;> exact fun _ => Delivery.Label.noConfusion
      · intro now same
        cases link with
        | prune then_ =>
            obtain rfl := Delivery.Label.prune.inj same
            exact unaged
        | forward | serve | acknowledge | giveUp | restart => exact Delivery.Label.noConfusion same
  | elsewhere timed =>
      have events : (step modelValidate site world (.elsewhere timed)).primary.events = world.primary.events :=
        quiet world.primary
      have none_logged : seen ++ (Label.elsewhere timed : Label ι).logged site = seen := List.append_nil _
      rw [none_logged]
      refine ⟨fun i => ?_, accounted.spooled, accounted.sent, fun row member => ?_, fun s member => ?_⟩
      · exact sound_primary (accounted.sound i) (by rw [events]; exact List.prefix_rfl)
      · rw [events] at member
        exact accounted.rows row member
      · rw [events]
        exact accounted.held s member
  | rollupJob now =>
      have none_logged : seen ++ (Label.rollupJob now : Label ι).logged site = seen := List.append_nil _
      rw [none_logged]
      exact ⟨accounted.sound, accounted.spooled, accounted.sent, accounted.rows, accounted.held⟩

/-- Empty buffers, and no events at the primary. -/
structure Fresh (world : World ι) : Prop where
  buffers : ∀ i, ∃ maxAge, world.sides i = ⟨Buffer.open .empty maxAge, none, []⟩
  events : world.primary.events.rows = []
  table : world.table = KeyedTable.empty

omit [DecidableEq ι] in
theorem accounted_fresh {world : World ι} (fresh : Fresh world) : Accounted [] world where
  sound := by
    intro i
    obtain ⟨maxAge, side⟩ := fresh.buffers i
    rw [World.view, side]
    exact sound_started (fun entry member => absurd member List.not_mem_nil) maxAge world.primary
  spooled := by
    intro i entry member
    obtain ⟨maxAge, side⟩ := fresh.buffers i
    rw [side] at member
    exact absurd member List.not_mem_nil
  sent := by
    intro i request member
    obtain ⟨maxAge, side⟩ := fresh.buffers i
    rw [side] at member
    exact absurd member List.not_mem_nil
  rows := by
    intro row member
    rw [fresh.events] at member
    exact absurd member List.not_mem_nil
  held := fun s member => absurd member List.not_mem_nil

theorem accounted_after (accepts : AcceptsTyped modelValidate) {seen : List (GoTime × Event)} {world : World ι}
    (accounted : Accounted seen world) (genuine : ∀ s ∈ seen, Genuine s) {run : List (Label ι)}
    (unaged : Along (step modelValidate site) Unaged world run) (quiet : ∀ label ∈ run, Quiet modelValidate label) :
    Accounted (seen ++ logged site run) (run.foldl (step modelValidate site) world) := by
  induction run generalizing seen world with
  | nil => simpa [logged] using accounted
  | cons label rest ih =>
      obtain ⟨quietFirst, quietRest⟩ := List.forall_mem_cons.1 quiet
      have next : Accounted (seen ++ label.logged site) (step modelValidate site world label) :=
        accounted_step accepts accounted (fun s member => (genuine s member).named) label unaged.1 quietFirst
      have split : logged site (label :: rest) = label.logged site ++ logged site rest := List.flatMap_cons
      rw [split, ← List.append_assoc, List.foldl_cons]
      refine ih next (fun s member => ?_) unaged.2 quietRest
      rcases List.mem_append.1 member with old | new
      · exact genuine s old
      · exact genuine_of_label new

theorem accounted_run (accepts : AcceptsTyped modelValidate) {world : World ι} (fresh : Fresh world)
    {run : List (Label ι)} (unaged : Along (step modelValidate site) Unaged world run)
    (quiet : ∀ label ∈ run, Quiet modelValidate label) :
    Accounted (logged site run) (run.foldl (step modelValidate site) world) := by
  have accounted := accounted_after accepts (accounted_fresh fresh) (fun s member => absurd member List.not_mem_nil)
    unaged quiet
  rwa [List.nil_append] at accounted

end Accounted

/-! ## What the rows count -/

section Counts

variable {ι : Type} {seen : List (GoTime × Event)} {world : World ι}

/-- Python's `datetime` can hold the times, and answers with one id have one time and one kind of client. -/
structure Distinct (seen : List (GoTime × Event)) : Prop where
  readable : ∀ s ∈ seen, 0 ≤ s.1 / 1000 ∧ s.1 / 1000 < maxMicros
  identified : ∀ s ∈ seen, ∀ t ∈ seen, s.2.eventID = t.2.eventID →
    s.1 / 1000 = t.1 / 1000 ∧ s.2.isInternal = t.2.isInternal

def Drained (world : World ι) : Prop := ∀ i, ∀ entry, entry ∉ (world.sides i).buffer.bucket

/-- An answer to a client that is not internal, in the window. -/
def within (start stop : Int) (s : GoTime × Event) : Bool :=
  start ≤ s.1 / 1000 && s.1 / 1000 < stop && !s.2.isInternal

/-- The ids of the answers of the window, each once. -/
def answerIds (seen : List (GoTime × Event)) (start stop : Int) : List String :=
  ((seen.filter (within start stop)).map (·.2.eventID)).dedup

theorem row_of_numbered {s : GoTime × Event} (genuine : Genuine s)
    (readable : 0 ≤ s.1 / 1000 ∧ s.1 / 1000 < maxMicros) {ev : Event} (numbered : Numbered s.2 ev)
    (now : DateTime) (node : Node) (clients : List Client) :
    (eventRow now node clients (received ev)).eventId = some s.2.eventID ∧
      (eventRow now node clients (received ev)).ts = s.1 / 1000 ∧
        (eventRow now node clients (received ev)).isInternal = s.2.isInternal := by
  rw [Numbered] at numbered
  refine ⟨?_, ?_, ?_⟩
  · rw [numbered]
    exact if_neg genuine.named
  · refine (storedTime_iff now s.1 (received ev) ?_).2 readable
    rw [numbered]
    exact congrArg some genuine.ts
  · rw [numbered]
    rfl

/-- Once the buffers are empty, the table has a row for each id. -/
theorem length_external (accounted : Accounted seen world) (genuine : ∀ s ∈ seen, Genuine s)
    (distinct : Distinct seen) (drained : Drained world) (start stop : Int) :
    (external world.primary.events.rows start stop).length = (answerIds seen start stop).length := by
  have source (row : DNSQueryEvent) (member : row ∈ world.primary.events.rows) :
      ∃ s ∈ seen, row.eventId = some s.2.eventID ∧ row.ts = s.1 / 1000 ∧ row.isInternal = s.2.isInternal := by
    obtain ⟨s, logged, ev, numbered, now, node, clients, rfl⟩ := accounted.rows row member
    exact ⟨s, logged, row_of_numbered (genuine s logged) (distinct.readable s logged) numbered now node clients⟩
  have kept := List.filter_sublist (p := fun event : DNSQueryEvent =>
    start ≤ event.ts && event.ts < stop && !event.isInternal) (l := world.primary.events.rows)
  have unique : ((external world.primary.events.rows start stop).filterMap (·.eventId)).Nodup :=
    (kept.filterMap _).nodup world.primary.events.unique
  have every : ((external world.primary.events.rows start stop).filterMap (·.eventId)).length =
      (external world.primary.events.rows start stop).length := by
    rw [List.length_filterMap_eq_countP, List.countP_eq_length]
    intro row member
    obtain ⟨s, -, named, -⟩ := source row (kept.subset member)
    rw [named]
    rfl
  have same : ((external world.primary.events.rows start stop).filterMap (·.eventId)).Perm
      (answerIds seen start stop) := by
    refine (List.perm_ext_iff_of_nodup unique (List.nodup_dedup _)).2 fun eventId => ?_
    rw [List.mem_filterMap, List.mem_dedup, List.mem_map]
    constructor
    · rintro ⟨row, member, named⟩
      obtain ⟨present, inside⟩ := List.mem_filter.1 member
      obtain ⟨s, logged, id, ts, internal⟩ := source row present
      refine ⟨s, List.mem_filter.2 ⟨logged, ?_⟩, Option.some.inj (id.symm.trans named)⟩
      rw [within, ← ts, ← internal]
      exact inside
    · rintro ⟨s, member, rfl⟩
      obtain ⟨logged, inside⟩ := List.mem_filter.1 member
      have stored := (accounted.held s logged).resolve_left fun ⟨i, key, here⟩ => drained i _ here
      obtain ⟨row, present, named⟩ := EventTable.hasId_iff.1 stored
      obtain ⟨t, alsoLogged, id, ts, internal⟩ := source row present
      have sameId : t.2.eventID = s.2.eventID := Option.some.inj (id.symm.trans named)
      obtain ⟨time, kind⟩ := distinct.identified t alsoLogged s logged sameId
      refine ⟨row, List.mem_filter.2 ⟨present, ?_⟩, named⟩
      rw [within, ← time, ← kind, ← ts, ← internal] at inside
      exact inside
  rw [← every, same.length_eq]

end Counts

end Fleet

end PowerBlockade.Delivery
