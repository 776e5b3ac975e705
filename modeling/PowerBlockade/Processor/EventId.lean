import Mathlib.Data.Set.Function
import PowerBlockade.Delivery.Wire
import PowerBlockade.Lib.Decimal
import PowerBlockade.Lib.Run
import PowerBlockade.Lib.Utf8
import PowerBlockade.Processor.Address

/-!
# What an event id identifies

The id hashes six fields with bars between them. The name of the node is fixed, neither the time nor the
address has a bar, and the two numbers have none: whatever bars the name has, the fields are read back
from both ends.
-/

namespace PowerBlockade.Processor.EventId
open Lib Primary Delivery

/-- A call of `makeEvent`, with the address as its bytes and the sets that `loadSets` leaves. -/
structure Call where
  ts : GoTime
  address : List UInt8
  qname : String
  qtype : GoInt
  rcode : GoInt
  latencyMS : GoInt
  blockedSet : List String
  allowSet : List String

def Call.event (env : Environment) (call : Call) : Event :=
  makeEvent { env with blockedSet := call.blockedSet, allowSet := call.allowSet } call.ts (ipString call.address) call.qname call.qtype call.rcode call.latencyMS

def normQName (env : Environment) (qname : String) : String := trimDot (env.lower qname)

/-- What is hashed. -/
def Call.text (env : Environment) (call : Call) : String :=
  let text := GoTime.formatRFC3339Nano call.ts
  s!"{env.nodeName}|{text}|{ipString call.address}|{normQName env call.qname}|{call.qtype.1}|{call.rcode.1}"

def Call.message (env : Environment) (call : Call) : List UInt8 := (call.text env).toUTF8.toList

theorem eventID_event (env : Environment) (call : Call) :
    (call.event env).eventID = Sha256.hexDigest (call.message env) := rfl

/-- The calls are of one time, one address and one question, and have one answer. -/
structure Alike (env : Environment) (a b : Call) : Prop where
  ts : a.ts = b.ts
  clientIP : ipString a.address = ipString b.address
  qname : normQName env a.qname = normQName env b.qname
  qtype : a.qtype = b.qtype
  rcode : a.rcode = b.rcode

/-! ## Reading the fields back -/

theorem bar_not_mem_ts (t : GoTime) : '|' ∉ (GoTime.formatRFC3339Nano t).toList := by
  rw [GoTime.toList_formatRFC3339Nano]
  intro member
  rcases List.mem_append.mp member with local_ | zulu
  · rcases GoTime.mem_localChars local_ with digit | mark
    · contradiction
    · exact absurd mark (by decide)
  · exact absurd zulu (by decide)

theorem bar_not_mem_int (n : Int) : '|' ∉ (toString n).toList := by
  intro member
  rcases mem_toString_int member with dash | digit <;> contradiction

theorem toList_text (env : Environment) (call : Call) :
    (call.text env).toList = env.nodeName.toList ++ '|' :: ((GoTime.formatRFC3339Nano call.ts).toList ++
      '|' :: ((ipString call.address).toList ++ '|' :: (((normQName env call.qname).toList ++
        '|' :: (toString call.qtype.1).toList) ++ '|' :: (toString call.rcode.1).toList))) := by
  have bar : "|".toList = ['|'] := rfl
  have parts : call.text env = env.nodeName ++ "|" ++ GoTime.formatRFC3339Nano call.ts ++ "|" ++
    ipString call.address ++ "|" ++ normQName env call.qname ++ "|" ++ toString call.qtype.1 ++ "|" ++
    toString call.rcode.1 := rfl
  rw [parts]
  simp only [String.toList_append, bar, List.append_assoc, List.cons_append, List.nil_append]

theorem alike_of_text {env : Environment} {a b : Call} (same : a.text env = b.text env) : Alike env a b := by
  have fields := congrArg String.toList same
  rw [toList_text, toList_text, List.append_cancel_left_eq, List.cons_inj_right] at fields
  obtain ⟨ts, fields⟩ := append_cons_inj_left (bar_not_mem_ts _) (bar_not_mem_ts _) fields
  obtain ⟨clientIP, fields⟩ := append_cons_inj_left (bar_not_mem_ipString _) (bar_not_mem_ipString _) fields
  obtain ⟨fields, rcode⟩ := append_cons_inj_right (bar_not_mem_int _) (bar_not_mem_int _) fields
  obtain ⟨qname, qtype⟩ := append_cons_inj_right (bar_not_mem_int _) (bar_not_mem_int _) fields
  exact
    { ts := GoTime.formatRFC3339Nano_injective (String.toList_injective ts)
      clientIP := String.toList_injective clientIP
      qname := String.toList_injective qname
      qtype := Subtype.ext (toString_int_injective qtype)
      rcode := Subtype.ext (toString_int_injective rcode) }

theorem alike_of_eventID {env : Environment} {calls : Set Call}
    (noCollision : Set.InjOn Sha256.hexDigest (Call.message env '' calls)) {a b : Call} (left : a ∈ calls)
    (right : b ∈ calls) (same : (a.event env).eventID = (b.event env).eventID) : Alike env a b := by
  have message := noCollision (Set.mem_image_of_mem _ left) (Set.mem_image_of_mem _ right) same
  exact alike_of_text (Utf8.toUTF8_toList_injective message)

/-! ## At the primary -/

/-- A request of the node; its buffer has numbered the events. -/
structure Delivery where
  key : Option String
  calls : List (Call × Nat)
  now : DateTime

def sent (env : Environment) (item : Call × Nat) : Event := { item.1.event env with eventSeq := item.2 }

/-- `accepted` are the calls whose events the primary has acknowledged. -/
structure World where
  database : Database
  accepted : List Call

section

variable (modelValidate : ModelValidate) (env : Environment)

def step (world : World) (delivery : Delivery) : World :=
  match ingest modelValidate world.database delivery.key
      ((delivery.calls.map (sent env)).map Event.members) delivery.now with
  | .ok (after, _) => ⟨after, world.accepted ++ delivery.calls.map Prod.fst⟩
  | .error _ => world

def RowOf (call : Call) (row : DNSQueryEvent) : Prop :=
  ∃ now node clients seq, row = eventRow now node clients (received (sent env (call, seq)))

/-- Every row that has the id of one of the calls is that of an accepted call. -/
def Traced (calls : Set Call) (world : World) : Prop :=
  (∀ call ∈ world.accepted, call ∈ calls) ∧
    ∀ row ∈ world.database.events.rows, (∃ call ∈ calls, row.eventId = some (call.event env).eventID) →
      ∃ call ∈ world.accepted, RowOf env call row

/-- Every accepted call has its row, or that of one alike. -/
def Kept (world : World) : Prop :=
  ∀ call ∈ world.accepted, ∃ row ∈ world.database.events.rows, ∃ stored ∈ world.accepted,
    RowOf env stored row ∧ Alike env stored call

end

variable {modelValidate : ModelValidate} {env : Environment} {calls : Set Call}

theorem eventId_rowOf {call : Call} {row : DNSQueryEvent} (made : RowOf env call row) :
    row.eventId = some (call.event env).eventID := by
  obtain ⟨now, node, clients, seq, rfl⟩ := made
  have named : (call.event env).eventID ≠ "" := makeEvent_eventID_ne _ _ _ _ _ _ _
  exact if_neg named

theorem Alike.refl (call : Call) : Alike env call call := ⟨rfl, rfl, rfl, rfl, rfl⟩

/-- What a request can do: nothing, or insert a row for each of its calls and no other. -/
theorem step_cases (accepts : AcceptsTyped modelValidate) (world : World) (delivery : Delivery) :
    step modelValidate env world delivery = world ∨
      ∃ rows, (step modelValidate env world delivery).database.events = world.database.events.insertAll rows ∧
        (step modelValidate env world delivery).accepted = world.accepted ++ delivery.calls.map Prod.fst ∧
        (∀ row ∈ rows, ∃ call ∈ delivery.calls.map Prod.fst, RowOf env call row) ∧
        ∀ call ∈ delivery.calls.map Prod.fst, ∃ row ∈ rows, RowOf env call row := by
  unfold step
  split
  · rename_i after count answered
    obtain ⟨node, -, -, -, ⟨nothing, same⟩ | ⟨-, events, -⟩⟩ := ingest_ok answered
    · rw [filterMap_members accepts, List.map_map, List.map_eq_nil_iff] at nothing
      exact Or.inr ⟨[], by rw [same]; rfl, rfl, by simp, by simp [nothing]⟩
    · refine Or.inr ⟨_, events, rfl, ?_, ?_⟩
      · intro row member
        simp only [ingestRows, filterMap_members accepts] at member
        rw [List.map_map, List.map_map] at member
        obtain ⟨item, listed, rfl⟩ := List.mem_map.mp member
        exact ⟨item.1, List.mem_map_of_mem listed, _, _, _, item.2, rfl⟩
      · intro call listed
        obtain ⟨item, member, rfl⟩ := List.mem_map.mp listed
        simp only [ingestRows, filterMap_members accepts]
        rw [List.map_map, List.map_map]
        exact ⟨_, List.mem_map_of_mem member, _, _, _, item.2, rfl⟩
  · exact Or.inl rfl

theorem traced_step (accepts : AcceptsTyped modelValidate) {world : World} {delivery : Delivery}
    (made : ∀ item ∈ delivery.calls, item.1 ∈ calls) (traced : Traced env calls world) :
    Traced env calls (step modelValidate env world delivery) := by
  rcases step_cases accepts world delivery with same | ⟨rows, events, accepted, sources, -⟩
  · rwa [same]
  · unfold Traced
    rw [events, accepted]
    constructor
    · intro call member
      rcases List.mem_append.mp member with old | new
      · exact traced.1 call old
      · obtain ⟨item, listed, rfl⟩ := List.mem_map.mp new
        exact made item listed
    · intro row member named
      rcases EventTable.mem_insertAll member with old | new
      · obtain ⟨call, known, source⟩ := traced.2 row old named
        exact ⟨call, List.mem_append_left _ known, source⟩
      · obtain ⟨call, known, source⟩ := sources row new
        exact ⟨call, List.mem_append_right _ known, source⟩

theorem kept_step (accepts : AcceptsTyped modelValidate)
    (noCollision : Set.InjOn Sha256.hexDigest (Call.message env '' calls)) {world : World}
    {delivery : Delivery} (traced : Traced env calls (step modelValidate env world delivery))
    (kept : Kept env world) : Kept env (step modelValidate env world delivery) := by
  rcases step_cases accepts world delivery with same | ⟨rows, events, accepted, -, stored⟩
  · rwa [same]
  · unfold Traced at traced
    rw [events, accepted] at traced
    unfold Kept
    rw [events, accepted]
    intro call member
    rcases List.mem_append.mp member with old | new
    · obtain ⟨row, present, other, known, source, alike⟩ := kept call old
      exact ⟨row, (EventTable.insertAll_keeps_rows _ rows).subset present, other,
        List.mem_append_left _ known, source, alike⟩
    · obtain ⟨row, given, source⟩ := stored call new
      obtain ⟨other, present, rfl | ⟨sameId, -⟩⟩ := EventTable.exists_insertAll world.database.events given
      · exact ⟨other, present, call, member, source, Alike.refl call⟩
      · -- the row was dropped: the stored one has its id
        have named := sameId.trans (eventId_rowOf source)
        have known := traced.1 call member
        obtain ⟨first, before, origin⟩ := traced.2 other present ⟨call, known, named⟩
        have ids := Option.some.inj ((eventId_rowOf origin).symm.trans named)
        exact ⟨other, present, first, before, origin,
          alike_of_eventID noCollision (traced.1 first before) known ids⟩

/-- Of calls among which no two different messages collide, equal ids mean equal fields. The primary drops
an event only for the row of an event that agrees with it. -/
theorem eventID_identifies (accepts : AcceptsTyped modelValidate)
    (noCollision : Set.InjOn Sha256.hexDigest (Call.message env '' calls)) :
    (∀ a ∈ calls, ∀ b ∈ calls, (a.event env).eventID = (b.event env).eventID → Alike env a b) ∧
      ∀ (start : Database) (run : List Delivery),
        (∀ row ∈ start.events.rows, ∀ call ∈ calls, row.eventId ≠ some (call.event env).eventID) →
        (∀ delivery ∈ run, ∀ item ∈ delivery.calls, item.1 ∈ calls) →
        Kept env (run.foldl (step modelValidate env) ⟨start, []⟩) := by
  refine ⟨fun a left b right same => alike_of_eventID noCollision left right same, ?_⟩
  intro start run foreign made
  have traced : Traced env calls ⟨start, []⟩ := by
    refine ⟨by simp, fun row member named => ?_⟩
    obtain ⟨call, known, named⟩ := named
    exact absurd named (foreign row member call known)
  have kept : Kept env ⟨start, []⟩ := by simp [Kept]
  have inside : Along (step modelValidate env) (fun _ delivery => ∀ item ∈ delivery.calls, item.1 ∈ calls)
      ⟨start, []⟩ run := along_of_forall_mem made
  refine (foldl_invariant (P := fun world => Traced env calls world ∧ Kept env world) ⟨traced, kept⟩ inside ?_).2
  intro world delivery holds listed
  have next := traced_step accepts listed holds.1
  exact ⟨next, kept_step accepts noCollision next holds.2⟩

/-! ### Two spellings of one name -/

def asked (qname : String) : Call where
  ts := 1714564800000000000
  address := [192, 0, 2, 7]
  qname := qname
  qtype := GoInt.ofInt 1
  rcode := GoInt.zero
  latencyMS := GoInt.zero
  blockedSet := []
  allowSet := []

theorem message_spellings :
    (asked "Example.org.").message resolver = (asked "example.org").message resolver := by
  have folded : normQName resolver "Example.org." = normQName resolver "example.org" := by
    simp [normQName, trimDot, Environment.lower, resolver]
  simp only [Call.message, Call.text, asked, folded]

theorem asked_noCollision :
    Set.InjOn Sha256.hexDigest (Call.message resolver '' {asked "Example.org.", asked "example.org"}) := by
  rw [Set.image_pair, message_spellings, Set.pair_eq_singleton]
  exact Set.injOn_singleton _ _

theorem spellings_alike : Alike resolver (asked "Example.org.") (asked "example.org") :=
  (eventID_identifies acceptsTyped_ofTyped asked_noCollision).1 _ (Set.mem_insert _ _) _
    (Set.mem_insert_of_mem _ rfl) (congrArg Sha256.hexDigest message_spellings)

end PowerBlockade.Processor.EventId
