import PowerBlockade.Primary.NodeSync
import PowerBlockade.Processor.Buffer

/-!
# The event that the primary reads from the processor's JSON
-/

namespace PowerBlockade.Delivery
open Lib Primary Processor

def received (ev : Event) : IngestEvent where
  ts := some ev.ts
  clientIp := ev.clientIP
  qname := ev.qname
  qtype := ev.qtype
  rcode := ev.rcode
  blocked := ev.blocked
  blockReason := if ev.blockReason = "" then none else some ev.blockReason
  blocklistName := none
  latencyMs := if ev.latencyMS.1 = 0 then none else some ev.latencyMS
  eventId := if ev.eventID = "" then none else some ev.eventID
  eventSeq := some ev.eventSeq
  isInternal := ev.isInternal

theorem lookup_omitEmpty_self (name : String) (isEmpty : Bool) (value : Json) (rest : Json.Members) :
    (omitEmpty name isEmpty value ++ rest).lookup name =
      if isEmpty then rest.lookup name else some value := by
  cases isEmpty <;> simp [omitEmpty]

theorem lookup_omitEmpty_other {name other : String} (different : (other == name) = false)
    (isEmpty : Bool) (value : Json) (rest : Json.Members) :
    (omitEmpty name isEmpty value ++ rest).lookup other = rest.lookup other := by
  cases isEmpty <;> simp [omitEmpty, List.lookup_cons, different]

theorem lookup_last_self (name : String) (isEmpty : Bool) (value : Json) :
    (omitEmpty name isEmpty value).lookup name = if isEmpty then none else some value := by
  simpa using lookup_omitEmpty_self name isEmpty value []

theorem lookup_last_other {name other : String} (different : (other == name) = false)
    (isEmpty : Bool) (value : Json) : (omitEmpty name isEmpty value).lookup other = none := by
  simpa using lookup_omitEmpty_other different isEmpty value []

theorem members_names (ev : Event) : (ev.members.map Prod.fst).Sublist
    (["event_seq", "ts", "client_ip", "qname", "qtype", "rcode", "blocked"] ++ ["latency_ms"] ++
      ["event_id"] ++ ["block_reason"] ++ ["is_internal"]) := by
  have optional (name : String) (isEmpty : Bool) (value : Json) :
      ((omitEmpty name isEmpty value).map Prod.fst).Sublist [name] := by
    cases isEmpty <;> simp [omitEmpty]
  simp only [Event.members, List.map_append]
  exact ((((List.Sublist.refl _).append (optional _ _ _)).append (optional _ _ _)).append
    (optional _ _ _)).append (optional _ _ _)

theorem members_names_nodup (ev : Event) : (ev.members.map Prod.fst).Nodup :=
  (members_names ev).nodup (by decide)

theorem members_eq (ev : Event) : ev.members =
    ("event_seq", .integer ev.eventSeq) :: ("ts", .string ev.ts) :: ("client_ip", .string ev.clientIP) ::
    ("qname", .string ev.qname) :: ("qtype", .integer ev.qtype) :: ("rcode", .integer ev.rcode) ::
    ("blocked", .bool ev.blocked) ::
    (omitEmpty "latency_ms" (ev.latencyMS.1 = 0) (.integer ev.latencyMS) ++
    (omitEmpty "event_id" (ev.eventID = "") (.string ev.eventID) ++
    (omitEmpty "block_reason" (ev.blockReason = "") (.string ev.blockReason) ++
    omitEmpty "is_internal" (!ev.isInternal) (.bool ev.isInternal)))) := by
  simp [Event.members]

theorem nullable_of_lookup {α : Type*} (read : Json → Option α) {members : Json.Members}
    {name : String} {omitted : Bool} {value : Json} {a : α}
    (found : members.lookup name = if omitted then none else some value)
    (whole : Json.nullable read value = some (some a)) :
    Json.defaulted members name none (Json.nullable read) = some (if omitted then none else some a) := by
  rw [Json.defaulted, found]
  cases omitted with
  | true => rfl
  | false => exact whole

theorem lookup_latencyMs (ev : Event) : ev.members.lookup "latency_ms" =
    if decide (ev.latencyMS.1 = 0) then none else some (.integer ev.latencyMS) := by
  simp [members_eq, List.lookup_cons, lookup_omitEmpty_self, lookup_omitEmpty_other, lookup_last_other]

theorem lookup_eventId (ev : Event) : ev.members.lookup "event_id" =
    if decide (ev.eventID = "") then none else some (.string ev.eventID) := by
  simp [members_eq, List.lookup_cons, lookup_omitEmpty_self, lookup_omitEmpty_other, lookup_last_other]

theorem lookup_blockReason (ev : Event) : ev.members.lookup "block_reason" =
    if decide (ev.blockReason = "") then none else some (.string ev.blockReason) := by
  simp [members_eq, List.lookup_cons, lookup_omitEmpty_self, lookup_omitEmpty_other, lookup_last_other]

theorem lookup_isInternal (ev : Event) : ev.members.lookup "is_internal" =
    if !ev.isInternal then none else some (.bool ev.isInternal) := by
  simp [members_eq, List.lookup_cons, lookup_omitEmpty_other, lookup_last_self]

theorem lookup_blocklistName (ev : Event) : ev.members.lookup "blocklist_name" = none := by
  rw [List.lookup_eq_none_iff]
  intro member present
  have named : member.1 ∈ _ := (members_names ev).subset (List.mem_map_of_mem present)
  rw [bne_iff_ne]
  intro same
  rw [← same] at named
  exact absurd named (by decide)

theorem ofTyped_members (ev : Event) : IngestEvent.ofTyped ev.members = some (received ev) := by
  have latencyMs := nullable_of_lookup Json.asInteger (lookup_latencyMs ev) rfl
  have eventId := nullable_of_lookup Json.asString (lookup_eventId ev) rfl
  have blockReason := nullable_of_lookup Json.asString (lookup_blockReason ev) rfl
  have blocklistName : Json.defaulted ev.members "blocklist_name" none (Json.nullable Json.asString) =
      some none := by rw [Json.defaulted, lookup_blocklistName]
  have isInternal : Json.defaulted ev.members "is_internal" false Json.asBool =
      some ev.isInternal := by
    rw [Json.defaulted, lookup_isInternal]
    cases ev.isInternal <;> rfl
  rw [IngestEvent.ofTyped, latencyMs, eventId, blockReason, blocklistName, isInternal, members_eq]
  simp only [received, decide_eq_true_eq]
  rfl

theorem validate_members {modelValidate : ModelValidate} (accepts : AcceptsTyped modelValidate)
    (ev : Event) : modelValidate ev.members = some (received ev) :=
  accepts _ _ (members_names_nodup ev) (ofTyped_members ev)

theorem filterMap_members {modelValidate : ModelValidate} (accepts : AcceptsTyped modelValidate)
    (events : List Event) :
    (events.map Event.members).filterMap modelValidate = events.map received := by
  rw [List.filterMap_map]
  have each : (modelValidate ∘ Event.members) = fun ev => some (received ev) :=
    funext fun ev => validate_members accepts ev
  rw [each, List.filterMap_eq_map']

end PowerBlockade.Delivery
