import PowerBlockade.Columns
import PowerBlockade.Lib.Json

/-!
# The processor's event and its JSON

`json.Marshal` and `json.Unmarshal` of `buffer.Event`, whose last four fields are omitted when empty.
-/

namespace PowerBlockade.Processor
open Lib

abbrev GoInt := { n : Int // fitsInteger 64 n = true }

def GoInt.zero : GoInt := ⟨0, rfl⟩

structure Event where
  eventSeq : Nat
  ts : String
  clientIP : String
  qname : String
  qtype : GoInt
  rcode : GoInt
  blocked : Bool
  latencyMS : GoInt
  eventID : String
  blockReason : String
  isInternal : Bool
deriving DecidableEq

def Event.empty : Event :=
  ⟨0, "", "", "", GoInt.zero, GoInt.zero, false, GoInt.zero, "", "", false⟩

/-! ## Encoding -/

def omitEmpty (name : String) (isEmpty : Bool) (value : Json) : Json.Members :=
  if isEmpty then [] else [(name, value)]

def Event.members (ev : Event) : Json.Members :=
  [("event_seq", .integer ev.eventSeq), ("ts", .string ev.ts), ("client_ip", .string ev.clientIP),
    ("qname", .string ev.qname), ("qtype", .integer ev.qtype), ("rcode", .integer ev.rcode),
    ("blocked", .bool ev.blocked)] ++
  omitEmpty "latency_ms" (ev.latencyMS.1 = 0) (.integer ev.latencyMS) ++
  omitEmpty "event_id" (ev.eventID = "") (.string ev.eventID) ++
  omitEmpty "block_reason" (ev.blockReason = "") (.string ev.blockReason) ++
  omitEmpty "is_internal" (!ev.isInternal) (.bool ev.isInternal)

def Event.marshal (ev : Event) : Json := .object ev.members

/-! ## Decoding -/

inductive Field
  | eventSeq | ts | clientIP | qname | qtype | rcode | blocked | latencyMS | eventID | blockReason
  | isInternal
deriving DecidableEq

def Field.tag : Field → String
  | eventSeq => "event_seq"
  | ts => "ts"
  | clientIP => "client_ip"
  | qname => "qname"
  | qtype => "qtype"
  | rcode => "rcode"
  | blocked => "blocked"
  | latencyMS => "latency_ms"
  | eventID => "event_id"
  | blockReason => "block_reason"
  | isInternal => "is_internal"

def Field.all : List Field :=
  [eventSeq, ts, clientIP, qname, qtype, rcode, blocked, latencyMS, eventID, blockReason, isInternal]

/-- Go matches the names of members without regard to case; two letters outside ASCII fold to `S` and
`K`. -/
def foldChar (c : Char) : Char :=
  if c = '\u017f' then 'S' else if c = '\u212a' then 'K' else c.toUpper

def fieldOf (name : String) : Option Field :=
  Field.all.find? fun field => field.tag.toList.map foldChar = name.toList.map foldChar

def asGoInt (value : Json) : Option GoInt :=
  value.asInteger.bind fun n => if fits : fitsInteger 64 n = true then some ⟨n, fits⟩ else none

def asSeq (value : Json) : Option Nat :=
  value.asInteger.bind fun n => if 0 ≤ n then some n.toNat else none

def Field.assign (ev : Event) (value : Json) : Field → Option Event
  | eventSeq => (asSeq value).map fun v => { ev with eventSeq := v }
  | ts => value.asString.map fun v => { ev with ts := v }
  | clientIP => value.asString.map fun v => { ev with clientIP := v }
  | qname => value.asString.map fun v => { ev with qname := v }
  | qtype => (asGoInt value).map fun v => { ev with qtype := v }
  | rcode => (asGoInt value).map fun v => { ev with rcode := v }
  | blocked => value.asBool.map fun v => { ev with blocked := v }
  | latencyMS => (asGoInt value).map fun v => { ev with latencyMS := v }
  | eventID => value.asString.map fun v => { ev with eventID := v }
  | blockReason => value.asString.map fun v => { ev with blockReason := v }
  | isInternal => value.asBool.map fun v => { ev with isInternal := v }

/-- An unknown member is ignored, `null` leaves the field as it is, another type is an error. -/
def assignMember (ev : Event) (member : String × Json) : Option Event :=
  match fieldOf member.1, member.2 with
  | none, _ | _, .null => some ev
  | some field, value => field.assign ev value

/-- `json.Unmarshal`. -/
def Event.unmarshal : Json → Option Event
  | .null => some Event.empty
  | .object members => members.foldlM assignMember Event.empty
  | _ => none

theorem fieldOf_tag (field : Field) : fieldOf field.tag = some field := by
  cases field <;> decide

@[simp] theorem asGoInt_integer (n : GoInt) : asGoInt (.integer n) = some n := by
  simp [asGoInt, Json.asInteger, n.2]

@[simp] theorem asSeq_integer (n : Nat) : asSeq (.integer n) = some n := by
  simp [asSeq, Json.asInteger]

theorem assignMember_tag (ev : Event) (field : Field) (value : Json) (present : value ≠ .null) :
    assignMember ev (field.tag, value) = field.assign ev value := by
  unfold assignMember
  rw [fieldOf_tag]
  cases value <;> first | rfl | contradiction

theorem foldlM_omitEmpty (field : Field) {ev after : Event} {isEmpty : Bool} {value : Json}
    (present : value ≠ .null) (absent : isEmpty = true → after = ev)
    (given : field.assign ev value = some after) :
    (omitEmpty field.tag isEmpty value).foldlM assignMember ev = some after := by
  cases isEmpty with
  | true => simp [omitEmpty, absent rfl]
  | false => simp [omitEmpty, assignMember_tag ev field value present, given]

theorem foldlM_required (ev : Event) :
    List.foldlM assignMember Event.empty
      [("event_seq", .integer ev.eventSeq), ("ts", .string ev.ts), ("client_ip", .string ev.clientIP),
        ("qname", .string ev.qname), ("qtype", .integer ev.qtype), ("rcode", .integer ev.rcode),
        ("blocked", .bool ev.blocked)] =
    some { ev with latencyMS := GoInt.zero, eventID := "", blockReason := "", isInternal := false } := by
  have seq := fun ev value => assignMember_tag ev .eventSeq value
  have ts := fun ev value => assignMember_tag ev .ts value
  have clientIP := fun ev value => assignMember_tag ev .clientIP value
  have qname := fun ev value => assignMember_tag ev .qname value
  have qtype := fun ev value => assignMember_tag ev .qtype value
  have rcode := fun ev value => assignMember_tag ev .rcode value
  have blocked := fun ev value => assignMember_tag ev .blocked value
  simp only [Field.tag] at seq ts clientIP qname qtype rcode blocked
  simp [seq, ts, clientIP, qname, qtype, rcode, blocked, Field.assign, Json.asString, Json.asBool,
    Event.empty]

theorem unmarshal_marshal (ev : Event) : Event.unmarshal ev.marshal = some ev := by
  have latencyMS : (omitEmpty "latency_ms" (ev.latencyMS.1 = 0) (.integer ev.latencyMS)).foldlM assignMember
      { ev with latencyMS := GoInt.zero, eventID := "", blockReason := "", isInternal := false } =
        some { ev with eventID := "", blockReason := "", isInternal := false } := by
    refine foldlM_omitEmpty .latencyMS (by simp) (fun zero => ?_) (by simp [Field.assign])
    have same : ev.latencyMS = GoInt.zero := Subtype.ext (of_decide_eq_true zero)
    rw [same]
  have eventID : (omitEmpty "event_id" (ev.eventID = "") (.string ev.eventID)).foldlM assignMember
      { ev with eventID := "", blockReason := "", isInternal := false } =
        some { ev with blockReason := "", isInternal := false } := by
    refine foldlM_omitEmpty .eventID (by simp) (fun empty => ?_)
      (by simp [Field.assign, Json.asString])
    rw [of_decide_eq_true empty]
  have blockReason : (omitEmpty "block_reason" (ev.blockReason = "") (.string ev.blockReason)).foldlM
      assignMember { ev with blockReason := "", isInternal := false } =
        some { ev with isInternal := false } := by
    refine foldlM_omitEmpty .blockReason (by simp) (fun empty => ?_)
      (by simp [Field.assign, Json.asString])
    rw [of_decide_eq_true empty]
  have isInternal : (omitEmpty "is_internal" (!ev.isInternal) (.bool ev.isInternal)).foldlM assignMember
      { ev with isInternal := false } = some ev := by
    refine foldlM_omitEmpty .isInternal (by simp) (fun empty => ?_)
      (by simp [Field.assign, Json.asBool])
    have external : ev.isInternal = false := by simpa using empty
    rw [← external]
  simp only [Event.marshal, Event.unmarshal, Event.members, List.foldlM_append, foldlM_required,
    latencyMS, eventID, blockReason, isInternal, Option.bind_eq_bind, Option.bind_some]

end PowerBlockade.Processor
