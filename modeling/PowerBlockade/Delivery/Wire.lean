import PowerBlockade.Delivery.ExactlyOnce
import PowerBlockade.Processor.Dnstap

/-!
# From a frame to a row

What the primary stores of a dnstap frame, and when it agrees with what the frame measured.
-/

namespace PowerBlockade.Delivery
open Lib Primary Processor

variable {modelValidate : ModelValidate}

/-- The names that the DNS library prints start and end with no white space. -/
def NamesTrimmed (env : Environment) : Prop :=
  ∀ bytes dnsMsg, env.unpack bytes = some dnsMsg → ∀ question ∈ dnsMsg.question,
    Python.strip question.name = question.name

structure Agrees (clock : GoTime) (msg : DnstapMessage) (sent : Event) (row : DNSQueryEvent) : Prop where
  latencyMs : row.latencyMs = (dnstapLatency msg).map (· / millisecondNanos)
  clientIp : row.clientIp = sent.clientIP
  qtype : row.qtype = sent.qtype
  rcode : row.rcode = sent.rcode
  blocked : row.blocked = sent.blocked
  blockReason : row.blockReason = if sent.blockReason = "" then none else some sent.blockReason
  eventId : row.eventId = some sent.eventID
  eventSeq : row.eventSeq = some (sent.eventSeq : Int)
  isInternal : row.isInternal = sent.isInternal
  qname : row.qname = Python.rstrip '.' (Python.lower sent.qname)
  ts : row.ts = eventTime clock msg / 1000
  cacheHit : row.cacheHit = true ↔ ∃ d, dnstapLatency msg = some d ∧ d < 5 * millisecondNanos

/-- The measured latency, if any, is at least a millisecond. -/
def LatencyVisible (msg : DnstapMessage) : Prop :=
  ∀ d, dnstapLatency msg = some d → millisecondNanos ≤ d

/-- Python's `datetime` can hold the time of the event. -/
def TimeReadable (clock : GoTime) (msg : DnstapMessage) : Prop :=
  0 ≤ eventTime clock msg / 1000 ∧ eventTime clock msg / 1000 < maxMicros

theorem latencyMs_iff {msg : DnstapMessage} {ms : Int}
    (floor : ms = (dnstapLatency msg).elim 0 (· / millisecondNanos)) :
    (if ms = 0 then none else some ms) = (dnstapLatency msg).map (· / millisecondNanos) ↔
      LatencyVisible msg := by
  unfold LatencyVisible
  cases measured : dnstapLatency msg with
  | none => simp [floor, measured]
  | some d =>
      have positive := (dnstapLatency_bounds measured).1
      simp only [measured, Option.elim_some, millisecondNanos] at floor
      simp only [Option.map_some, Option.some.injEq, forall_eq', millisecondNanos]
      by_cases zero : ms = 0
      · rw [if_pos zero]
        exact iff_of_false (Option.some_ne_none _).symm (by omega)
      · rw [if_neg zero, floor]
        exact iff_of_true rfl (by omega)

theorem cacheHit_iff {msg : DnstapMessage} {row : DNSQueryEvent}
    (latency : row.latencyMs = (dnstapLatency msg).map (· / millisecondNanos)) :
    row.cacheHit = true ↔ ∃ d, dnstapLatency msg = some d ∧ d < 5 * millisecondNanos := by
  rw [DNSQueryEvent.cacheHit, latency]
  cases dnstapLatency msg with
  | none => simp
  | some d =>
      simp only [Option.map_some, Option.any_some, decide_eq_true_eq, Option.some.injEq, exists_eq_left',
        millisecondNanos]
      omega

theorem storedTime_iff (now : DateTime) (t : Int) (event : IngestEvent)
    (text : event.ts = some (GoTime.formatRFC3339Nano t)) :
    storedTime now event = t / 1000 ↔ 0 ≤ t / 1000 ∧ t / 1000 < maxMicros := by
  have nonempty : GoTime.formatRFC3339Nano t ≠ "" := by
    intro empty
    have chars := congrArg String.toList empty
    simp [GoTime.formatRFC3339Nano] at chars
  have range := now.inRange
  simp only [storedTime, text, Option.filter_some, nonempty, ne_eq, not_false_eq_true, decide_true, if_true,
    Option.bind_some, GoTime.fromisoformat_formatRFC3339Nano]
  by_cases inside : 0 ≤ t / 1000 ∧ t / 1000 < maxMicros
  · have parsed : DateTime.ofMicros? (t / 1000) = some ⟨(t / 1000).toNat, by omega⟩ := dif_pos inside
    rw [parsed]
    refine iff_of_true ?_ inside
    simp [PyDateTime.aware, PyDateTime.utcMicros, inside.1]
  · have failed : DateTime.ofMicros? (t / 1000) = none := dif_neg inside
    rw [failed]
    refine iff_of_false ?_ inside
    intro same
    exact inside ⟨by simp only [Option.map_none] at same; omega,
      by simp only [Option.map_none] at same; omega⟩

theorem ingestRows_getElem (accepts : AcceptsTyped modelValidate) (db : Database) (node : Node)
    (now : DateTime) {events : List Event} {i : Nat} {sent : Event} (batch : events[i]? = some sent) :
    ∃ clients, (ingestRows modelValidate db node (events.map Event.members) now)[i]? =
      some (eventRow now node clients (received sent)) := by
  refine ⟨(((events.map received).map (·.clientIp)).foldl addClient (db.clients, db.clientSeq)).1, ?_⟩
  rw [ingestRows, filterMap_members accepts]
  simp only [List.getElem?_map, batch, Option.map_some]

def resolver : Environment where
  nodeName := "edge"
  probers := []
  dropProberEvents := true
  containsIP := fun _ => false
  blockedSet := []
  allowSet := []
  unpack := fun _ => some ⟨[⟨"example.org.", 1⟩], GoInt.zero⟩

theorem resolver_namesTrimmed : NamesTrimmed resolver := by
  intro bytes dnsMsg unpacked question asked
  obtain rfl := Option.some.inj unpacked
  obtain rfl := List.mem_singleton.1 asked
  decide

def frame (nanos : UInt32) : DnstapMessage where
  type := .clientResponse
  queryAddress := some [192, 0, 2, 7]
  responseMessage := [0]
  queryTimeSec := 1714564800
  queryTimeNsec := 0
  responseTimeSec := 1714564800
  responseTimeNsec := nanos

end PowerBlockade.Delivery
