import PowerBlockade.Lib.Sha256
import PowerBlockade.Processor.Event
import PowerBlockade.Time

/-!
# From a dnstap frame to an event

`dnstapLatency`, `makeEvent` and `responseProcessor.process`.
-/

namespace PowerBlockade.Processor
open Lib

inductive MessageType
  | authQuery | authResponse | resolverQuery | resolverResponse | clientQuery | clientResponse
  | forwarderQuery | forwarderResponse | stubQuery | stubResponse | toolQuery | toolResponse
  | updateQuery | updateResponse
deriving DecidableEq

/-- `dnstap.Message`; an unset number reads as 0, an unset message as no bytes. -/
structure DnstapMessage where
  type : MessageType
  queryAddress : Option (List UInt8)
  responseMessage : List UInt8
  queryTimeSec : UInt64
  queryTimeNsec : UInt32
  responseTimeSec : UInt64
  responseTimeNsec : UInt32

structure Question where
  name : String
  qtype : UInt16

structure DnsMsg where
  question : List Question
  rcode : GoInt

/-- The deployment: `unpack` is the DNS library's decoder, `containsIP` the test for the internal
subnets, `toLower` is `unicode.ToLower`, the sets are those of the zone files last loaded. -/
structure Environment where
  nodeName : String
  probers : List String
  dropProberEvents : Bool
  containsIP : String → Bool
  blockedSet : List String
  allowSet : List String
  unpack : List UInt8 → Option DnsMsg
  toLower : Char → Char := Char.toLower

/-! ## Addresses -/

def hexByte (b : UInt8) : List Char := [Nat.digitChar (b.toNat / 16), Nat.digitChar (b.toNat % 16)]

def dotted (ip : List UInt8) : String := ".".intercalate (ip.map fun b => toString b.toNat)

def groups : List UInt8 → List Nat
  | hi :: lo :: rest => (hi.toNat * 256 + lo.toNat) :: groups rest
  | _ => []

def zerosFrom (gs : List Nat) (i : Nat) : Nat := ((gs.drop i).takeWhile (· = 0)).length

def zeroRun (gs : List Nat) : Option (Nat × Nat) :=
  (List.range 8).foldl (fun best i =>
    let n := zerosFrom gs i
    if 2 ≤ n ∧ (best.map Prod.snd).getD 0 < n then some (i, n) else best) none

def hexGroup (g : Nat) : String := String.ofList (Nat.toDigits 16 g)

def ipv6 (gs : List Nat) : String :=
  match zeroRun gs with
  | none => ":".intercalate (gs.map hexGroup)
  | some (start, n) => ":".intercalate ((gs.take start).map hexGroup) ++ "::" ++
      ":".intercalate ((gs.drop (start + n)).map hexGroup)

def ipString (ip : List UInt8) : String :=
  if ip.length = 0 then "<nil>"
  else if ip.length = 4 then dotted ip
  else if ip.length = 16 then
    if ip.take 12 = List.replicate 10 0 ++ [255, 255] then dotted (ip.drop 12) else ipv6 (groups ip)
  else "?" ++ String.ofList (ip.flatMap hexByte)

/-! ## Events -/

/-- `int64(sec)` and `time.Unix`. -/
def unixTime (sec : UInt64) (nsec : UInt32) : GoTime :=
  GoTime.unix (Int.bmod sec.toNat (2 ^ 64)) nsec.toNat

/-- The measured latency in nanoseconds, if both times are set and the response follows the query. -/
def dnstapLatency (msg : DnstapMessage) : Option Int :=
  if msg.queryTimeSec = 0 ∨ msg.responseTimeSec = 0 then none
  else
    let d := GoTime.sub (unixTime msg.responseTimeSec msg.responseTimeNsec)
      (unixTime msg.queryTimeSec msg.queryTimeNsec)
    if d ≤ 0 then none else some d

def millisecondNanos : Int := 10 ^ 6

/-- Go's conversion to `int`. -/
def GoInt.ofInt (n : Int) : GoInt := ⟨Int.bmod n (2 ^ 64), by
  have low := Int.le_bmod (x := n) (m := 2 ^ 64) (by decide)
  have high := Int.bmod_lt (x := n) (m := 2 ^ 64) (by decide)
  simp only [fitsInteger, decide_eq_true_eq]
  omega⟩

def trimDot (name : String) : String :=
  match name.toList.reverse with
  | '.' :: rest => String.ofList rest.reverse
  | _ => name

/-- `strings.ToLower`, rune by rune. -/
def Environment.lower (env : Environment) (name : String) : String :=
  String.ofList (name.toList.map env.toLower)

def makeEvent (env : Environment) (ts : GoTime) (clientIP qname : String) (qtype rcode latencyMS : GoInt) :
    Event :=
  let normQName := trimDot (env.lower qname)
  let isBlocked := decide (normQName ∈ env.blockedSet ∧ normQName ∉ env.allowSet)
  let text := GoTime.formatRFC3339Nano ts
  { eventSeq := 0
    ts := text
    clientIP := clientIP
    qname := qname
    qtype := qtype
    rcode := rcode
    blocked := isBlocked
    latencyMS := latencyMS
    eventID := Sha256.hexDigest
      s!"{env.nodeName}|{text}|{clientIP}|{normQName}|{qtype.1}|{rcode.1}".toUTF8.toList
    blockReason := if isBlocked then "rpz" else ""
    isInternal := env.containsIP clientIP }

/-- The time of the event: that of the response, else of the query, else the clock's. -/
def eventTime (now : GoTime) (msg : DnstapMessage) : GoTime :=
  if msg.responseTimeSec ≠ 0 then unixTime msg.responseTimeSec msg.responseTimeNsec
  else if msg.queryTimeSec ≠ 0 then unixTime msg.queryTimeSec msg.queryTimeNsec
  else now

def process (env : Environment) (now : GoTime) (msg : DnstapMessage) : Option Event := do
  if msg.type ≠ .clientResponse then none
  else
    let ip ← msg.queryAddress
    let clientIP := ipString ip
    let isProber := decide (clientIP ∈ env.probers)
    if msg.responseMessage = [] then none
    else
      let dnsMsg ← env.unpack msg.responseMessage
      let question ← dnsMsg.question.head?
      let latencyMS := (dnstapLatency msg).elim GoInt.zero fun d => GoInt.ofInt (d / millisecondNanos)
      if isProber && env.dropProberEvents then none
      else some (makeEvent env (eventTime now msg) clientIP question.name
        (GoInt.ofInt question.qtype.toNat) dnsMsg.rcode latencyMS)

/-! ## What an accepted frame becomes -/

theorem sub_bounds (t u : Int) : -2 ^ 63 ≤ GoTime.sub t u ∧ GoTime.sub t u < 2 ^ 63 := by
  have low := Int.le_bmod (x := t - u) (m := 2 ^ 64) (by decide)
  have high := Int.bmod_lt (x := t - u) (m := 2 ^ 64) (by decide)
  unfold GoTime.sub
  dsimp only
  split
  · omega
  · split <;> decide

theorem dnstapLatency_bounds {msg : DnstapMessage} {d : Int} (measured : dnstapLatency msg = some d) :
    0 < d ∧ d < 2 ^ 63 := by
  unfold dnstapLatency at measured
  dsimp only at measured
  split at measured
  · exact nomatch measured
  · split at measured
    · exact nomatch measured
    · rename_i positive
      rw [← Option.some.inj measured]
      exact ⟨not_le.1 positive, (sub_bounds _ _).2⟩

theorem GoInt.ofInt_of_fits {n : Int} (fits : fitsInteger 64 n = true) : (GoInt.ofInt n).1 = n := by
  simp only [fitsInteger, decide_eq_true_eq] at fits
  simp only [GoInt.ofInt]
  exact Int.bmod_eq_of_le (by omega) (by omega)

theorem GoInt.ofInt_val {n : Int} (nonneg : 0 ≤ n) (small : n < 2 ^ 63) : (GoInt.ofInt n).1 = n := by
  apply GoInt.ofInt_of_fits
  rw [fitsInteger, decide_eq_true_eq]
  omega

theorem latencyMS_val (msg : DnstapMessage) :
    ((dnstapLatency msg).elim GoInt.zero fun d => GoInt.ofInt (d / millisecondNanos)).1 =
      (dnstapLatency msg).elim 0 (· / millisecondNanos) := by
  cases measured : dnstapLatency msg with
  | none => rfl
  | some d =>
      have bounds := dnstapLatency_bounds measured
      simp only [Option.elim_some]
      apply GoInt.ofInt_val
      · exact Int.ediv_nonneg bounds.1.le (by decide)
      · simp only [millisecondNanos]
        omega

theorem makeEvent_eventID_ne (env : Environment) (ts : GoTime) (clientIP qname : String)
    (qtype rcode latencyMS : GoInt) :
    (makeEvent env ts clientIP qname qtype rcode latencyMS).eventID ≠ "" := by
  intro empty
  have length : (makeEvent env ts clientIP qname qtype rcode latencyMS).eventID.length = 64 :=
    Sha256.length_hexDigest _
  rw [empty] at length
  contradiction

theorem process_some {env : Environment} {now : GoTime} {msg : DnstapMessage} {ev : Event}
    (accepted : process env now msg = some ev) :
    ∃ clientIP dnsMsg question, env.unpack msg.responseMessage = some dnsMsg ∧
      question ∈ dnsMsg.question ∧
      ev = makeEvent env (eventTime now msg) clientIP question.name (GoInt.ofInt question.qtype.toNat)
        dnsMsg.rcode ((dnstapLatency msg).elim GoInt.zero fun d => GoInt.ofInt (d / millisecondNanos)) := by
  unfold process at accepted
  split at accepted
  · exact nomatch accepted
  · simp only [Option.bind_eq_bind, Option.bind_eq_some_iff] at accepted
    obtain ⟨ip, -, accepted⟩ := accepted
    split at accepted
    · exact nomatch accepted
    · simp only [Option.bind_eq_some_iff] at accepted
      obtain ⟨dnsMsg, unpacked, question, first, accepted⟩ := accepted
      split at accepted
      · exact nomatch accepted
      · exact ⟨ipString ip, dnsMsg, question, unpacked, List.mem_of_head? first,
          (Option.some.inj accepted).symm⟩

end PowerBlockade.Processor
