import PowerBlockade.Processor.Dnstap

/-!
# Prober traffic

`responseProcessor.process` with the metrics it observes and the zone sets that `makeEvent` reloads.
-/

namespace PowerBlockade.Processor
open Lib

/-- A latency series is what was observed on it, in order; its buckets, count and sum follow. -/
structure Metrics where
  responseLatencyProber : List Int
  responseLatencyProduction : List Int
  eventsReceived : Nat
  eventsBuffered : Nat
  eventsShipped : Nat
  eventsDropped : Nat
  bufferPending : Nat
deriving DecidableEq

def Metrics.observeResponseLatency (mets : Metrics) (prober : Bool) (d : Int) : Metrics :=
  if d ≤ 0 then mets
  else if prober then { mets with responseLatencyProber := mets.responseLatencyProber ++ [d] }
  else { mets with responseLatencyProduction := mets.responseLatencyProduction ++ [d] }

/-- What `loadFile` gets from the two zone files; `none` is an error. -/
structure ZoneFiles where
  combined : Option (List String)
  whitelist : Option (List String)

structure ZoneSets where
  blockedSet : List String
  allowSet : List String
  lastLoad : Option GoTime

/-- `loadSets`, at most once a second. -/
def ZoneSets.load (sets : ZoneSets) (now : GoTime) (files : ZoneFiles) : ZoneSets :=
  if sets.lastLoad.any (now - · < GoTime.secondNanos) then sets
  else ⟨files.combined.getD sets.blockedSet, files.whitelist.getD sets.allowSet, some now⟩

/-- A frame as it arrives, `none` if it holds no dnstap message. -/
structure Arrival where
  now : GoTime
  files : ZoneFiles
  msg : Option DnstapMessage

/-- `returned`: the events that were returned for shipping. -/
structure ResponseProcessor where
  mets : Metrics
  sets : ZoneSets
  returned : List Event

def Environment.reading (env : Environment) (sets : ZoneSets) : Environment :=
  { env with blockedSet := sets.blockedSet, allowSet := sets.allowSet }

def Environment.dropping (env : Environment) (drop : Bool) : Environment :=
  { env with dropProberEvents := drop }

namespace ResponseProcessor

def process (env : Environment) (p : ResponseProcessor) (now : GoTime) (files : ZoneFiles)
    (msg : DnstapMessage) : ResponseProcessor :=
  if msg.type ≠ .clientResponse then p
  else match msg.queryAddress with
    | none => p
    | some ip =>
        let clientIP := ipString ip
        let isProber := decide (clientIP ∈ env.probers)
        if msg.responseMessage = [] then p
        else match env.unpack msg.responseMessage with
          | none => p
          | some dnsMsg => match dnsMsg.question.head? with
              | none => p
              | some question =>
                  let latency := dnstapLatency msg
                  let latencyMS := latency.elim GoInt.zero fun d => GoInt.ofInt (d / millisecondNanos)
                  let mets := latency.elim p.mets fun d => p.mets.observeResponseLatency isProber d
                  if isProber && env.dropProberEvents then { p with mets := mets }
                  else
                    let sets := p.sets.load now files
                    { mets := mets
                      sets := sets
                      returned := p.returned ++ [makeEvent (env.reading sets) (eventTime now msg) clientIP
                        question.name (GoInt.ofInt question.qtype.toNat) dnsMsg.rcode latencyMS] }

def receive (env : Environment) (p : ResponseProcessor) (arrival : Arrival) : ResponseProcessor :=
  let received := { p with mets.eventsReceived := p.mets.eventsReceived + 1 }
  match arrival.msg with
  | none => received
  | some msg => received.process env arrival.now arrival.files msg

end ResponseProcessor

/-! ## What one frame causes -/

structure Response where
  clientIP : String
  question : Question
  rcode : GoInt

/-- The response of a frame that passes every check before the first observation. -/
def response (unpack : List UInt8 → Option DnsMsg) (msg : DnstapMessage) : Option Response :=
  if msg.type = .clientResponse ∧ msg.responseMessage ≠ [] then do
    let ip ← msg.queryAddress
    let dnsMsg ← unpack msg.responseMessage
    let question ← dnsMsg.question.head?
    return ⟨ipString ip, question, dnsMsg.rcode⟩
  else none

def Response.isProber (env : Environment) (r : Response) : Bool := r.clientIP ∈ env.probers

def Response.event (env : Environment) (now : GoTime) (msg : DnstapMessage) (r : Response) : Event :=
  makeEvent env (eventTime now msg) r.clientIP r.question.name (GoInt.ofInt r.question.qtype.toNat) r.rcode
    ((dnstapLatency msg).elim GoInt.zero fun d => GoInt.ofInt (d / millisecondNanos))

def Metrics.observe (mets : Metrics) (prober : Bool) (msg : DnstapMessage) : Metrics :=
  (dnstapLatency msg).elim mets fun d => mets.observeResponseLatency prober d

variable {env : Environment} {now : GoTime} {msg : DnstapMessage} {p : ResponseProcessor}

theorem process_eq (env : Environment) (now : GoTime) (msg : DnstapMessage) :
    process env now msg = (response env.unpack msg).bind fun r =>
      if r.isProber env && env.dropProberEvents then none else some (r.event env now msg) := by
  unfold process response
  by_cases type : msg.type = .clientResponse
  · cases msg.queryAddress with
    | none => simp [type]
    | some ip =>
        by_cases empty : msg.responseMessage = []
        · simp [type, empty]
        · cases env.unpack msg.responseMessage with
          | none => simp [type, empty]
          | some dnsMsg =>
              cases asked : dnsMsg.question.head? <;>
                simp [type, empty, asked, Response.isProber, Response.event]
  · simp [type]

theorem ResponseProcessor.process_eq (env : Environment) (p : ResponseProcessor) (now : GoTime)
    (files : ZoneFiles) (msg : DnstapMessage) :
    p.process env now files msg = (response env.unpack msg).elim p fun r =>
      let mets := p.mets.observe (r.isProber env) msg
      let sets := p.sets.load now files
      if r.isProber env && env.dropProberEvents then { p with mets := mets }
      else ⟨mets, sets, p.returned ++ [r.event (env.reading sets) now msg]⟩ := by
  unfold process response
  by_cases type : msg.type = .clientResponse
  · cases msg.queryAddress with
    | none => simp [type]
    | some ip =>
        by_cases empty : msg.responseMessage = []
        · simp [type, empty]
        · cases env.unpack msg.responseMessage with
          | none => simp [type, empty]
          | some dnsMsg =>
              cases asked : dnsMsg.question.head? <;>
                simp [type, empty, asked, Response.isProber, Response.event, Metrics.observe, Environment.reading]
  · simp [type]

/-! ## Two runs over the same frames -/

/-- An event without the verdict of the zone files. -/
def unlisted (ev : Event) : Event := { ev with blocked := false, blockReason := "" }

def FromProber (env : Environment) (arrival : Arrival) : Bool :=
  arrival.msg.any fun msg => msg.queryAddress.any fun ip => ipString ip ∈ env.probers

def production (env : Environment) (ev : Event) : Bool := ev.clientIP ∉ env.probers

def start (mets : Metrics) : ResponseProcessor := ⟨mets, ⟨[], [], none⟩, []⟩

def handle (env : Environment) (drop : Bool) (mets : Metrics) (arrivals : List Arrival) :
    ResponseProcessor :=
  arrivals.foldl (ResponseProcessor.receive (env.dropping drop)) (start mets)

/-- The drop changes no metric and takes nothing but the probers' events, as far as `view` shows them. -/
structure NonInterfering (view : Event → Event) (env : Environment) (mets : Metrics)
    (arrivals : List Arrival) : Prop where
  metrics : (handle env true mets arrivals).mets = (handle env false mets arrivals).mets
  returned : (handle env true mets arrivals).returned.map view =
    ((handle env false mets arrivals).returned.filter (production env)).map view
  production : ∀ drop, (handle env drop mets arrivals).mets.responseLatencyProduction =
    (handle env drop mets (arrivals.filter (!FromProber env ·))).mets.responseLatencyProduction

/-- The zone files can be read and do not change within the second before a frame. -/
def Steady (arrivals : List Arrival) : Prop :=
  (∀ arrival ∈ arrivals, arrival.files.combined.isSome = true ∧ arrival.files.whitelist.isSome = true) ∧
    arrivals.Pairwise fun earlier later =>
      (later.now - earlier.now : Int) < GoTime.secondNanos → earlier.files = later.files

@[simp] theorem unpack_dropping (env : Environment) (drop : Bool) :
    (env.dropping drop).unpack = env.unpack := rfl

@[simp] theorem isProber_dropping (env : Environment) (drop : Bool) (r : Response) :
    r.isProber (env.dropping drop) = r.isProber env := rfl

@[simp] theorem drop_dropping (env : Environment) (drop : Bool) :
    (env.dropping drop).dropProberEvents = drop := rfl

@[simp] theorem event_dropping (env : Environment) (drop : Bool) (sets : ZoneSets) (now : GoTime)
    (msg : DnstapMessage) (r : Response) :
    r.event ((env.dropping drop).reading sets) now msg = r.event (env.reading sets) now msg := rfl

theorem unlisted_event (env : Environment) (sets : ZoneSets) (now : GoTime) (msg : DnstapMessage)
    (r : Response) : unlisted (r.event (env.reading sets) now msg) = unlisted (r.event env now msg) := rfl

theorem production_event (env : Environment) (sets : ZoneSets) (now : GoTime) (msg : DnstapMessage)
    (r : Response) : production env (r.event (env.reading sets) now msg) = !r.isProber env := by
  simp [production, Response.isProber, Response.event, makeEvent]

structure Alike (env : Environment) (on off : ResponseProcessor) : Prop where
  metrics : on.mets = off.mets
  returned : on.returned.map unlisted = (off.returned.filter (production env)).map unlisted

theorem alike_receive {on off : ResponseProcessor} (alike : Alike env on off) (arrival : Arrival) :
    Alike env (on.receive (env.dropping true) arrival) (off.receive (env.dropping false) arrival) := by
  obtain ⟨metrics, returned⟩ := alike
  unfold ResponseProcessor.receive
  cases arrival.msg with
  | none => exact ⟨by simp [metrics], returned⟩
  | some msg =>
      simp only [ResponseProcessor.process_eq, unpack_dropping]
      cases response env.unpack msg with
      | none => exact ⟨by simp [metrics], returned⟩
      | some r =>
          cases prober : r.isProber env <;> constructor <;>
            simp [Metrics.observe, metrics, returned, prober, production_event, unlisted_event]

theorem alike_handle (env : Environment) (mets : Metrics) (arrivals : List Arrival) :
    Alike env (handle env true mets arrivals) (handle env false mets arrivals) :=
  List.foldl_rel ⟨rfl, rfl⟩ fun arrival _ _ _ alike => alike_receive alike arrival

/-! ### The production series -/

def productionSamples (env : Environment) (arrival : Arrival) : List Int :=
  match arrival.msg with
  | none => []
  | some msg => match response env.unpack msg with
      | none => []
      | some r => if r.isProber env then [] else (dnstapLatency msg).toList

theorem observe_production (mets : Metrics) (prober : Bool) (msg : DnstapMessage) :
    (mets.observe prober msg).responseLatencyProduction =
      mets.responseLatencyProduction ++ if prober then [] else (dnstapLatency msg).toList := by
  unfold Metrics.observe
  cases measured : dnstapLatency msg with
  | none => simp
  | some d =>
      have positive := (dnstapLatency_bounds measured).1
      cases prober <;> simp [Metrics.observeResponseLatency, not_le.mpr positive]

theorem receive_production (env : Environment) (drop : Bool) (p : ResponseProcessor) (arrival : Arrival) :
    (p.receive (env.dropping drop) arrival).mets.responseLatencyProduction =
      p.mets.responseLatencyProduction ++ productionSamples env arrival := by
  unfold ResponseProcessor.receive productionSamples
  cases arrival.msg with
  | none => simp
  | some msg =>
      simp only [ResponseProcessor.process_eq, unpack_dropping]
      cases response env.unpack msg with
      | none => simp
      | some r =>
          cases prober : r.isProber env <;> cases drop <;> simp [observe_production, prober]

theorem handle_production (env : Environment) (drop : Bool) (mets : Metrics) (arrivals : List Arrival) :
    (handle env drop mets arrivals).mets.responseLatencyProduction =
      mets.responseLatencyProduction ++ arrivals.flatMap (productionSamples env) := by
  unfold handle
  induction arrivals using List.reverseRecOn with
  | nil => simp [start]
  | append_singleton rest arrival ih => simp [receive_production, ih]

theorem isProber_response {r : Response} (read : response env.unpack msg = some r) :
    r.isProber env = msg.queryAddress.any fun ip => ipString ip ∈ env.probers := by
  unfold response at read
  split at read
  · cases address : msg.queryAddress with
    | none => simp [address] at read
    | some ip =>
        simp only [address, Option.bind_eq_bind, Option.bind_some, Option.bind_eq_some_iff] at read
        obtain ⟨dnsMsg, -, question, -, same⟩ := read
        rw [← Option.some.inj same]
        rfl
  · contradiction

theorem productionSamples_prober {arrival : Arrival} (prober : FromProber env arrival = true) :
    productionSamples env arrival = [] := by
  unfold productionSamples
  cases sent : arrival.msg with
  | none => rfl
  | some msg =>
      dsimp only
      cases read : response env.unpack msg with
      | none => rfl
      | some r => simp_all [FromProber, isProber_response read]

theorem flatMap_production (env : Environment) (arrivals : List Arrival) :
    (arrivals.filter (!FromProber env ·)).flatMap (productionSamples env) =
      arrivals.flatMap (productionSamples env) := by
  induction arrivals with
  | nil => rfl
  | cons arrival rest ih =>
      cases prober : FromProber env arrival <;> simp [prober, ih, productionSamples_prober]

/-! ### Zone files that keep still -/

def Environment.contents (env : Environment) (files : ZoneFiles) : Environment :=
  env.reading ⟨files.combined.getD [], files.whitelist.getD [], none⟩

def eventOf (env : Environment) (drop : Bool) (arrival : Arrival) : Option Event :=
  arrival.msg.bind (process ((env.dropping drop).contents arrival.files) arrival.now)

/-- What the sets hold was read when one of the frames arrived. -/
def ReadFrom (arrivals : List Arrival) (sets : ZoneSets) : Prop :=
  ∀ t, sets.lastLoad = some t → ∃ arrival ∈ arrivals, arrival.now = t ∧
    sets.blockedSet = arrival.files.combined.getD [] ∧ sets.allowSet = arrival.files.whitelist.getD []

theorem load_readFrom (env : Environment) {arrivals : List Arrival} {arrival : Arrival} {sets : ZoneSets}
    (steady : Steady (arrivals ++ [arrival])) (from' : ReadFrom arrivals sets) :
    ReadFrom (arrivals ++ [arrival]) (sets.load arrival.now arrival.files) ∧
      env.reading (sets.load arrival.now arrival.files) = env.contents arrival.files := by
  obtain ⟨readable, still⟩ := steady
  obtain ⟨-, -, still⟩ := List.pairwise_append.mp still
  obtain ⟨combined, whitelist⟩ := readable arrival (by simp)
  unfold ZoneSets.load
  split
  · rename_i recent
    obtain ⟨t, last, near⟩ : ∃ t, sets.lastLoad = some t ∧ (arrival.now - t : Int) < GoTime.secondNanos := by
      simpa [Option.any_eq_true_iff_get, Option.eq_some_iff_get_eq] using recent
    obtain ⟨earlier, member, rfl, blocked, allowed⟩ := from' t last
    have same := still earlier member arrival (by simp) near
    refine ⟨fun u found => ?_, by simp [Environment.reading, Environment.contents, blocked, allowed, same]⟩
    obtain rfl : earlier.now = u := Option.some.inj (last.symm.trans found)
    exact ⟨earlier, List.mem_append_left _ member, rfl, blocked, allowed⟩
  · obtain ⟨blocked, readBlocked⟩ := Option.isSome_iff_exists.mp combined
    obtain ⟨allowed, readAllowed⟩ := Option.isSome_iff_exists.mp whitelist
    refine ⟨fun u found => ?_, by simp [Environment.reading, Environment.contents, readBlocked, readAllowed]⟩
    exact ⟨arrival, by simp, Option.some.inj found, by simp [readBlocked], by simp [readAllowed]⟩

theorem handle_steady (env : Environment) (drop : Bool) (mets : Metrics) (arrivals : List Arrival)
    (steady : Steady arrivals) :
    ReadFrom arrivals (handle env drop mets arrivals).sets ∧
      (handle env drop mets arrivals).returned = arrivals.filterMap (eventOf env drop) := by
  unfold handle
  induction arrivals using List.reverseRecOn with
  | nil => exact ⟨fun t found => (nomatch found), rfl⟩
  | append_singleton rest arrival ih =>
      obtain ⟨from', returned⟩ := ih ⟨fun a member => steady.1 a (List.mem_append_left _ member),
        (List.pairwise_append.mp steady.2).1⟩
      obtain ⟨loaded, contents⟩ := load_readFrom (env.dropping drop) steady from'
      have kept : ReadFrom (rest ++ [arrival])
          (rest.foldl (ResponseProcessor.receive (env.dropping drop)) (start mets)).sets := by
        intro t last
        obtain ⟨a, member, found⟩ := from' t last
        exact ⟨a, List.mem_append_left _ member, found⟩
      rw [List.foldl_append, List.filterMap_append, ← returned]
      simp only [List.foldl_cons, List.foldl_nil, ResponseProcessor.receive, eventOf]
      cases sent : arrival.msg with
      | none => simp [kept, sent, eventOf]
      | some msg =>
          have unpack : ((env.dropping drop).contents arrival.files).unpack = env.unpack := rfl
          simp only [ResponseProcessor.process_eq, unpack_dropping]
          cases read : response env.unpack msg with
          | none => simp [kept, sent, eventOf, process_eq, unpack, read]
          | some r =>
              by_cases dropped : (r.isProber env && drop) = true
              · have gone : eventOf env drop arrival = none := by
                  simp only [eventOf, sent, Option.bind_some, process_eq, unpack, read]
                  exact if_pos dropped
                rw [Option.elim_some, isProber_dropping, drop_dropping, if_pos dropped]
                simp [kept, gone]
              · have event : eventOf env drop arrival = some (r.event
                    ((env.dropping drop).contents arrival.files) arrival.now msg) := by
                  simp only [eventOf, sent, Option.bind_some, process_eq, unpack, read]
                  exact if_neg dropped
                rw [Option.elim_some, isProber_dropping, drop_dropping, if_neg dropped]
                simp [loaded, event, contents]

theorem eventOf_filter (env : Environment) (arrival : Arrival) :
    eventOf env true arrival = (eventOf env false arrival).filter (production env) := by
  unfold eventOf
  cases arrival.msg with
  | none => rfl
  | some msg =>
      have unpack (drop : Bool) : ((env.dropping drop).contents arrival.files).unpack = env.unpack := rfl
      have prober (drop : Bool) (r : Response) :
          r.isProber ((env.dropping drop).contents arrival.files) = r.isProber env := rfl
      have drops (drop : Bool) : ((env.dropping drop).contents arrival.files).dropProberEvents = drop := rfl
      simp only [Option.bind_some, process_eq, unpack, prober, drops]
      cases response env.unpack msg with
      | none => rfl
      | some r =>
          cases asked : r.isProber env <;>
            simp [asked, Option.filter, Environment.contents, production_event]

/-! ### The drop against the reload -/

def stack : Environment where
  nodeName := "primary"
  probers := ["172.30.0.30"]
  dropProberEvents := true
  containsIP := fun _ => false
  blockedSet := []
  allowSet := []
  unpack := fun _ => some ⟨[⟨"ads.example.", 1⟩], GoInt.zero⟩

def idle : Metrics := ⟨[], [], 0, 0, 0, 0, 0⟩

def asked (ip : List UInt8) : DnstapMessage where
  type := .clientResponse
  queryAddress := some ip
  responseMessage := [0]
  queryTimeSec := 1714564800
  queryTimeNsec := 0
  responseTimeSec := 1714564800
  responseTimeNsec := 1500000

def probe (combined : List String) : Arrival :=
  ⟨0, ⟨some combined, some []⟩, some (asked [172, 30, 0, 30])⟩

def lookup : Arrival := ⟨500000000, ⟨some ["ads.example"], some []⟩, some (asked [192, 168, 1, 20])⟩

end PowerBlockade.Processor
