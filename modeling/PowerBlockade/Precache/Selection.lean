import Mathlib.Data.List.Sort
import PowerBlockade.Delivery.Wire
import PowerBlockade.Lib.Grouping
import PowerBlockade.Precache.Pairs

/-!
# Which pairs are warmed

Clients and warm passes query the same edge, whose frames become the rows that the next pass counts.
-/

namespace PowerBlockade.Precache
open Lib Primary Processor Delivery

def pairOf (row : DNSQueryEvent) : Pair := (row.qname, row.qtype)

/-- The filter of `get_top_pairs_to_warm`. -/
def warmable (since : DateTime) (row : DNSQueryEvent) : Bool :=
  since.micros ≤ row.ts && !row.blocked && row.rcode = 0

def countPairs (since : DateTime) (rows : List DNSQueryEvent) : List (Pair × Nat) :=
  (groupBy pairOf (rows.filter (warmable since))).map fun group => (group.1, group.2.length)

/-- `groups` are the counts in the order in which the database comes to them. -/
def getTopPairsToWarm (groups : List (Pair × Nat)) (limit : Nat) : List Pair :=
  ((groups.insertionSort fun a b => b.2 ≤ a.2).take limit).map Prod.fst

/-- A dnstap frame at the processor of some node. -/
structure Frame where
  env : Environment
  clock : GoTime
  msg : DnstapMessage

def Frame.event (frame : Frame) : Option Event := process frame.env frame.clock frame.msg

/-- The frame carries the time at which it is handled. -/
def Frame.At (frame : Frame) (now : DateTime) : Prop := eventTime frame.clock frame.msg / 1000 = now.micros

structure Logged where
  time : DateTime
  event : Event

/-- A query of a client that is not internal, answered without an error or a block. -/
def Logged.Asks (logged : Logged) (pair : Pair) : Prop :=
  (normalizedQname logged.event.qname, logged.event.qtype.1) = pair ∧ logged.event.isInternal = false ∧
    logged.event.rcode.1 = 0 ∧ logged.event.blocked = false

instance (logged : Logged) (pair : Pair) : Decidable (logged.Asks pair) :=
  inferInstanceAs (Decidable (_ = pair ∧ logged.event.isInternal = false ∧ logged.event.rcode.1 = 0 ∧
    logged.event.blocked = false))

structure Demand where
  now : DateTime
  log : List Logged
  primary : Database
  ttls : PairTtlCache
  pending : List Pair

def seconds (t : DateTime) : ℚ := t.micros / 10 ^ 6

namespace Demand

inductive Label
  | query (frame : Frame)
  | pass (groups : List (Pair × Nat)) (limit : Nat) (ignoreTtl : Bool) (customRefreshMinutes : Int)
      (maxQueries : Nat)
  | warm (frame : Frame) (outcome : PairWarmOutcome)
  | ingest (key : Option String) (batch : List Event)

structure Timed where
  time : DateTime
  label : Label

/-- `timedelta(hours=24)` before now; `none` is an `OverflowError`, which ends the pass. -/
def since (now : DateTime) : Option DateTime := now.add (-dayMicros)

def record (w : Demand) (frame : Frame) : Demand :=
  { w with log := w.log ++ (frame.event.map fun ev => ⟨w.now, ev⟩).toList }

def step (modelValidate : ModelValidate) (w : Demand) (timed : Timed) : Demand :=
  let w := { w with now := timed.time }
  match timed.label with
  | .query frame => w.record frame
  | .pass groups limit ignoreTtl customRefreshMinutes maxQueries => match since w.now with
      | none => w
      | some _ =>
          { w with pending := (getPairsNeedingRefresh w.ttls (getTopPairsToWarm groups limit) ignoreTtl
              customRefreshMinutes (seconds w.now)).take maxQueries }
  | .warm frame outcome => match w.pending with
      | [] => w
      | pair :: rest =>
          { w.record frame with
            ttls := recordOutcome w.ttls pair outcome (seconds w.now)
            pending := rest }
  | .ingest key batch => match Primary.ingest modelValidate w.primary key (batch.map Event.members) w.now with
      | .error _ => w
      | .ok (after, _) => { w with primary := after }

def start (now : DateTime) (settings : Settings) (nodes : NodeTable) : Demand :=
  { now, log := [], ttls := fun _ => none, pending := []
    primary := ⟨settings, nodes, [], 0, ⟨[], List.nodup_nil⟩, []⟩ }

/-- Warm queries ask for the pair that is due, from an internal address; what is ingested was logged,
numbered by the buffer. -/
def Valid (w : Demand) (timed : Timed) : Prop :=
  w.now ≤ timed.time ∧ match timed.label with
    | .query frame => Frame.At frame timed.time
    | .pass groups _ _ _ _ => ∀ since' ∈ since timed.time,
        groups.Perm (countPairs since' w.primary.events.rows)
    | .warm frame _ => Frame.At frame timed.time ∧ ∀ pair ∈ w.pending.head?, ∀ ev ∈ frame.event,
        (normalizedQname ev.qname, ev.qtype.1) = pair ∧ ev.isInternal = true
    | .ingest _ batch => ∀ ev ∈ batch, ∃ logged ∈ w.log, ev = { logged.event with eventSeq := ev.eventSeq }

/-- What a pass selects was asked for by a client within the day before, and is ranked by how often. -/
def ClientDemand (w : Demand) (timed : Timed) : Prop :=
  match timed.label with
  | .pass groups limit _ _ _ => ∀ since' ∈ since timed.time,
      (∀ pair ∈ getTopPairsToWarm groups limit,
        ∃ logged ∈ w.log, Logged.Asks logged pair ∧ since' ≤ logged.time ∧ logged.time ≤ timed.time) ∧
      ∀ group ∈ groups, group.2 = (w.primary.events.rows.filter fun row =>
        warmable since' row && !row.isInternal && pairOf row = group.1).length
  | _ => True

def Untouched (w : Demand) (timed : Timed) : Prop :=
  match timed.label with
  | .pass _ _ _ _ _ => ∀ since' ∈ since timed.time, ∀ row ∈ w.primary.events.rows,
      warmable since' row = true → row.isInternal = false
  | _ => True

instance (w : Demand) (timed : Timed) : Decidable (w.Valid timed) :=
  match timed with
  | ⟨time, .query frame⟩ =>
      inferInstanceAs (Decidable (_ ∧ eventTime frame.clock frame.msg / 1000 = time.micros))
  | ⟨time, .pass groups _ _ _ _⟩ => inferInstanceAs (Decidable (_ ∧ ∀ since' ∈ since time,
      groups.Perm (countPairs since' w.primary.events.rows)))
  | ⟨time, .warm frame _⟩ => inferInstanceAs (Decidable (_ ∧
      eventTime frame.clock frame.msg / 1000 = time.micros ∧ ∀ pair ∈ w.pending.head?,
        ∀ ev ∈ frame.event, (normalizedQname ev.qname, ev.qtype.1) = pair ∧ ev.isInternal = true))
  | ⟨_, .ingest _ batch⟩ => inferInstanceAs (Decidable (_ ∧ ∀ ev ∈ batch,
      ∃ logged ∈ w.log, ev = { logged.event with eventSeq := ev.eventSeq }))

instance (w : Demand) (timed : Timed) : Decidable (w.ClientDemand timed) :=
  match timed with
  | ⟨time, .pass groups limit _ _ _⟩ => inferInstanceAs (Decidable (∀ since' ∈ since time,
      (∀ pair ∈ getTopPairsToWarm groups limit, ∃ logged ∈ w.log, _ ∧ _) ∧ ∀ group ∈ groups, group.2 = _))
  | ⟨_, .query _⟩ | ⟨_, .warm _ _⟩ | ⟨_, .ingest _ _⟩ => inferInstanceAs (Decidable True)

instance (w : Demand) (timed : Timed) : Decidable (w.Untouched timed) :=
  match timed with
  | ⟨time, .pass _ _ _ _ _⟩ => inferInstanceAs (Decidable (∀ since' ∈ since time,
      ∀ row ∈ w.primary.events.rows, warmable since' row = true → row.isInternal = false))
  | ⟨_, .query _⟩ | ⟨_, .warm _ _⟩ | ⟨_, .ingest _ _⟩ => inferInstanceAs (Decidable True)

/-! ## Where the rows come from -/

structure Stems (row : DNSQueryEvent) (logged : Logged) : Prop where
  ts : row.ts = logged.time.micros
  qname : row.qname = normalizedQname logged.event.qname
  qtype : row.qtype = logged.event.qtype
  rcode : row.rcode = logged.event.rcode
  blocked : row.blocked = logged.event.blocked
  isInternal : row.isInternal = logged.event.isInternal

structure Sourced (w : Demand) : Prop where
  logged : ∀ logged ∈ w.log, logged.time ≤ w.now ∧
    ∃ t, logged.event.ts = GoTime.formatRFC3339Nano t ∧ t / 1000 = logged.time.micros
  rows : ∀ row ∈ w.primary.events.rows, ∃ logged ∈ w.log, Stems row logged

variable {modelValidate : ModelValidate} {w : Demand}

theorem sourced_start (now : DateTime) (settings : Settings) (nodes : NodeTable) :
    (start now settings nodes).Sourced where
  logged := fun _ member => absurd member List.not_mem_nil
  rows := fun _ member => absurd member List.not_mem_nil

theorem Sourced.at (sourced : w.Sourced) {time : DateTime} (forward : w.now ≤ time) :
    Sourced { w with now := time } where
  logged := fun logged member => ⟨(sourced.logged logged member).1.trans forward, (sourced.logged logged member).2⟩
  rows := sourced.rows

theorem Sourced.record (sourced : w.Sourced) {frame : Frame} (stamped : frame.At w.now) :
    (w.record frame).Sourced where
  logged := by
    intro logged member
    rcases List.mem_append.mp member with old | new
    · exact sourced.logged logged old
    · obtain ⟨ev, made, rfl⟩ := Option.map_eq_some_iff.mp (Option.mem_toList.mp new)
      obtain ⟨clientIP, dnsMsg, question, -, -, rfl⟩ := process_some made
      exact ⟨le_rfl, eventTime frame.clock frame.msg, rfl, stamped⟩
  rows := by
    intro row member
    obtain ⟨logged, present, stems⟩ := sourced.rows row member
    exact ⟨logged, List.mem_append_left _ present, stems⟩

theorem stems_eventRow {logged : Logged} {seq : Nat} {t : Int} (now : DateTime) (node : Node)
    (clients : List Client) (text : logged.event.ts = GoTime.formatRFC3339Nano t)
    (stamped : t / 1000 = logged.time.micros) :
    Stems (eventRow now node clients (received { logged.event with eventSeq := seq })) logged where
  ts := by
    have inRange := logged.time.inRange
    rw [← stamped]
    exact (storedTime_iff now t (received { logged.event with eventSeq := seq }) (congrArg some text)).mpr
      (by omega)
  qname := rfl
  qtype := rfl
  rcode := rfl
  blocked := rfl
  isInternal := rfl

theorem Sourced.ingest (accepts : AcceptsTyped modelValidate) (sourced : w.Sourced) {key : Option String}
    {batch : List Event} {after : Database} {received' : Nat}
    (logged : ∀ ev ∈ batch, ∃ logged ∈ w.log, ev = { logged.event with eventSeq := ev.eventSeq })
    (answered : Primary.ingest modelValidate w.primary key (batch.map Event.members) w.now =
      .ok (after, received')) : Sourced { w with primary := after } where
  logged := sourced.logged
  rows := by
    intro row member
    obtain ⟨node, -, -, -, effect⟩ := ingest_ok answered
    rcases effect with ⟨-, same⟩ | ⟨-, inserted, -⟩
    · rw [same] at member
      exact sourced.rows row member
    · rw [inserted] at member
      rcases EventTable.mem_insertAll member with old | new
      · exact sourced.rows row old
      · rw [ingestRows, filterMap_members accepts] at new
        obtain ⟨event, given, rfl⟩ := List.mem_map.mp new
        obtain ⟨ev, sent, rfl⟩ := List.mem_map.mp given
        obtain ⟨source, present, same⟩ := logged ev sent
        obtain ⟨-, t, text, stamped⟩ := sourced.logged source present
        rw [same]
        exact ⟨source, present, stems_eventRow w.now node _ text stamped⟩

theorem sourced_step (accepts : AcceptsTyped modelValidate) (timed : Timed) (sourced : w.Sourced)
    (valid : w.Valid timed) : (w.step modelValidate timed).Sourced := by
  obtain ⟨time, label⟩ := timed
  obtain ⟨forward, valid⟩ := valid
  have now := sourced.at forward
  cases label with
  | query frame => exact now.record valid
  | pass groups limit ignoreTtl customRefreshMinutes maxQueries =>
      unfold step
      dsimp only
      split
      · exact now
      · exact ⟨now.logged, now.rows⟩
  | warm frame outcome =>
      unfold step
      dsimp only
      split
      · exact now
      · have recorded := now.record valid.1
        exact ⟨recorded.logged, recorded.rows⟩
  | ingest key batch =>
      unfold step
      dsimp only
      split
      · exact now
      · rename_i after count answered
        exact now.ingest accepts valid answered

/-! ## What a pass counts -/

variable {groups : List (Pair × Nat)} {since' : DateTime} {rows : List DNSQueryEvent}

theorem exists_of_mem_getTopPairsToWarm {pair : Pair} {limit : Nat}
    (selected : pair ∈ getTopPairsToWarm groups limit) : ∃ n, (pair, n) ∈ groups := by
  obtain ⟨group, taken, rfl⟩ := List.mem_map.mp selected
  exact ⟨group.2, (List.mem_insertionSort _).mp (List.mem_of_mem_take taken)⟩

theorem mem_countPairs {group : Pair × Nat} : group ∈ countPairs since' rows ↔
    (∃ row ∈ rows, warmable since' row = true ∧ pairOf row = group.1) ∧
      group.2 = (rows.filter fun row => warmable since' row && pairOf row = group.1).length := by
  unfold countPairs
  rw [List.mem_map]
  constructor
  · rintro ⟨grouped, member, rfl⟩
    obtain ⟨used, whole⟩ := mem_groupBy.mp member
    obtain ⟨row, present, same⟩ := List.mem_map.mp used
    obtain ⟨present, counted⟩ := List.mem_filter.mp present
    refine ⟨⟨row, present, counted, same⟩, ?_⟩
    dsimp only
    rw [whole, List.filter_filter]
    congr 2
    funext row
    exact Bool.and_comm _ _
  · rintro ⟨⟨row, present, counted, same⟩, count⟩
    refine ⟨(group.1, (rows.filter (warmable since')).filter (pairOf · = group.1)), mem_groupBy.mpr
      ⟨List.mem_map.mpr ⟨row, List.mem_filter.mpr ⟨present, counted⟩, same⟩, rfl⟩, Prod.ext rfl ?_⟩
    dsimp only
    rw [count, List.filter_filter]
    congr 2
    funext row
    exact Bool.and_comm _ _

theorem count_external_iff {pair : Pair} :
    (rows.filter fun row => warmable since' row && pairOf row = pair).length =
        (rows.filter fun row => warmable since' row && !row.isInternal && pairOf row = pair).length ↔
      ∀ row ∈ rows, warmable since' row = true → pairOf row = pair → row.isInternal = false := by
  have split : (rows.filter fun row => warmable since' row && !row.isInternal && pairOf row = pair) =
      (rows.filter fun row => warmable since' row && pairOf row = pair).filter (!·.isInternal) := by
    rw [List.filter_filter]
    congr 1
    funext row
    cases row.isInternal <;> simp
  rw [split, eq_comm, List.length_filter_eq_length_iff]
  simp only [List.mem_filter, Bool.and_eq_true, decide_eq_true_eq, Bool.not_eq_true', and_imp]

theorem clientDemand_iff {timed : Timed} (sourced : w.Sourced) (valid : w.Valid timed) :
    w.ClientDemand timed ↔ w.Untouched timed := by
  obtain ⟨time, label⟩ := timed
  obtain ⟨forward, valid⟩ := valid
  cases label with
  | query frame => exact Iff.rfl
  | warm frame outcome => exact Iff.rfl
  | ingest key batch => exact Iff.rfl
  | pass groups limit ignoreTtl customRefreshMinutes maxQueries =>
      constructor
      · intro demand since' within row present counted
        obtain ⟨-, counts⟩ := demand since' within
        have grouped : (pairOf row, (w.primary.events.rows.filter fun other =>
            warmable since' other && pairOf other = pairOf row).length) ∈
              countPairs since' w.primary.events.rows := mem_countPairs.mpr ⟨⟨row, present, counted, rfl⟩, rfl⟩
        have external := counts _ ((valid since' within).mem_iff.mpr grouped)
        exact count_external_iff.mp external row present counted rfl
      · intro untouched since' within
        refine ⟨fun pair selected => ?_, fun group member => ?_⟩
        · obtain ⟨n, member⟩ := exists_of_mem_getTopPairsToWarm selected
          obtain ⟨⟨row, present, counted, same⟩, -⟩ :=
            mem_countPairs.mp ((valid since' within).mem_iff.mp member)
          have same : pairOf row = pair := same
          have external := untouched since' within row present counted
          obtain ⟨logged, source, stems⟩ := sourced.rows row present
          simp only [warmable, Bool.and_eq_true, decide_eq_true_eq, Bool.not_eq_true'] at counted
          obtain ⟨⟨recent, unblocked⟩, noerror⟩ := counted
          refine ⟨logged, source, ⟨?_, stems.isInternal ▸ external, stems.rcode ▸ noerror,
            stems.blocked ▸ unblocked⟩, ?_, (sourced.logged logged source).1.trans forward⟩
          · rw [← same, pairOf, stems.qname, stems.qtype]
          · rw [stems.ts] at recent
            exact_mod_cast recent
        · obtain ⟨-, count⟩ := mem_countPairs.mp ((valid since' within).mem_iff.mp member)
          rw [count]
          exact count_external_iff.mpr fun row present counted _ => untouched since' within row present counted

/-- The passes of a run follow the clients exactly when no internal row is ever counted. -/
theorem client_demand_iff (accepts : AcceptsTyped modelValidate) (now : DateTime) (settings : Settings)
    (nodes : NodeTable) (run : List Timed)
    (valid : Along (step modelValidate) Valid (start now settings nodes) run) :
    Along (step modelValidate) ClientDemand (start now settings nodes) run ↔
      Along (step modelValidate) Untouched (start now settings nodes) run :=
  along_congr_of_invariant (sourced_start now settings nodes) valid
    (fun _ timed sourced valid => sourced_step accepts timed sourced valid)
    fun _ _ sourced valid => clientDemand_iff sourced valid

/-! ## A pair that nobody asks for any more -/

def edge : Environment where
  nodeName := "edge"
  probers := []
  dropProberEvents := true
  containsIP := fun ip => ip = "10.0.0.2"
  blockedSet := []
  allowSet := []
  unpack := fun _ => some ⟨[⟨"example.org.", 1⟩], GoInt.zero⟩

def queryFrom (ip : List UInt8) (t : DateTime) : Frame :=
  ⟨edge, t.micros * 1000, ⟨.clientResponse, some ip, [0], 0, 0, 0, 0⟩⟩

def hour (n : Fin 100) : DateTime := minute ⟨n * 60, by omega⟩

def ingested (ip : List UInt8) (t : DateTime) : Label :=
  .ingest (some "edge-key") (queryFrom ip t).event.toList

def onePair : List (Pair × Nat) := [(("example.org", 1), 1)]

/-- A client asks once and the pair is warmed 20 hours later. -/
def askedOnce : List Timed :=
  [⟨hour 0, .query (queryFrom [192, 0, 2, 7] (hour 0))⟩, ⟨hour 0, ingested [192, 0, 2, 7] (hour 0)⟩,
    ⟨hour 20, .pass onePair 5000 false 60 2000⟩]

/-- The warm query keeps the pair among those of the next day. -/
def sustained : List Timed :=
  askedOnce ++ [⟨hour 20, .warm (queryFrom [10, 0, 0, 2] (hour 20)) ⟨some 300, none⟩⟩,
    ⟨hour 20, ingested [10, 0, 0, 2] (hour 20)⟩, ⟨hour 40, .pass onePair 5000 false 60 2000⟩]

theorem asked_pair_selected :
    Along (step IngestEvent.ofTyped) ClientDemand (start (hour 0) [] (office .active none).nodes) askedOnce :=
  (client_demand_iff acceptsTyped_ofTyped (hour 0) [] (office .active none).nodes askedOnce
    (by decide +kernel)).mpr (by decide +kernel)

theorem warming_sustains_itself :
    Along (step IngestEvent.ofTyped) Valid (start (hour 0) [] (office .active none).nodes) sustained ∧
      ¬ Along (step IngestEvent.ofTyped) ClientDemand (start (hour 0) [] (office .active none).nodes)
        sustained := by
  constructor <;> decide +kernel

end Demand

end PowerBlockade.Precache
