import PowerBlockade.Lib.ExpositionWriting
import PowerBlockade.Primary.Ingest

/-!
# The primary's metrics

The `/metrics` endpoint writes the statistics of the last day and the latest counters of every node. The
order in which the database answers is not fixed.
-/

namespace PowerBlockade.Metrics
open Lib Exposition Primary

/-! ## What is written -/

/-- A float as a format of fixed precision prints it: a sign and the rounded multiple of the last place. -/
structure Fixed where
  negative : Bool
  scaled : Nat

def Fixed.format (places : Nat) (x : Fixed) : String :=
  (if x.negative then "-" else "") ++ toString (x.scaled / 10 ^ places) ++ "." ++
    String.ofList (digitChars (fixedDigits places (x.scaled % 10 ^ places)))

/-- `get_dashboard_stats`, as far as it is shown. -/
structure Stats where
  totalQueries : Int
  blockedQueries : Int
  blockedPct : Fixed
  cacheHits : Int
  cacheHitPct : Fixed
  timeSavedSeconds : Int
  qps : Fixed
  cacheAgeSeconds : Fixed
  rollupLagSeconds : Fixed
  edgeDeltaTotal : Int

structure Family where
  name : String
  help : String
  kind : String

def Family.lines (family : Family) (samples : List String) : List String :=
  ("# HELP " ++ family.name ++ " " ++ family.help) :: ("# TYPE " ++ family.name ++ " " ++ family.kind) :: samples

def headFamilies (stats : Stats) : List (Family × String) :=
  [(⟨"powerblockade_queries_total", "Total DNS queries in 24h", "gauge"⟩, toString (max stats.totalQueries 0)),
    (⟨"powerblockade_blocked_total", "Blocked queries in 24h", "gauge"⟩, toString stats.blockedQueries),
    (⟨"powerblockade_block_rate", "Block percentage", "gauge"⟩, stats.blockedPct.format 2),
    (⟨"powerblockade_cache_hits_total", "Estimated cache hits in 24h", "gauge"⟩, toString stats.cacheHits),
    (⟨"powerblockade_cache_hit_rate", "Cache hit percentage", "gauge"⟩, stats.cacheHitPct.format 2),
    (⟨"powerblockade_time_saved_seconds", "Time saved by cache", "gauge"⟩, toString stats.timeSavedSeconds),
    (⟨"powerblockade_qps", "Queries per second (24h avg)", "gauge"⟩, stats.qps.format 2),
    (⟨"powerblockade_stats_cache_age_seconds", "Age of the cached stats in seconds", "gauge"⟩,
      stats.cacheAgeSeconds.format 1),
    (⟨"powerblockade_rollup_lag_seconds", "Seconds since last included rollup bucket", "gauge"⟩,
      stats.rollupLagSeconds.format 1),
    (⟨"powerblockade_stats_edge_delta_total", "Raw edge events included in this sample", "gauge"⟩,
      toString stats.edgeDeltaTotal)]

/-- A family of the nodes: one series, or one for each bound of a bucket. -/
structure NodeFamily extends Family where
  series : List (Option String × (MetricsRequest → Int))

def answersLatency : NodeFamily where
  name := "powerblockade_recursor_answers_latency"
  help := "Answer latency buckets by node"
  kind := "counter"
  series := [(some "1", (·.answers0to1)), (some "10", (·.answers1to10)), (some "100", (·.answers10to100)),
    (some "1000", (·.answers100to1000)), (some "+Inf", (·.answersSlow))]

def cacheHitsFamily : NodeFamily :=
  ⟨⟨"powerblockade_recursor_cache_hits", "Recursor cache hits by node", "counter"⟩, [(none, (·.cacheHits))]⟩

def otherFamilies : List NodeFamily :=
  [⟨⟨"powerblockade_recursor_cache_misses", "Recursor cache misses by node", "counter"⟩,
      [(none, (·.cacheMisses))]⟩,
    ⟨⟨"powerblockade_recursor_cache_entries", "Current cache entries by node", "gauge"⟩,
      [(none, (·.cacheEntries))]⟩,
    answersLatency,
    ⟨⟨"powerblockade_recursor_concurrent_queries", "Current concurrent queries by node", "gauge"⟩,
      [(none, (·.concurrentQueries))]⟩,
    ⟨⟨"powerblockade_recursor_outgoing_timeouts", "Outgoing query timeouts by node", "counter"⟩,
      [(none, (·.outgoingTimeouts))]⟩,
    ⟨⟨"powerblockade_recursor_servfail_answers", "SERVFAIL responses by node", "counter"⟩,
      [(none, (·.servfailAnswers))]⟩,
    ⟨⟨"powerblockade_recursor_questions", "Total questions received by node", "counter"⟩,
      [(none, (·.questions))]⟩,
    ⟨⟨"powerblockade_recursor_uptime_seconds", "Recursor uptime by node", "counter"⟩,
      [(none, (·.uptimeSeconds))]⟩]

def nodeFamilies : List NodeFamily := cacheHitsFamily :: otherFamilies

abbrev Reported := List (String × MetricsRequest)

def nodeLine (family : NodeFamily) (node : String × MetricsRequest)
    (series : Option String × (MetricsRequest → Int)) : String :=
  let bound := match series.1 with
    | none => ""
    | some le => ",le=\"" ++ le ++ "\""
  family.name ++ "\x7bnode=\"" ++ node.1 ++ "\"" ++ bound ++ "\x7d " ++ toString (series.2 node.2)

def nodeLines (family : NodeFamily) (reported : Reported) : List String :=
  reported.flatMap fun node => family.series.map (nodeLine family node)

def groups (stats : Stats) (reported : Reported) : List (List String) :=
  (headFamilies stats).map (fun (family, value) => family.lines [family.name ++ " " ++ value]) ++
    if reported = [] then []
    else nodeFamilies.map fun family => family.lines (nodeLines family reported)

/-- The body of the response. -/
def metricsText (stats : Stats) (reported : Reported) : String :=
  "\n".intercalate ([""].intercalate (groups stats reported) ++ [""])

/-- The latest counters of every node that has any. -/
def getLatestNodeMetrics (db : Database) : Reported :=
  db.nodes.rows.filterMap fun node =>
    (db.metrics.filter (·.nodeId = node.id)).getLast?.map fun row => (node.name, row.counters)

/-! ## What it should say -/

structure Reading where
  name : String
  labels : List (String × String)
  value : Option ℚ

def Reading.of (s : Sample) : Reading :=
  ⟨String.ofList s.name, s.labels.map fun label => (String.ofList label.1, String.ofList label.2), s.value.number⟩

def readingsOf (samples : List Sample) (name : String) : List Reading :=
  (samples.map Reading.of).filter (·.name = name)

/-- The families with one sample for each node. -/
def nodeValues : List (String × (MetricsRequest → Int)) :=
  [("powerblockade_recursor_cache_hits", (·.cacheHits)), ("powerblockade_recursor_cache_misses", (·.cacheMisses)),
    ("powerblockade_recursor_cache_entries", (·.cacheEntries)),
    ("powerblockade_recursor_concurrent_queries", (·.concurrentQueries)),
    ("powerblockade_recursor_outgoing_timeouts", (·.outgoingTimeouts)),
    ("powerblockade_recursor_servfail_answers", (·.servfailAnswers)),
    ("powerblockade_recursor_questions", (·.questions)),
    ("powerblockade_recursor_uptime_seconds", (·.uptimeSeconds))]

/-- How many answers took no longer than each bound. -/
def answersUpTo (m : MetricsRequest) : List (String × Int) :=
  [("1", m.answers0to1), ("10", m.answers0to1 + m.answers1to10),
    ("100", m.answers0to1 + m.answers1to10 + m.answers10to100),
    ("1000", m.answers0to1 + m.answers1to10 + m.answers10to100 + m.answers100to1000),
    ("+Inf", m.answers0to1 + m.answers1to10 + m.answers10to100 + m.answers100to1000 + m.answersSlow)]

structure Faithful (samples : List Sample) (reported : Reported) : Prop where
  values : ∀ metric ∈ nodeValues, (readingsOf samples metric.1).Perm
    (reported.map fun node => ⟨metric.1, [("node", node.1)], some (metric.2 node.2)⟩)
  buckets : (readingsOf samples "powerblockade_recursor_answers_latency").Perm
    (reported.flatMap fun node => (answersUpTo node.2).map fun bucket =>
      ⟨"powerblockade_recursor_answers_latency", [("node", node.1), ("le", bucket.1)], some bucket.2⟩)
  cumulative : ∀ node ∈ reported, (answersUpTo node.2).Pairwise (·.2 ≤ ·.2)

/-- The text reads, and as what was reported. -/
def WellFormed (stats : Stats) (reported : Reported) : Prop :=
  ∃ samples, Exposition.read (metricsText stats reported).toList = some samples ∧ Faithful samples reported

/-- A name that needs no escapes, and no answers but slow ones. -/
structure Unharmed (node : String × MetricsRequest) : Prop where
  clean : Clean node.1.toList
  fast : node.2.answers0to1 = 0 ∧ node.2.answers1to10 = 0 ∧ node.2.answers10to100 = 0 ∧
    node.2.answers100to1000 = 0
  slow : 0 ≤ node.2.answersSlow

end PowerBlockade.Metrics
