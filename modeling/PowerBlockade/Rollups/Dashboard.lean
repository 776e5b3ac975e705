import PowerBlockade.Lib.TrueDivision
import PowerBlockade.Rollups.Compute

/-!
# Dashboard statistics

A window of more than an hour is put together from the hourly rows of its full hours and the events of
its two partial ones, and the result is cached for a minute. The rates, ages and percentages of the
answer, which are floats, are left out.
-/

namespace PowerBlockade.Rollups
open Lib Primary

def cacheHitLatencyThresholdMs : Nat := 5

@[ext] structure Accum where
  counters : Counters
  latencyWeightedSum : Int
  uniqueDomains : Nat
deriving DecidableEq

instance : Add Accum := ⟨fun a b =>
  ⟨a.counters + b.counters, a.latencyWeightedSum + b.latencyWeightedSum,
    a.uniqueDomains + b.uniqueDomains⟩⟩

theorem Accum.add_def (a b : Accum) : a + b = ⟨a.counters + b.counters,
    a.latencyWeightedSum + b.latencyWeightedSum, a.uniqueDomains + b.uniqueDomains⟩ := rfl

def rawEdgeAggregate (events : List DNSQueryEvent) (start stop : DateTime) : Accum :=
  let range := external events start.micros stop.micros
  ⟨aggregate range, (latencies range).sum, uniqueDomains range⟩

structure DashboardStats where
  counters : Counters
  avgLatencyMs : Int
  uniqueDomains : Nat
  timeSavedMs : Nat
  edgeDeltaTotal : Nat
deriving DecidableEq

def buildResult (accum : Accum) (edgeDeltaTotal : Nat) : DashboardStats where
  counters := accum.counters
  avgLatencyMs :=
    if 0 < accum.counters.totalQueries then
      intTrueDiv accum.latencyWeightedSum accum.counters.totalQueries
    else 0
  uniqueDomains := accum.uniqueDomains
  timeSavedMs := accum.counters.cacheHits * cacheHitLatencyThresholdMs
  edgeDeltaTotal := edgeDeltaTotal

/-! ## The window -/

def windowStart (now : DateTime) (hours : Int) : Option DateTime :=
  (timedelta (hours * hourMicros)).bind fun delta => now.add (-delta)

def fullStart (start : DateTime) : Option DateTime :=
  if start.startOfHour < start then start.startOfHour.add hourMicros else some start.startOfHour

/-- `avg_latency_ms * total_queries`; NULL when the average is. -/
def QueryRollup.weightedLatency (row : QueryRollup) : Option Int :=
  row.avgLatencyMs.map (· * row.counters.totalQueries)

def rollupAggregate (rows : List QueryRollup) : Accum :=
  ⟨(rows.map (·.counters)).sum, (rows.filterMap QueryRollup.weightedLatency).sum,
    (rows.map (·.uniqueDomains)).sum⟩

def accumulate (events : List DNSQueryEvent) (table : RollupTable) (start full current now : DateTime) :
    Accum × Nat :=
  let accum := rollupAggregate (hourlyBetween table.rows full current)
  let (accum, edge) :=
    if start < full then
      let startEdge := rawEdgeAggregate events start full
      (accum + startEdge, startEdge.counters.totalQueries)
    else (accum, 0)
  if current < now then
    let currentEdge := rawEdgeAggregate events current now
    (accum + currentEdge, edge + currentEdge.counters.totalQueries)
  else (accum, edge)

/-! ## The cache -/

abbrev StatsCache := List (String × Int × DashboardStats)

def statsCacheTtl : Int := 60 * secondMicros

def cacheKey (hours : Int) (startBucket currentBucket : DateTime) : String :=
  toString hours ++ ":" ++ PyDateTime.isoformat startBucket ++ ":" ++ PyDateTime.isoformat currentBucket

def StatsCache.store (cache : StatsCache) (key : String) (entry : Int × DashboardStats) : StatsCache :=
  (key, entry) :: cache.filter (·.1 ≠ key)

def StatsCache.fetch (cache : StatsCache) (key : String) (monotonic : Int) : Option DashboardStats :=
  match cache.lookup key with
  | some (stored, stats) => if monotonic - stored < statsCacheTtl then some stats else none
  | none => none

/-- The clocks a call reads: the wall time, and the monotonic time before and after its queries. -/
structure Clock where
  now : DateTime
  before : Int
  after : Int

/-- `none` is the `OverflowError` of a window that starts before the year 1. -/
def getDashboardStats (events : List DNSQueryEvent) (table : RollupTable) (cache : StatsCache)
    (clock : Clock) (hours : Int) : Option (DashboardStats × StatsCache) := do
  let now := clock.now
  let start ← windowStart now hours
  let currentHour := now.startOfHour
  if hours ≤ 1 then
    let raw := rawEdgeAggregate events start now
    return (buildResult raw raw.counters.totalQueries, cache)
  else
    let full ← fullStart start
    let key := cacheKey hours start.startOfHour currentHour
    match cache.fetch key clock.before with
    | some stats => return (stats, cache)
    | none =>
        let (accum, edge) := accumulate events table start full currentHour now
        let result := buildResult accum edge
        return (result, cache.store key (clock.after, result))

end PowerBlockade.Rollups
