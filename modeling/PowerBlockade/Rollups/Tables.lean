import Mathlib.Algebra.BigOperators.Group.List.Basic
import PowerBlockade.Lib.Grouping
import PowerBlockade.Lib.KeyedTable
import PowerBlockade.Primary.Tables

/-!
# Query rollups

The five counters of a set of events, and the rows of `query_rollups`.
-/

namespace PowerBlockade.Rollups
open Lib Primary

@[ext] structure Counters where
  totalQueries : Nat
  blockedQueries : Nat
  nxdomainCount : Nat
  servfailCount : Nat
  cacheHits : Nat
deriving DecidableEq

namespace Counters

instance : Zero Counters := ⟨⟨0, 0, 0, 0, 0⟩⟩

instance : Add Counters := ⟨fun a b =>
  ⟨a.totalQueries + b.totalQueries, a.blockedQueries + b.blockedQueries,
    a.nxdomainCount + b.nxdomainCount, a.servfailCount + b.servfailCount, a.cacheHits + b.cacheHits⟩⟩

theorem zero_def : (0 : Counters) = ⟨0, 0, 0, 0, 0⟩ := rfl

theorem add_def (a b : Counters) : a + b =
    ⟨a.totalQueries + b.totalQueries, a.blockedQueries + b.blockedQueries,
      a.nxdomainCount + b.nxdomainCount, a.servfailCount + b.servfailCount,
      a.cacheHits + b.cacheHits⟩ := rfl

instance : AddCommMonoid Counters where
  add_assoc a b c := by simp [add_def, Nat.add_assoc]
  zero_add a := by simp [add_def, zero_def]
  add_zero a := by simp [add_def, zero_def]
  add_comm a b := by simp [add_def, Nat.add_comm]
  nsmul := nsmulRec

end Counters

/-! ## Aggregates of events -/

def aggregate (events : List DNSQueryEvent) : Counters where
  totalQueries := events.length
  blockedQueries := events.countP (·.blocked)
  nxdomainCount := events.countP (·.rcode = 3)
  servfailCount := events.countP (·.rcode = 2)
  cacheHits := events.countP (·.cacheHit)

@[simp] theorem aggregate_nil : aggregate [] = 0 := rfl

theorem aggregate_append (xs ys : List DNSQueryEvent) :
    aggregate (xs ++ ys) = aggregate xs + aggregate ys := by
  simp [aggregate, Counters.add_def]

theorem aggregate_perm {xs ys : List DNSQueryEvent} (same : xs.Perm ys) : aggregate xs = aggregate ys := by
  simp [aggregate, same.length_eq, same.countP_eq]

theorem sum_aggregate (parts : List (List DNSQueryEvent)) :
    (parts.map aggregate).sum = aggregate parts.flatten :=
  sum_map_flatten aggregate aggregate_nil aggregate_append parts

def latencies (events : List DNSQueryEvent) : List Int := events.filterMap (·.latencyMs)

def uniqueDomains (events : List DNSQueryEvent) : Nat := countDistinct (·.qname) events

/-- `int(avg) if avg else None` of a column's average; NULLs do not count, and an average of 0 is false. -/
def averageLatency (latencies : List Int) : Option Int :=
  if latencies.sum = 0 then none else some (latencies.sum.tdiv latencies.length)

/-- The events with `start <= ts < end` that are not internal. -/
def external (events : List DNSQueryEvent) (start stop : Int) : List DNSQueryEvent :=
  events.filter fun event => start ≤ event.ts && event.ts < stop && !event.isInternal

theorem external_append_perm (events : List DNSQueryEvent) {a b c : Int} (first : a ≤ b) (second : b ≤ c) :
    (external events a b ++ external events b c).Perm (external events a c) := by
  have low : external events a b = (external events a c).filter (·.ts < b) := by
    rw [external, external, List.filter_filter]
    apply List.filter_congr
    intro event _
    grind
  have high : external events b c = (external events a c).filter fun event => !decide (event.ts < b) := by
    rw [external, external, List.filter_filter]
    apply List.filter_congr
    intro event _
    grind
  rw [low, high]
  exact List.filter_append_perm _ _

/-! ## Rows -/

inductive Granularity
  | hourly
  | daily
deriving DecidableEq

abbrev GroupKey := Option Nat × Option Nat

structure QueryRollup where
  bucketStart : DateTime
  granularity : Granularity
  clientId : Option Nat
  nodeId : Option Nat
  counters : Counters
  avgLatencyMs : Option Int
  uniqueDomains : Nat
deriving DecidableEq

def QueryRollup.groupKey (row : QueryRollup) : GroupKey := (row.clientId, row.nodeId)

def QueryRollup.key (row : QueryRollup) : DateTime × Granularity × GroupKey :=
  (row.bucketStart, row.granularity, row.groupKey)

/-- The table has one row for each key: a NULL id is looked up like any other, and only then is a row
added. -/
abbrev RollupTable := KeyedTable QueryRollup.key

def hourlyBetween (rows : List QueryRollup) (start stop : DateTime) : List QueryRollup :=
  rows.filter fun row => row.granularity = .hourly && start ≤ row.bucketStart && row.bucketStart < stop

def bucketRows (rows : List QueryRollup) (granularity : Granularity) (bucket : DateTime) :
    List QueryRollup :=
  rows.filter fun row => row.granularity = granularity && row.bucketStart = bucket

end PowerBlockade.Rollups
