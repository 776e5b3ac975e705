import PowerBlockade.Rollups.Tables

/-!
# Computing rollups

The hourly rollup groups the events of an hour by client and node, the daily one the hourly rows of a
day. `none` is an exception, after which nothing is committed.
-/

namespace PowerBlockade.Rollups
open Lib Primary

def eventKey (event : DNSQueryEvent) : GroupKey := (event.clientId, event.nodeId)

def hourlyRow (hourStart : DateTime) (key : GroupKey) (events : List DNSQueryEvent) : QueryRollup where
  bucketStart := hourStart
  granularity := .hourly
  clientId := key.1
  nodeId := key.2
  counters := aggregate events
  avgLatencyMs := averageLatency (latencies events)
  uniqueDomains := uniqueDomains events

def hourlyRows (hourStart : DateTime) (events : List DNSQueryEvent) : List QueryRollup :=
  (groupBy eventKey events).map fun group => hourlyRow hourStart group.1 group.2

def computeHourlyRollup (events : List DNSQueryEvent) (table : RollupTable) (hourStart : DateTime) :
    Option (RollupTable × Nat) := do
  let hourEnd ← hourStart.add hourMicros
  let results := hourlyRows hourStart (external events hourStart.micros hourEnd.micros)
  return (table.upsertAll results, results.length)

def dailyRow (dayStart : DateTime) (key : GroupKey) (rows : List QueryRollup) : QueryRollup where
  bucketStart := dayStart
  granularity := .daily
  clientId := key.1
  nodeId := key.2
  counters := (rows.map (·.counters)).sum
  avgLatencyMs := averageLatency (rows.filterMap (·.avgLatencyMs))
  uniqueDomains := (rows.map (·.uniqueDomains)).sum

def dailyRows (dayStart : DateTime) (rows : List QueryRollup) : List QueryRollup :=
  (groupBy QueryRollup.groupKey rows).map fun group => dailyRow dayStart group.1 group.2

def computeDailyRollup (table : RollupTable) (dayStart : DateTime) : Option (RollupTable × Nat) := do
  let dayEnd ← dayStart.add dayMicros
  let results := dailyRows dayStart (hourlyBetween table.rows dayStart dayEnd)
  return (table.upsertAll results, results.length)

def runRollupJob (events : List DNSQueryEvent) (table : RollupTable) (now : DateTime) :
    Option (RollupTable × Nat × Nat) := do
  let previousHour ← now.startOfHour.add (-hourMicros)
  let previousDay ← now.startOfDay.add (-dayMicros)
  let (table, hourlyCount) ← computeHourlyRollup events table previousHour
  if now.hour < 2 then
    let (table, dailyCount) ← computeDailyRollup table previousDay
    return (table, hourlyCount, dailyCount)
  else return (table, hourlyCount, 0)

/-! ## What a computation leaves -/

def hourEvents (events : List DNSQueryEvent) (hour : DateTime) : List DNSQueryEvent :=
  external events hour.micros (hour.micros + hourMicros)

theorem computeHourlyRollup_eq_some {events : List DNSQueryEvent} {table after : RollupTable}
    {hour : DateTime} {count : Nat} (computed : computeHourlyRollup events table hour = some (after, count)) :
    after = table.upsertAll (hourlyRows hour (hourEvents events hour)) := by
  simp only [computeHourlyRollup, Option.bind_eq_bind, Option.bind_eq_some_iff, Option.pure_def,
    Option.some.injEq, Prod.mk.injEq] at computed
  obtain ⟨hourEnd, added, rfl, -⟩ := computed
  rw [hourEvents, DateTime.add_eq_some.1 added]

theorem computeDailyRollup_eq_some {table after : RollupTable} {day : DateTime} {count : Nat}
    (computed : computeDailyRollup table day = some (after, count)) :
    ∃ dayEnd, day.add dayMicros = some dayEnd ∧
      after = table.upsertAll (dailyRows day (hourlyBetween table.rows day dayEnd)) := by
  simp only [computeDailyRollup, Option.bind_eq_bind, Option.bind_eq_some_iff, Option.pure_def,
    Option.some.injEq, Prod.mk.injEq] at computed
  obtain ⟨dayEnd, added, rfl, -⟩ := computed
  exact ⟨dayEnd, added, rfl⟩

theorem map_key_hourlyRows (hour : DateTime) (events : List DNSQueryEvent) :
    (hourlyRows hour events).map QueryRollup.key =
      (events.map eventKey).dedup.map fun key => (hour, Granularity.hourly, key) := by
  rw [hourlyRows, List.map_map, ← map_fst_groupBy, List.map_map]
  rfl

theorem map_key_dailyRows (day : DateTime) (rows : List QueryRollup) :
    (dailyRows day rows).map QueryRollup.key =
      (rows.map QueryRollup.groupKey).dedup.map fun key => (day, Granularity.daily, key) := by
  rw [dailyRows, List.map_map, ← map_fst_groupBy, List.map_map]
  rfl

theorem nodup_map_bucket (bucket : DateTime) (granularity : Granularity) {keys : List GroupKey}
    (distinct : keys.Nodup) : (keys.map fun key => (bucket, granularity, key)).Nodup :=
  distinct.map fun _ _ same => (Prod.mk.inj (Prod.mk.inj same).2).2

theorem hourlyRows_unique (hour : DateTime) (events : List DNSQueryEvent) :
    ((hourlyRows hour events).map QueryRollup.key).Nodup := by
  rw [map_key_hourlyRows]
  exact nodup_map_bucket _ _ (List.nodup_dedup _)

theorem dailyRows_unique (day : DateTime) (rows : List QueryRollup) :
    ((dailyRows day rows).map QueryRollup.key).Nodup := by
  rw [map_key_dailyRows]
  exact nodup_map_bucket _ _ (List.nodup_dedup _)

theorem sum_counters_hourlyRows (hour : DateTime) (events : List DNSQueryEvent) :
    ((hourlyRows hour events).map (·.counters)).sum = aggregate events := by
  rw [← aggregate_perm (flatten_groupBy_perm eventKey events), ← sum_aggregate, hourlyRows, List.map_map,
    List.map_map]
  rfl

theorem sum_counters_dailyRows (day : DateTime) (rows : List QueryRollup) :
    ((dailyRows day rows).map (·.counters)).sum = (rows.map (·.counters)).sum := by
  let total (rows : List QueryRollup) : Counters := (rows.map (·.counters)).sum
  have groups := sum_map_flatten total rfl (fun xs ys => by simp [total])
    ((groupBy QueryRollup.groupKey rows).map Prod.snd)
  have whole : total ((groupBy QueryRollup.groupKey rows).map Prod.snd).flatten = total rows :=
    ((flatten_groupBy_perm QueryRollup.groupKey rows).map _).sum_eq
  rw [whole, List.map_map] at groups
  rw [dailyRows, List.map_map]
  exact groups

theorem mem_hourlyRows {hour : DateTime} {events : List DNSQueryEvent} {row : QueryRollup}
    (member : row ∈ hourlyRows hour events) : row.bucketStart = hour ∧ row.granularity = .hourly ∧
      row.groupKey ∈ events.map eventKey := by
  obtain ⟨group, listed, rfl⟩ := List.mem_map.1 member
  exact ⟨rfl, rfl, (mem_groupBy.1 listed).1⟩

theorem mem_dailyRows {day : DateTime} {rows : List QueryRollup} {row : QueryRollup}
    (member : row ∈ dailyRows day rows) : row.bucketStart = day ∧ row.granularity = .daily := by
  obtain ⟨group, -, rfl⟩ := List.mem_map.1 member
  exact ⟨rfl, rfl⟩

theorem mem_upsertAll {table : RollupTable} {rows : List QueryRollup}
    (unique : (rows.map QueryRollup.key).Nodup) {row : QueryRollup}
    (member : row ∈ (table.upsertAll rows).rows) : row ∈ rows ∨ row ∈ table.rows := by
  rcases List.mem_append.1 ((table.upsertAll_perm unique).mem_iff.1 member) with new | old
  · exact Or.inl new
  · exact Or.inr (KeyedTable.mem_rowsWithout.1 old).1

theorem bucketRows_upsertAll_other {table : RollupTable} {rows : List QueryRollup}
    {granularity : Granularity} {bucket : DateTime} (unique : (rows.map QueryRollup.key).Nodup)
    (elsewhere : ∀ row ∈ rows, ¬ (row.granularity = granularity ∧ row.bucketStart = bucket)) :
    (bucketRows (table.upsertAll rows).rows granularity bucket).Perm
      (bucketRows table.rows granularity bucket) := by
  have none : bucketRows rows granularity bucket = [] :=
    List.filter_eq_nil_iff.2 fun row member => by simpa using elsewhere row member
  have filtered := (table.upsertAll_perm unique).filter fun row =>
    row.granularity = granularity && row.bucketStart = bucket
  rw [List.filter_append, KeyedTable.filter_rowsWithout, ← bucketRows, ← bucketRows, ← bucketRows, none]
    at filtered
  · exact filtered
  · intro old inBucket stored
    obtain ⟨row, member, same⟩ := List.mem_map.1 stored
    have ⟨granularitySame, bucketSame⟩ : old.granularity = granularity ∧ old.bucketStart = bucket := by
      simpa using inBucket
    have ⟨sameBucket, rest⟩ := Prod.mk.inj same
    exact elsewhere row member
      ⟨(Prod.mk.inj rest).1.trans granularitySame, sameBucket.trans bucketSame⟩

theorem bucketRows_upsertAll_self {table : RollupTable} {rows : List QueryRollup}
    {granularity : Granularity} {bucket : DateTime} (unique : (rows.map QueryRollup.key).Nodup)
    (here : ∀ row ∈ rows, row.granularity = granularity ∧ row.bucketStart = bucket)
    (covers : ∀ old ∈ bucketRows table.rows granularity bucket, old.key ∈ rows.map QueryRollup.key) :
    (bucketRows (table.upsertAll rows).rows granularity bucket).Perm rows := by
  have all : bucketRows rows granularity bucket = rows :=
    List.filter_eq_self.2 fun row member => by simpa using here row member
  have gone : bucketRows (KeyedTable.rowsWithout QueryRollup.key (rows.map QueryRollup.key) table.rows)
      granularity bucket = [] := by
    rw [bucketRows, List.filter_eq_nil_iff]
    intro old member inBucket
    obtain ⟨listed, absent⟩ := KeyedTable.mem_rowsWithout.1 member
    exact absent (covers old (List.mem_filter.2 ⟨listed, inBucket⟩))
  have filtered := (table.upsertAll_perm unique).filter fun row =>
    row.granularity = granularity && row.bucketStart = bucket
  rw [List.filter_append, ← bucketRows, ← bucketRows, ← bucketRows, all, gone, List.append_nil] at filtered
  exact filtered

end PowerBlockade.Rollups
