import PowerBlockade.Rollups.Window

/-!
# Rolled-up sums are raw sums

Once every full hour of the window was rolled up, the dashboard counts what a query over the events of
the window would count; once every hour of a day was, so do the daily rows.
-/

namespace PowerBlockade.Rollups
open Lib Primary

def computeHours (events : List DNSQueryEvent) : RollupTable → List DateTime → Option RollupTable
  | table, [] => some table
  | table, hour :: rest => do
      let (table, _) ← computeHourlyRollup events table hour
      computeHours events table rest

variable {events : List DNSQueryEvent} {table after : RollupTable}

theorem computeHours_cons {hour : DateTime} {rest : List DateTime} :
    computeHours events table (hour :: rest) = some after ↔
      ∃ middle count, computeHourlyRollup events table hour = some (middle, count) ∧
        computeHours events middle rest = some after := by
  simp [computeHours, Option.bind_eq_some_iff]

theorem sound_computeHours {hours : List DateTime} (sound : Sound events table)
    (full : ∀ hour ∈ hours, IsHour hour) (computed : computeHours events table hours = some after) :
    Sound events after := by
  induction hours generalizing table with
  | nil => exact Option.some.inj computed ▸ sound
  | cons hour rest ih =>
      obtain ⟨middle, count, first, later⟩ := computeHours_cons.1 computed
      exact ih (sound_computeHourlyRollup sound first (full hour List.mem_cons_self))
        (fun other member => full other (List.mem_cons_of_mem _ member)) later

theorem fresh_computeHours {hours : List DateTime} (sound : Sound events table)
    (full : ∀ hour ∈ hours, IsHour hour) (computed : computeHours events table hours = some after)
    {hour : DateTime} (rolled : hour ∈ hours ∨ Fresh events table hour) : Fresh events after hour := by
  induction hours generalizing table with
  | nil => exact Option.some.inj computed ▸ rolled.resolve_left List.not_mem_nil
  | cons first rest ih =>
      obtain ⟨middle, count, head, later⟩ := computeHours_cons.1 computed
      refine ih (sound_computeHourlyRollup sound head (full first List.mem_cons_self))
        (fun other member => full other (List.mem_cons_of_mem _ member)) later ?_
      rcases rolled with member | fresh
      · rcases List.mem_cons.1 member with rfl | inRest
        · exact Or.inr (fresh_computeHourlyRollup sound head)
        · exact Or.inl inRest
      · exact Or.inr (Fresh.computeHourlyRollup sound head fresh)

theorem hourly_computeHours {hours : List DateTime}
    (hourly : ∀ row ∈ table.rows, row.granularity = .hourly)
    (computed : computeHours events table hours = some after) :
    ∀ row ∈ after.rows, row.granularity = .hourly := by
  induction hours generalizing table with
  | nil => exact Option.some.inj computed ▸ hourly
  | cons hour rest ih =>
      obtain ⟨middle, count, first, later⟩ := computeHours_cons.1 computed
      obtain rfl := computeHourlyRollup_eq_some first
      refine ih (fun row member => ?_) later
      rcases mem_upsertAll (hourlyRows_unique _ _) member with new | old
      · exact (mem_hourlyRows new).2.1
      · exact hourly row old

theorem sound_of_computed {buckets : List DateTime} (full : ∀ hour ∈ buckets, IsHour hour)
    (computed : computeHours events KeyedTable.empty buckets = some table) : Sound events table :=
  sound_computeHours (sound_empty events) full computed

theorem fresh_of_computed {buckets : List DateTime} (full : ∀ hour ∈ buckets, IsHour hour)
    (computed : computeHours events KeyedTable.empty buckets = some table) {hour : DateTime}
    (rolled : hour ∈ buckets) : Fresh events table hour :=
  fresh_computeHours (sound_empty events) full computed (Or.inl rolled)

/-! ## The dashboard -/

theorem accumulate_counters {start full current now : DateTime} (first : IsHour full)
    (last : IsHour current) (left : start ≤ full) (middle : full ≤ current) (right : current ≤ now)
    (sound : Sound events table) (fresh : ∀ hour ∈ hoursBetween full current, Fresh events table hour) :
    (accumulate events table start full current now).1.counters =
      aggregate (external events start.micros now.micros) := by
  rw [accumulate_eq events table left right, rollupAggregate_fresh first last sound fresh,
    ← aggregate_perm (flatten_windowParts_perm events first last left middle right), ← sum_aggregate]
  simp only [Accum.add_def, rawEdgeAggregate, windowParts, List.map_cons, List.sum_cons]
  rw [add_assoc, add_comm, add_assoc]

theorem getDashboardStats_uncached (events : List DNSQueryEvent) (table : RollupTable) (cache : StatsCache)
    {clock : Clock} {hours : Int} {start : DateTime}
    (long : 1 < hours) (window : windowStart clock.now hours = some start)
    (miss : cache.fetch (cacheKey hours start.startOfHour clock.now.startOfHour) clock.before = none) :
    ∃ full, fullStart start = some full ∧
      (getDashboardStats events table cache clock hours).map Prod.fst =
        some (buildResult (accumulate events table start full clock.now.startOfHour clock.now).1
          (accumulate events table start full clock.now.startOfHour clock.now).2) := by
  obtain ⟨full, found, -⟩ := window_fullStart long window
  refine ⟨full, found, ?_⟩
  simp [getDashboardStats, window, found, miss, not_le.2 long]

theorem startOfHour_le (t : DateTime) : t.startOfHour ≤ t := Nat.sub_le _ _

theorem getDashboardStats_counters {cache : StatsCache} {clock : Clock} {hours : Int} {start : DateTime}
    (long : 1 < hours) (window : windowStart clock.now hours = some start)
    (miss : cache.fetch (cacheKey hours start.startOfHour clock.now.startOfHour) clock.before = none)
    (sound : Sound events table) (fresh : ∀ hour, CompleteHour start clock.now hour → Fresh events table hour) :
    (getDashboardStats events table cache clock hours).map (·.1.counters) =
      some (aggregate (external events start.micros clock.now.micros)) := by
  obtain ⟨full, found, isHour, left, -, middle⟩ := window_fullStart long window
  obtain ⟨same, equal, result⟩ := getDashboardStats_uncached events table cache long window miss
  obtain rfl : full = same := Option.some.inj (found.symm.trans equal)
  have hoursFresh : ∀ hour ∈ hoursBetween full clock.now.startOfHour, Fresh events table hour :=
    fun hour member => fresh hour (completeHour_of_mem isHour left member)
  have counted := accumulate_counters isHour (startOfHour_isHour clock.now) left middle
    (startOfHour_le clock.now) sound hoursFresh
  have mapped := congrArg (Option.map (·.counters)) result
  rw [Option.map_map] at mapped
  rw [← counted]
  exact mapped

/-! ## The daily rows -/

theorem dayMicros_eq : dayMicros = 86400000000 := rfl

theorem isHour_of_midnight {day : DateTime} (midnight : day.startOfDay = day) : IsHour day := by
  have whole := congrArg DateTime.micros midnight
  simp only [DateTime.startOfDay, IsHour, dayMicros_eq, hourMicros_eq] at whole ⊢
  omega

theorem isHour_add_day {day dayEnd : DateTime} (first : IsHour day) (ends : day.add dayMicros = some dayEnd) :
    IsHour dayEnd := by
  have moved := DateTime.add_eq_some.1 ends
  simp only [IsHour, dayMicros_eq, hourMicros_eq] at first moved ⊢
  omega

theorem computeDailyRollup_isSome (table : RollupTable) {day dayEnd : DateTime}
    (ends : day.add dayMicros = some dayEnd) :
    ∃ after count, computeDailyRollup table day = some (after, count) := by
  simp [computeDailyRollup, ends]

theorem bucketRows_first_day {day dayEnd : DateTime} {count : Nat}
    (hourly : ∀ row ∈ table.rows, row.granularity = .hourly) (ends : day.add dayMicros = some dayEnd)
    (computed : computeDailyRollup table day = some (after, count)) :
    (bucketRows after.rows .daily day).Perm (dailyRows day (hourlyBetween table.rows day dayEnd)) := by
  obtain ⟨same, equal, rfl⟩ := computeDailyRollup_eq_some computed
  obtain rfl : dayEnd = same := Option.some.inj (ends.symm.trans equal)
  refine bucketRows_upsertAll_self (dailyRows_unique _ _) ?_ ?_
  · intro row member
    obtain ⟨here, daily⟩ := mem_dailyRows member
    exact ⟨daily, here⟩
  · intro old inBucket
    obtain ⟨member, inDay⟩ := List.mem_filter.1 inBucket
    have daily : old.granularity = .daily := by
      simp only [Bool.and_eq_true, decide_eq_true_eq] at inDay
      exact inDay.1
    exact nomatch (hourly old member).symm.trans daily

theorem fresh_day {buckets : List DateTime} (full : ∀ hour ∈ buckets, IsHour hour)
    (computed : computeHours events KeyedTable.empty buckets = some table) {day dayEnd : DateTime}
    (first : IsHour day) (last : IsHour dayEnd)
    (covered : ∀ hour, IsHour hour → day ≤ hour → hour < dayEnd → hour ∈ buckets) :
    ∀ hour ∈ hoursBetween day dayEnd, Fresh events table hour := by
  intro hour member
  obtain ⟨isHour, after, before⟩ := (mem_hoursBetween first last).1 member
  exact fresh_of_computed full computed (covered hour isHour after before)

theorem daily_of_computed {buckets : List DateTime}
    (computed : computeHours events KeyedTable.empty buckets = some table) {day dayEnd : DateTime}
    (ends : day.add dayMicros = some dayEnd) :
    ∃ after count, computeDailyRollup table day = some (after, count) ∧
      (bucketRows after.rows .daily day).Perm (dailyRows day (hourlyBetween table.rows day dayEnd)) := by
  have hourly : ∀ row ∈ table.rows, row.granularity = .hourly :=
    hourly_computeHours (fun _ member => absurd member List.not_mem_nil) computed
  obtain ⟨after, count, returned⟩ := computeDailyRollup_isSome table ends
  exact ⟨after, count, returned, bucketRows_first_day hourly ends returned⟩

/-- The rollup path refines the raw path. -/
theorem rolled_up_sums_are_raw_sums {buckets : List DateTime} (full : ∀ hour ∈ buckets, IsHour hour)
    (computed : computeHours events KeyedTable.empty buckets = some table) :
    (∀ (clock : Clock) (hours : Int) (start : DateTime), 1 < hours →
      windowStart clock.now hours = some start →
      (∀ hour, CompleteHour start clock.now hour → hour ∈ buckets) →
        (getDashboardStats events table [] clock hours).map (·.1.counters) =
          some (aggregate (external events start.micros clock.now.micros))) ∧
    (∀ day dayEnd : DateTime, day.startOfDay = day → day.add dayMicros = some dayEnd →
      (∀ hour, IsHour hour → day ≤ hour → hour < dayEnd → hour ∈ buckets) →
        ∃ after count, computeDailyRollup table day = some (after, count) ∧
          ((bucketRows after.rows .daily day).map (·.counters)).sum =
            aggregate (external events day.micros dayEnd.micros)) := by
  have sound : Sound events table := sound_of_computed full computed
  refine ⟨?_, ?_⟩
  · intro clock hours start long window covered
    exact getDashboardStats_counters long window rfl sound fun hour complete =>
      fresh_of_computed full computed (covered hour complete)
  · intro day dayEnd midnight ends covered
    have first : IsHour day := isHour_of_midnight midnight
    have last : IsHour dayEnd := isHour_add_day first ends
    have fresh := fresh_day full computed first last covered
    have summed := congrArg Accum.counters (rollupAggregate_fresh first last sound fresh)
    obtain ⟨after, count, returned, rows⟩ := daily_of_computed computed ends
    refine ⟨after, count, returned, ?_⟩
    rw [(rows.map _).sum_eq, sum_counters_dailyRows,
      ← aggregate_perm (flatten_rolledGroups_perm events first last), ← sum_aggregate]
    exact summed

/-! ## Half past twelve -/

def query (asked : Fin 10080) (qname : String) (latencyMs : Option Int) : DNSQueryEvent where
  eventId := none
  eventSeq := none
  ts := (minute asked).micros
  nodeId := some 1
  clientIp := "192.0.2.7"
  clientId := none
  qname := qname
  qtype := 1
  rcode := 3
  blocked := false
  blockReason := none
  blocklistName := none
  latencyMs := latencyMs
  isInternal := false

theorem completeHour_of_two_hours {hour : DateTime}
    (complete : CompleteHour (minute 630) (minute 750) hour) : hour = minute 660 := by
  obtain ⟨isHour, first, last⟩ := complete
  apply DateTime.ext
  simp only [IsHour, DateTime.le_iff, minute, hourMicros_eq, dayMicros_eq, minuteMicros, secondMicros]
    at isHour first last ⊢
  omega

theorem window_before_the_first_year :
    (1 : Int) < 18000000 ∧ ∀ buckets table,
      computeHours [query 690 "example.org" (some 4)] KeyedTable.empty buckets = some table →
        getDashboardStats [query 690 "example.org" (some 4)] table [] ⟨minute 750, 0, 0⟩ 18000000 =
          none := by
  refine ⟨by decide, fun buckets table _ => ?_⟩
  have missing : windowStart (minute 750) 18000000 = none := by decide
  simp [getDashboardStats, missing]

theorem two_hours_of_events :
    let events := [query 640 "example.org" (some 4), query 690 "example.net" (some 4),
      query 740 "example.org" none]
    ∃ table, computeHours events KeyedTable.empty [minute 660] = some table ∧
      (getDashboardStats events table [] ⟨minute 750, 0, 0⟩ 2).map (·.1.counters) =
        some ⟨3, 0, 3, 0, 2⟩ := by
  intro events
  have rolled : (computeHours events KeyedTable.empty [minute 660]).isSome = true := by decide
  obtain ⟨table, computed⟩ := Option.isSome_iff_exists.1 rolled
  refine ⟨table, computed, ?_⟩
  have counted := (rolled_up_sums_are_raw_sums (by decide) computed).1 ⟨minute 750, 0, 0⟩ 2 (minute 630)
    (by decide) (by decide) fun hour complete =>
      List.mem_singleton.2 (completeHour_of_two_hours complete)
  rw [counted]
  decide

end PowerBlockade.Rollups
