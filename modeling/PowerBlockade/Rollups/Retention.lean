import PowerBlockade.Rollups.Freshness

/-!
# Rollups and the retention of events

The rows of an hour outlive its events. Recomputing the hour replaces the rows of the groups that
still have events, and retention does not ask whether an event was ever counted.
-/

namespace PowerBlockade.Primary

def EventTable.deleteBefore (table : EventTable) (cutoff : Int) : EventTable where
  rows := table.rows.filter fun event => !decide (event.ts < cutoff)
  unique := (List.filter_sublist.filterMap _).nodup table.unique

end PowerBlockade.Primary

namespace PowerBlockade.Rollups.Retention
open Lib Primary

/-! ## The jobs -/

def deleteRollupsBefore (table : RollupTable) (cutoff : DateTime) : RollupTable where
  rows := table.rows.filter fun row => !decide (row.bucketStart < cutoff)
  unique := (List.filter_sublist.map _).nodup table.unique

def daysBefore (now : DateTime) (days : Int) : Option DateTime :=
  (timedelta (days * dayMicros)).bind fun delta => now.add (-delta)

/-- Where the two clean-ups cut off; `none` is an exception. -/
def eventsCutoff (settings : Settings) (now : DateTime) : Option DateTime :=
  settings.getRetentionEventsDays.bind (daysBefore now)

def rollupsCutoff (settings : Settings) (now : DateTime) : Option DateTime :=
  settings.getRetentionRollupsDays.bind (daysBefore now)

/-- `deleted` are the events that retention has deleted, and no row from `horizon` on has been. -/
structure World where
  database : Database
  table : RollupTable
  deleted : List DNSQueryEvent
  horizon : Nat

namespace World

def events (world : World) : List DNSQueryEvent := world.database.events.rows

def start (database : Database) (table : RollupTable) : World := ⟨database, table, [], 0⟩

def doomed (world : World) (cutoff : DateTime) : List DNSQueryEvent :=
  world.events.filter fun event => decide (event.ts < cutoff.micros)

def cleanupOldEvents (world : World) (now : DateTime) : Option World :=
  (eventsCutoff world.database.settings now).map fun cutoff =>
    { world with
      database := { world.database with events := world.database.events.deleteBefore cutoff.micros }
      deleted := world.deleted ++ world.doomed cutoff }

def cleanupOldRollups (world : World) (now : DateTime) : Option World :=
  (rollupsCutoff world.database.settings now).map fun cutoff =>
    { world with
      table := deleteRollupsBefore world.table cutoff
      horizon := max world.horizon cutoff.micros }

/-- What a clean-up has committed stays when a later one raises. -/
def runRetentionJob (world : World) (now : DateTime) : World :=
  match world.cleanupOldEvents now with
  | none => world
  | some purged => (purged.cleanupOldRollups now).getD purged

end World

def recompute (events : List DNSQueryEvent) (table : RollupTable) (hour : DateTime) : RollupTable :=
  ((computeHourlyRollup events table hour).map Prod.fst).getD table

/-- The hours before the current one; an `OverflowError` would end the loop, and is one for every
later hour too. -/
def backfillBuckets (now : DateTime) (hours : Int) : List DateTime :=
  (List.range (max 1 (min hours 720)).toNat).filterMap fun i =>
    now.startOfHour.add (-((i + 1) * hourMicros : Nat))

def backfillHourlyRollups (events : List DNSQueryEvent) (table : RollupTable) (now : DateTime)
    (hours : Int) : RollupTable :=
  (backfillBuckets now hours).foldl (recompute events) table

inductive Label
  | primary (timed : Timed)
  | configure (settings : Settings)
  | rollupJob (now : DateTime)
  | backfill (now : DateTime) (hours : Int)
  | retention (now : DateTime)

variable (modelValidate : ModelValidate)

def step (world : World) : Label → World
  | .primary timed => { world with database := Primary.step modelValidate world.database timed }
  | .configure settings => { world with database := { world.database with settings := settings } }
  | .rollupJob now => { world with table := rollupJob world.events world.table now }
  | .backfill now hours =>
      { world with table := backfillHourlyRollups world.events world.table now hours }
  | .retention now => world.runRetentionJob now

/-! ## What the rows account for -/

def totalQueries (rows : List QueryRollup) : Nat := (rows.map (·.counters.totalQueries)).sum

def total (table : RollupTable) (hour : DateTime) : Nat :=
  totalQueries (bucketRows table.rows .hourly hour)

/-- No clean-up has cut the bucket off. -/
def Young (world : World) (hour : DateTime) : Prop := world.horizon ≤ hour.micros

structure Kept (world after : World) (hour : DateTime) : Prop where
  grows : total world.table hour ≤ total after.table hour
  covers : (hourEvents after.deleted hour).length ≤ total after.table hour

def Accounted (world : World) (label : Label) : Prop :=
  ∀ hour, IsHour hour → Young (step modelValidate world label) hour →
    Kept world (step modelValidate world label) hour

/-- What the rows count that a recomputation replaces: those of groups with events in the hour. -/
def recounted (events : List DNSQueryEvent) (table : RollupTable) (hour : DateTime) : Nat :=
  totalQueries ((bucketRows table.rows .hourly hour).filter fun row =>
    decide (row.groupKey ∈ (hourEvents events hour).map eventKey))

/-- The events that are left are no fewer than what their groups have been counted at. -/
def KeepsCounts (events : List DNSQueryEvent) (table : RollupTable) (hour : DateTime) : Prop :=
  recounted events table hour ≤ (hourEvents events hour).length

/-- The hour that the job computes, unless it raises before. -/
def rolledHour (now : DateTime) : Option DateTime := do
  let previousHour ← now.startOfHour.add (-hourMicros)
  let _ ← now.startOfDay.add (-dayMicros)
  return previousHour

/-- A recomputation finds the events that were counted, and retention deletes only events for which
the rows have counted enough. -/
def Safe (world : World) : Label → Prop
  | .rollupJob now => ∀ hour ∈ rolledHour now, Young world hour → KeepsCounts world.events world.table hour
  | .backfill now hours => ∀ hour ∈ backfillBuckets now hours, Young world hour →
      KeepsCounts world.events world.table hour
  | .retention now => ∀ cutoff ∈ eventsCutoff world.database.settings now, ∀ hour, IsHour hour →
      Young world hour → (∀ limit ∈ rollupsCutoff world.database.settings now, limit ≤ hour) →
        (hourEvents world.deleted hour).length + (hourEvents (world.doomed cutoff) hour).length ≤
          total world.table hour
  | _ => True

/-! ## One recomputation -/

theorem totalQueries_append (xs ys : List QueryRollup) :
    totalQueries (xs ++ ys) = totalQueries xs + totalQueries ys := by
  simp [totalQueries]

theorem totalQueries_perm {xs ys : List QueryRollup} (same : xs.Perm ys) :
    totalQueries xs = totalQueries ys := (same.map _).sum_eq

theorem totalQueries_split (p : QueryRollup → Bool) (rows : List QueryRollup) :
    totalQueries (rows.filter p) + totalQueries (rows.filter fun row => !p row) = totalQueries rows := by
  rw [← totalQueries_append]
  exact totalQueries_perm (List.filter_append_perm p rows)

theorem totalQueries_eq (rows : List QueryRollup) :
    totalQueries rows = (rows.map fun row : QueryRollup => row.counters).sum.totalQueries := by
  induction rows with
  | nil => rfl
  | cons row rest ih =>
      rw [List.map_cons, List.sum_cons, Counters.add_def, ← ih]
      rfl

theorem totalQueries_hourlyRows (hour : DateTime) (events : List DNSQueryEvent) :
    totalQueries (hourlyRows hour events) = events.length := by
  rw [totalQueries_eq, sum_counters_hourlyRows]
  rfl

variable {events : List DNSQueryEvent} {table after : RollupTable} {hour : DateTime} {count : Nat}

/-- The rows of groups without events in the hour stay as they are. -/
theorem bucketRows_recomputed (computed : computeHourlyRollup events table hour = some (after, count)) :
    (bucketRows after.rows .hourly hour).Perm
      (hourlyRows hour (hourEvents events hour) ++
        (bucketRows table.rows .hourly hour).filter fun row =>
          !decide (row.groupKey ∈ (hourEvents events hour).map eventKey)) := by
  obtain rfl := computeHourlyRollup_eq_some computed
  have all : bucketRows (hourlyRows hour (hourEvents events hour)) .hourly hour =
      hourlyRows hour (hourEvents events hour) := by
    apply List.filter_eq_self.2
    intro row member
    obtain ⟨here, hourly, -⟩ := mem_hourlyRows member
    simp [here, hourly]
  have others : bucketRows (KeyedTable.rowsWithout QueryRollup.key
        ((hourlyRows hour (hourEvents events hour)).map QueryRollup.key) table.rows) .hourly hour =
      (bucketRows table.rows .hourly hour).filter fun row =>
        !decide (row.groupKey ∈ (hourEvents events hour).map eventKey) := by
    rw [KeyedTable.rowsWithout, bucketRows, bucketRows, List.filter_filter, List.filter_filter]
    apply List.filter_congr
    intro row _
    by_cases here : row.granularity = .hourly ∧ row.bucketStart = hour
    · obtain ⟨hourly, rfl⟩ := here
      have same : row.key ∈ (hourlyRows row.bucketStart (hourEvents events row.bucketStart)).map QueryRollup.key ↔
          row.groupKey ∈ (hourEvents events row.bucketStart).map eventKey := by
        rw [map_key_hourlyRows, QueryRollup.key, hourly, List.mem_map]
        simp only [Prod.mk.injEq, true_and, exists_eq_right, List.mem_dedup]
      simp only [hourly, same, decide_true, Bool.and_self, Bool.true_and, Bool.and_true, decide_not]
    · simp only [← Bool.decide_and, here, decide_false, Bool.false_and, Bool.and_false]
  have whole := (table.upsertAll_perm (hourlyRows_unique hour (hourEvents events hour))).filter
    fun row => row.granularity = .hourly && row.bucketStart = hour
  rw [List.filter_append, ← bucketRows, ← bucketRows, ← bucketRows, all, others] at whole
  exact whole

theorem total_recomputed (computed : computeHourlyRollup events table hour = some (after, count)) :
    total after hour + recounted events table hour =
      total table hour + (hourEvents events hour).length := by
  have split := totalQueries_split
    (fun row => decide (row.groupKey ∈ (hourEvents events hour).map eventKey))
    (bucketRows table.rows .hourly hour)
  rw [total, totalQueries_perm (bucketRows_recomputed computed), totalQueries_append,
    totalQueries_hourlyRows, total, recounted]
  omega

theorem recompute_eq (computed : computeHourlyRollup events table hour = some (after, count)) :
    recompute events table hour = after := by
  rw [recompute, computed]
  rfl

theorem computeHourlyRollup_isSome {now : DateTime} (events : List DNSQueryEvent) (table : RollupTable)
    (before : hour.micros + hourMicros ≤ now.micros) :
    ∃ after count, computeHourlyRollup events table hour = some (after, count) := by
  have inRange := now.inRange
  have ends : hour.add hourMicros = some ⟨hour.micros + hourMicros, by omega⟩ :=
    DateTime.add_eq_some.2 (by simp)
  simp only [computeHourlyRollup, ends, Option.bind_eq_bind, Option.bind_some]
  exact ⟨_, _, rfl⟩

theorem total_recomputed_le_iff (computed : computeHourlyRollup events table hour = some (after, count)) :
    total table hour ≤ total after hour ↔ KeepsCounts events table hour := by
  have balance := total_recomputed computed
  unfold KeepsCounts
  omega

/-! ## The jobs, bucket by bucket -/

variable {now : DateTime}

theorem rollupJob_raised (raises : rolledHour now = none) : rollupJob events table now = table := by
  unfold rollupJob runRollupJob
  simp only [rolledHour, Option.bind_eq_bind, Option.pure_def] at raises
  cases previous : now.startOfHour.add (-hourMicros) with
  | none => rfl
  | some hour =>
      cases day : now.startOfDay.add (-dayMicros) with
      | none => rfl
      | some previousDay => simp [previous, day] at raises

theorem rolledHour_eq_some (rolled : rolledHour now = some hour) :
    now.startOfHour.add (-hourMicros) = some hour ∧ ∃ day, now.startOfDay.add (-dayMicros) = some day := by
  simp only [rolledHour, Option.bind_eq_bind, Option.bind_eq_some_iff, Option.pure_def,
    Option.some.injEq] at rolled
  obtain ⟨previous, hourly, day, daily, rfl⟩ := rolled
  exact ⟨hourly, day, daily⟩

theorem past_of_rolled (previous : now.startOfHour.add (-hourMicros) = some hour) :
    hour.micros + hourMicros ≤ now.micros := by
  have before := DateTime.add_eq_some.1 previous
  have starts : now.startOfHour.micros ≤ now.micros := Nat.sub_le _ _
  rw [hourMicros_eq] at before ⊢
  omega

theorem runRollupJob_isSome (events : List DNSQueryEvent) (table : RollupTable)
    (rolled : rolledHour now = some hour) :
    ∃ after counts, runRollupJob events table now = some (after, counts) := by
  obtain ⟨previous, day, daily⟩ := rolledHour_eq_some rolled
  have ends : day.add dayMicros = some now.startOfDay := by
    rw [DateTime.add_eq_some, DateTime.add_eq_some.1 daily, neg_add_cancel_right]
  obtain ⟨middle, count, computed⟩ := computeHourlyRollup_isSome events table (past_of_rolled previous)
  obtain ⟨after, dayCount, summed⟩ := computeDailyRollup_isSome middle ends
  have begun {counts : RollupTable × Nat × Nat}
      (rest : (if now.hour < 2 then
          (computeDailyRollup middle day).bind fun daily => some (daily.1, count, daily.2)
        else some (middle, count, 0)) = some counts) : runRollupJob events table now = some counts :=
    Option.bind_eq_some_iff.2 ⟨hour, previous, Option.bind_eq_some_iff.2 ⟨day, daily,
      Option.bind_eq_some_iff.2 ⟨(middle, count), computed, rest⟩⟩⟩
  by_cases early : now.hour < 2
  · refine ⟨after, (count, dayCount), begun ?_⟩
    rw [if_pos early]
    exact Option.bind_eq_some_iff.2 ⟨(after, dayCount), summed, rfl⟩
  · refine ⟨middle, (count, 0), begun ?_⟩
    rw [if_neg early]

theorem total_rollupJob (events : List DNSQueryEvent) (table : RollupTable)
    (rolled : rolledHour now = some hour) :
    ∃ middle count, computeHourlyRollup events table hour = some (middle, count) ∧
      ∀ bucket, total (rollupJob events table now) bucket = total middle bucket := by
  obtain ⟨after, counts, ran⟩ := runRollupJob_isSome events table rolled
  obtain ⟨found, middle, count, previous, computed, last⟩ := runRollupJob_eq_some ran
  have same : found = hour := Option.some.inj (previous.symm.trans (rolledHour_eq_some rolled).1)
  rw [same] at computed
  refine ⟨middle, count, computed, fun bucket => ?_⟩
  rw [rollupJob, ran]
  cases last with
  | inl unchanged => rw [unchanged]
  | inr daily =>
      obtain ⟨day, dayCount, summed⟩ := daily
      exact totalQueries_perm (bucketRows_computeDailyRollup summed bucket)

theorem total_of_perm {other : RollupTable}
    (same : (bucketRows after.rows .hourly hour).Perm (bucketRows other.rows .hourly hour)) :
    total after hour = total other hour := totalQueries_perm same

theorem recounted_of_perm {other : RollupTable}
    (same : (bucketRows after.rows .hourly hour).Perm (bucketRows other.rows .hourly hour)) :
    recounted events after hour = recounted events other hour := totalQueries_perm (same.filter _)

/-- Each bucket of the list is recomputed once, and no other. -/
theorem total_foldl_recompute (events : List DNSQueryEvent) (hour : DateTime) {buckets : List DateTime}
    (distinct : buckets.Nodup)
    (past : ∀ bucket ∈ buckets, bucket.micros + hourMicros ≤ now.micros) (table : RollupTable) :
    (hour ∈ buckets → (total table hour ≤ total (buckets.foldl (recompute events) table) hour ↔
        KeepsCounts events table hour)) ∧
      (hour ∉ buckets → total (buckets.foldl (recompute events) table) hour = total table hour) := by
  induction buckets generalizing table with
  | nil => exact ⟨fun member => absurd member List.not_mem_nil, fun _ => rfl⟩
  | cons bucket rest ih =>
      obtain ⟨fresh, distinctRest⟩ := List.nodup_cons.1 distinct
      obtain ⟨before, beforeRest⟩ := List.forall_mem_cons.1 past
      obtain ⟨middle, count, computed⟩ := computeHourlyRollup_isSome events table before
      obtain ⟨listed, unlisted⟩ := ih distinctRest beforeRest middle
      rw [List.foldl_cons, recompute_eq computed, List.mem_cons, not_or]
      by_cases same : hour = bucket
      · rw [same] at unlisted ⊢
        refine ⟨fun _ => ?_, fun other => absurd rfl other.1⟩
        rw [unlisted fresh]
        exact total_recomputed_le_iff computed
      · have kept := (bucketRows_computeHourlyRollup computed (Or.inr same) : (bucketRows middle.rows .hourly hour).Perm _)
        rw [← total_of_perm kept, KeepsCounts, ← recounted_of_perm kept]
        exact ⟨fun member => listed (member.resolve_left same), fun other => unlisted other.2⟩

theorem backfillBuckets_past {hours : Int} {bucket : DateTime} (member : bucket ∈ backfillBuckets now hours) :
    IsHour bucket ∧ bucket.micros + hourMicros ≤ now.micros := by
  obtain ⟨i, -, moved⟩ := List.mem_filterMap.1 member
  have before := DateTime.add_eq_some.1 moved
  have starts : now.startOfHour.micros ≤ now.micros := Nat.sub_le _ _
  have aligned := startOfHour_isHour now
  simp only [IsHour, hourMicros_eq] at before aligned ⊢
  omega

theorem nodup_backfillBuckets (now : DateTime) (hours : Int) : (backfillBuckets now hours).Nodup := by
  refine List.nodup_range.filterMap ?_
  intro i j bucket left right
  have fromLeft := DateTime.add_eq_some.1 left
  have fromRight := DateTime.add_eq_some.1 right
  rw [hourMicros_eq] at fromLeft fromRight
  omega

/-! ## Retention -/

variable {world : World} {cutoff : DateTime}

theorem total_deleteRollupsBefore {limit : DateTime} (later : limit ≤ hour) :
    total (deleteRollupsBefore table limit) hour = total table hour := by
  refine congrArg totalQueries ?_
  rw [bucketRows, bucketRows, deleteRollupsBefore, List.filter_filter]
  apply List.filter_congr
  intro row _
  by_cases here : row.bucketStart = hour
  · simp [here, not_lt.2 later]
  · simp [here]

theorem runRetentionJob_raised (raises : eventsCutoff world.database.settings now = none) :
    world.runRetentionJob now = world := by
  simp [World.runRetentionJob, World.cleanupOldEvents, raises]

/-- The world after both clean-ups, or after the first when the second raises. -/
theorem runRetentionJob_eq (cut : eventsCutoff world.database.settings now = some cutoff) :
    world.runRetentionJob now =
      { database := { world.database with events := world.database.events.deleteBefore cutoff.micros }
        table := match rollupsCutoff world.database.settings now with
          | some limit => deleteRollupsBefore world.table limit
          | none => world.table
        deleted := world.deleted ++ world.doomed cutoff
        horizon := match rollupsCutoff world.database.settings now with
          | some limit => max world.horizon limit.micros
          | none => world.horizon } := by
  simp only [World.runRetentionJob, World.cleanupOldEvents, cut, Option.map_some, World.cleanupOldRollups]
  cases rollupsCutoff world.database.settings now <;> rfl

theorem young_runRetentionJob (cut : eventsCutoff world.database.settings now = some cutoff) :
    Young (world.runRetentionJob now) hour ↔
      Young world hour ∧ ∀ limit ∈ rollupsCutoff world.database.settings now, limit ≤ hour := by
  rw [runRetentionJob_eq cut]
  cases rollupsCutoff world.database.settings now with
  | none => simp [Young]
  | some limit => simp [Young, DateTime.le_iff]

theorem total_runRetentionJob (cut : eventsCutoff world.database.settings now = some cutoff)
    (later : ∀ limit ∈ rollupsCutoff world.database.settings now, limit ≤ hour) :
    total (world.runRetentionJob now).table hour = total world.table hour := by
  rw [runRetentionJob_eq cut]
  cases found : rollupsCutoff world.database.settings now with
  | none => rfl
  | some limit => exact total_deleteRollupsBefore (later limit found)

theorem deleted_runRetentionJob (hour : DateTime)
    (cut : eventsCutoff world.database.settings now = some cutoff) :
    (hourEvents (world.runRetentionJob now).deleted hour).length =
      (hourEvents world.deleted hour).length + (hourEvents (world.doomed cutoff) hour).length := by
  rw [runRetentionJob_eq cut, hourEvents, external, List.filter_append, List.length_append]
  rfl

/-! ## Hours that are up to date -/

theorem totalQueries_fresh (fresh : Fresh events table hour) :
    total table hour = (hourEvents events hour).length := by
  rw [total, totalQueries_perm fresh, totalQueries_hourlyRows]

theorem keepsCounts_of_fresh (fresh : Fresh events table hour) : KeepsCounts events table hour := by
  have split := totalQueries_split
    (fun row => decide (row.groupKey ∈ (hourEvents events hour).map eventKey))
    (bucketRows table.rows .hourly hour)
  rw [KeepsCounts, ← totalQueries_fresh fresh, total, ← split, recounted]
  exact Nat.le_add_right _ _

theorem keepsCounts_of_no_events (gone : hourEvents events hour = []) : KeepsCounts events table hour := by
  simp [KeepsCounts, recounted, gone, totalQueries]

theorem length_doomed_le (world : World) (cutoff hour : DateTime) :
    (hourEvents (world.doomed cutoff) hour).length ≤ (hourEvents world.events hour).length :=
  (List.filter_sublist.filter _).length_le

/-! ## Over all runs -/

/-- The rows of a young bucket count at least what has been deleted of it. -/
def Covered (world : World) : Prop :=
  ∀ hour, IsHour hour → Young world hour → (hourEvents world.deleted hour).length ≤ total world.table hour

theorem covered_start (database : Database) (table : RollupTable) : Covered (.start database table) :=
  fun _ _ _ => Nat.zero_le _

variable {modelValidate}

theorem Accounted.covered {label : Label} (accounted : Accounted modelValidate world label) :
    Covered (step modelValidate world label) :=
  fun hour isHour young => (accounted hour isHour young).covers

theorem Covered.kept (covered : Covered world) (isHour : IsHour hour) (young : Young world hour)
    {after : World} (deleted : after.deleted = world.deleted)
    (grows : total world.table hour ≤ total after.table hour) : Kept world after hour :=
  ⟨grows, deleted ▸ (covered hour isHour young).trans grows⟩

theorem accounted_rollupJob_iff (covered : Covered world) (now : DateTime) :
    Accounted modelValidate world (.rollupJob now) ↔ Safe world (.rollupJob now) := by
  cases rolled : rolledHour now with
  | none =>
      refine iff_of_true ?_ (by simp [Safe, rolled])
      intro hour isHour young
      refine covered.kept isHour young ?_ ?_
      · rfl
      · rw [step, rollupJob_raised rolled]
  | some computedHour =>
      obtain ⟨middle, count, computed, same⟩ := total_rollupJob world.events world.table rolled
      have isHour := previousHour_isHour (rolledHour_eq_some rolled).1
      constructor
      · intro accounted hour member young
        rw [rolled, Option.mem_some_iff] at member
        have grows := (accounted computedHour isHour (member ▸ young)).grows
        rw [step, same] at grows
        exact member ▸ (total_recomputed_le_iff computed).1 grows
      · intro safe hour aligned young
        refine covered.kept aligned young ?_ ?_
        · rfl
        · rw [step, same]
          by_cases here : hour = computedHour
          · rw [here] at young ⊢
            exact (total_recomputed_le_iff computed).2 (safe computedHour rolled young)
          · exact (total_of_perm (bucketRows_computeHourlyRollup computed (Or.inr here))).ge

theorem accounted_backfill_iff (covered : Covered world) (now : DateTime) (hours : Int) :
    Accounted modelValidate world (.backfill now hours) ↔ Safe world (.backfill now hours) := by
  have recomputed (hour : DateTime) := total_foldl_recompute world.events hour
    (nodup_backfillBuckets now hours) (fun _ member => (backfillBuckets_past member).2) world.table
  constructor
  · intro accounted hour member young
    have grows := (accounted hour (backfillBuckets_past member).1 young).grows
    exact ((recomputed hour).1 member).1 grows
  · intro safe hour isHour young
    refine covered.kept isHour young ?_ ?_
    · rfl
    · by_cases member : hour ∈ backfillBuckets now hours
      · exact ((recomputed hour).1 member).2 (safe hour member young)
      · exact ((recomputed hour).2 member).ge

theorem accounted_retention_iff (covered : Covered world) (now : DateTime) :
    Accounted modelValidate world (.retention now) ↔ Safe world (.retention now) := by
  cases cut : eventsCutoff world.database.settings now with
  | none =>
      refine iff_of_true ?_ (by simp [Safe, cut])
      intro hour isHour young
      simp only [step, runRetentionJob_raised cut] at young ⊢
      exact covered.kept isHour young rfl (le_refl _)
  | some cutoff =>
      simp only [Accounted, Safe, step, young_runRetentionJob cut, cut, Option.mem_some_iff, forall_eq',
        and_imp]
      refine forall₄_congr fun hour isHour young later => ?_
      have total := total_runRetentionJob cut later
      have deleted := deleted_runRetentionJob hour cut
      constructor
      · intro kept
        rw [← deleted, ← total]
        exact kept.covers
      · intro enough
        exact ⟨total.ge, by rw [total, deleted]; exact enough⟩

theorem accounted_step_iff (covered : Covered world) (label : Label) :
    Accounted modelValidate world label ↔ Safe world label := by
  cases label with
  | primary timed =>
      exact iff_of_true (fun hour isHour young => covered.kept isHour young rfl (le_refl _)) trivial
  | configure settings =>
      exact iff_of_true (fun hour isHour young => covered.kept isHour young rfl (le_refl _)) trivial
  | rollupJob now => exact accounted_rollupJob_iff covered now
  | backfill now hours => exact accounted_backfill_iff covered now hours
  | retention now => exact accounted_retention_iff covered now

/-- Retention is safe when each hour that it cuts into was rolled up after its last event, and has not
been cut into before. -/
theorem safe_retention_of_fresh (covered : Covered world)
    (upToDate : ∀ cutoff ∈ eventsCutoff world.database.settings now, ∀ hour, IsHour hour → Young world hour →
      hourEvents (world.doomed cutoff) hour = [] ∨
        Fresh world.events world.table hour ∧ hourEvents world.deleted hour = []) :
    Safe world (.retention now) := by
  intro cutoff cut hour isHour young _
  cases upToDate cutoff cut hour isHour young with
  | inl untouched =>
      rw [untouched]
      exact covered hour isHour young
  | inr whole =>
      rw [whole.2, totalQueries_fresh whole.1, List.length_nil, Nat.zero_add]
      exact length_doomed_le world cutoff hour

/-- From any database and any rows, in any order of ingests, jobs and changes of the settings. -/
theorem accounted_iff_safe (modelValidate : ModelValidate) (database : Database) (table : RollupTable)
    (run : List Label) :
    Along (step modelValidate) (Accounted modelValidate) (.start database table) run ↔
      Along (step modelValidate) Safe (.start database table) run :=
  along_congr_of_kept run (covered_start database table) (fun _ _ _ accounted => accounted.covered)
    fun _ label covered => accounted_step_iff covered label

/-! ## The events of a day -/

def askedAt (asked : Fin 10080) : Label :=
  .primary ⟨minute asked, .message (some "edge-key") (.ingest [posted])⟩

/-- Two queries of ten o'clock are rolled up; the next day retention cuts off at half past ten. -/
def halfPurged : List Label :=
  [.configure [("retention_events_days", "1")], askedAt 605, askedAt 650, .rollupJob (minute 665),
    .retention (minute 2070)]

def thenBackfilled : List Label := halfPurged ++ [.backfill (minute 2071) 24]

/-- No job has run when the query is a day old. -/
def neverRolledUp : List Label :=
  [.configure [("retention_events_days", "1")], askedAt 605, .retention (minute 2070)]

def officeStart : World := .start (office .active none) KeyedTable.empty

def reached (run : List Label) : World := run.foldl (step IngestEvent.ofTyped) officeStart

/-- A backfill of the last day halves what the hour was counted at, and a query that was deleted
before any job ran is in no row. -/
theorem halfPurged_not_accounted :
    total (reached halfPurged).table (minute 600) = 2 ∧
      total (reached thenBackfilled).table (minute 600) = 1 ∧
      ¬ Along (step IngestEvent.ofTyped) (Accounted IngestEvent.ofTyped) officeStart thenBackfilled ∧
      (hourEvents (reached neverRolledUp).deleted (minute 600)).length = 1 ∧
      total (reached neverRolledUp).table (minute 600) = 0 ∧
      ¬ Along (step IngestEvent.ofTyped) (Accounted IngestEvent.ofTyped) officeStart neverRolledUp := by
  have ten : IsHour (minute 600) := by decide +kernel
  have before : total (reached halfPurged).table (minute 600) = 2 := by decide +kernel
  have after : total (reached thenBackfilled).table (minute 600) = 1 := by decide +kernel
  have young : (reached thenBackfilled).horizon ≤ (minute 600).micros := by decide +kernel
  have deleted : (hourEvents (reached neverRolledUp).deleted (minute 600)).length = 1 := by decide +kernel
  have uncounted : total (reached neverRolledUp).table (minute 600) = 0 := by decide +kernel
  have young' : (reached neverRolledUp).horizon ≤ (minute 600).micros := by decide +kernel
  refine ⟨before, after, fun along => ?_, deleted, uncounted, fun along => ?_⟩
  · have grows : total (reached halfPurged).table (minute 600) ≤ total (reached thenBackfilled).table (minute 600) :=
      (along.2.2.2.2.2.1 (minute 600) ten young).grows
    rw [before, after] at grows
    exact absurd grows (by decide)
  · have covers : (hourEvents (reached neverRolledUp).deleted (minute 600)).length ≤
        total (reached neverRolledUp).table (minute 600) :=
      (along.2.2.1 (minute 600) ten young').covers
    rw [deleted, uncounted] at covers
    exact absurd covers (by decide)

end PowerBlockade.Rollups.Retention
