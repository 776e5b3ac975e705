import Mathlib.Logic.Function.Iterate
import PowerBlockade.Rollups.Retention

/-!
# Running a rollup again

A rollup writes one row for each group of its hour, whatever was there, so runs repeat and commute.
-/

namespace PowerBlockade.Rollups.Retention
open Lib Primary

/-- What a run writes: nothing, if it raises. -/
def writtenRows (events : List DNSQueryEvent) (hour : DateTime) : List QueryRollup :=
  if (hour.add hourMicros).isSome then hourlyRows hour (hourEvents events hour) else []

variable (events : List DNSQueryEvent) (table : RollupTable) (hour : DateTime)

theorem recompute_eq_upsertAll : recompute events table hour = table.upsertAll (writtenRows events hour) := by
  unfold recompute writtenRows
  cases added : hour.add hourMicros with
  | none => simp [computeHourlyRollup, added, KeyedTable.upsertAll]
  | some hourEnd =>
      have ends := DateTime.add_eq_some.1 added
      simp [computeHourlyRollup, added, hourEvents, ends]

theorem foldl_recompute (hours : List DateTime) :
    hours.foldl (recompute events) table = table.upsertAll (hours.flatMap (writtenRows events)) := by
  induction hours generalizing table with
  | nil => rfl
  | cons hour rest ih =>
      rw [List.foldl_cons, ih, recompute_eq_upsertAll, List.flatMap_cons, KeyedTable.upsertAll,
        KeyedTable.upsertAll, KeyedTable.upsertAll, List.foldl_append]

variable {hour} in
theorem mem_writtenRows {row : QueryRollup} (member : row ∈ writtenRows events hour) :
    (hour.add hourMicros).isSome = true ∧ row.bucketStart = hour ∧ row.granularity = .hourly ∧
      row.groupKey ∈ (hourEvents events hour).map eventKey := by
  unfold writtenRows at member
  split at member
  · rename_i ends
    exact ⟨ends, mem_hourlyRows member⟩
  · exact absurd member List.not_mem_nil

theorem writtenRows_unique : ((writtenRows events hour).map QueryRollup.key).Nodup := by
  unfold writtenRows
  split
  · exact hourlyRows_unique _ _
  · exact List.nodup_nil

/-- The rows of different hours have different keys. -/
theorem flatMap_writtenRows_unique {hours : List DateTime} (distinct : hours.Nodup) :
    ((hours.flatMap (writtenRows events)).map QueryRollup.key).Nodup := by
  rw [List.map_flatMap, List.nodup_flatMap]
  refine ⟨fun hour _ => writtenRows_unique events hour, distinct.imp fun {first second} other => ?_⟩
  rw [Function.onFun_apply, List.disjoint_left]
  intro key left right
  obtain ⟨row, rowMember, rfl⟩ := List.mem_map.1 left
  obtain ⟨row', rowMember', same⟩ := List.mem_map.1 right
  have here := (mem_writtenRows events rowMember).2.1
  have there := (mem_writtenRows events rowMember').2.1
  exact other (here.symm.trans ((Prod.mk.inj same).1.symm.trans there))

theorem key_mem_writtenRows {more : List DNSQueryEvent} (grown : events.Sublist more) :
    ∀ row ∈ writtenRows events hour, row.key ∈ (writtenRows more hour).map QueryRollup.key := by
  intro row member
  obtain ⟨ends, bucket, hourly, used⟩ := mem_writtenRows events member
  rw [writtenRows, if_pos ends, map_key_hourlyRows, List.mem_map]
  refine ⟨row.groupKey, List.mem_dedup.2 ?_, ?_⟩
  · exact ((grown.filter _).map eventKey).subset used
  · rw [QueryRollup.key, bucket, hourly]

/-- A run of the rollup may be repeated, overtaken by further events, and put in any order with the runs
of other hours. -/
theorem rollup_idempotent (table : RollupTable) :
    (∀ events hour n, (fun t => recompute events t hour)^[n + 1] table = recompute events table hour) ∧
    (∀ (events more : List DNSQueryEvent) hour, events.Sublist more →
      (recompute more (recompute events table hour) hour).rows.Perm (recompute more table hour).rows) ∧
    (∀ events now hours (order : List DateTime), order.Perm (backfillBuckets now hours) →
      (backfillHourlyRollups events table now hours).rows.Perm
        (order.foldl (recompute events) table).rows) := by
  refine ⟨fun events hour n => ?_, fun events more hour grown => ?_, fun events now hours order same => ?_⟩
  · induction n with
    | zero => rfl
    | succ n ih =>
        rw [Function.iterate_succ_apply', ih, recompute_eq_upsertAll, recompute_eq_upsertAll,
          KeyedTable.upsertAll_twice _ (writtenRows_unique events hour)]
  · simp only [recompute_eq_upsertAll]
    exact KeyedTable.upsertAll_upsertAll table (writtenRows_unique events hour)
      (writtenRows_unique more hour) (key_mem_writtenRows events hour grown)
  · rw [backfillHourlyRollups, foldl_recompute, foldl_recompute]
    exact KeyedTable.upsertAll_congr table
      (flatMap_writtenRows_unique events (nodup_backfillBuckets now hours)) (same.flatMap_right _).symm

theorem rerun_after_a_late_query :
    (recompute [query 690 "example.org" (some 4), query 665 "example.net" none]
        (recompute [query 690 "example.org" (some 4)] KeyedTable.empty (minute 660)) (minute 660)).rows.Perm
      (recompute [query 690 "example.org" (some 4), query 665 "example.net" none] KeyedTable.empty
        (minute 660)).rows :=
  (rollup_idempotent KeyedTable.empty).2.1 _ _ _ (List.sublist_append_left _ _)

end PowerBlockade.Rollups.Retention
