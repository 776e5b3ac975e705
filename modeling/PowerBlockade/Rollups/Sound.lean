import PowerBlockade.Rollups.Compute

/-!
# Sound and fresh tables

The table never has a row that no event supports, and an hour that was computed is exact until another
of its events is stored.
-/

namespace PowerBlockade.Rollups
open Lib Primary

/-- Every hourly row is of a full hour, and of a client and node with an event in it. -/
structure Sound (events : List DNSQueryEvent) (table : RollupTable) : Prop where
  aligned : ∀ row ∈ table.rows, row.granularity = .hourly → row.bucketStart.micros % hourMicros = 0
  supported : ∀ row ∈ table.rows, row.granularity = .hourly →
    row.groupKey ∈ (hourEvents events row.bucketStart).map eventKey

/-- The rows of the hour are what its events give. -/
def Fresh (events : List DNSQueryEvent) (table : RollupTable) (hour : DateTime) : Prop :=
  (bucketRows table.rows .hourly hour).Perm (hourlyRows hour (hourEvents events hour))

variable {events : List DNSQueryEvent} {table after : RollupTable}

theorem sound_empty (events : List DNSQueryEvent) : Sound events KeyedTable.empty :=
  ⟨fun _ member => absurd member List.not_mem_nil, fun _ member => absurd member List.not_mem_nil⟩

theorem hourEvents_mono {before after : List DNSQueryEvent} (grown : before <+: after) (hour : DateTime) :
    hourEvents before hour <+: hourEvents after hour := grown.filter _

theorem Sound.mono {before after : List DNSQueryEvent} (sound : Sound before table)
    (grown : before <+: after) : Sound after table where
  aligned := sound.aligned
  supported row member hourly :=
    ((hourEvents_mono grown row.bucketStart).map eventKey).subset (sound.supported row member hourly)

theorem fresh_of_no_events {hour : DateTime} (sound : Sound events table)
    (none : hourEvents events hour = []) : Fresh events table hour := by
  have empty : bucketRows table.rows .hourly hour = [] := by
    refine List.filter_eq_nil_iff.2 fun row member inBucket => ?_
    obtain ⟨hourly, rfl⟩ : row.granularity = .hourly ∧ row.bucketStart = hour := by simpa using inBucket
    have supported := sound.supported row member hourly
    rw [none] at supported
    exact List.not_mem_nil supported
  rw [Fresh, empty, none]
  exact List.Perm.refl _

section Hourly

variable {hour : DateTime} {count : Nat} (sound : Sound events table)
  (computed : computeHourlyRollup events table hour = some (after, count))
include sound computed

theorem sound_computeHourlyRollup (aligned : hour.micros % hourMicros = 0) : Sound events after := by
  obtain rfl := computeHourlyRollup_eq_some computed
  constructor
  · intro row member hourly
    rcases mem_upsertAll (hourlyRows_unique _ _) member with new | old
    · obtain ⟨rfl, -, -⟩ := mem_hourlyRows new
      exact aligned
    · exact sound.aligned row old hourly
  · intro row member hourly
    rcases mem_upsertAll (hourlyRows_unique _ _) member with new | old
    · obtain ⟨here, -, used⟩ := mem_hourlyRows new
      rwa [here]
    · exact sound.supported row old hourly

theorem fresh_computeHourlyRollup : Fresh events after hour := by
  obtain rfl := computeHourlyRollup_eq_some computed
  refine bucketRows_upsertAll_self (hourlyRows_unique _ _) ?_ ?_
  · intro row member
    obtain ⟨here, hourly, -⟩ := mem_hourlyRows member
    exact ⟨hourly, here⟩
  · intro old inBucket
    obtain ⟨member, inHour⟩ := List.mem_filter.1 inBucket
    obtain ⟨hourly, rfl⟩ : old.granularity = .hourly ∧ old.bucketStart = hour := by simpa using inHour
    rw [map_key_hourlyRows, List.mem_map]
    refine ⟨old.groupKey, List.mem_dedup.2 (sound.supported old member hourly), ?_⟩
    rw [QueryRollup.key, hourly]

omit sound in
theorem bucketRows_computeHourlyRollup {granularity : Granularity} {bucket : DateTime}
    (other : granularity ≠ .hourly ∨ bucket ≠ hour) :
    (bucketRows after.rows granularity bucket).Perm (bucketRows table.rows granularity bucket) := by
  obtain rfl := computeHourlyRollup_eq_some computed
  refine bucketRows_upsertAll_other (hourlyRows_unique _ _) ?_
  rintro row member ⟨rfl, rfl⟩
  obtain ⟨here, hourly, -⟩ := mem_hourlyRows member
  rcases other with different | different
  · exact different hourly
  · exact different here

theorem Fresh.computeHourlyRollup {bucket : DateTime} (fresh : Fresh events table bucket) :
    Fresh events after bucket := by
  by_cases same : bucket = hour
  · obtain rfl := same
    exact fresh_computeHourlyRollup sound computed
  · exact (bucketRows_computeHourlyRollup computed (Or.inr same)).trans fresh

end Hourly

section Daily

variable {day : DateTime} {count : Nat} (computed : computeDailyRollup table day = some (after, count))
include computed

theorem bucketRows_computeDailyRollup (bucket : DateTime) :
    (bucketRows after.rows .hourly bucket).Perm (bucketRows table.rows .hourly bucket) := by
  obtain ⟨dayEnd, -, rfl⟩ := computeDailyRollup_eq_some computed
  refine bucketRows_upsertAll_other (dailyRows_unique _ _) ?_
  rintro row member ⟨hourly, -⟩
  exact nomatch hourly.symm.trans (mem_dailyRows member).2

theorem sound_computeDailyRollup (sound : Sound events table) : Sound events after := by
  obtain ⟨dayEnd, -, rfl⟩ := computeDailyRollup_eq_some computed
  have old : ∀ row ∈ (table.upsertAll (dailyRows day (hourlyBetween table.rows day dayEnd))).rows,
      row.granularity = .hourly → row ∈ table.rows := by
    intro row member hourly
    refine (mem_upsertAll (dailyRows_unique _ _) member).resolve_left fun new => ?_
    exact nomatch hourly.symm.trans (mem_dailyRows new).2
  exact ⟨fun row member hourly => sound.aligned row (old row member hourly) hourly,
    fun row member hourly => sound.supported row (old row member hourly) hourly⟩

end Daily

end PowerBlockade.Rollups
