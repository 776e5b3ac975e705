import PowerBlockade.Lib.Average
import PowerBlockade.Rollups.Refinement

/-!
# Latency averages and distinct names

Neither adds up over groups. Averages are truncated twice, and a name counts once for every group and
edge it occurs in.
-/

namespace PowerBlockade.Rollups
open Lib Primary

variable {events : List DNSQueryEvent} {table : RollupTable}

theorem averageLatency_getD (xs : List Int) : (averageLatency xs).getD 0 = xs.sum.tdiv xs.length := by
  unfold averageLatency
  split
  · rename_i zero
    simp [zero]
  · rfl

theorem averageLatency_perm {xs ys : List Int} (same : xs.Perm ys) : averageLatency xs = averageLatency ys := by
  rw [averageLatency, averageLatency, same.sum_eq, same.length_eq]

/-! ## The dashboard's average -/

/-- Every event has a latency, of the column's type. -/
def Measured (events : List DNSQueryEvent) : Prop :=
  ∀ event ∈ events, event.latencyMs.any (fitsInteger 32) = true

instance (events : List DNSQueryEvent) : Decidable (Measured events) :=
  inferInstanceAs (Decidable (∀ event ∈ events, _))

theorem Measured.length_latencies {events : List DNSQueryEvent} (measured : Measured events) :
    (latencies events).length = events.length := by
  refine List.filterMap_length_eq_length.2 fun event member => ?_
  exact Option.isSome_of_any (measured event member)

theorem Measured.sum_bound {events : List DNSQueryEvent} (measured : Measured events) :
    |(latencies events).sum| ≤ 2 ^ 31 * events.length := by
  induction events with
  | nil => simp [latencies]
  | cons event rest ih =>
      obtain ⟨latency, stored, fits⟩ := (Option.any_eq_true _ _).1 (measured event List.mem_cons_self)
      have later := ih fun other member => measured other (List.mem_cons_of_mem _ member)
      have range : -2 ^ 31 ≤ latency ∧ latency < 2 ^ 31 := by simpa [fitsInteger] using fits
      have sum : (latencies (event :: rest)).sum = latency + (latencies rest).sum := by
        simp [latencies, stored]
      rw [sum, List.length_cons]
      rw [abs_le] at later ⊢
      push_cast
      omega

theorem groupLatency_near {group : List DNSQueryEvent} (measured : Measured group) :
    |(groupLatency group).getD 0 - (latencies group).sum| ≤ group.length := by
  have weighted : (groupLatency group).getD 0 =
      (latencies group).sum.tdiv (latencies group).length * group.length := by
    rw [← averageLatency_getD, groupLatency]
    cases averageLatency (latencies group) <;> simp
  rw [weighted, measured.length_latencies]
  rcases Nat.eq_zero_or_pos group.length with none | some
  · rw [List.length_eq_zero_iff.1 none]
    simp [latencies]
  · exact (abs_tdiv_mul_sub_lt _ some).le

theorem sum_latencies (parts : List (List DNSQueryEvent)) :
    (parts.map fun part => (latencies part).sum).sum = (latencies parts.flatten).sum :=
  sum_map_flatten (fun part => (latencies part).sum) rfl (fun xs ys => by simp [latencies]) parts

theorem sum_length (parts : List (List DNSQueryEvent)) :
    (parts.map fun part => (part.length : Int)).sum = parts.flatten.length :=
  sum_map_flatten (fun part : List DNSQueryEvent => (part.length : Int)) rfl
    (fun xs ys => by simp) parts

section Window

variable {start full current now : DateTime} (first : IsHour full) (last : IsHour current)
  (left : start ≤ full) (middle : full ≤ current) (right : current ≤ now) (sound : Sound events table)
  (fresh : ∀ hour ∈ hoursBetween full current, Fresh events table hour)
include first last left middle right sound fresh

omit middle in
theorem accumulate_uniqueDomains :
    (accumulate events table start full current now).1.uniqueDomains =
      ((windowParts events start full current now).map uniqueDomains).sum := by
  rw [accumulate_eq events table left right, rollupAggregate_fresh first last sound fresh]
  simp only [Accum.add_def, rawEdgeAggregate, windowParts, List.map_cons, List.sum_cons]
  omega

theorem accumulate_latency (measured : Measured (external events start.micros now.micros)) :
    |(accumulate events table start full current now).1.latencyWeightedSum -
        (latencies (external events start.micros now.micros)).sum| ≤
      (external events start.micros now.micros).length := by
  have whole := flatten_windowParts_perm events first last left middle right
  have sums : (latencies (external events start.micros now.micros)).sum =
      (latencies (external events start.micros full.micros)).sum +
        ((latencies (external events current.micros now.micros)).sum +
          ((rolledGroups events full current).map fun group => (latencies group).sum).sum) := by
    have listed : (latencies (windowParts events start full current now).flatten).Perm
        (latencies (external events start.micros now.micros)) := whole.filterMap _
    rw [← listed.sum_eq, ← sum_latencies, windowParts, List.map_cons, List.map_cons, List.sum_cons,
      List.sum_cons]
  have lengths : ((rolledGroups events full current).map fun group => (group.length : Int)).sum ≤
      (external events start.micros now.micros).length := by
    rw [← whole.length_eq, ← sum_length, windowParts, List.map_cons, List.map_cons, List.sum_cons,
      List.sum_cons]
    omega
  have near := abs_sum_sub_sum_le (rolledGroups events full current) (f := fun group => (groupLatency group).getD 0)
    (g := fun group => (latencies group).sum) (h := fun group => (group.length : Int))
    fun group member => groupLatency_near fun event inGroup =>
      measured event (whole.mem_iff.1 (List.mem_flatten.2
        ⟨group, List.mem_cons_of_mem _ (List.mem_cons_of_mem _ member), inGroup⟩))
  rw [accumulate_eq events table left right, rollupAggregate_fresh first last sound fresh, sums]
  simp only [Accum.add_def, rawEdgeAggregate, sum_filterMap]
  rw [abs_le] at near ⊢
  omega

theorem buildResult_avgLatency (measured : Measured (external events start.micros now.micros))
    (some : external events start.micros now.micros ≠ []) (edge : Nat) :
    |((buildResult (accumulate events table start full current now).1 edge).avgLatencyMs : ℚ) -
      mean (latencies (external events start.micros now.micros))| < 2 := by
  have total : (accumulate events table start full current now).1.counters.totalQueries =
      (external events start.micros now.micros).length :=
    congrArg Counters.totalQueries (accumulate_counters first last left middle right sound fresh)
  have pos := List.length_pos_of_ne_nil some
  have near := accumulate_latency first last left middle right sound fresh measured
  have bound := measured.sum_bound
  rw [mean, measured.length_latencies]
  generalize (accumulate events table start full current now).1 = accum at total near
  generalize (latencies (external events start.micros now.micros)).sum = sum at near bound
  generalize (external events start.micros now.micros).length = n at total pos near bound
  have small : accum.latencyWeightedSum.natAbs / n < 2 ^ 53 := by
    rw [Nat.div_lt_iff_lt_mul pos]
    rw [abs_le] at near bound
    omega
  have rounded := intTrueDiv_error pos small
  refine abs_sub_div_lt (k := 2) pos ?_
  rw [buildResult, total, if_pos pos]
  rw [abs_lt] at rounded ⊢
  rw [abs_le] at near
  push_cast
  omega

end Window

/-! ## The daily rows -/

def ofGroup (key : GroupKey) (events : List DNSQueryEvent) : List DNSQueryEvent :=
  events.filter (eventKey · = key)

def dayParts (events : List DNSQueryEvent) (day dayEnd : DateTime) (key : GroupKey) :
    List (List DNSQueryEvent) :=
  (hoursBetween day dayEnd).map fun hour => ofGroup key (hourEvents events hour)

def hourlyMeans (parts : List (List DNSQueryEvent)) : List ℚ :=
  parts.filterMap fun part => if (latencies part).sum = 0 then none else some (mean (latencies part))

theorem flatten_dayParts_perm {day dayEnd : DateTime} (first : IsHour day) (last : IsHour dayEnd)
    (key : GroupKey) :
    (dayParts events day dayEnd key).flatten.Perm (ofGroup key (external events day.micros dayEnd.micros)) := by
  have filtered := (external_hours_perm events first last).filter (eventKey · = key)
  rw [List.filter_flatMap] at filtered
  exact filtered

theorem filter_hourlyRows (hour : DateTime) (events : List DNSQueryEvent) (key : GroupKey) :
    (hourlyRows hour events).filter (·.groupKey = key) =
      if key ∈ events.map eventKey then [hourlyRow hour key (ofGroup key events)] else [] := by
  have grouped : (hourlyRows hour events).filter (·.groupKey = key) =
      ((groupBy eventKey events).filter (·.1 = key)).map fun group => hourlyRow hour group.1 group.2 :=
    List.filter_map
  rw [grouped, filter_groupBy]
  split <;> rfl

theorem ofGroup_eq_nil {key : GroupKey} {events : List DNSQueryEvent} (absent : key ∉ events.map eventKey) :
    ofGroup key events = [] :=
  List.filter_eq_nil_iff.2 fun event member here =>
    absent (List.mem_map.2 ⟨event, member, of_decide_eq_true here⟩)

section Daily

variable {day dayEnd : DateTime} {rows : List QueryRollup} (key : GroupKey)
  (hours : rows.Perm ((hoursBetween day dayEnd).flatMap fun hour =>
    hourlyRows hour (hourEvents events hour)))
include hours

theorem filter_groupKey_perm : (rows.filter (·.groupKey = key)).Perm
    ((hoursBetween day dayEnd).flatMap fun hour =>
      if key ∈ (hourEvents events hour).map eventKey then
        [hourlyRow hour key (ofGroup key (hourEvents events hour))]
      else []) := by
  have mine := hours.filter (·.groupKey = key)
  rw [List.filter_flatMap] at mine
  simpa only [filter_hourlyRows] using mine

theorem dailyRow_uniqueDomains : (dailyRow day key (rows.filter (·.groupKey = key))).uniqueDomains =
    ((dayParts events day dayEnd key).map uniqueDomains).sum := by
  change ((rows.filter (·.groupKey = key)).map (·.uniqueDomains)).sum = _
  rw [((filter_groupKey_perm key hours).map _).sum_eq, List.map_flatMap, sum_flatMap, dayParts, List.map_map]
  congr 1
  apply List.map_congr_left
  intro hour _
  split
  · simp [hourlyRow]
  · rename_i absent
    simp [ofGroup_eq_nil absent, uniqueDomains, countDistinct]

theorem dailyRow_avgLatencyMs : (dailyRow day key (rows.filter (·.groupKey = key))).avgLatencyMs =
    averageLatency ((dayParts events day dayEnd key).filterMap fun part =>
      averageLatency (latencies part)) := by
  change averageLatency ((rows.filter (·.groupKey = key)).filterMap (·.avgLatencyMs)) = _
  rw [averageLatency_perm ((filter_groupKey_perm key hours).filterMap _), List.filterMap_flatMap, dayParts,
    List.filterMap_map, List.filterMap_eq_flatMap_toList]
  congr 2
  funext hour
  split
  · cases average : averageLatency (latencies (ofGroup key (hourEvents events hour))) <;>
      simp [hourlyRow, average]
  · rename_i absent
    simp [ofGroup_eq_nil absent, latencies, averageLatency]

end Daily

theorem hourlyMeans_near (parts : List (List DNSQueryEvent)) :
    (parts.filterMap fun part => averageLatency (latencies part)).length = (hourlyMeans parts).length ∧
      |((parts.filterMap fun part => averageLatency (latencies part)).sum : ℚ) - (hourlyMeans parts).sum| ≤
        (hourlyMeans parts).length := by
  induction parts with
  | nil => simp [hourlyMeans]
  | cons part rest ih =>
      obtain ⟨lengths, near⟩ := ih
      have truncated := abs_tdiv_sub_mean_lt (latencies part)
      unfold hourlyMeans at lengths near ⊢
      by_cases zero : (latencies part).sum = 0
      · have skipped : averageLatency (latencies part) = none := if_pos zero
        simp only [List.filterMap_cons, skipped, if_pos zero]
        exact ⟨lengths, near⟩
      · have counted : averageLatency (latencies part) =
            some ((latencies part).sum.tdiv (latencies part).length) := if_neg zero
        simp only [List.filterMap_cons, counted, if_neg zero, List.length_cons, List.sum_cons]
        refine ⟨congrArg (· + 1) lengths, ?_⟩
        rw [Int.cast_add, Nat.cast_add, Nat.cast_one]
        rw [abs_lt] at truncated
        rw [abs_le] at near ⊢
        constructor <;> linarith [truncated.1, truncated.2, near.1, near.2]

theorem dailyAverage_near (parts : List (List DNSQueryEvent)) :
    |(((averageLatency (parts.filterMap fun part => averageLatency (latencies part))).getD 0 : Int) : ℚ) -
      (hourlyMeans parts).sum / (hourlyMeans parts).length| < 2 := by
  obtain ⟨lengths, near⟩ := hourlyMeans_near parts
  have truncated := abs_tdiv_sub_mean_lt (parts.filterMap fun part => averageLatency (latencies part))
  rw [averageLatency_getD]
  rw [mean, lengths] at truncated
  rw [lengths]
  generalize (parts.filterMap fun part => averageLatency (latencies part)).sum = sum at truncated near ⊢
  generalize (hourlyMeans parts).sum = means at near ⊢
  generalize (hourlyMeans parts).length = n at truncated near ⊢
  have scaled : |(sum : ℚ) / n - means / n| ≤ 1 := by
    rw [← sub_div, abs_div, abs_of_nonneg (a := (n : ℚ)) (Nat.cast_nonneg n)]
    exact div_le_one_of_le₀ near (Nat.cast_nonneg n)
  rw [abs_lt] at truncated ⊢
  rw [abs_le] at scaled
  constructor <;> linarith [truncated.1, truncated.2, scaled.1, scaled.2]

/-! ## What the dashboard and the daily rows report -/

/-- `count` is what the parts count, and it is exact iff no name is in two of them. -/
def CountsNames (count : Nat) (parts : List (List DNSQueryEvent)) (range : List DNSQueryEvent) : Prop :=
  uniqueDomains range ≤ count ∧ (count = uniqueDomains range ↔ ValuesDisjoint (·.qname) parts)

theorem countsNames_of_perm {parts : List (List DNSQueryEvent)} {range : List DNSQueryEvent}
    (whole : parts.flatten.Perm range) : CountsNames (parts.map uniqueDomains).sum parts range := by
  have names : uniqueDomains range = uniqueDomains parts.flatten := (countDistinct_perm whole).symm
  rw [CountsNames, names]
  exact ⟨countDistinct_flatten_le _ parts, countDistinct_flatten_eq_iff _ parts⟩

def lookups : List DNSQueryEvent :=
  [query 665 "example.org" (some 1), query 690 "example.org" (some 2), query 700 "example.net" (some 2),
    query 740 "example.org" (some 4)]

end PowerBlockade.Rollups
