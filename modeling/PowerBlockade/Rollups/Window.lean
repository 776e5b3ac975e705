import PowerBlockade.Rollups.Dashboard
import PowerBlockade.Rollups.Sound

/-!
# The window of the dashboard

Its partial first hour, its full hours and its partial last hour are disjoint and cover it, so fresh
rows of the full hours stand for their events.
-/

namespace PowerBlockade.Rollups
open Lib Primary

theorem hourMicros_eq : hourMicros = 3600000000 := rfl

def IsHour (t : DateTime) : Prop := t.micros % hourMicros = 0

instance (t : DateTime) : Decidable (IsHour t) := inferInstanceAs (Decidable (_ = _))

structure CompleteHour (start now hour : DateTime) : Prop where
  isHour : IsHour hour
  first : start ≤ hour
  last : hour.micros + hourMicros ≤ now.micros

theorem startOfHour_isHour (t : DateTime) : IsHour t.startOfHour := by
  simp only [IsHour, DateTime.startOfHour, hourMicros_eq]
  omega

theorem fullStart_spec {start now : DateTime} (before : start.micros + hourMicros ≤ now.micros) :
    ∃ full, fullStart start = some full ∧ IsHour full ∧ start ≤ full ∧
      full.micros < start.micros + hourMicros ∧ full ≤ now.startOfHour := by
  have inRange := now.inRange
  unfold fullStart
  split
  · rename_i inside
    have later : start.startOfHour.micros + hourMicros < maxMicros := by
      simp only [DateTime.lt_iff, DateTime.startOfHour, hourMicros_eq] at inside ⊢ before
      omega
    refine ⟨⟨_, later⟩, DateTime.add_eq_some.2 (by simp), ?_⟩
    simp only [IsHour, DateTime.lt_iff, DateTime.le_iff, DateTime.startOfHour, hourMicros_eq]
      at inside before ⊢
    omega
  · rename_i whole
    refine ⟨_, rfl, startOfHour_isHour start, ?_⟩
    simp only [DateTime.lt_iff, DateTime.le_iff, DateTime.startOfHour, hourMicros_eq] at whole before ⊢
    omega

theorem window_fullStart {start now : DateTime} {hours : Int} (long : 1 < hours)
    (window : windowStart now hours = some start) :
    ∃ full, fullStart start = some full ∧ IsHour full ∧ start ≤ full ∧
      full.micros < start.micros + hourMicros ∧ full ≤ now.startOfHour := by
  refine fullStart_spec ?_
  have distance := DateTime.before_eq_some window
  rw [hourMicros_eq] at distance ⊢
  omega

/-! ## The full hours -/

def hoursBetween (full current : DateTime) : List DateTime :=
  (List.range ((current.micros - full.micros) / hourMicros)).filterMap fun i =>
    full.add (i * hourMicros : Nat)

theorem mem_hoursBetween {full current hour : DateTime} (first : IsHour full) (last : IsHour current) :
    hour ∈ hoursBetween full current ↔ IsHour hour ∧ full ≤ hour ∧ hour < current := by
  simp only [hoursBetween, List.mem_filterMap, List.mem_range, DateTime.add_eq_some, IsHour,
    DateTime.le_iff, DateTime.lt_iff, hourMicros_eq] at first last ⊢
  constructor
  · rintro ⟨i, below, moved⟩
    omega
  · rintro ⟨isHour, after, before⟩
    refine ⟨(hour.micros - full.micros) / 3600000000, ?_, ?_⟩ <;> omega

theorem nodup_hoursBetween (full current : DateTime) : (hoursBetween full current).Nodup := by
  refine List.nodup_range.filterMap ?_
  intro i j hour left right
  have fromLeft := DateTime.add_eq_some.1 left
  have fromRight := DateTime.add_eq_some.1 right
  rw [hourMicros_eq] at fromLeft fromRight
  omega

theorem completeHour_of_mem {start now full hour : DateTime} (isHour : IsHour full) (after : start ≤ full)
    (member : hour ∈ hoursBetween full now.startOfHour) : CompleteHour start now hour := by
  obtain ⟨hourly, first, last⟩ := (mem_hoursBetween isHour (startOfHour_isHour now)).1 member
  refine ⟨hourly, after.trans first, ?_⟩
  simp only [IsHour, DateTime.lt_iff, DateTime.startOfHour, hourMicros_eq] at hourly last ⊢
  omega

theorem hourlyBetween_perm {rows : List QueryRollup} {full current : DateTime} (first : IsHour full)
    (last : IsHour current)
    (aligned : ∀ row ∈ rows, row.granularity = .hourly → IsHour row.bucketStart) :
    (hourlyBetween rows full current).Perm
      ((hoursBetween full current).flatMap (bucketRows rows .hourly)) := by
  have covers : ∀ row ∈ hourlyBetween rows full current, row.bucketStart ∈ hoursBetween full current := by
    intro row member
    obtain ⟨listed, inside⟩ := List.mem_filter.1 member
    obtain ⟨⟨hourly, after⟩, before⟩ :
        (row.granularity = .hourly ∧ full ≤ row.bucketStart) ∧ row.bucketStart < current := by
      simpa using inside
    exact (mem_hoursBetween first last).2 ⟨aligned row listed hourly, after, before⟩
  have split := flatten_groupsOn_perm (nodup_hoursBetween full current) covers
  have same : groupsOn (·.bucketStart) (hoursBetween full current) (hourlyBetween rows full current) =
      (hoursBetween full current).map (bucketRows rows .hourly) := by
    apply List.map_congr_left
    intro hour member
    obtain ⟨-, after, before⟩ := (mem_hoursBetween first last).1 member
    rw [hourlyBetween, bucketRows, List.filter_filter]
    apply List.filter_congr
    intro row _
    grind
  rw [same] at split
  exact split.symm

/-- The hour that an instant is in. -/
def hourNumber (micros : Int) : Int := micros / hourMicros

theorem hourNumber_eq_iff {hour : DateTime} (isHour : IsHour hour) (ts : Int) :
    hourNumber ts = hourNumber hour.micros ↔ hour.micros ≤ ts ∧ ts < hour.micros + hourMicros := by
  simp only [hourNumber, IsHour, hourMicros_eq] at isHour ⊢
  omega

theorem nodup_hourNumber {full current : DateTime} (first : IsHour full) (last : IsHour current) :
    ((hoursBetween full current).map fun hour => hourNumber hour.micros).Nodup := by
  refine (nodup_hoursBetween full current).map_on ?_
  intro a left b right same
  obtain ⟨leftHour, -, -⟩ := (mem_hoursBetween first last).1 left
  obtain ⟨rightHour, -, -⟩ := (mem_hoursBetween first last).1 right
  apply DateTime.ext
  simp only [hourNumber, IsHour, hourMicros_eq] at same leftHour rightHour
  omega

section
variable {full current : DateTime} (first : IsHour full) (last : IsHour current)
include first last

theorem hourNumber_mem {micros : Int} (after : full.micros ≤ micros) (before : micros < current.micros) :
    hourNumber micros ∈ (hoursBetween full current).map fun hour => hourNumber hour.micros := by
  have range := current.inRange
  have early : micros - micros % 3600000000 < maxMicros := by omega
  refine List.mem_map.2 ⟨⟨(micros - micros % 3600000000).toNat, by omega⟩, ?_, ?_⟩
  · rw [mem_hoursBetween first last]
    simp only [IsHour, DateTime.le_iff, DateTime.lt_iff, hourMicros_eq] at first last ⊢
    omega
  · simp only [hourNumber, hourMicros_eq]
    omega

/-- The instants of an hour are inside where the hour is. -/
theorem hourNumber_inside {hour : DateTime} (member : hour ∈ hoursBetween full current) (micros : Int) :
    hourNumber micros = hourNumber hour.micros ∧ full.micros ≤ micros ∧ micros < current.micros ↔
      hour.micros ≤ micros ∧ micros < hour.micros + hourMicros := by
  obtain ⟨isHour, after, before⟩ := (mem_hoursBetween first last).1 member
  rw [DateTime.le_iff] at after
  rw [DateTime.lt_iff] at before
  have within : hour.micros + hourMicros ≤ current.micros := by
    simp only [IsHour, hourMicros_eq] at last isHour ⊢
    omega
  rw [hourNumber_eq_iff isHour, and_iff_left_of_imp]
  exact fun here => ⟨by omega, by omega⟩

end

theorem filter_hourNumber {events : List DNSQueryEvent} {full current hour : DateTime}
    (first : IsHour full) (last : IsHour current) (member : hour ∈ hoursBetween full current) :
    (external events full.micros current.micros).filter (hourNumber ·.ts = hourNumber hour.micros) =
      hourEvents events hour := by
  simp only [hourEvents, external, List.filter_filter]
  apply List.filter_congr
  intro event _
  rw [Bool.eq_iff_iff]
  simp only [Bool.and_eq_true, decide_eq_true_eq, ← hourNumber_inside first last member, and_assoc]

theorem external_hours_perm (events : List DNSQueryEvent) {full current : DateTime}
    (first : IsHour full) (last : IsHour current) :
    ((hoursBetween full current).flatMap (hourEvents events)).Perm
      (external events full.micros current.micros) := by
  have covers : ∀ event ∈ external events full.micros current.micros,
      hourNumber event.ts ∈ (hoursBetween full current).map fun hour => hourNumber hour.micros :=
    fun event member => by
      obtain ⟨⟨after, before⟩, -⟩ :
          (full.micros ≤ event.ts ∧ event.ts < current.micros) ∧ event.isInternal = false := by
        simpa using (List.mem_filter.1 member).2
      exact hourNumber_mem first last after before
  have split := flatten_groupsOn_perm (nodup_hourNumber first last) covers
  have same : groupsOn (hourNumber ·.ts) ((hoursBetween full current).map fun hour => hourNumber hour.micros)
      (external events full.micros current.micros) = (hoursBetween full current).map (hourEvents events) := by
    rw [groupsOn, List.map_map]
    apply List.map_congr_left
    intro hour member
    exact filter_hourNumber first last member
  rw [same] at split
  exact split

/-! ## The parts of the window -/

def rolledGroups (events : List DNSQueryEvent) (full current : DateTime) : List (List DNSQueryEvent) :=
  (hoursBetween full current).flatMap fun hour => (groupBy eventKey (hourEvents events hour)).map Prod.snd

def windowParts (events : List DNSQueryEvent) (start full current now : DateTime) :
    List (List DNSQueryEvent) :=
  external events start.micros full.micros :: external events current.micros now.micros ::
    rolledGroups events full current

theorem flatten_rolledGroups_perm (events : List DNSQueryEvent) {full current : DateTime}
    (first : IsHour full) (last : IsHour current) :
    (rolledGroups events full current).flatten.Perm (external events full.micros current.micros) := by
  refine List.Perm.trans ?_ (external_hours_perm events first last)
  rw [rolledGroups, ← List.flatMap_id, List.flatMap_assoc]
  simp only [List.flatMap_id]
  exact List.Perm.flatMap_left _ fun hour _ => flatten_groupBy_perm _ _

theorem flatten_windowParts_perm (events : List DNSQueryEvent) {start full current now : DateTime}
    (first : IsHour full) (last : IsHour current) (left : start ≤ full) (middle : full ≤ current)
    (right : current ≤ now) :
    (windowParts events start full current now).flatten.Perm
      (external events start.micros now.micros) := by
  have leftNat : (start.micros : Int) ≤ full.micros := Int.ofNat_le.2 left
  have middleNat : (full.micros : Int) ≤ current.micros := Int.ofNat_le.2 middle
  have rightNat : (current.micros : Int) ≤ now.micros := Int.ofNat_le.2 right
  calc (windowParts events start full current now).flatten
      = external events start.micros full.micros ++ (external events current.micros now.micros ++
          (rolledGroups events full current).flatten) := rfl
    _ |>.Perm (external events start.micros full.micros ++
          ((rolledGroups events full current).flatten ++ external events current.micros now.micros)) :=
        List.perm_append_comm.append_left _
    _ |>.Perm (external events start.micros full.micros ++
          (external events full.micros current.micros ++ external events current.micros now.micros)) :=
        ((flatten_rolledGroups_perm events first last).append_right _).append_left _
    _ |>.Perm (external events start.micros full.micros ++ external events full.micros now.micros) :=
        (external_append_perm events middleNat rightNat).append_left _
    _ |>.Perm (external events start.micros now.micros) :=
        external_append_perm events leftNat (middleNat.trans rightNat)

/-! ## What is accumulated -/

def groupLatency (group : List DNSQueryEvent) : Option Int :=
  (averageLatency (latencies group)).map (· * group.length)

theorem rollupAggregate_perm {rows others : List QueryRollup} (same : rows.Perm others) :
    rollupAggregate rows = rollupAggregate others := by
  rw [rollupAggregate, rollupAggregate, (same.map _).sum_eq, (same.filterMap _).sum_eq,
    (same.map _).sum_eq]

theorem hourlyBetween_fresh {events : List DNSQueryEvent} {table : RollupTable} {full current : DateTime}
    (first : IsHour full) (last : IsHour current) (sound : Sound events table)
    (fresh : ∀ hour ∈ hoursBetween full current, Fresh events table hour) :
    (hourlyBetween table.rows full current).Perm
      ((hoursBetween full current).flatMap fun hour => hourlyRows hour (hourEvents events hour)) :=
  (hourlyBetween_perm first last sound.aligned).trans (List.Perm.flatMap_left _ fresh)

theorem rollupAggregate_fresh {events : List DNSQueryEvent} {table : RollupTable} {full current : DateTime}
    (first : IsHour full) (last : IsHour current) (sound : Sound events table)
    (fresh : ∀ hour ∈ hoursBetween full current, Fresh events table hour) :
    rollupAggregate (hourlyBetween table.rows full current) =
      ⟨((rolledGroups events full current).map aggregate).sum,
        ((rolledGroups events full current).filterMap groupLatency).sum,
        ((rolledGroups events full current).map uniqueDomains).sum⟩ := by
  rw [rollupAggregate_perm (hourlyBetween_fresh first last sound fresh)]
  simp only [rollupAggregate, rolledGroups, List.map_flatMap, List.filterMap_flatMap, hourlyRows,
    List.map_map, List.filterMap_map]
  rfl

theorem external_self (events : List DNSQueryEvent) (t : Int) : external events t t = [] := by
  refine List.filter_eq_nil_iff.2 fun event _ => ?_
  simp only [Bool.and_eq_true, decide_eq_true_eq]
  omega

theorem rawEdgeAggregate_self (events : List DNSQueryEvent) (t : DateTime) :
    rawEdgeAggregate events t t = ⟨0, 0, 0⟩ := by
  rw [rawEdgeAggregate, external_self]
  rfl

theorem accumulate_eq (events : List DNSQueryEvent) (table : RollupTable)
    {start full current now : DateTime} (left : start ≤ full) (right : current ≤ now) :
    (accumulate events table start full current now).1 =
      rollupAggregate (hourlyBetween table.rows full current) + rawEdgeAggregate events start full +
        rawEdgeAggregate events current now := by
  have unit (accum : Accum) : accum + ⟨0, 0, 0⟩ = accum := by
    ext <;> simp [Accum.add_def]
  simp only [accumulate]
  rcases left.lt_or_eq with inside | rfl <;> rcases right.lt_or_eq with partialHour | rfl
  · rw [if_pos inside, if_pos partialHour]
  · rw [if_pos inside, if_neg (lt_irrefl _), rawEdgeAggregate_self, unit]
  · rw [if_neg (lt_irrefl _), if_pos partialHour, rawEdgeAggregate_self, unit]
  · rw [if_neg (lt_irrefl _), if_neg (lt_irrefl _), rawEdgeAggregate_self, rawEdgeAggregate_self, unit, unit]

end PowerBlockade.Rollups
