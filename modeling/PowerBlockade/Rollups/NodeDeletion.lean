import PowerBlockade.Rollups.Freshness

/-!
# Deleting a node

The events of the node stay, without it; its rollup rows go. So an hour that was rolled up loses what
it counted of the node.
-/

namespace PowerBlockade.Primary

def NodeTable.delete (table : NodeTable) (id : Nat) : NodeTable where
  rows := table.rows.filter (·.id ≠ id)
  wellFormed :=
    { ids := (List.filter_sublist.map _).nodup table.wellFormed.ids
      keys := (List.filter_sublist.map _).nodup table.wellFormed.keys
      names := (List.filter_sublist.map _).nodup table.wellFormed.names
      storable := fun row member => table.wellFormed.storable row (List.mem_filter.1 member).1 }

def DNSQueryEvent.forgetNode (id : Nat) (row : DNSQueryEvent) : DNSQueryEvent :=
  if row.nodeId = some id then { row with nodeId := none } else row

theorem eventId_forgetNode (id : Nat) (row : DNSQueryEvent) : (row.forgetNode id).eventId = row.eventId := by
  unfold DNSQueryEvent.forgetNode
  split <;> rfl

def EventTable.forgetNode (table : EventTable) (id : Nat) : EventTable where
  rows := table.rows.map (·.forgetNode id)
  unique := by
    simpa only [List.filterMap_map, Function.comp_def, eventId_forgetNode] using table.unique

/-- With what the foreign keys do: `SET NULL` for the events, `CASCADE` for the metrics. -/
def Database.deleteNode (db : Database) (id : Nat) : Database :=
  { db with
    nodes := db.nodes.delete id
    events := db.events.forgetNode id
    metrics := db.metrics.filter (·.nodeId ≠ id) }

end PowerBlockade.Primary

namespace PowerBlockade.Rollups.NodeDeletion
open Lib Primary

/-- The foreign key of the rollups is `CASCADE`. -/
def deleteNodeRollups (table : RollupTable) (id : Nat) : RollupTable where
  rows := table.rows.filter (·.nodeId ≠ some id)
  unique := (List.filter_sublist.map _).nodup table.unique

/-- The node that the request deletes, if any. -/
def deletable (user : Bool) (nodeId : Int) (world : World) : Option Node :=
  if user then (world.database.nodes.rows.find? fun row => (row.id : Int) = nodeId).filter (·.name ≠ "primary")
  else none

def nodesDelete (user : Bool) (nodeId : Int) (world : World) : World :=
  match deletable user nodeId world with
  | none => world
  | some node =>
      { world with
        database := world.database.deleteNode node.id
        table := deleteNodeRollups world.table node.id }

/-! ## Hours that agree -/

def hourRows (rows : List QueryRollup) (hour : DateTime) : List QueryRollup :=
  rows.filter fun row => row.granularity = .hourly && hour ≤ row.bucketStart &&
    row.bucketStart.micros < hour.micros + hourMicros

def counted (rows : List QueryRollup) (hour : DateTime) : Counters :=
  ((hourRows rows hour).map (·.counters)).sum

/-- The rows of each hour before `now` sum to its events. -/
def Agrees (world : World) (now : DateTime) : Prop :=
  ∀ hour, IsHour hour → hour.micros + hourMicros ≤ now.micros →
    counted world.table.rows hour = aggregate (hourEvents world.events hour)

/-- Also on the dashboard, whatever its window, when it computes it. -/
structure Consistent (world : World) (now : DateTime) : Prop where
  hours : Agrees world now
  dashboard : ∀ (clock : Clock) (hours : Int) (start : DateTime), clock.now = now → 1 < hours →
    windowStart now hours = some start →
    world.cache.fetch (cacheKey hours start.startOfHour now.startOfHour) clock.before = none →
      (world.dashboard clock hours).map (·.1.counters) =
        some (aggregate (external world.events start.micros now.micros))

/-! ### The dashboard of hours that agree -/

theorem hourNumber_bucket_mem {rows : List QueryRollup} {full current : DateTime} (first : IsHour full)
    (last : IsHour current) {row : QueryRollup} (member : row ∈ hourlyBetween rows full current) :
    hourNumber row.bucketStart.micros ∈ (hoursBetween full current).map fun hour => hourNumber hour.micros := by
  obtain ⟨⟨-, after⟩, before⟩ :
      (row.granularity = .hourly ∧ full ≤ row.bucketStart) ∧ row.bucketStart < current := by
    simpa using (List.mem_filter.1 member).2
  exact hourNumber_mem first last (Int.ofNat_le.2 after) (Int.ofNat_lt.2 before)

theorem filter_hourNumber_bucket {rows : List QueryRollup} {full current hour : DateTime}
    (first : IsHour full) (last : IsHour current) (member : hour ∈ hoursBetween full current) :
    (hourlyBetween rows full current).filter
        (fun row => hourNumber row.bucketStart.micros = hourNumber hour.micros) = hourRows rows hour := by
  simp only [hourRows, hourlyBetween, List.filter_filter]
  apply List.filter_congr
  intro row _
  have inside := hourNumber_inside first last member row.bucketStart.micros
  simp only [Nat.cast_le, Nat.cast_lt, ← Nat.cast_add] at inside
  rw [Bool.eq_iff_iff]
  simp only [Bool.and_eq_true, decide_eq_true_eq, DateTime.le_iff, DateTime.lt_iff, and_assoc, ← inside]
  exact and_left_comm

theorem sum_hourlyBetween (rows : List QueryRollup) {full current : DateTime} (first : IsHour full)
    (last : IsHour current) : ((hourlyBetween rows full current).map (·.counters)).sum =
      ((hoursBetween full current).map (counted rows)).sum := by
  have inside : ∀ row ∈ hourlyBetween rows full current, hourNumber row.bucketStart.micros ∈
      (hoursBetween full current).map fun hour => hourNumber hour.micros :=
    fun row => hourNumber_bucket_mem first last
  have split := flatten_groupsOn_perm (nodup_hourNumber first last) inside
  have parts := sum_map_flatten (fun rows : List QueryRollup => (rows.map (·.counters)).sum) rfl
    (fun xs ys => by simp)
    (groupsOn (fun row : QueryRollup => hourNumber row.bucketStart.micros)
      ((hoursBetween full current).map fun hour => hourNumber hour.micros) (hourlyBetween rows full current))
  rw [← (split.map _).sum_eq, ← parts, groupsOn, List.map_map, List.map_map]
  refine congrArg List.sum (List.map_congr_left fun hour member => ?_)
  rw [Function.comp_apply, Function.comp_apply, filter_hourNumber_bucket first last member, counted]

theorem aggregate_hours (events : List DNSQueryEvent) {full current : DateTime} (first : IsHour full)
    (last : IsHour current) : aggregate (external events full.micros current.micros) =
      ((hoursBetween full current).map fun hour => aggregate (hourEvents events hour)).sum := by
  rw [← aggregate_perm (external_hours_perm events first last), List.flatMap_def, ← sum_aggregate,
    List.map_map]
  rfl

theorem consistent_of_agrees {world : World} {now : DateTime} (agrees : Agrees world now) :
    Consistent world now := by
  refine ⟨agrees, ?_⟩
  rintro clock hours start rfl long window miss
  obtain ⟨full, found, isHour, left, -, middle⟩ := window_fullStart long window
  obtain ⟨same, equal, result⟩ :=
    getDashboardStats_uncached world.events world.table world.cache long window miss
  obtain rfl : full = same := Option.some.inj (found.symm.trans equal)
  have last := startOfHour_isHour clock.now
  have right := startOfHour_le clock.now
  have hoursAgree : ((hoursBetween full clock.now.startOfHour).map (counted world.table.rows)).sum =
      aggregate (external world.events full.micros clock.now.startOfHour.micros) := by
    rw [aggregate_hours _ isHour last]
    refine congrArg List.sum (List.map_congr_left fun hour member => ?_)
    have complete := completeHour_of_mem isHour left member
    exact agrees hour complete.isHour complete.last
  have leftInt : (start.micros : Int) ≤ full.micros := Int.ofNat_le.2 left
  have middleInt : (full.micros : Int) ≤ clock.now.startOfHour.micros := Int.ofNat_le.2 middle
  have rightInt : (clock.now.startOfHour.micros : Int) ≤ clock.now.micros := Int.ofNat_le.2 right
  have whole : (accumulate world.events world.table start full clock.now.startOfHour clock.now).1.counters =
      aggregate (external world.events start.micros clock.now.micros) := by
    rw [accumulate_eq _ _ left right,
      ← aggregate_perm (external_append_perm world.events leftInt (middleInt.trans rightInt)),
      ← aggregate_perm ((external_append_perm world.events middleInt rightInt).append_left _),
      aggregate_append, aggregate_append, ← hoursAgree, ← sum_hourlyBetween _ isHour last]
    simp only [Accum.add_def, rawEdgeAggregate, rollupAggregate]
    rw [add_assoc, ← add_assoc, add_comm (List.sum _), add_assoc]
  have counters := congrArg (Option.map (·.counters)) result
  rw [Option.map_map] at counters
  rw [← whole]
  exact counters

/-! ## What the deletion leaves -/

theorem Counters.add_eq_right_iff {a b : Counters} : a + b = b ↔ a = 0 := by
  rw [Counters.add_def, Counters.zero_def]
  constructor
  · intro same
    ext <;> simp_all [Counters.ext_iff]
  · rintro rfl
    ext <;> simp

theorem Counters.sum_eq_zero_iff {all : List Counters} : all.sum = 0 ↔ ∀ a ∈ all, a = 0 := by
  induction all with
  | nil => simp
  | cons a rest ih =>
      have split : a + rest.sum = 0 ↔ a = 0 ∧ rest.sum = 0 := by
        simp only [Counters.add_def, Counters.zero_def, Counters.ext_iff]
        omega
      rw [List.sum_cons, split, ih, List.forall_mem_cons]

theorem external_map {f : DNSQueryEvent → DNSQueryEvent}
    (same : ∀ row, (f row).ts = row.ts ∧ (f row).isInternal = row.isInternal) (events : List DNSQueryEvent)
    (start stop : Int) : external (events.map f) start stop = (external events start stop).map f := by
  rw [external, List.filter_map, external]
  refine congrArg (List.map f) (List.filter_congr fun row _ => ?_)
  simp only [Function.comp_apply, same row]

theorem aggregate_external_forgetNode (table : EventTable) (id : Nat) (start stop : Int) :
    aggregate (external (table.forgetNode id).rows start stop) =
      aggregate (external table.rows start stop) := by
  have same (row : DNSQueryEvent) : (row.forgetNode id).ts = row.ts ∧
      (row.forgetNode id).isInternal = row.isInternal ∧ (row.forgetNode id).blocked = row.blocked ∧
      (row.forgetNode id).rcode = row.rcode ∧ (row.forgetNode id).cacheHit = row.cacheHit := by
    unfold DNSQueryEvent.forgetNode
    split <;> exact ⟨rfl, rfl, rfl, rfl, rfl⟩
  rw [EventTable.forgetNode, external_map fun row => ⟨(same row).1, (same row).2.1⟩]
  simp only [aggregate, List.length_map, List.countP_map, Function.comp_def, same]

/-- The rows of an hour are those of the node and the others. -/
theorem counted_delete (table : RollupTable) (id : Nat) (hour : DateTime) :
    counted (table.rows.filter (·.nodeId = some id)) hour + counted (deleteNodeRollups table id).rows hour =
      counted table.rows hour := by
  have parts := List.filter_append_perm (·.nodeId = some id) (hourRows table.rows hour)
  have whole := (parts.map (·.counters)).sum_eq
  rw [List.map_append, List.sum_append] at whole
  have mine : (hourRows table.rows hour).filter (·.nodeId = some id) =
      hourRows (table.rows.filter (·.nodeId = some id)) hour := by
    simp only [hourRows, List.filter_filter, Bool.and_comm]
  have others : (hourRows table.rows hour).filter (fun row => !decide (row.nodeId = some id)) =
      hourRows (deleteNodeRollups table id).rows hour := by
    simp only [hourRows, deleteNodeRollups, List.filter_filter, Bool.and_comm, decide_not, ne_eq]
  rw [mine, others] at whole
  exact whole

/-- The node has no row in a past hour that counts anything. -/
def Uncounted (world : World) (now : DateTime) (node : Node) : Prop :=
  ∀ hour, IsHour hour → hour.micros + hourMicros ≤ now.micros → ∀ row ∈ hourRows world.table.rows hour,
    row.nodeId = some node.id → row.counters = 0

def eleven : World where
  database :=
    { office .active none with events := ⟨[query 690 "example.org" none], List.nodup_nil⟩ }
  table := ⟨[hourlyRow (minute 660) (none, some 1) [query 690 "example.org" none]], List.nodup_singleton _⟩
  cache := []

theorem eleven_agrees : Agrees eleven (minute 750) := by
  intro hour isHour _
  have same : (hour.micros : Int) ≤ (minute 690).micros ∧ ((minute 690).micros : Int) < hour.micros + hourMicros ↔
      hour ≤ minute 660 ∧ (minute 660).micros < hour.micros + hourMicros := by
    simp only [IsHour, DateTime.le_iff, minute, hourMicros_eq, dayMicros_eq, minuteMicros, secondMicros]
      at isHour ⊢
    omega
  by_cases inside : hour ≤ minute 660 ∧ (minute 660).micros < hour.micros + hourMicros
  · have row : hourRows eleven.table.rows hour = eleven.table.rows := by
      refine List.filter_eq_self.2 (List.forall_mem_singleton.2 ?_)
      simp only [Bool.and_eq_true, decide_eq_true_eq]
      exact ⟨⟨rfl, inside.1⟩, inside.2⟩
    have event : hourEvents eleven.events hour = eleven.events := by
      refine List.filter_eq_self.2 (List.forall_mem_singleton.2 ?_)
      simp only [Bool.and_eq_true, decide_eq_true_eq]
      exact ⟨same.2 inside, rfl⟩
    rw [counted, row, event]
    rfl
  · have row : hourRows eleven.table.rows hour = [] := by
      refine List.filter_eq_nil_iff.2 (List.forall_mem_singleton.2 ?_)
      simp only [Bool.and_eq_true, decide_eq_true_eq]
      exact fun shown => inside ⟨shown.1.2, shown.2⟩
    have event : hourEvents eleven.events hour = [] := by
      refine List.filter_eq_nil_iff.2 (List.forall_mem_singleton.2 ?_)
      simp only [Bool.and_eq_true, decide_eq_true_eq]
      exact fun shown => inside (same.1 shown.1)
    rw [counted, row, event]
    rfl

end PowerBlockade.Rollups.NodeDeletion
