import PowerBlockade.Lib.Run
import PowerBlockade.Primary.NodeSync
import PowerBlockade.Rollups.Refinement

/-!
# Ingests, rollup jobs and the dashboard

The job rolls up the hour before it runs, once; an event of that hour that is stored later is in no
row, and neither is an hour whose job was missed.
-/

namespace PowerBlockade.Rollups
open Lib Primary

structure World where
  database : Database
  table : RollupTable
  cache : StatsCache

namespace World

def events (world : World) : List DNSQueryEvent := world.database.events.rows

def dashboard (world : World) (clock : Clock) (hours : Int) : Option (DashboardStats × StatsCache) :=
  getDashboardStats world.events world.table world.cache clock hours

end World

inductive Label
  | primary (timed : Timed)
  /-- A run of the rollup job; a missed or skipped one is no step. -/
  | rollupJob (now : DateTime)
  | stats (clock : Clock) (hours : Int)

/-- An exception of the job is logged. -/
def rollupJob (events : List DNSQueryEvent) (table : RollupTable) (now : DateTime) : RollupTable :=
  match runRollupJob events table now with
  | some (after, _) => after
  | none => table

variable (modelValidate : ModelValidate)

def step (world : World) : Label → World
  | .primary timed => { world with database := Primary.step modelValidate world.database timed }
  | .rollupJob now => { world with table := rollupJob world.events world.table now }
  | .stats clock hours => match world.dashboard clock hours with
      | some (_, cache) => { world with cache := cache }
      | none => world

def fresh (database : Database) : World := ⟨database, KeyedTable.empty, []⟩

variable {modelValidate}

/-! ## The job -/

theorem runRollupJob_eq_some {events : List DNSQueryEvent} {table after : RollupTable} {now : DateTime}
    {counts : Nat × Nat} (ran : runRollupJob events table now = some (after, counts)) :
    ∃ hour middle count, now.startOfHour.add (-hourMicros) = some hour ∧
      computeHourlyRollup events table hour = some (middle, count) ∧
      (after = middle ∨ ∃ day dayCount, computeDailyRollup middle day = some (after, dayCount)) := by
  simp only [runRollupJob, Option.bind_eq_bind, Option.bind_eq_some_iff] at ran
  obtain ⟨hour, previous, day, -, ⟨middle, count⟩, computed, rest⟩ := ran
  refine ⟨hour, middle, count, previous, computed, ?_⟩
  split at rest
  · obtain ⟨⟨daily, dayCount⟩, summed, same⟩ := Option.bind_eq_some_iff.1 rest
    cases same
    exact Or.inr ⟨day, dayCount, summed⟩
  · cases rest
    exact Or.inl rfl

theorem previousHour_isHour {now hour : DateTime} (previous : now.startOfHour.add (-hourMicros) = some hour) :
    IsHour hour := by
  have moved := DateTime.add_eq_some.1 previous
  have isHour := startOfHour_isHour now
  simp only [IsHour, hourMicros_eq] at moved isHour ⊢
  omega

section Job

variable {events : List DNSQueryEvent} {table : RollupTable} (sound : Sound events table) (now : DateTime)
include sound

theorem sound_rollupJob : Sound events (rollupJob events table now) := by
  unfold rollupJob
  split
  · rename_i after counts ran
    obtain ⟨hour, middle, count, previous, computed, same | ⟨day, dayCount, summed⟩⟩ :=
      runRollupJob_eq_some ran
    · exact same ▸ sound_computeHourlyRollup sound computed (previousHour_isHour previous)
    · exact sound_computeDailyRollup summed
        (sound_computeHourlyRollup sound computed (previousHour_isHour previous))
  · exact sound

theorem Fresh.rollupJob {hour : DateTime} (was : Fresh events table hour) :
    Fresh events (rollupJob events table now) hour := by
  unfold Rollups.rollupJob
  split
  · rename_i after counts ran
    obtain ⟨previous, middle, count, -, computed, same | ⟨day, dayCount, summed⟩⟩ :=
      runRollupJob_eq_some ran
    · exact same ▸ was.computeHourlyRollup sound computed
    · exact (bucketRows_computeDailyRollup summed hour).trans (was.computeHourlyRollup sound computed)
  · exact was

theorem fresh_rollupJob {hour : DateTime} (previous : now.startOfHour.add (-hourMicros) = some hour)
    (completed : (runRollupJob events table now).isSome = true) :
    Fresh events (rollupJob events table now) hour := by
  unfold rollupJob
  split
  · rename_i after counts ran
    obtain ⟨same, middle, count, found, computed, rest⟩ := runRollupJob_eq_some ran
    obtain rfl : same = hour := Option.some.inj (found.symm.trans previous)
    rcases rest with rfl | ⟨day, dayCount, summed⟩
    · exact fresh_computeHourlyRollup sound computed
    · exact (bucketRows_computeDailyRollup summed same).trans (fresh_computeHourlyRollup sound computed)
  · rename_i failed
    rw [failed] at completed
    contradiction

end Job

/-! ## Runs -/

theorem sound_step {world : World} (sound : Sound world.events world.table) (label : Label) :
    Sound (step modelValidate world label).events (step modelValidate world label).table := by
  cases label with
  | primary timed => exact sound.mono (step_events world.database timed)
  | rollupJob now => exact sound_rollupJob sound now
  | stats clock hours =>
      simp only [step]
      split <;> exact sound

variable (modelValidate) in
theorem sound_run (database : Database) (run : List Label) :
    Sound (run.foldl (step modelValidate) (fresh database)).events
      (run.foldl (step modelValidate) (fresh database)).table :=
  foldl_preserves (P := fun world : World => Sound world.events world.table) run (sound_empty _)
    fun _ label sound => sound_step sound label

def KeepsHour (modelValidate : ModelValidate) (hour : DateTime) (world : World) (label : Label) : Prop :=
  hourEvents (step modelValidate world label).events hour = hourEvents world.events hour

theorem fresh_step {world : World} {hour : DateTime} {label : Label}
    (sound : Sound world.events world.table) (was : Fresh world.events world.table hour)
    (kept : KeepsHour modelValidate hour world label) :
    Fresh (step modelValidate world label).events (step modelValidate world label).table hour := by
  rw [Fresh, kept]
  cases label with
  | primary timed => exact was
  | rollupJob now => exact was.rollupJob sound now
  | stats clock hours =>
      simp only [step]
      split <;> exact was

/-- A job completed in the hour after, and from then on no event of the hour was stored. -/
def RolledUp (modelValidate : ModelValidate) (world : World) (run : List Label) (hour : DateTime) : Prop :=
  ∃ before now after, run = before ++ .rollupJob now :: after ∧
    now.startOfHour.add (-hourMicros) = some hour ∧
    let reached := before.foldl (step modelValidate) world
    (runRollupJob reached.events reached.table now).isSome = true ∧
      Along (step modelValidate) (KeepsHour modelValidate hour) (step modelValidate reached (.rollupJob now))
        after

theorem fresh_run {database : Database} {run : List Label} {hour : DateTime}
    (rolled : RolledUp modelValidate (fresh database) run hour) :
    Fresh (run.foldl (step modelValidate) (fresh database)).events
      (run.foldl (step modelValidate) (fresh database)).table hour := by
  obtain ⟨before, now, after, rfl, previous, completed, kept⟩ := rolled
  rw [List.foldl_append, List.foldl_cons]
  have sound := sound_run modelValidate database before
  have invariant := foldl_invariant
    (P := fun world : World => Sound world.events world.table ∧ Fresh world.events world.table hour)
    ⟨sound_rollupJob sound now, fresh_rollupJob sound now previous completed⟩ kept
    fun _ label holds keeps => ⟨sound_step holds.1 label, fresh_step holds.1 holds.2 keeps⟩
  exact invariant.2

/-! ## The cache -/

def requestKey (clock : Clock) (hours : Int) : Option String :=
  (windowStart clock.now hours).map fun start => cacheKey hours start.startOfHour clock.now.startOfHour

def Answered (modelValidate : ModelValidate) (world : World) (run : List Label) (key : String)
    (ended : Int) (result : DashboardStats) : Prop :=
  ∃ before clock hours after, run = before ++ .stats clock hours :: after ∧
    requestKey clock hours = some key ∧ clock.after = ended ∧
    ((before.foldl (step modelValidate) world).dashboard clock hours).map Prod.fst = some result

theorem Answered.append {world : World} {run : List Label} {key : String} {ended : Int}
    {result : DashboardStats} (answered : Answered modelValidate world run key ended result)
    (later : List Label) : Answered modelValidate world (run ++ later) key ended result := by
  obtain ⟨before, clock, hours, after, rfl, rest⟩ := answered
  exact ⟨before, clock, hours, after ++ later, by simp, rest⟩

theorem mem_dashboard_cache {world : World} {clock : Clock} {hours : Int} {result : DashboardStats}
    {cache : StatsCache} (returned : world.dashboard clock hours = some (result, cache))
    {entry : String × Int × DashboardStats} (member : entry ∈ cache) :
    entry ∈ world.cache ∨ requestKey clock hours = some entry.1 ∧ entry.2 = (clock.after, result) := by
  simp only [World.dashboard, getDashboardStats, Option.bind_eq_bind, Option.bind_eq_some_iff] at returned
  obtain ⟨start, window, returned⟩ := returned
  split at returned
  · cases returned
    exact Or.inl member
  · obtain ⟨full, -, returned⟩ := Option.bind_eq_some_iff.1 returned
    split at returned
    · cases returned
      exact Or.inl member
    · cases returned
      rcases List.mem_cons.1 member with rfl | old
      · exact Or.inr ⟨by simp [requestKey, window], rfl⟩
      · exact Or.inl (List.mem_filter.1 old).1

theorem cache_answered (database : Database) (run : List Label) :
    ∀ entry ∈ (run.foldl (step modelValidate) (fresh database)).cache,
      Answered modelValidate (fresh database) run entry.1 entry.2.1 entry.2.2 := by
  induction run using List.reverseRecOn with
  | nil => exact fun _ member => absurd member List.not_mem_nil
  | append_singleton run label ih =>
      intro entry member
      rw [List.foldl_append, List.foldl_cons, List.foldl_nil] at member
      cases label with
      | primary timed => exact (ih entry member).append _
      | rollupJob now => exact (ih entry member).append _
      | stats clock hours =>
          simp only [step] at member
          split at member
          · rename_i result cache returned
            rcases mem_dashboard_cache returned member with old | ⟨key, same⟩
            · exact (ih entry old).append _
            · refine ⟨run, clock, hours, [], rfl, key, ?_, ?_⟩
              · rw [same]
              · rw [returned, same]
                rfl
          · exact (ih entry member).append _

theorem fetch_eq_some {cache : StatsCache} {key : String} {monotonic : Int} {stats : DashboardStats}
    (hit : cache.fetch key monotonic = some stats) :
    ∃ stored, (key, stored, stats) ∈ cache ∧ monotonic - stored < statsCacheTtl := by
  unfold StatsCache.fetch at hit
  split at hit
  · rename_i stored cached found
    split at hit
    · rename_i young
      obtain rfl := Option.some.inj hit
      obtain ⟨before, after, split, -⟩ := List.lookup_eq_some_iff.1 found
      exact ⟨stored, split ▸ List.mem_append_right _ List.mem_cons_self, young⟩
    · contradiction
  · contradiction

/-- The result of an earlier call for the same hours, less than a minute old. -/
def Remembered (modelValidate : ModelValidate) (world : World) (run : List Label) (clock : Clock)
    (hours : Int) (result : DashboardStats) : Prop :=
  ∃ key ended, requestKey clock hours = some key ∧ clock.before - ended < statsCacheTtl ∧
    Answered modelValidate world run key ended result

/-- In every run from an empty rollup table, a window each of whose complete hours has no events or was
rolled up after its last one has exact hourly rows, and the dashboard reports the total of its events
or what it reported less than a minute before. -/
theorem dashboard_reports_stored_events (modelValidate : ModelValidate) (database : Database)
    (run : List Label) (clock : Clock) {hours : Int} {start : DateTime} (long : 1 < hours)
    (window : windowStart clock.now hours = some start) :
    let world := run.foldl (step modelValidate) (fresh database)
    (∀ hour, CompleteHour start clock.now hour →
      hourEvents world.events hour = [] ∨ RolledUp modelValidate (fresh database) run hour) →
    (∀ hour, CompleteHour start clock.now hour →
      ((bucketRows world.table.rows .hourly hour).map (·.counters)).sum =
        aggregate (hourEvents world.events hour)) ∧
    ∃ result cache, world.dashboard clock hours = some (result, cache) ∧
      (result.counters.totalQueries =
          (external world.events start.micros clock.now.micros).length ∨
        Remembered modelValidate (fresh database) run clock hours result) := by
  intro world rolled
  have sound : Sound world.events world.table := sound_run modelValidate database run
  have exact : ∀ hour, CompleteHour start clock.now hour → Fresh world.events world.table hour := by
    intro hour complete
    rcases rolled hour complete with none | job
    · exact fresh_of_no_events sound none
    · exact fresh_run job
  refine ⟨fun hour complete => ?_, ?_⟩
  · rw [((exact hour complete).map _).sum_eq, sum_counters_hourlyRows]
  · cases fetched : world.cache.fetch (cacheKey hours start.startOfHour clock.now.startOfHour)
      clock.before with
    | some result =>
        obtain ⟨stored, cached, young⟩ := fetch_eq_some fetched
        obtain ⟨full, found, -⟩ := window_fullStart long window
        refine ⟨result, world.cache, ?_, Or.inr ⟨_, stored, ?_, young, cache_answered database run _ cached⟩⟩
        · simp [World.dashboard, getDashboardStats, window, found, fetched, not_le.2 long]
        · simp [requestKey, window]
    | none =>
        have counted := getDashboardStats_counters long window fetched sound exact
        obtain ⟨⟨result, cache⟩, returned, same⟩ := Option.map_eq_some_iff.1 counted
        exact ⟨result, cache, returned, Or.inl (congrArg Counters.totalQueries same)⟩

/-! ## A quarter of an hour -/

def posted : Json.Members :=
  [("client_ip", .string "192.0.2.7"), ("qname", .string "example.org"), ("qtype", .integer 1),
    ("rcode", .integer 0)]

def ingestAt (asked : Fin 10080) : Label :=
  .primary ⟨minute asked, .message (some "edge-key") (.ingest [posted])⟩

theorem hour_missing_before_its_job :
    let world := step IngestEvent.ofTyped (fresh (office .active none)) (ingestAt 690)
    (1 : Int) < 2 ∧ windowStart (minute 722) 2 = some (minute 602) ∧
      (external world.events (minute 602).micros (minute 722).micros).length = 1 ∧
      (world.dashboard ⟨minute 722, 0, 0⟩ 2).map (·.1.counters.totalQueries) = some 0 := by
  decide

theorem hour_counted_after_its_job :
    let run := [ingestAt 690, .rollupJob (minute 725)]
    let world := run.foldl (step IngestEvent.ofTyped) (fresh (office .active none))
    ∃ result cache, world.dashboard ⟨minute 750, 0, 0⟩ 2 = some (result, cache) ∧
      (result.counters.totalQueries =
          (external world.events (minute 630).micros (minute 750).micros).length ∨
        Remembered IngestEvent.ofTyped (fresh (office .active none)) run ⟨minute 750, 0, 0⟩ 2 result) := by
  intro run world
  refine (dashboard_reports_stored_events IngestEvent.ofTyped (office .active none) run
    ⟨minute 750, 0, 0⟩ (by decide) (by decide : windowStart (minute 750) 2 = some (minute 630)) ?_).2
  intro hour complete
  rw [completeHour_of_two_hours complete]
  exact Or.inr ⟨[ingestAt 690], minute 725, [], rfl, by decide, by decide, along_nil⟩

end PowerBlockade.Rollups
