import PowerBlockade.Delivery.Fleet

/-!
# From the answers to the dashboard

What the dashboard counts, once the nodes have delivered and the job has rolled up, is what the nodes
answered.
-/

namespace PowerBlockade.Delivery.Fleet
open Lib Primary Processor Rollups

variable {ι : Type} [DecidableEq ι] {modelValidate : ModelValidate} {site : Site ι}

def rows (world : World ι) : List DNSQueryEvent := world.primary.events.rows

variable (site) in
theorem rows_grow (accepts : AcceptsTyped modelValidate) (world : World ι) (label : Label ι) :
    rows world <+: rows (step modelValidate site world label) := by
  cases label with
  | frames i seen failsAfter => exact primary_step accepts (world.view i) _
  | link i link => exact primary_step accepts (world.view i) _
  | elsewhere timed => exact step_events _ timed
  | rollupJob now => exact List.prefix_rfl

theorem table_step (accepts : AcceptsTyped modelValidate) {world : World ι}
    (sound : Rollups.Sound (rows world) world.table) (label : Label ι) :
    Rollups.Sound (rows (step modelValidate site world label)) (step modelValidate site world label).table := by
  cases label with
  | rollupJob now => exact sound_rollupJob sound now
  | frames i seen failsAfter => exact sound.mono (rows_grow site accepts world (.frames i seen failsAfter))
  | link i link => exact sound.mono (rows_grow site accepts world (.link i link))
  | elsewhere timed => exact sound.mono (rows_grow site accepts world (.elsewhere timed))

def KeepsHour (modelValidate : ModelValidate) (site : Site ι) (hour : DateTime) (world : World ι) (label : Label ι) :
    Prop :=
  hourEvents (rows (step modelValidate site world label)) hour = hourEvents (rows world) hour

theorem fresh_hour_step {world : World ι} {hour : DateTime} {label : Label ι}
    (sound : Rollups.Sound (rows world) world.table) (was : Rollups.Fresh (rows world) world.table hour)
    (kept : KeepsHour modelValidate site hour world label) :
    Rollups.Fresh (rows (step modelValidate site world label)) (step modelValidate site world label).table hour := by
  rw [Rollups.Fresh, kept]
  cases label with
  | rollupJob now => exact was.rollupJob sound now
  | frames | link | elsewhere => exact was

/-- A job completed in the hour after, and from then on no event of the hour was stored. -/
def RolledUp (modelValidate : ModelValidate) (site : Site ι) (world : World ι) (run : List (Label ι))
    (hour : DateTime) : Prop :=
  ∃ before now after, run = before ++ .rollupJob now :: after ∧
    now.startOfHour.add (-hourMicros) = some hour ∧
    let reached := before.foldl (step modelValidate site) world
    (runRollupJob (rows reached) reached.table now).isSome = true ∧
      Along (step modelValidate site) (KeepsHour modelValidate site hour)
        (step modelValidate site reached (.rollupJob now)) after

variable (site) in
theorem table_run (accepts : AcceptsTyped modelValidate) {world : World ι} (fresh : Fresh world)
    (run : List (Label ι)) :
    Rollups.Sound (rows (run.foldl (step modelValidate site) world)) (run.foldl (step modelValidate site) world).table := by
  refine foldl_preserves (P := fun world : World ι => Rollups.Sound (rows world) world.table) run ?_
    fun _ label sound => table_step accepts sound label
  rw [fresh.table]
  exact sound_empty _

theorem fresh_hour_run (accepts : AcceptsTyped modelValidate) {world : World ι} (fresh : Fresh world)
    {run : List (Label ι)} {hour : DateTime} (rolled : RolledUp modelValidate site world run hour) :
    Rollups.Fresh (rows (run.foldl (step modelValidate site) world)) (run.foldl (step modelValidate site) world).table
      hour := by
  obtain ⟨before, now, after, rfl, previous, completed, kept⟩ := rolled
  rw [List.foldl_append, List.foldl_cons]
  have sound := table_run site accepts fresh before
  have invariant := foldl_invariant
    (P := fun world : World ι => Rollups.Sound (rows world) world.table ∧ Rollups.Fresh (rows world) world.table hour)
    ⟨sound_rollupJob sound now, fresh_rollupJob sound now previous completed⟩ kept
    fun _ label holds keeps => ⟨table_step accepts holds.1 label, fresh_hour_step holds.1 holds.2 keeps⟩
  exact invariant.2

def branch : Node := { secondary .active none with id := 2, name := "branch", apiKey := "branch-key" }

theorem bothNodes_wellFormed : NodesWellFormed [secondary .active none, branch] where
  ids := by decide
  keys := by decide
  names := by decide
  storable := by decide

def bothNodes : Site Bool where
  apiKey i := some (if i then "edge-key" else "branch-key")
  env i := { resolver with nodeName := if i then "edge" else "branch" }

def beforeNoon : World Bool where
  sides _ := ⟨Buffer.open .empty 0, none, []⟩
  primary := { office .active none with nodes := ⟨_, bothNodes_wellFormed⟩ }
  table := KeyedTable.empty

theorem beforeNoon_fresh : Fresh beforeNoon := ⟨fun _ => ⟨0, rfl⟩, rfl, rfl⟩

/-- So many minutes after eleven o'clock, an hour before the answers. -/
def eleven (minutes : Fin 600) : DateTime := ⟨(62135596800 + 1714561200 + 60 * minutes) * 10 ^ 6, by
  simp only [maxMicros, dayMicros, hourMicros, minuteMicros, secondMicros]
  omega⟩

/-- Each node logs an answer. The first batch of one is stored, but its answer is lost. -/
def delivering : List (Label Bool) :=
  [.frames true [(0, frame 7000000)] none, .frames false [(0, frame 7000000)] none,
    .link true .forward, .link true (.serve 0 (eleven 61)), .link true .giveUp, .link true .restart,
    .link false .forward, .link false (.serve 0 (eleven 62)), .link false (.acknowledge false),
    .link true .forward, .link true (.serve 1 (eleven 63)), .link true (.acknowledge false)]

def noon : List (Label Bool) := delivering ++ [.rollupJob (eleven 125)]

def afterJob : World Bool := noon.foldl (step IngestEvent.ofTyped bothNodes) beforeNoon

theorem noon_rolledUp (hour : DateTime) (complete : CompleteHour (eleven 30) (eleven 150) hour) :
    RolledUp IngestEvent.ofTyped bothNodes beforeNoon noon hour := by
  have same : hour = eleven 60 := by
    obtain ⟨isHour, first, last⟩ := complete
    have low : (eleven 30).micros ≤ hour.micros := first
    have noonMicros : (eleven 60).micros = 63850161600000000 := by decide
    have lowMicros : (eleven 30).micros = 63850159800000000 := by decide
    have highMicros : (eleven 150).micros = 63850167000000000 := by decide
    rw [IsHour, hourMicros_eq] at isHour
    rw [highMicros, hourMicros_eq] at last
    refine DateTime.ext ?_
    omega
  subst same
  exact ⟨delivering, eleven 125, [], rfl, by decide, by decide +kernel, trivial⟩

theorem noon_drained : Drained afterJob := by
  have empty : ∀ i, (afterJob.sides i).buffer.bucket.entries.isEmpty = true := by decide +kernel
  intro i entry member
  rw [OrderedMap.mem_def, List.isEmpty_iff.1 (empty i)] at member
  exact List.not_mem_nil member

end PowerBlockade.Delivery.Fleet
