import PowerBlockade.Blocking.World

/-!
# The operator's override

Which runs keep blocking switched off for as long as the operator asked for it.
-/

namespace PowerBlockade.Blocking
open Lib

variable {zoneInfo : ZoneInfo}

def OverrideHolds (world : World) : Prop :=
  ∀ now, world.clock ≤ now → isBlockingActive world.db now = false → world.publishedBlocks = ∅

/-- A step taken while blocking is off publishes no zone, or one whose denied names are all
allowed. -/
def HonoursOverride (zoneInfo : ZoneInfo) (world : World) (timed : Timed) : Prop :=
  isBlockingActive world.db timed.time = true ∨
    ∀ sources ∈ publishes zoneInfo timed.time world.db timed.op,
      ∀ domain, Source.Denies sources domain → Source.Allows sources domain

/-! ## When blocking is active -/

theorem isBlockingActive_mono {db : Database} {before now : DateTime} (later : before ≤ now)
    (active : isBlockingActive db before = true) : isBlockingActive db now = true := by
  unfold isBlockingActive at active ⊢
  dsimp only at active ⊢
  split
  · rfl
  · rename_i notEnabled
    rw [if_neg notEnabled] at active
    split
    · rename_i disabled
      simp [disabled] at active
    · rename_i notDisabled
      rw [if_neg notDisabled] at active
      cases parsed : PyDateTime.fromisoformat db.settings.getBlockingState with
      | none => rfl
      | some pauseUntil =>
          simp only [parsed, decide_eq_true_eq] at active ⊢
          have order := DateTime.le_iff.1 later
          omega

theorem isBlockingActive_congr {db db' : Database} (same : db'.settings = db.settings)
    (now : DateTime) : isBlockingActive db' now = isBlockingActive db now := by
  simp [isBlockingActive, same]

theorem isBlockingActive_enabled (db : Database) (now : DateTime) :
    isBlockingActive (setBlockingState db "enabled") now = true := by
  simp [isBlockingActive, setBlockingState, Settings.getBlockingState_setBlockingState]

/-! ## One step -/

variable (zoneInfo) in
theorem step_publishedBlocks (world : World) {timed : Timed} (other : timed.op.overrides = false) :
    (step zoneInfo world timed).publishedBlocks =
      ((publishes zoneInfo timed.time world.db timed.op).map Source.effective).getD
        world.publishedBlocks := by
  have blocks := outcome_blocks zoneInfo timed.time world.db timed.op other
  rw [← blocks]
  cases written : (outcome zoneInfo timed.time world.db timed.op).combined <;>
    simp [World.publishedBlocks, step, written]

variable (zoneInfo) in
theorem overrides_publishedBlocks (world : World) {timed : Timed} (override : timed.op.overrides = true) :
    (step zoneInfo world timed).publishedBlocks = ∅ ∨
      (step zoneInfo world timed).db = world.db ∧
        (step zoneInfo world timed).publishedBlocks = world.publishedBlocks ∨
      ∀ now, isBlockingActive (step zoneInfo world timed).db now = true := by
  obtain ⟨time, op⟩ := timed
  cases op with
  | disable => exact Or.inl rfl
  | enable => exact Or.inr (Or.inr fun now => isBlockingActive_enabled world.db now)
  | pause minutes =>
      simp only [step, outcome, blockingPause]
      split
      · exact Or.inr (Or.inl ⟨rfl, rfl⟩)
      · split
        · exact Or.inl rfl
        · exact Or.inr (Or.inl ⟨rfl, rfl⟩)
  | updateBlocklists | scheduleCheck | apply | edit => contradiction

theorem publishes_overrides {now : DateTime} {db : Database} {op : Op}
    (override : op.overrides = true) : publishes zoneInfo now db op = none := by
  cases op <;> first | rfl | contradiction

theorem overrideHolds_step {world : World} {timed : Timed} (holds : OverrideHolds world)
    (timely : Timely world timed) :
    OverrideHolds (step zoneInfo world timed) ↔ HonoursOverride zoneInfo world timed := by
  have later : ∀ now, (step zoneInfo world timed).clock ≤ now → world.clock ≤ now :=
    fun now after => le_trans timely after
  cases override : timed.op.overrides with
  | true =>
      apply iff_of_true
      · intro now after off
        rcases overrides_publishedBlocks zoneInfo world override with
          cleared | ⟨sameDb, sameZone⟩ | active
        · exact cleared
        · rw [sameZone]
          exact holds now (later now after) (sameDb ▸ off)
        · simp [active now] at off
      · simp [HonoursOverride, publishes_overrides override]
  | false =>
      have settings : (step zoneInfo world timed).db.settings = world.db.settings :=
        outcome_settings zoneInfo timed.time world.db timed.op override
      have published := step_publishedBlocks zoneInfo world override
      constructor
      · intro kept
        cases active : isBlockingActive world.db timed.time with
        | true => exact Or.inl active
        | false =>
            have empty := kept timed.time le_rfl ((isBlockingActive_congr settings _).trans active)
            refine Or.inr fun sources written => Source.effective_eq_empty_iff.1 ?_
            rw [published, written] at empty
            exact empty
      · rintro (active | honours) now after off
        · have on := isBlockingActive_mono after ((isBlockingActive_congr settings _).trans active)
          simp [on] at off
        · have unpublished := holds now (later now after)
            ((isBlockingActive_congr settings now).symm.trans off)
          rw [published]
          cases written : publishes zoneInfo timed.time world.db timed.op with
          | none => exact unpublished
          | some sources => exact Source.effective_eq_empty_iff.2 (honours sources written)

theorem overrideHolds_start {world : World} {start : Timed}
    (override : start.op = .disable ∨ ∃ minutes, start.op = .pause minutes)
    (completed : (outcome zoneInfo start.time world.db start.op).completed = true) :
    OverrideHolds (step zoneInfo world start) := by
  intro now _ _
  obtain ⟨time, op⟩ := start
  rcases override with rfl | ⟨minutes, rfl⟩
  · rfl
  · simp only [outcome, blockingPause] at completed
    simp only [step, outcome, blockingPause]
    split
    · rename_i refused
      simp [refused, Outcome.refused] at completed
    · rename_i accepted
      rw [if_neg accepted] at completed
      split
      · rfl
      · rename_i overflow
        simp [overflow, Outcome.refused] at completed

/-! ## Runs -/

/-- After a completed disable or pause, the override holds in every state of a run iff every step
of it honours it. -/
theorem overrideHolds_visited_iff {world : World} {start : Timed} {run : List Timed}
    (override : start.op = .disable ∨ ∃ minutes, start.op = .pause minutes)
    (completed : (outcome zoneInfo start.time world.db start.op).completed = true)
    (timely : Along (step zoneInfo) Timely (step zoneInfo world start) run) :
    (∀ u ∈ visited (step zoneInfo) (step zoneInfo world start) run, OverrideHolds u) ↔
      Along (step zoneInfo) (HonoursOverride zoneInfo) (step zoneInfo world start) run := by
  have initial := overrideHolds_start override completed
  rw [forall_visited_iff, and_iff_right initial]
  exact along_congr initial timely (fun _ _ _ next => next)
    fun _ _ holds inOrder => overrideHolds_step holds inOrder

/-! ## A run that loses the override -/

def noon : DateTime := ⟨738000 * dayMicros + 12 * hourMicros, by decide⟩

def adsList : Blocklist where
  name := "ads"
  url := "https://lists.example/ads.txt"
  format := "domains"
  listType := "block"
  enabled := true
  updateFrequencyHours := 24
  lastUpdated := none
  lastUpdateStatus := none
  lastError := none
  entryCount := 0
  scheduleEnabled := false
  scheduleStart := none
  scheduleEnd := none
  scheduleDays := none
  entries := ∅

def adsFetch : Fetch := fun _ _ => .ok {"ads.example"}

def adsWorld : World := ⟨noon, ⟨[], [adsList], []⟩, none, none⟩

theorem update_after_disable_blocks :
    (outcome (fun _ => none) noon adsWorld.db .disable).completed = true ∧
      Along (step fun _ => none) Timely (step (fun _ => none) adsWorld ⟨noon, .disable⟩)
        [⟨noon, .updateBlocklists adsFetch⟩] ∧
      ¬ ∀ u ∈ visited (step fun _ => none) (step (fun _ => none) adsWorld ⟨noon, .disable⟩)
        [⟨noon, .updateBlocklists adsFetch⟩], OverrideHolds u := by
  refine ⟨rfl, ⟨le_rfl, trivial⟩, fun holds => ?_⟩
  have final := holds _ (foldl_mem_visited _ _) noon le_rfl (by decide)
  simp only [List.foldl_cons, List.foldl_nil] at final
  rw [step_publishedBlocks _ _ rfl] at final
  have written : publishes (fun _ => none) noon (step (fun _ => none) adsWorld ⟨noon, .disable⟩).db
      (.updateBlocklists adsFetch) = some [⟨false, {"ads.example"}⟩] := rfl
  rw [written] at final
  revert final
  decide

theorem override_kept_by_schedule_check :
    OverrideHolds (step (fun _ => none) (step (fun _ => none) adsWorld ⟨noon, .disable⟩)
      ⟨noon, .scheduleCheck⟩) := by
  have timely : Along (step fun _ => none) Timely (step (fun _ => none) adsWorld ⟨noon, .disable⟩)
      [⟨noon, .scheduleCheck⟩] := ⟨le_rfl, trivial⟩
  refine (overrideHolds_visited_iff (Or.inl rfl) rfl timely).2 ⟨Or.inr ?_, trivial⟩ _
    (foldl_mem_visited _ _)
  intro sources written
  have none : publishes (fun _ => Option.none) noon
      (step (fun _ => Option.none) adsWorld ⟨noon, .disable⟩).db .scheduleCheck = Option.none := rfl
  rw [none] at written
  contradiction

end PowerBlockade.Blocking
