import PowerBlockade.Blocking.Compilers
import PowerBlockade.Blocking.Windows

/-!
# Schedule checks that fail

The check commits the changed flags and then replaces the two files. What fails in between is not
made up for by a later check that finds nothing to change.
-/

namespace PowerBlockade.Blocking
open Lib

/-- Where an execution fails, if it gets there. -/
inductive CheckFailure
  | query
  | commit
  /-- After the commit, before the first file is replaced. -/
  | combined
  | whitelist
deriving DecidableEq

variable (zoneInfo : ZoneInfo) (now : DateTime)

def checkedDatabase (db : Database) : Database :=
  { db with blocklists := db.blocklists.map fun bl =>
      { bl with enabled := scheduledState bl (localNow zoneInfo db.settings now) } }

def checkChanges (db : Database) : Bool :=
  db.blocklists.any fun bl => scheduledState bl (localNow zoneInfo db.settings now) != bl.enabled

def runScheduleCheckFailing (failure : Option CheckFailure) (db : Database) : Outcome :=
  match failure with
  | some .query => .refused db
  | _ =>
      if checkChanges zoneInfo now db then
        let checked := checkedDatabase zoneInfo now db
        let zones := regenerateRpz checked now
        match failure with
        | some .commit => .refused db
        | some .combined => ⟨checked, none, none, false⟩
        | some .whitelist => ⟨checked, some zones.1, none, false⟩
        | _ => ⟨checked, some zones.1, some zones.2, true⟩
      else ⟨db, none, none, true⟩

theorem runScheduleCheckFailing_none (db : Database) :
    runScheduleCheckFailing zoneInfo now none db = runScheduleCheck zoneInfo now db :=
  rfl

/-! ## Runs of checks -/

namespace Checks

structure Execution where
  now : DateTime
  failure : Option CheckFailure

/-- The committed rows, the published files and whether the last execution ended without error.
`missed` says that a change was committed whose files were not both replaced since. -/
structure World where
  db : Database
  zones : Zone × Zone
  completed : Bool
  missed : Bool

def start (db : Database) (zones : Zone × Zone) : World := ⟨db, zones, true, false⟩

def step (world : World) (execution : Execution) : World :=
  let result := runScheduleCheckFailing zoneInfo execution.now execution.failure world.db
  { db := result.db
    zones := (result.combined.getD world.zones.1, result.whitelist.getD world.zones.2)
    completed := result.completed
    missed := match execution.failure with
      | some .query | some .commit => world.missed
      | some .combined | some .whitelist =>
          world.missed || checkChanges zoneInfo execution.now world.db
      | none => world.missed && !checkChanges zoneInfo execution.now world.db }

def World.InSync (world : World) : Prop :=
  ∀ later, sameRecords world.zones (regenerateRpz world.db later)

/-- An execution that gets past its queries finds something to change, or no file misses a change. -/
def MissesNothing (world : World) (execution : Execution) : Prop :=
  execution.failure ≠ some .query → checkChanges zoneInfo execution.now world.db = false →
    world.missed = false

/-- What carries the induction: only a missed change takes the files out of step. -/
structure Repaired (world : World) : Prop where
  unlessMissed : world.missed = false → world.InSync
  whenCompleted : world.completed = true → world.InSync

variable {zoneInfo} {world : World} {execution : Execution}

theorem completed_step_query (queried : execution.failure = some .query) :
    (step zoneInfo world execution).completed = false := by
  simp [step, runScheduleCheckFailing, queried, Outcome.refused]

theorem step_unchanged (same : checkChanges zoneInfo execution.now world.db = false) :
    (step zoneInfo world execution).db = world.db ∧
      (step zoneInfo world execution).zones = world.zones ∧
      (step zoneInfo world execution).missed = world.missed := by
  obtain ⟨now, failure⟩ := execution
  cases failure with
  | none => simp_all [step, runScheduleCheckFailing]
  | some failure => cases failure <;> simp_all [step, runScheduleCheckFailing, Outcome.refused]

/-- The step undoes itself, leaves a change missed, or replaces both files. -/
theorem step_changed (changes : checkChanges zoneInfo execution.now world.db = true) :
    ((step zoneInfo world execution).db = world.db ∧
        (step zoneInfo world execution).zones = world.zones ∧
        (step zoneInfo world execution).missed = world.missed ∧
        (step zoneInfo world execution).completed = false) ∨
      ((step zoneInfo world execution).missed = true ∧
        (step zoneInfo world execution).completed = false) ∨
      (step zoneInfo world execution).zones =
        regenerateRpz (step zoneInfo world execution).db execution.now := by
  obtain ⟨now, failure⟩ := execution
  cases failure with
  | none => exact Or.inr (Or.inr (by simp_all [step, runScheduleCheckFailing]))
  | some failure =>
      cases failure with
      | query | commit =>
          exact Or.inl (by simp_all [step, runScheduleCheckFailing, Outcome.refused])
      | combined | whitelist => exact Or.inr (Or.inl (by simp_all [step, runScheduleCheckFailing]))

theorem World.InSync.of_same {after : World} (inSync : world.InSync) (db : after.db = world.db)
    (zones : after.zones = world.zones) : after.InSync := by
  unfold World.InSync
  rw [db, zones]
  exact inSync

theorem inSync_regenerated (zones : world.zones = regenerateRpz world.db now) : world.InSync := by
  intro later
  rw [zones]
  exact (sameRecords_compileZones _ _ now later).2 ⟨rfl, rfl⟩

theorem repaired_step (repaired : Repaired world) (misses : MissesNothing zoneInfo world execution) :
    Repaired (step zoneInfo world execution) := by
  cases changes : checkChanges zoneInfo execution.now world.db with
  | false =>
      obtain ⟨db, zones, missed⟩ := step_unchanged changes
      constructor
      · intro unmissed
        exact (repaired.unlessMissed (missed ▸ unmissed)).of_same db zones
      · intro completed
        have reached : execution.failure ≠ some .query := by
          intro queried
          rw [completed_step_query queried] at completed
          exact nomatch completed
        exact (repaired.unlessMissed (misses reached changes)).of_same db zones
  | true =>
      cases step_changed changes with
      | inl undone =>
          obtain ⟨db, zones, missed, completed⟩ := undone
          constructor
          · intro unmissed
            exact (repaired.unlessMissed (missed ▸ unmissed)).of_same db zones
          · intro ended
            exact nomatch completed.symm.trans ended
      | inr rest =>
          cases rest with
          | inl missed =>
              constructor
              · intro unmissed
                exact nomatch missed.1.symm.trans unmissed
              · intro ended
                exact nomatch missed.2.symm.trans ended
          | inr replaced =>
              have inSync := inSync_regenerated _ replaced
              exact ⟨fun _ => inSync, fun _ => inSync⟩

/-- After every execution that ended without error the files are those of the committed rows, as
long as no execution passes over a change that an earlier one has missed. -/
theorem completed_inSync (zoneInfo : ZoneInfo) (db : Database) (zones : Zone × Zone)
    (published : ∀ later, sameRecords zones (regenerateRpz db later)) (run : List Execution)
    (along : Along (step zoneInfo) (MissesNothing zoneInfo) (start db zones) run) :
    ∀ world ∈ visited (step zoneInfo) (start db zones) run,
      world.completed = true → world.InSync := by
  have initial : Repaired (start db zones) := ⟨fun _ => published, fun _ => published⟩
  intro world member
  exact (visited_invariant initial along (fun _ _ => repaired_step) world member).whenCompleted

/-! ## A failed write -/

def midnight : Clock := ⟨0, 0, Nat.succ_pos 23, Nat.succ_pos 59⟩

def closingList : Blocklist := storedList.scheduled midnight midnight []

def noZones : ZoneInfo := fun _ => none

theorem isBlocklistActive_closed (bl : Blocklist) (clock : Clock) (now : LocalTime) :
    isBlocklistActive (bl.scheduled clock clock []) now = false := by
  simp [isBlocklistActive, Blocklist.scheduled, parseTime_text, isTimeInRange, Python.lower]

theorem scheduledState_closingList (now : LocalTime) (enabled : Bool) :
    scheduledState { closingList with enabled := enabled } now = false := by
  have closed := isBlocklistActive_closed { storedList with enabled := enabled } midnight now
  simpa [scheduledState, closingList, Blocklist.scheduled] using closed

def stored (enabled : Bool) : Database := ⟨[], [{ closingList with enabled := enabled }], []⟩

def published : World := start (stored true) (regenerateRpz (stored true) noon)

theorem checkChanges_stored (now : DateTime) (enabled : Bool) :
    checkChanges noZones now (stored enabled) = enabled := by
  simp [checkChanges, stored, scheduledState_closingList]

theorem checkedDatabase_stored (now : DateTime) (enabled : Bool) :
    checkedDatabase noZones now (stored enabled) = stored false := by
  simp [checkedDatabase, stored, scheduledState_closingList]

theorem missed_after_failed_write :
    ([⟨noon, some .combined⟩, ⟨noon, none⟩].foldl (step noZones) published).completed = true ∧
      ¬ ([⟨noon, some .combined⟩, ⟨noon, none⟩].foldl (step noZones) published).InSync := by
  have failed : step noZones published ⟨noon, some .combined⟩ =
      ⟨stored false, regenerateRpz (stored true) noon, false, true⟩ := by
    simp [step, published, start, runScheduleCheckFailing, checkChanges_stored, checkedDatabase_stored]
  have passed : step noZones ⟨stored false, regenerateRpz (stored true) noon, false, true⟩ ⟨noon, none⟩ =
      ⟨stored false, regenerateRpz (stored true) noon, true, true⟩ := by
    simp [step, runScheduleCheckFailing, checkChanges_stored]
  rw [List.foldl_cons, List.foldl_cons, failed, passed]
  refine ⟨rfl, fun inSync => ?_⟩
  have same := (sameRecords_compileZones _ _ noon noon).1 (inSync noon)
  revert same
  decide

theorem completed_inSync_after_failed_commit :
    ([⟨noon, some .commit⟩, ⟨noon, none⟩].foldl (step noZones) published).completed = true ∧
      ([⟨noon, some .commit⟩, ⟨noon, none⟩].foldl (step noZones) published).InSync := by
  have undone : step noZones published ⟨noon, some .commit⟩ =
      ⟨stored true, regenerateRpz (stored true) noon, false, false⟩ := by
    simp [step, published, start, runScheduleCheckFailing, checkChanges_stored, Outcome.refused]
  have ended : ([⟨noon, some .commit⟩, ⟨noon, none⟩].foldl (step noZones) published).completed = true := by
    rw [List.foldl_cons, List.foldl_cons, undone]
    simp [step, runScheduleCheckFailing, checkChanges_stored]
  refine ⟨ended, ?_⟩
  apply completed_inSync noZones (stored true) (regenerateRpz (stored true) noon)
    (fun later => (sameRecords_compileZones _ _ noon later).2 ⟨rfl, rfl⟩)
    [⟨noon, some .commit⟩, ⟨noon, none⟩]
  · refine ⟨fun _ _ => rfl, ?_, trivial⟩
    intro _ same
    exact congrArg World.missed undone
  · exact foldl_mem_visited _ _
  · exact ended

end Checks
end PowerBlockade.Blocking
