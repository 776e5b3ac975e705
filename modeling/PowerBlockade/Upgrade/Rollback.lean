import PowerBlockade.Lib.Run
import PowerBlockade.Upgrade.Frames

/-!
# What a rollback returns to

A run mixes updates, rollbacks and backups with what the services and the operator do. `checkpoint`
is what was stored when the last completed update took its backup.
-/

namespace PowerBlockade.Upgrade
open Lib

variable {Database File Image : Type}

inductive Label (Database File Image : Type)
  | update (skipBackup : Bool) (run : UpdateRun Database Image)
  | rollback (fast : Bool) (run : RollbackRun Database Image)
  | backup (checks : Bool) (stamp : Stamp) (dumps : Bool) (configStamp : Stamp) (archives : Bool)
  /-- The services write, stop and start. -/
  | operate (left : Left Database Image)
  /-- The operator names or pulls other images. -/
  | repin (images : Image)
  | configure (config : List (String × File)) (template : Option String)
  /-- The admin-ui's backup page, or an operator, writes or deletes a file of the directory. -/
  | put (path : String) (content : Option File)

section Run
variable [DecidableEq Image] (stack : Stack Database File Image) (project : String)

def step (world : World Database File Image) : Label Database File Image → World Database File Image
  | .update skipBackup run => stateAfter ((cmdUpdate stack project skipBackup run).run world)
  | .rollback fast run => stateAfter ((cmdRollback stack fast run).run world)
  | .backup checks stamp dumps configStamp archives =>
      stateAfter ((cmdBackup stack project checks stamp dumps configStamp archives).run world)
  | .operate left =>
      { world with database := left.database, adminUi := left.adminUi, services := left.services }
  | .repin images => { world with images }
  | .configure config template => { world with config, template }
  | .put path content => world.putBackup path content

def exec (world : World Database File Image) (labels : List (Label Database File Image)) :
    World Database File Image := labels.foldl (step stack project) world

/-- The stamp of the database's backup that a step may write. -/
def Label.stamp : Label Database File Image → Option Stamp
  | .update _ run => some run.stamp
  | .backup _ stamp _ _ _ => some stamp
  | _ => none

def checkpointStep (world : World Database File Image) (held : Option Database) :
    Label Database File Image → Option Database
  | .update skipBackup run =>
      if returns ((update stack project skipBackup run).run world) then
        if skipBackup then none else some world.database
      else held
  | .put path none => if (world.state.map (·.lastDbBackup)) = some path then none else held
  | _ => held

/-- What was stored when the last completed update took its backup; `none` where it took none, or
its file is deleted. -/
def checkpoint : World Database File Image → Option Database → List (Label Database File Image) → Option Database
  | _, held, [] => held
  | world, held, label :: rest =>
      checkpoint (step stack project world label) (checkpointStep stack project world held label) rest

/-- Nobody else writes a file under the name of such a backup. -/
def Foreign : Label Database File Image → Prop
  | .put path (some _) => ∀ stamp, path ≠ dbBackupFile project stamp
  | _ => True

end Run
/-! ## Updates and rollbacks that complete -/

section Outcomes
variable {stack : Stack Database File Image} {project : String} {world world' : World Database File Image}

theorem backupDatabase_ok {stamp : Stamp} {dumps : Bool} {file : String}
    (done : (backupDatabase stack project stamp dumps).run world = .ok file world') :
    file = dbBackupFile project stamp ∧ world' = world.putBackup file (some (stack.pg_dump world.database)) := by
  cases dumps with
  | true =>
      cases done
      exact ⟨rfl, rfl⟩
  | false => cases done

theorem backupConfig_ok {stamp : Stamp} {archives : Bool} {file : String}
    (done : (backupConfig stack project stamp archives).run world = .ok file world') :
    file = "" ∨ file = configBackupFile project stamp := by
  unfold backupConfig at done
  obtain ⟨seenWorld, _, _, done⟩ := run_bind_eq_ok.mp done
  split at done
  · cases done
    exact .inl rfl
  · cases archives with
    | true =>
        cases done
        exact .inr rfl
    | false => cases done

/-- The backups of an update that goes on. -/
theorem takeBackups_ok {skipBackup : Bool} {run : UpdateRun Database Image} {files : String × String}
    (done : (takeBackups stack project skipBackup run).run world = .ok files world') :
    files.1 = (if skipBackup then "" else dbBackupFile project run.stamp) ∧
      (files.2 = "" ∨ files.2 = configBackupFile project run.configStamp) ∧
      (skipBackup = false → world'.backups files.1 = some (stack.pg_dump world.database)) := by
  unfold takeBackups at done
  cases skipBackup with
  | true =>
      cases done
      exact ⟨rfl, .inl rfl, nofun⟩
  | false =>
      obtain ⟨dbBackup, middle, dumped, done⟩ := run_bind_eq_ok.mp done
      obtain ⟨configBackup, after, archived, done⟩ := run_bind_eq_ok.mp done
      cases done
      obtain ⟨named, rfl⟩ := backupDatabase_ok dumped
      refine ⟨named, backupConfig_ok archived, fun _ => ?_⟩
      have other : dbBackup ≠ configBackupFile project run.configStamp := by
        rw [named]
        exact dbBackupFile_ne_configBackupFile _ _
      have kept := congrArg Prod.snd ((keeps_backupConfig other run.archives).of_ok archived)
      have written : (world.putBackup dbBackup (some (stack.pg_dump world.database))).backups dbBackup =
          some (stack.pg_dump world.database) := Function.update_self _ _ _
      exact kept.trans written

variable [DecidableEq Image]

omit [DecidableEq Image] in
theorem newVersion_unknown (world : World Database File Image) : newVersion stack world = "unknown" := by
  unfold newVersion
  cases world.adminUi <;> rfl

theorem update_ok {skipBackup : Bool} {run : UpdateRun Database Image} {file : String}
    (done : (update stack project skipBackup run).run world = .ok file world') :
    file = (if skipBackup then "" else dbBackupFile project run.stamp) ∧
      (∃ configBackup, world'.state = some ⟨"unknown", getCurrentVersion world, file, configBackup⟩ ∧
        (configBackup = "" ∨ configBackup = configBackupFile project run.configStamp)) ∧
      (skipBackup = false → world'.backups file = some (stack.pg_dump world.database)) := by
  unfold update at done
  rw [run_bind_eq_ok] at done
  obtain ⟨_, _, checks, done⟩ := done
  obtain ⟨-, rfl⟩ := run_orExit_eq_ok.mp checks
  rw [run_bind_eq_ok] at done
  obtain ⟨_, _, ⟨⟩, done⟩ := done
  rw [run_bind_eq_ok] at done
  obtain ⟨⟨dbBackup, configBackup⟩, backedUp, taken, done⟩ := done
  rw [run_bind_eq_ok] at done
  obtain ⟨_, installed, ran, done⟩ := done
  rw [run_bind_eq_ok] at done
  obtain ⟨_, _, ⟨⟩, done⟩ := done
  obtain ⟨named, configNamed, dumped⟩ := takeBackups_ok taken
  rw [newVersion_unknown] at done
  cases done
  refine ⟨named, ⟨configBackup, rfl, configNamed⟩, fun backup => ?_⟩
  have keeps : Keeps (seen file) (install stack run) := keeps_install run
  exact (congrArg Prod.snd (keeps.of_ok ran)).trans (dumped backup)

/-- An update that does not complete leaves the recorded state, and the backups that it did not write. -/
theorem keepsOnExit_update {skipBackup : Bool} {run : UpdateRun Database Image} {path : String}
    (otherDb : path ≠ dbBackupFile project run.stamp)
    (otherConfig : path ≠ configBackupFile project run.configStamp) :
    KeepsOnExit (seen path) (update stack project skipBackup run) := by
  refine KeepsOnExit.bind (keeps_orExit _) fun _ => KeepsOnExit.bind keeps_get fun world => ?_
  refine KeepsOnExit.bind (keeps_takeBackups otherDb otherConfig) fun files => ?_
  refine KeepsOnExit.bind (keeps_install run) fun _ => KeepsOnExit.bind keeps_get fun world => ?_
  intro before status after exits
  cases exits

theorem stateAfter_cmdUpdate (skipBackup : Bool) (run : UpdateRun Database Image) :
    stateAfter ((cmdUpdate stack project skipBackup run).run world) =
      stateAfter ((update stack project skipBackup run).run world) := by
  rw [cmdUpdate, EStateM.run_bind]
  cases (update stack project skipBackup run).run world with
  | ok file after =>
      have keeps : Keeps id (orExit (file ≠ "") : Script Database File Image Unit) := keeps_orExit _
      exact keeps after
  | error status after => rfl

omit [DecidableEq Image] in
theorem compose_ok {left : Option (Left Database Image)}
    {effect : World Database File Image → World Database File Image} {u : Unit}
    (done : (compose left effect).run world = .ok u world') : world' = effect world := by
  cases left with
  | none =>
      cases done
      rfl
  | some left => cases done

omit [DecidableEq Image] in
theorem recorded_ok {value : State → String} {text : String}
    (done : (recorded value).run world = .ok text world') :
    world' = world ∧ ∃ state, world.state = some state ∧ state.jq value = some text := by
  unfold recorded at done
  rw [run_bind_eq_ok] at done
  obtain ⟨_, _, ⟨⟩, done⟩ := done
  cases held : world.state with
  | none =>
      rw [held] at done
      cases done
  | some state =>
      rw [held] at done
      dsimp only at done
      cases read : state.jq value with
      | none =>
          rw [read] at done
          cases done
      | some text =>
          rw [read] at done
          cases done
          exact ⟨rfl, state, rfl, read⟩

omit [DecidableEq Image] in
theorem confirm_ok {reply : Option Char} {u : Unit}
    (done : (confirm reply : Script Database File Image Unit).run world = .ok u world') : world' = world := by
  unfold confirm at done
  cases reply with
  | none => cases done
  | some reply =>
      dsimp only at done
      split at done
      · cases done
        rfl
      · cases done

omit [DecidableEq Image] in
theorem restoreDatabase_ok {run : RollbackRun Database Image} (drops : run.drops = true) {backup : File} {u : Unit}
    (done : (restoreDatabase stack run backup).run world = .ok u world') :
    world' = { world with database := stack.psql backup (stack.dropSchema world.database) } := by
  unfold restoreDatabase at done
  rw [run_bind_eq_ok] at done
  obtain ⟨_, started, up, done⟩ := done
  obtain rfl := compose_ok up
  rw [if_pos drops] at done
  cases psql : run.psql with
  | none =>
      rw [psql] at done
      cases done
      rfl
  | some database =>
      rw [psql] at done
      cases done

/-- What is stored when the services start again. -/
def afterRestore (stack : Stack Database File Image) (world : World Database File Image) :
    Option File → Database
  | none => world.database
  | some backup => stack.psql backup (stack.dropSchema world.database)

omit [DecidableEq Image] in
theorem restoreRecorded_ok {fast : Bool} {run : RollbackRun Database Image} (drops : run.drops = true)
    {dbBackup : String} {u : Unit} (done : (restoreRecorded stack fast run dbBackup).run world = .ok u world') :
    world' = { world with database := afterRestore stack world (restored world fast dbBackup) } := by
  unfold restoreRecorded at done
  rw [run_bind_eq_ok] at done
  obtain ⟨_, _, ⟨⟩, done⟩ := done
  cases file : restored world fast dbBackup with
  | none =>
      rw [file] at done
      cases done
      rfl
  | some backup =>
      rw [file] at done
      exact restoreDatabase_ok drops done

theorem cmdRollback_ok {fast : Bool} {run : RollbackRun Database Image} (drops : run.drops = true) {u : Unit}
    (done : (cmdRollback stack fast run).run world = .ok u world') :
    ∃ state dbBackup, world.state = some state ∧ state.jq (·.lastDbBackup) = some dbBackup ∧
      world' = up stack { down world with database := afterRestore stack world (restored world fast dbBackup) } := by
  unfold cmdRollback at done
  rw [run_bind_eq_ok] at done
  obtain ⟨previousVersion, _, read, done⟩ := done
  obtain ⟨rfl, -⟩ := recorded_ok read
  rw [run_bind_eq_ok] at done
  obtain ⟨dbBackup, _, readBackup, done⟩ := done
  obtain ⟨rfl, state, held, named⟩ := recorded_ok readBackup
  rw [run_bind_eq_ok] at done
  obtain ⟨_, _, versioned, done⟩ := done
  obtain ⟨-, rfl⟩ := run_orExit_eq_ok.mp versioned
  rw [run_bind_eq_ok] at done
  obtain ⟨_, _, confirmed, done⟩ := done
  obtain rfl := confirm_ok confirmed
  rw [run_bind_eq_ok] at done
  obtain ⟨_, _, stopped, done⟩ := done
  obtain rfl := compose_ok stopped
  rw [run_bind_eq_ok] at done
  obtain ⟨_, _, restoring, done⟩ := done
  obtain rfl := restoreRecorded_ok drops restoring
  exact ⟨state, dbBackup, held, named, compose_ok done⟩

end Outcomes

/-! ## The recorded backup -/

section Invariant
variable {stack : Stack Database File Image} {project : String} {world world' : World Database File Image}
  {held : Option Database}

/-- The file that the recorded state names holds the dump of the checkpoint. -/
def Recorded (stack : Stack Database File Image) (project : String) (world : World Database File Image)
    (held : Option Database) (state : State) : Prop :=
  state.lastDbBackup = "" ∧ held = none ∨
    ∃ stamp, state.lastDbBackup = dbBackupFile project stamp ∧
      world.backups state.lastDbBackup = held.map stack.pg_dump

structure Matches (stack : Stack Database File Image) (project : String) (world : World Database File Image)
    (held : Option Database) : Prop where
  unrecorded : world.state = none → held = none
  recorded : ∀ state, world.state = some state → Recorded stack project world held state

theorem Matches.of_same (holds : Matches stack project world held) (sameState : world'.state = world.state)
    (same : ∀ state stamp, world.state = some state → state.lastDbBackup = dbBackupFile project stamp →
      world'.backups state.lastDbBackup = world.backups state.lastDbBackup) :
    Matches stack project world' held := by
  refine ⟨fun missing => holds.unrecorded (sameState ▸ missing), fun state found => ?_⟩
  rw [sameState] at found
  rcases holds.recorded state found with unnamed | ⟨stamp, named, kept⟩
  · exact .inl unnamed
  · exact .inr ⟨stamp, named, (same state stamp found named).trans kept⟩

theorem Matches.of_seen (holds : Matches stack project world held) {stamp configStamp : Stamp}
    (fresh : ∀ state, world.state = some state → state.lastDbBackup ≠ dbBackupFile project stamp)
    (same : ∀ path, path ≠ dbBackupFile project stamp → path ≠ configBackupFile project configStamp →
      seen path world' = seen path world) : Matches stack project world' held := by
  have sameState : world'.state = world.state :=
    congrArg Prod.fst (same "" (dbBackupFile_ne_empty _).symm (configBackupFile_ne_empty _).symm)
  refine holds.of_same sameState fun state stamp' found named => congrArg Prod.snd (same _ (fresh state found) ?_)
  rw [named]
  exact dbBackupFile_ne_configBackupFile _ _

variable [DecidableEq Image]

theorem matches_step (holds : Matches stack project world held)
    {label : Label Database File Image} (foreign : Foreign project label)
    (fresh : ∀ state, world.state = some state → ∀ stamp ∈ label.stamp,
      state.lastDbBackup ≠ dbBackupFile project stamp) :
    Matches stack project (step stack project world label) (checkpointStep stack project world held label) := by
  cases label with
  | update skipBackup run =>
      have free := fun state found => fresh state found run.stamp rfl
      rw [step, stateAfter_cmdUpdate, checkpointStep]
      cases done : (update stack project skipBackup run).run world with
      | error status after =>
          exact holds.of_seen free fun path otherDb otherConfig =>
            keepsOnExit_update otherDb otherConfig world status after done
      | ok file after =>
          obtain ⟨named, ⟨configBackup, recorded, -⟩, dumped⟩ := update_ok done
          simp only [stateAfter, returns, if_true]
          refine ⟨fun missing => by simp [recorded] at missing, fun state found => ?_⟩
          obtain rfl := Option.some.inj (recorded.symm.trans found)
          cases skipBackup with
          | true => exact .inl ⟨named, rfl⟩
          | false => exact .inr ⟨run.stamp, named, dumped rfl⟩
  | rollback fast run =>
      have kept (path : String) : Keeps (seen path) (cmdRollback stack fast run) := keeps_cmdRollback fast run
      exact holds.of_same (congrArg Prod.fst (kept "" world)) fun state _ _ _ =>
        congrArg Prod.snd (kept _ world)
  | backup checks stamp dumps configStamp archives =>
      exact holds.of_seen (fun state found => fresh state found stamp rfl) fun path otherDb otherConfig =>
        keeps_cmdBackup otherDb otherConfig world
  | operate left => exact holds.of_same rfl fun _ _ _ _ => rfl
  | repin images => exact holds.of_same rfl fun _ _ _ _ => rfl
  | configure config template => exact holds.of_same rfl fun _ _ _ _ => rfl
  | put path content =>
      cases content with
      | some content =>
          refine holds.of_same rfl fun state stamp _ named => ?_
          rw [named]
          exact Function.update_of_ne (foreign stamp).symm _ _
      | none =>
          rw [step, checkpointStep]
          by_cases its : world.state.map (·.lastDbBackup) = some path
          · rw [if_pos its]
            obtain ⟨state, found, rfl⟩ := Option.map_eq_some_iff.mp its
            refine ⟨fun _ => rfl, fun state' found' => ?_⟩
            obtain rfl := Option.some.inj (found.symm.trans found')
            rcases holds.recorded state found with ⟨unnamed, -⟩ | ⟨stamp, named, -⟩
            · exact .inl ⟨unnamed, rfl⟩
            · exact .inr ⟨stamp, named, Function.update_self _ _ _⟩
          · rw [if_neg its]
            refine holds.of_same rfl fun state stamp found named => ?_
            have other : state.lastDbBackup ≠ path := by
              rintro rfl
              exact its (by rw [found, Option.map_some])
            exact Function.update_of_ne other _ _

/-- Only a completed update records anything. -/
theorem state_step (stack : Stack Database File Image) (project : String) (world : World Database File Image)
    (label : Label Database File Image) :
    (step stack project world label).state = world.state ∨
      ∃ state, (step stack project world label).state = some state ∧
        state.currentVersion = "unknown" ∧ state.previousVersion = getCurrentVersion world ∧
        (state.lastDbBackup = "" ∨ ∃ stamp ∈ label.stamp, state.lastDbBackup = dbBackupFile project stamp) ∧
        (state.lastConfigBackup = "" ∨ ∃ stamp, state.lastConfigBackup = configBackupFile project stamp) := by
  cases label with
  | update skipBackup run =>
      rw [step, stateAfter_cmdUpdate]
      cases done : (update stack project skipBackup run).run world with
      | error status after =>
          exact .inl (congrArg Prod.fst (keepsOnExit_update (dbBackupFile_ne_empty _).symm
            (configBackupFile_ne_empty _).symm world status after done))
      | ok file after =>
          obtain ⟨named, ⟨configBackup, recorded, configNamed⟩, -⟩ := update_ok done
          refine .inr ⟨_, recorded, rfl, rfl, ?_, configNamed.imp_right fun its => ⟨_, its⟩⟩
          cases skipBackup with
          | true => exact .inl named
          | false => exact .inr ⟨run.stamp, rfl, named⟩
  | rollback fast run =>
      have keeps : Keeps (seen "") (cmdRollback stack fast run) := keeps_cmdRollback fast run
      exact .inl (congrArg Prod.fst (keeps world))
  | backup checks stamp dumps configStamp archives =>
      have keeps : Keeps (seen "") (cmdBackup stack project checks stamp dumps configStamp archives) :=
        keeps_cmdBackup (dbBackupFile_ne_empty _).symm (configBackupFile_ne_empty _).symm
      exact .inl (congrArg Prod.fst (keeps world))
  | operate left => exact .inl rfl
  | repin images => exact .inl rfl
  | configure config template => exact .inl rfl
  | put path content => exact .inl rfl

theorem matches_exec (labels : List (Label Database File Image))
    (distinct : (labels.filterMap Label.stamp).Nodup) (foreign : ∀ label ∈ labels, Foreign project label)
    (fresh : ∀ state, world.state = some state → ∀ stamp ∈ labels.filterMap Label.stamp,
      state.lastDbBackup ≠ dbBackupFile project stamp)
    (holds : Matches stack project world held) :
    Matches stack project (exec stack project world labels) (checkpoint stack project world held labels) := by
  induction labels generalizing world held with
  | nil => exact holds
  | cons label rest ih =>
      have among (stamp : Stamp) (its : stamp ∈ label.stamp) :
          stamp ∈ (label :: rest).filterMap Label.stamp ∧ stamp ∉ rest.filterMap Label.stamp := by
        rw [List.filterMap_cons_some its] at distinct ⊢
        exact ⟨List.mem_cons_self, (List.nodup_cons.mp distinct).1⟩
      have later : (rest.filterMap Label.stamp).Sublist ((label :: rest).filterMap Label.stamp) :=
        (List.sublist_cons_self label rest).filterMap _
      have next := matches_step holds (foreign label List.mem_cons_self)
        fun state found stamp its => fresh state found stamp (among stamp its).1
      refine ih (distinct.sublist later) (fun l listed => foreign l (List.mem_cons_of_mem _ listed)) ?_ next
      intro state found stamp listed
      rcases state_step stack project world label with same |
        ⟨_, recorded, -, -, named, -⟩
      · exact fresh state (same ▸ found) stamp (later.subset listed)
      · obtain rfl := Option.some.inj (recorded.symm.trans found)
        rcases named with unnamed | ⟨own, its, named⟩
        · rw [unnamed]
          exact (dbBackupFile_ne_empty _).symm
        · rw [named]
          intro same
          exact (among own its).2 (dbBackupFile_injective same ▸ listed)

end Invariant

/-! ## The recorded versions -/

section Versions
variable {stack : Stack Database File Image} {project : String} {world : World Database File Image}

structure Unversioned (state : State) : Prop where
  current : state.currentVersion = "unknown"
  previous : state.previousVersion = "unknown"
  dbBackup : plain state.lastDbBackup
  configBackup : plain state.lastConfigBackup

theorem Unversioned.jq {state : State} (unversioned : Unversioned state) (value : State → String) :
    state.jq value = some (value state) := by
  have known : plain "unknown" := by decide
  rw [State.jq, unversioned.current, unversioned.previous]
  exact if_pos ⟨known, known, unversioned.dbBackup, unversioned.configBackup⟩

theorem getCurrentVersion_unknown (unversioned : ∀ state, world.state = some state → Unversioned state) :
    getCurrentVersion world = "unknown" := by
  unfold getCurrentVersion
  cases found : world.state with
  | none => rfl
  | some state =>
      dsimp only
      rw [(unversioned state found).jq, Option.getD_some, (unversioned state found).current]

variable [DecidableEq Image]

theorem unversioned_step (plainProject : plain project)
    (unversioned : ∀ state, world.state = some state → Unversioned state) (label : Label Database File Image) :
    ∀ state, (step stack project world label).state = some state → Unversioned state := by
  intro state found
  rcases state_step stack project world label with same |
    ⟨_, recorded, current, previous, dbBackup, configBackup⟩
  · exact unversioned state (same ▸ found)
  · obtain rfl := Option.some.inj (recorded.symm.trans found)
    refine ⟨current, previous.trans (getCurrentVersion_unknown unversioned), ?_, ?_⟩
    · rcases dbBackup with unnamed | ⟨stamp, -, named⟩
      · rw [unnamed]
        decide
      · rw [named]
        exact plain_dbBackupFile plainProject stamp
    · rcases configBackup with unnamed | ⟨stamp, named⟩
      · rw [unnamed]
        decide
      · rw [named]
        exact plain_configBackupFile plainProject stamp

/-- Every command of the rollback does what it is for, and the operator agrees. -/
structure RollbackRun.Succeeds (run : RollbackRun Database Image) : Prop where
  reply : run.reply = some 'y' ∨ run.reply = some 'Y'
  down : run.down = none
  upPostgres : run.upPostgres = none
  psql : run.psql = none
  up : run.up = none

theorem cmdRollback_completes {state : State} (found : world.state = some state) (unversioned : Unversioned state)
    (fast : Bool) {run : RollbackRun Database Image} (succeeds : run.Succeeds) :
    returns ((cmdRollback stack fast run).run world) = true := by
  have reading (value : State → String) : (recorded value).run world = .ok (value state) world := by
    unfold recorded
    rw [run_bind_ok (EStateM.run_get world), found]
    dsimp only
    rw [unversioned.jq]
    rfl
  have versioned : (orExit (state.previousVersion ≠ "" ∧ state.previousVersion ≠ "null")).run world =
      .ok () world := by
    rw [unversioned.previous]
    rfl
  have confirmed : (confirm run.reply).run world = .ok () world := by
    rcases succeeds.reply with yes | yes <;> rw [yes] <;> rfl
  obtain ⟨stored, restoring⟩ : ∃ stored, (restoreRecorded stack fast run state.lastDbBackup).run (down world) =
      .ok () stored := by
    unfold restoreRecorded
    rw [run_bind_ok (EStateM.run_get _)]
    split
    · exact ⟨_, rfl⟩
    · unfold restoreDatabase
      rw [succeeds.upPostgres, succeeds.psql]
      cases run.drops <;> exact ⟨_, rfl⟩
  unfold cmdRollback
  rw [run_bind_ok (reading _), run_bind_ok (reading _), run_bind_ok versioned, run_bind_ok confirmed,
    succeeds.down, succeeds.up, run_bind_ok (show (compose none down).run world = .ok () (down world) from rfl),
    run_bind_ok restoring]
  rfl

end Versions

/-! ## Results -/

section Results
variable {stack : Stack Database File Image} {project : String} {world : World Database File Image}
  [DecidableEq Image]

def releases : Stack Nat Nat Nat where
  pg_dump := id
  psql file database := if database = 0 then file else database
  dropSchema _ := 0
  alembic image database := (true, if image = 2 ∧ database = 10 then 20 else database)
  pbVersion image := if image = 2 then "v2" else "v1"
  tar _ := 0

def firstRelease : World Nat Nat Nat := ⟨10, 1, some 1, some 1, fun _ => none, [], none, none⟩

def updateRun (stamp : Stamp) (migrates : Bool) : UpdateRun Nat Nat :=
  ⟨true, stamp, true, stamp, true, true, 2, 10, migrates, none, none, none⟩

def noon : Stamp := ⟨"20260101-120000", by decide⟩

def evening : Stamp := ⟨"20260101-180000", by decide⟩

/-- An update, a row written after it, and an update whose migrations fail. -/
def history : List (Label Nat Nat Nat) :=
  [.update false (updateRun noon true), .operate ⟨21, some 2, some 2⟩, .update false (updateRun evening false)]

def agreed : RollbackRun Nat Nat := ⟨some 'y', none, none, true, none, none⟩

end Results

end PowerBlockade.Upgrade
