import PowerBlockade.Upgrade.Commands

/-!
# What the commands leave alone

Names of the backups, and the frame of each command: the recorded state, and the backups that it
does not write.
-/

namespace PowerBlockade.Upgrade
open Lib

variable {Database File Image : Type}

/-! ## Names -/

theorem dbBackupFile_injective {project : String} {stamp stamp' : Stamp}
    (same : dbBackupFile project stamp = dbBackupFile project stamp') : stamp = stamp' := by
  rw [dbBackupFile, dbBackupFile, String.append_left_inj, String.append_right_inj] at same
  cases stamp
  cases stamp'
  simpa using same

theorem dbBackupFile_ne_configBackupFile {project : String} (stamp stamp' : Stamp) :
    dbBackupFile project stamp ≠ configBackupFile project stamp' := by
  intro same
  have letters := congrArg String.toList same
  simp [dbBackupFile, configBackupFile] at letters

theorem dbBackupFile_ne_empty {project : String} (stamp : Stamp) : dbBackupFile project stamp ≠ "" := by
  intro empty
  have letters := congrArg String.toList empty
  simp [dbBackupFile] at letters

theorem configBackupFile_ne_empty {project : String} (stamp : Stamp) : configBackupFile project stamp ≠ "" := by
  intro empty
  have letters := congrArg String.toList empty
  simp [configBackupFile] at letters

theorem plain_append {left right : String} (plainLeft : plain left) (plainRight : plain right) :
    plain (left ++ right) := by
  simp only [plain, String.toList_append, List.all_append, Bool.and_eq_true] at *
  exact ⟨plainLeft, plainRight⟩

theorem Stamp.plain (stamp : Stamp) : plain stamp.text := by
  have digits := stamp.digits
  simp only [Upgrade.plain, List.all_eq_true, decide_eq_true_eq] at digits ⊢
  intro c among
  rcases digits c among with digit | rfl
  · have lower : 48 ≤ c.toNat := (Char.isDigit_iff_toNat.mp digit).1
    refine ⟨?_, ?_, by omega⟩
    · rintro rfl
      simp at digit
    · rintro rfl
      simp at digit
  · decide

theorem plain_dbBackupFile {project : String} (plainProject : plain project) (stamp : Stamp) :
    plain (dbBackupFile project stamp) :=
  plain_append (plain_append (plain_append plainProject (by decide)) stamp.plain) (by decide)

theorem plain_configBackupFile {project : String} (plainProject : plain project) (stamp : Stamp) :
    plain (configBackupFile project stamp) :=
  plain_append (plain_append (plain_append plainProject (by decide)) stamp.plain) (by decide)

/-! ## Frames -/

/-- The recorded state, and one of the backups. -/
def seen (path : String) (world : World Database File Image) : Option State × Option File :=
  (world.state, world.backups path)

section Frames
variable {stack : Stack Database File Image} {project : String} {path : String}

theorem seen_putBackup {path' : String} (other : path ≠ path') (world : World Database File Image)
    (content : Option File) : seen path (world.putBackup path' content) = seen path world := by
  simp [seen, World.putBackup, Function.update_of_ne other]

theorem keeps_backupDatabase {stamp : Stamp} (other : path ≠ dbBackupFile project stamp) (dumps : Bool) :
    Keeps (seen path) (backupDatabase stack project stamp dumps) := by
  unfold backupDatabase
  cases dumps with
  | true =>
      refine Keeps.bind (keeps_modify fun world => ?_) fun _ => keeps_pure _
      exact seen_putBackup other world _
  | false =>
      refine Keeps.bind (keeps_modify fun world => ?_) fun _ => keeps_throw _
      exact seen_putBackup other world _

theorem keeps_backupConfig {stamp : Stamp} (other : path ≠ configBackupFile project stamp) (archives : Bool) :
    Keeps (seen path) (backupConfig stack project stamp archives) := by
  unfold backupConfig
  refine Keeps.bind keeps_get fun world => ?_
  split
  · exact keeps_pure _
  · split
    · refine Keeps.bind (keeps_modify fun world => ?_) fun _ => keeps_pure _
      exact seen_putBackup other world _
    · refine Keeps.bind (keeps_modify fun world => ?_) fun _ => keeps_throw _
      exact seen_putBackup other world _

theorem keeps_takeBackups {skipBackup : Bool} {run : UpdateRun Database Image}
    (otherDb : path ≠ dbBackupFile project run.stamp)
    (otherConfig : path ≠ configBackupFile project run.configStamp) :
    Keeps (seen path) (takeBackups stack project skipBackup run) := by
  unfold takeBackups
  cases skipBackup with
  | true => exact keeps_pure _
  | false =>
      refine Keeps.bind (keeps_backupDatabase otherDb _) fun _ => ?_
      exact Keeps.bind (keeps_backupConfig otherConfig _) fun _ => keeps_pure _

theorem keeps_runMigrations (runs : Bool) : Keeps (seen path) (runMigrations stack runs) := by
  unfold runMigrations
  refine Keeps.bind keeps_get fun world => ?_
  cases runs with
  | true => exact Keeps.bind (keeps_modify fun _ => rfl) fun _ => keeps_pure _
  | false => exact keeps_pure _

theorem keeps_migrateRecursorSettings (script : Option Bool) :
    Keeps (seen path) (migrateRecursorSettings script : Script Database File Image Bool) := by
  unfold migrateRecursorSettings
  refine Keeps.bind keeps_get fun world => ?_
  split
  · exact keeps_pure _
  · exact keeps_pure _
  · exact Keeps.bind (keeps_modify fun _ => rfl) fun _ => keeps_pure _
  · exact keeps_pure _

theorem keeps_compose (left : Option (Left Database Image))
    {effect : World Database File Image → World Database File Image}
    (same : ∀ world, seen path (effect world) = seen path world) : Keeps (seen path) (compose left effect) := by
  cases left with
  | none => exact keeps_modify same
  | some left => exact Keeps.bind (keeps_modify fun _ => rfl) fun _ => keeps_throw _

theorem keeps_load (failure : Option Database) (backup : File) :
    Keeps (seen path) (load stack failure backup : Script Database File Image Unit) := by
  cases failure with
  | none => exact keeps_modify fun _ => rfl
  | some database => exact Keeps.bind (keeps_modify fun _ => rfl) fun _ => keeps_throw _

theorem keeps_restoreDatabase (run : RollbackRun Database Image) (backup : File) :
    Keeps (seen path) (restoreDatabase stack run backup) := by
  refine Keeps.bind (keeps_compose _ fun _ => rfl) fun _ => ?_
  cases run.drops with
  | true => exact Keeps.bind (keeps_modify fun _ => rfl) fun _ => keeps_load _ _
  | false => exact keeps_load _ _

theorem keeps_restoreRecorded (fast : Bool) (run : RollbackRun Database Image) (dbBackup : String) :
    Keeps (seen path) (restoreRecorded stack fast run dbBackup) := by
  refine Keeps.bind keeps_get fun world => ?_
  split
  · exact keeps_pure _
  · exact keeps_restoreDatabase _ _

variable [DecidableEq Image]

theorem seen_upAdminUi (world : World Database File Image) : seen path (upAdminUi stack world) = seen path world := by
  unfold upAdminUi
  split <;> rfl

theorem seen_up (world : World Database File Image) : seen path (up stack world) = seen path world :=
  seen_upAdminUi world

theorem keeps_install (run : UpdateRun Database Image) : Keeps (seen path) (install stack run) := by
  refine Keeps.bind (keeps_modify fun _ => rfl) fun _ => ?_
  refine Keeps.bind (keeps_orExit _) fun _ => ?_
  refine Keeps.bind (keeps_runMigrations _) fun _ => ?_
  refine Keeps.bind (keeps_orExit _) fun _ => ?_
  refine Keeps.bind (keeps_migrateRecursorSettings _) fun _ => ?_
  refine Keeps.bind (keeps_orExit _) fun _ => ?_
  exact Keeps.bind (keeps_compose _ seen_upAdminUi) fun _ => keeps_compose _ seen_up

theorem keeps_cmdRollback (fast : Bool) (run : RollbackRun Database Image) :
    Keeps (seen path) (cmdRollback stack fast run) := by
  have reading (value : State → String) :
      Keeps (seen path) (recorded value : Script Database File Image String) := by
    refine Keeps.bind keeps_get fun world => ?_
    split
    · exact keeps_throw _
    · split
      · exact keeps_throw _
      · exact keeps_pure _
  have confirming : Keeps (seen path) (confirm run.reply : Script Database File Image Unit) := by
    unfold confirm
    split
    · exact keeps_throw _
    · split
      · exact keeps_pure _
      · exact keeps_throw _
  refine Keeps.bind (reading _) fun previousVersion => Keeps.bind (reading _) fun dbBackup => ?_
  refine Keeps.bind (keeps_orExit _) fun _ => Keeps.bind confirming fun _ => ?_
  refine Keeps.bind (keeps_compose _ fun _ => rfl) fun _ => ?_
  exact Keeps.bind (keeps_restoreRecorded _ _ _) fun _ => keeps_compose _ seen_up

omit [DecidableEq Image] in
theorem keeps_cmdBackup {checks : Bool} {stamp configStamp : Stamp} {dumps archives : Bool}
    (otherDb : path ≠ dbBackupFile project stamp) (otherConfig : path ≠ configBackupFile project configStamp) :
    Keeps (seen path) (cmdBackup stack project checks stamp dumps configStamp archives) := by
  refine Keeps.bind (keeps_orExit _) fun _ => Keeps.bind (keeps_backupDatabase otherDb _) fun _ => ?_
  exact Keeps.bind (keeps_backupConfig otherConfig _) fun _ => keeps_orExit _

end Frames

end PowerBlockade.Upgrade
