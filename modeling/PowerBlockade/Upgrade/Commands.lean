import Mathlib
import PowerBlockade.Lib.Script
import PowerBlockade.Recursor.MigrateSettings

/-!
# Updates and rollbacks of a host

The commands of `scripts/pb` that change the host. The script runs under `set -e`: a command that
fails ends it, with what was done so far in place.
-/

namespace PowerBlockade.Upgrade
open Lib

variable {Database File Image : Type}

/-- The programs that the script runs in the containers. -/
structure Stack (Database File Image : Type) where
  pg_dump : Database → File
  psql : File → Database → Database
  /-- `DROP SCHEMA public CASCADE; CREATE SCHEMA public;` -/
  dropSchema : Database → Database
  /-- `alembic upgrade head` of an image: whether it succeeds, and what it leaves. -/
  alembic : Image → Database → Bool × Database
  pbVersion : Image → String
  tar : List (String × File) → File

/-- The values of `STATE_FILE` that are read again. -/
structure State where
  currentVersion : String
  previousVersion : String
  lastDbBackup : String
  lastConfigBackup : String

/-- `save_state` puts the values between quotes as they are. -/
def plain (text : String) : Bool := text.toList.all fun c => c ≠ '"' ∧ c ≠ '\\' ∧ 32 ≤ c.toNat

/-- `jq -r` on the file. -/
def State.jq (state : State) (value : State → String) : Option String :=
  if plain state.currentVersion ∧ plain state.previousVersion ∧ plain state.lastDbBackup ∧
    plain state.lastConfigBackup then some (value state) else none

/-- `date +%Y%m%d-%H%M%S` -/
structure Stamp where
  text : String
  digits : text.toList.all fun c => c.isDigit ∨ c = '-'
  deriving DecidableEq

structure World (Database File Image : Type) where
  database : Database
  /-- The images that the compose files name, as they are on this host. -/
  images : Image
  /-- What the container runs; `none` where it does not serve. -/
  adminUi : Option Image
  services : Option Image
  /-- `BACKUP_DIR`, by path. -/
  backups : String → Option File
  /-- `recursor/rpz`, `recursor/forward-zones.conf` and `.env`, those that are there. -/
  config : List (String × File)
  /-- `recursor.conf.template` -/
  template : Option String
  state : Option State

def World.putBackup (world : World Database File Image) (path : String) (content : Option File) :
    World Database File Image :=
  { world with backups := Function.update world.backups path content }

abbrev Script (Database File Image : Type) := EStateM Nat (World Database File Image)

/-! ## Helpers -/

def getCurrentVersion (world : World Database File Image) : String :=
  match world.state with
  | none => "unknown"
  | some state => (state.jq (·.currentVersion)).getD "unknown"

def dbBackupFile (project : String) (stamp : Stamp) : String :=
  project ++ "/backups/pre-upgrade-" ++ stamp.text ++ ".sql"

def configBackupFile (project : String) (stamp : Stamp) : String :=
  project ++ "/backups/config-" ++ stamp.text ++ ".tar.gz"

variable (stack : Stack Database File Image) (project : String)

def backupDatabase (stamp : Stamp) (dumps : Bool) : Script Database File Image String := do
  let backupFile := dbBackupFile project stamp
  if dumps then
    modify fun world => world.putBackup backupFile (some (stack.pg_dump world.database))
    return backupFile
  else
    modify fun world => world.putBackup backupFile none
    throw 1

def backupConfig (stamp : Stamp) (archives : Bool) : Script Database File Image String := do
  let backupFile := configBackupFile project stamp
  if (← get).config = [] then
    return ""
  else if archives then
    modify fun world => world.putBackup backupFile (some (stack.tar world.config))
    return backupFile
  else
    modify fun world => world.putBackup backupFile none
    throw 1

def saveState (state : State) : Script Database File Image Unit :=
  modify fun world => { world with state := some state }

/-- `runs`: whether the container is run at all. -/
def runMigrations (runs : Bool) : Script Database File Image Bool := do
  let world ← get
  if runs then
    let (migrated, database) := stack.alembic world.images world.database
    modify fun world => { world with database }
    return migrated
  else
    return false

/-- `script`: how `migrate-settings.sh` ends; `none` where it is not executable. -/
def migrateRecursorSettings (script : Option Bool) : Script Database File Image Bool := do
  match (← get).template, script with
  | none, _ | _, none => return true
  | some template, some true =>
      modify fun world => { world with template := some (Recursor.migrate template) }
      return true
  | some _, some false => return false

/-- What a `docker compose` command that fails leaves. -/
structure Left (Database Image : Type) where
  database : Database
  adminUi : Option Image
  services : Option Image

def compose (left : Option (Left Database Image))
    (effect : World Database File Image → World Database File Image) : Script Database File Image Unit := do
  match left with
  | none => modify effect
  | some left =>
      modify fun world =>
        { world with database := left.database, adminUi := left.adminUi, services := left.services }
      throw 1

/-- `up -d admin-ui`; the container of the image that runs already is left alone. A container that
starts runs the migrations of its image before it serves. -/
def upAdminUi [DecidableEq Image] (world : World Database File Image) : World Database File Image :=
  if world.adminUi = some world.images then world
  else
    let (migrated, database) := stack.alembic world.images world.database
    { world with database, adminUi := if migrated then some world.images else none }

/-- `up -d` -/
def up [DecidableEq Image] (world : World Database File Image) : World Database File Image :=
  { upAdminUi stack world with services := some world.images }

def down (world : World Database File Image) : World Database File Image :=
  { world with adminUi := none, services := none }

/-- `/api/version`, for the user of the session. -/
def version (pbVersion : String) (userId : Option Int) : Except Nat String :=
  match userId with
  | none | some 0 => .error 401
  | some _ => .ok pbVersion

/-- `curl -sf http://localhost:8080/api/version` has no session. -/
def newVersion (world : World Database File Image) : String :=
  match world.adminUi with
  | none => "unknown"
  | some image =>
      match version (stack.pbVersion image) none with
      | .ok version => version
      | .error _ => "unknown"

/-! ## Commands -/

/-- How the commands of an update end. -/
structure UpdateRun (Database Image : Type) where
  /-- `ensure_dirs`, `check_docker` and `check_disk_space` -/
  checks : Bool
  stamp : Stamp
  dumps : Bool
  configStamp : Stamp
  archives : Bool
  /-- Whether `pull` succeeds, and the images that are there after it. -/
  pulls : Bool
  pulled : Image
  /-- What is stored when the images are there. -/
  meanwhile : Database
  migrates : Bool
  script : Option Bool
  upAdminUi : Option (Left Database Image)
  up : Option (Left Database Image)

/-- The paths of the two backups. -/
def takeBackups (skipBackup : Bool) (run : UpdateRun Database Image) :
    Script Database File Image (String × String) := do
  if skipBackup then
    return ("", "")
  else
    let dbBackup ← backupDatabase stack project run.stamp run.dumps
    let configBackup ← backupConfig stack project run.configStamp run.archives
    return (dbBackup, configBackup)

/-- From `pull` to the services that run the new images. -/
def install [DecidableEq Image] (run : UpdateRun Database Image) : Script Database File Image Unit := do
  modify fun world => { world with images := run.pulled, database := run.meanwhile }
  orExit run.pulls
  let migrated ← runMigrations stack run.migrates
  orExit migrated
  let migrated ← migrateRecursorSettings run.script
  orExit migrated
  compose run.upAdminUi (upAdminUi stack)
  compose run.up (up stack)

/-- `cmd_update` to the line that says the update is complete; the path of the database's backup. -/
def update [DecidableEq Image] (skipBackup : Bool) (run : UpdateRun Database Image) :
    Script Database File Image String := do
  orExit run.checks
  let before ← get
  let (dbBackup, configBackup) ← takeBackups stack project skipBackup run
  install stack run
  let after ← get
  saveState ⟨newVersion stack after, getCurrentVersion before, dbBackup, configBackup⟩
  return dbBackup

/-- The last line, `[[ -n "$db_backup" ]] && echo …`, is the command's status. -/
def cmdUpdate [DecidableEq Image] (skipBackup : Bool) (run : UpdateRun Database Image) :
    Script Database File Image Unit := do
  let dbBackup ← update stack project skipBackup run
  orExit (dbBackup ≠ "")

/-- How the commands of a rollback end. -/
structure RollbackRun (Database Image : Type) where
  /-- What the operator answers; `none` at the end of the input. -/
  reply : Option Char
  down : Option (Left Database Image)
  upPostgres : Option (Left Database Image)
  /-- Whether the schema is dropped; a failure is ignored. -/
  drops : Bool
  /-- What `psql` leaves where it fails. -/
  psql : Option Database
  up : Option (Left Database Image)

/-- `jq` on `STATE_FILE`, which has to be there. -/
def recorded (value : State → String) : Script Database File Image String := do
  match (← get).state with
  | none => throw 1
  | some state =>
      match state.jq value with
      | none => throw 2
      | some text => return text

def confirm : Option Char → Script Database File Image Unit
  | none => throw 1
  | some reply => if reply = 'y' ∨ reply = 'Y' then pure () else throw 0

/-- `psql` with the backup as its input. -/
def load (failure : Option Database) (backup : File) : Script Database File Image Unit := do
  match failure with
  | none => modify fun world => { world with database := stack.psql backup world.database }
  | some database =>
      modify fun world => { world with database }
      throw 1

def restoreDatabase (run : RollbackRun Database Image) (backup : File) : Script Database File Image Unit := do
  compose run.upPostgres id
  if run.drops then
    modify fun world => { world with database := stack.dropSchema world.database }
  load stack run.psql backup

/-- Nothing in `--fast` mode, or where the recorded file is not there. -/
def restored (world : World Database File Image) (fast : Bool) (dbBackup : String) : Option File :=
  if fast ∨ dbBackup = "" then none else world.backups dbBackup

def restoreRecorded (fast : Bool) (run : RollbackRun Database Image) (dbBackup : String) :
    Script Database File Image Unit := do
  let world ← get
  match restored world fast dbBackup with
  | none => return ()
  | some backup => restoreDatabase stack run backup

def cmdRollback [DecidableEq Image] (fast : Bool) (run : RollbackRun Database Image) :
    Script Database File Image Unit := do
  let previousVersion ← recorded (·.previousVersion)
  let dbBackup ← recorded (·.lastDbBackup)
  orExit (previousVersion ≠ "" ∧ previousVersion ≠ "null")
  confirm run.reply
  compose run.down down
  restoreRecorded stack fast run dbBackup
  compose run.up (up stack)

/-- `ensure_dirs` and `check_docker`, then the two backups; the last line is the status again. -/
def cmdBackup (checks : Bool) (stamp : Stamp) (dumps : Bool) (configStamp : Stamp) (archives : Bool) :
    Script Database File Image Unit := do
  orExit checks
  let _ ← backupDatabase stack project stamp dumps
  let configBackup ← backupConfig stack project configStamp archives
  orExit (configBackup ≠ "")

/-- The tag of the latest release without its `v`; empty where GitHub does not answer. -/
def latestVersion : Option String → String
  | none => ""
  | some tag => if tag.toList.head? = some 'v' then String.ofList tag.toList.tail else tag

/-- Whether an update is announced. -/
def cmdCheckUpdate (tag : Option String) : Script Database File Image Bool := do
  let current := getCurrentVersion (← get)
  let latest := latestVersion tag
  orExit (latest ≠ "")
  return current ≠ latest

end PowerBlockade.Upgrade
