import Mathlib.Logic.Function.Basic
import PowerBlockade.Blocking.Compilers

/-!
# The zone writers side by side

Step by step: what they read, the two files that they replace one after the other, and what they
commit.
-/

namespace PowerBlockade.Blocking
open Lib

/-! ## The writers -/

inductive Job
  | apply (fetch : Fetch)
  | update (fetch : Fetch)
  | scheduleCheck
  /-- Disabling or pausing. -/
  | emergency (state : String)

inductive Instr
  | read
  | writeCombined
  | writeWhitelist
  | commit

/-- The columns that a fetch changes in a row; its entries are the rows that the fetch replaced. -/
def storeFetched (fetch : Fetch) (now : DateTime) (shown : String → String) (old row : Blocklist) :
    Blocklist :=
  match fetch old.url old.format with
  | .ok domains => { markSuccess row domains now with entries := row.entries \ old.entries ∪ domains }
  | .error error => markFailed row (shown error) now

def applyRow (fetch : Fetch) (now : DateTime) (old row : Blocklist) : Blocklist :=
  if old.enabled then storeFetched fetch now id old row else row

def updateRow (fetch : Fetch) (now : DateTime) (old row : Blocklist) : Blocklist :=
  if isDue old now = some true then storeFetched fetch now (Python.take 500) old row else row

def scheduleRow (now : LocalTime) (old row : Blocklist) : Blocklist :=
  if scheduledState old now = old.enabled then row
  else { row with enabled := scheduledState old now }

namespace Job

variable (zoneInfo : ZoneInfo) (now : DateTime)

/-- The job in one go. -/
def outcome (db : Database) : Job → Outcome
  | apply fetch => blocklistsApply fetch now db
  | update fetch => updateBlocklistsJob fetch now db
  | scheduleCheck => runScheduleCheck zoneInfo now db
  | emergency state => ⟨setBlockingState db state, some (emergencyRpz now), none, true⟩

/-- What it does after its first read. -/
def script (base : Database) : Job → List Instr
  | apply _ => [.writeCombined, .writeWhitelist, .commit]
  | update fetch =>
      if (updateBlocklistsJob fetch now base).combined.isSome then
        [.writeCombined, .writeWhitelist, .commit]
      else [.commit]
  | scheduleCheck =>
      if (runScheduleCheck zoneInfo now base).combined.isSome then
        [.commit, .read, .writeCombined, .writeWhitelist]
      else []
  | emergency _ => [.commit, .writeCombined]

/-- What it computes from what it has read last. -/
def zones (base : Database) : Job → Option Zone × Option Zone
  | scheduleCheck => ((regenerateRpz base now).1, (regenerateRpz base now).2)
  | job => ((job.outcome zoneInfo now base).combined, (job.outcome zoneInfo now base).whitelist)

/-- The rows it has changed, over what is committed by then. -/
def commit (base current : Database) : Job → Database
  | apply fetch =>
      if (blocklistsApply fetch now base).completed then
        { current with blocklists := base.blocklists.zipWith (applyRow fetch now) current.blocklists }
      else current
  | update fetch =>
      if (updateBlocklistsJob fetch now base).completed then
        { current with blocklists := base.blocklists.zipWith (updateRow fetch now) current.blocklists }
      else current
  | scheduleCheck =>
      let row := scheduleRow (localNow zoneInfo base.settings now)
      { current with blocklists := base.blocklists.zipWith row current.blocklists }
  | emergency state => setBlockingState current state

/-- It publishes both files. -/
def compiles : Job → Bool
  | emergency _ => false
  | _ => true

end Job

/-! ## Interleavings -/

structure Writer where
  job : Job
  now : DateTime
  /-- What it has read last. -/
  base : Database
  todo : List Instr

/-- A published file, with the writer that has computed it. -/
structure PublishedFile where
  writer : Nat
  zone : Zone

/-- `history` are the databases that have ever been committed. -/
structure Shared where
  db : Database
  history : List Database
  combined : Option PublishedFile
  whitelist : Option PublishedFile
  writers : Nat → Option Writer

inductive Label
  | begin (id : Nat) (job : Job) (now : DateTime)
  | step (id : Nat)
  /-- An exception, or the end of the process. -/
  | abort (id : Nat)

namespace Shared

variable (zoneInfo : ZoneInfo)

def start (db : Database) : Shared := ⟨db, [db], none, none, fun _ => none⟩

def put (s : Shared) (id : Nat) (writer : Writer) : Shared :=
  { s with writers := Function.update s.writers id (some writer) }

def publish (id : Nat) (zone : Option Zone) (old : Option PublishedFile) : Option PublishedFile :=
  zone.map (⟨id, ·⟩) <|> old

/-- One step of a writer, on what it has read and on what all share. -/
def execute (id : Nat) (job : Job) (now : DateTime) (state : Database × Shared) :
    Instr → Database × Shared
  | .read => (state.2.db, state.2)
  | .writeCombined =>
      let zone := (job.zones zoneInfo now state.1).1
      (state.1, { state.2 with combined := publish id zone state.2.combined })
  | .writeWhitelist =>
      let zone := (job.zones zoneInfo now state.1).2
      (state.1, { state.2 with whitelist := publish id zone state.2.whitelist })
  | .commit =>
      let db := job.commit zoneInfo now state.1 state.2.db
      (state.1, { state.2 with db := db, history := db :: state.2.history })

def step (s : Shared) : Label → Shared
  | .begin id job now =>
      match s.writers id with
      | none => s.put id ⟨job, now, s.db, job.script zoneInfo now s.db⟩
      | some _ => s
  | .step id =>
      match s.writers id with
      | some ⟨job, now, base, instr :: rest⟩ =>
          let next := execute zoneInfo id job now (base, s) instr
          next.2.put id ⟨job, now, next.1, rest⟩
      | _ => s
  | .abort id =>
      match s.writers id with
      | some writer => s.put id { writer with todo := [] }
      | none => s

/-- A writer that takes all its steps with no other's in between. -/
def alone (s : Shared) (id : Nat) (job : Job) (now : DateTime) : Shared :=
  (List.replicate (job.script zoneInfo now s.db).length (.step id)).foldl (step zoneInfo)
    (s.step zoneInfo (.begin id job now))

def Finished (s : Shared) : Prop := ∀ id writer, s.writers id = some writer → writer.todo = []

end Shared

end PowerBlockade.Blocking
