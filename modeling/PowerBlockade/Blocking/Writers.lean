import Mathlib.Data.Finset.Sort
import Mathlib.Data.String.Basic
import PowerBlockade.Blocking.Schedule

/-!
# The writers of the published zones

Every function that replaces `/shared/rpz/blocklist-combined.rpz` or `whitelist.rpz`, as a function
from the database to what it leaves there and in the files.
-/

namespace PowerBlockade.Blocking
open Lib

/-! ## Zone files -/

structure Record where
  owner : String
  target : String
deriving DecidableEq

structure Zone where
  serial : Int
  comment : String
  records : List Record
deriving DecidableEq

def Zone.text (zone : Zone) : String :=
  s!"$TTL 300\n@ IN SOA localhost. hostmaster.localhost. {zone.serial} 3600 600 604800 300\n" ++
    s!"@ IN NS localhost.\n; {zone.comment}\n" ++
    String.join (zone.records.map fun record => s!"{record.owner}. CNAME {record.target}\n")

def Zone.blocks (zone : Zone) : Finset String :=
  ((zone.records.filter (·.target = ".")).map (·.owner)).toFinset

/-- `int(time.time())`; 719162 days separate 0001-01-01 from 1970-01-01. -/
def unixSeconds (now : DateTime) : Int := (now.micros / secondMicros : Nat) - 719162 * 86400

def zoneRecords (domains : Finset String) (target : String) : List Record :=
  (domains.sort (· ≤ ·)).map (⟨·, target⟩)

def renderRpzZone (domains : Finset String) (policyName : String) (now : DateTime) : Zone :=
  ⟨unixSeconds now, "policy: " ++ policyName, zoneRecords domains "."⟩

def renderRpzWhitelist (domains : Finset String) (now : DateTime) : Zone :=
  ⟨unixSeconds now, "whitelist (rpz-passthru)", zoneRecords domains "rpz-passthru."⟩

def emergencyRpz (now : DateTime) : Zone :=
  ⟨unixSeconds now, "BLOCKING DISABLED - emergency mode", []⟩

@[simp] theorem blocks_renderRpzZone (domains : Finset String) (policyName : String)
    (now : DateTime) : (renderRpzZone domains policyName now).blocks = domains := by
  ext domain
  simp [Zone.blocks, renderRpzZone, zoneRecords]

@[simp] theorem blocks_emergencyRpz (now : DateTime) : (emergencyRpz now).blocks = ∅ := rfl

/-- What a writer leaves: the committed database, the files it replaced, and whether it ran to its
end. -/
structure Outcome where
  db : Database
  combined : Option Zone
  whitelist : Option Zone
  completed : Bool
deriving DecidableEq

def Outcome.refused (db : Database) : Outcome := ⟨db, none, none, false⟩

/-! ## The override -/

def isBlockingActive (db : Database) (now : DateTime) : Bool :=
  let state := db.settings.getBlockingState
  if state = "enabled" then true
  else if state = "disabled" then false
  else match PyDateTime.fromisoformat state with
    | some pauseUntil => pauseUntil.utcMicros ≤ now.micros
    | none => true

def setBlockingState (db : Database) (state : String) : Database :=
  { db with settings := db.settings.setBlockingState state }

def blockingDisable (db : Database) (now : DateTime) : Outcome :=
  ⟨setBlockingState db "disabled", some (emergencyRpz now), none, true⟩

def blockingEnable (db : Database) : Outcome :=
  ⟨setBlockingState db "enabled", none, none, true⟩

def blockingPause (db : Database) (now : DateTime) (minutes : Int) : Outcome :=
  if minutes < 1 ∨ minutes > 1440 then .refused db
  else match now.add (minutes * minuteMicros) with
    | some pauseUntil =>
        ⟨setBlockingState db (PyDateTime.isoformat pauseUntil), some (emergencyRpz now), none, true⟩
    | none => .refused db

/-! ## The compiler of the zones -/

/-- What downloading and parsing a list gives: its domains, or the text of the exception. -/
abbrev Fetch := String → String → Except String (Finset String)

def compileZones (sources : List (Source String)) (now : DateTime) : Zone × Zone :=
  let sets := Source.collect sources (∅, ∅)
  (renderRpzZone (sets.1 \ sets.2) "blocklist-combined" now, renderRpzWhitelist sets.2 now)

def regenerateRpz (db : Database) (now : DateTime) : Zone × Zone := compileZones db.sources now

theorem blocks_compileZones (sources : List (Source String)) (now : DateTime) :
    (compileZones sources now).1.blocks = Source.effective sources := by
  simp [compileZones, Source.effective]

theorem blocks_regenerateRpz (db : Database) (now : DateTime) :
    (regenerateRpz db now).1.blocks = db.effectiveBlockSet := blocks_compileZones _ _

/-! ## The update job -/

/-- Whether the update job downloads the list now; `none` is the `OverflowError` of its due time. -/
def isDue (bl : Blocklist) (now : DateTime) : Option Bool :=
  if bl.enabled ∧ 0 < bl.updateFrequencyHours then
    match bl.lastUpdated with
    | none => some true
    | some last => (last.add (bl.updateFrequencyHours * hourMicros)).map (· ≤ now)
  else some false

def markSuccess (bl : Blocklist) (domains : Finset String) (now : DateTime) : Blocklist :=
  { bl with entries := domains, lastUpdateStatus := some "success", lastError := none,
            entryCount := domains.card, lastUpdated := some now }

def markFailed (bl : Blocklist) (error : String) (now : DateTime) : Blocklist :=
  { bl with lastUpdateStatus := some "failed", lastError := some error, lastUpdated := some now }

/-- One pass of the job's loop: the list as it leaves it, and whether it counts as updated. An
entry that its column refuses breaks the transaction, and with it the job. -/
def updateBlocklist (fetch : Fetch) (now : DateTime) (bl : Blocklist) : Option (Blocklist × Bool) := do
  if ← isDue bl now then
    match fetch bl.url bl.format with
    | .ok domains =>
        if ∀ domain ∈ domains, fitsText 255 domain then some (markSuccess bl domains now, true) else none
    | .error error => some (markFailed bl (Python.take 500 error) now, false)
  else some (bl, false)

def updateBlocklistsJob (fetch : Fetch) (now : DateTime) (db : Database) : Outcome :=
  match db.blocklists.mapM (updateBlocklist fetch now) with
  | none => .refused db
  | some results =>
      let updated : Database := { db with blocklists := results.map (·.1) }
      let completed := updated.blocklists.all (·.storable)
      let left := if completed then updated else db
      -- the files are replaced before the commit
      if results.any (·.2) then
        let zones := regenerateRpz updated now
        ⟨left, some zones.1, some zones.2, completed⟩
      else ⟨left, none, none, completed⟩

/-! ## The schedule check -/

def scheduledState (bl : Blocklist) (now : LocalTime) : Bool :=
  if bl.scheduleEnabled then isBlocklistActive bl now else bl.enabled

def runScheduleCheck (zoneInfo : ZoneInfo) (now : DateTime) (db : Database) : Outcome :=
  let localTime := localNow zoneInfo db.settings now
  let checked : Database :=
    { db with blocklists := db.blocklists.map fun bl => { bl with enabled := scheduledState bl localTime } }
  if db.blocklists.any fun bl => scheduledState bl localTime != bl.enabled then
    let zones := regenerateRpz checked now
    ⟨checked, some zones.1, some zones.2, true⟩
  else ⟨db, none, none, true⟩

/-! ## The Apply button -/

def fetchedDomains (fetch : Fetch) (bl : Blocklist) : Finset String :=
  match fetch bl.url bl.format with
  | .ok domains => domains
  | .error _ => ∅

def applyBlocklist (fetch : Fetch) (now : DateTime) (bl : Blocklist) : Blocklist :=
  if bl.enabled then
    match fetch bl.url bl.format with
    | .ok domains => markSuccess bl domains now
    | .error error => markFailed bl error now
  else bl

def blocklistsApply (fetch : Fetch) (now : DateTime) (db : Database) : Outcome :=
  let zones := compileZones
    (manualSources db.manualEntries ++ listSources (fetchedDomains fetch) db.blocklists) now
  let applied : Database := { db with blocklists := db.blocklists.map (applyBlocklist fetch now) }
  let fits := db.blocklists.all fun bl =>
    !bl.enabled || decide (∀ domain ∈ fetchedDomains fetch bl, fitsText 255 domain)
  let completed := fits && applied.blocklists.all (·.storable)
  ⟨if completed then applied else db, some zones.1, some zones.2, completed⟩

end PowerBlockade.Blocking
