import PowerBlockade.Lib.Policy
import PowerBlockade.Columns
import PowerBlockade.Settings
import PowerBlockade.Time

/-!
# Blocklists, manual entries and the block set in effect
-/

namespace PowerBlockade.Blocking
open Lib

structure Blocklist where
  name : String
  url : String
  format : String
  listType : String
  enabled : Bool
  updateFrequencyHours : Int
  lastUpdated : Option DateTime
  lastUpdateStatus : Option String
  lastError : Option String
  entryCount : Nat
  scheduleEnabled : Bool
  scheduleStart : Option String
  scheduleEnd : Option String
  scheduleDays : Option String
  entries : Finset String
deriving DecidableEq

structure ManualEntry where
  domain : String
  entryType : String
deriving DecidableEq

structure Database where
  settings : Settings
  blocklists : List Blocklist
  manualEntries : List ManualEntry
deriving DecidableEq

def Blocklist.source (bl : Blocklist) (names : Finset String) : Source String :=
  ⟨bl.listType = "allow", names⟩

def ManualEntry.source? (entry : ManualEntry) : Option (Source String) :=
  if entry.entryType = "allow" then some ⟨true, {entry.domain}⟩
  else if entry.entryType = "block" then some ⟨false, {entry.domain}⟩
  else none

def manualSources (entries : List ManualEntry) : List (Source String) :=
  entries.filterMap ManualEntry.source?

def listSources (contents : Blocklist → Finset String) (lists : List Blocklist) :
    List (Source String) :=
  (lists.filter (·.enabled)).map fun bl => bl.source (contents bl)

def Database.sources (db : Database) : List (Source String) :=
  manualSources db.manualEntries ++ listSources (·.entries) db.blocklists

/-- What the published zone is for: (enabled block lists and manual blocks) minus (enabled allow
lists and manual allows). -/
def Database.effectiveBlockSet (db : Database) : Finset String := Source.effective db.sources

/-- The changed columns of a row that a commit flushes. -/
def Blocklist.storable (bl : Blocklist) : Bool :=
  (bl.lastError.all storableText) ∧ fitsInteger 32 bl.entryCount

end PowerBlockade.Blocking
