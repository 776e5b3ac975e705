import PowerBlockade.Config.Tables

/-!
# The routes that change the configuration

Each as the tables that its transaction would leave; `step` commits them or leaves the database as
it was.
-/

namespace PowerBlockade.Config
open Lib Blocking

/-! ## Block lists -/

def newBlocklist (name url format listType : String) (updateFrequencyHours : Int) : Blocklist :=
  { name := Python.strip name
    url := Python.strip url
    format := Python.strip format
    listType := Python.strip listType
    enabled := true
    updateFrequencyHours := updateFrequencyHours
    lastUpdated := none
    lastUpdateStatus := none
    lastError := none
    entryCount := 0
    scheduleEnabled := false
    scheduleStart := none
    scheduleEnd := none
    scheduleDays := none
    entries := ∅ }

def recordBlocklist (tables : Tables) (id : Nat) (action : Action) (before after : Option Blocklist) :
    Tables :=
  tables.recordChange (.blocklist ⟨id, action, before.map modelToDict, after.map modelToDict⟩)

def addBlocklist (tables : Tables) (action : Action) (bl : Blocklist) : Tables :=
  recordBlocklist { tables with blocklists := tables.blocklists.insert bl }
    tables.blocklists.nextId action none (some bl)

def editBlocklist (tables : Tables) (id : Nat) (action : Action) (edit : Blocklist → Blocklist) :
    Tables :=
  match tables.blocklists.get id with
  | some bl =>
      recordBlocklist { tables with blocklists := tables.blocklists.set id (edit bl) } id action
        (some bl) (some (edit bl))
  | none => tables

def removeBlocklist (tables : Tables) (id : Nat) (action : Action) : Tables :=
  match tables.blocklists.get id with
  | some bl =>
      recordBlocklist { tables with blocklists := tables.blocklists.erase id } id action (some bl) none
  | none => tables

def blocklistsAdd (tables : Tables) (name url format listType : String) (updateFrequencyHours : Int) :
    Tables :=
  addBlocklist tables .create (newBlocklist name url format listType updateFrequencyHours)

def blocklistsAddPreset (tables : Tables) (name url format listType : String) : Tables :=
  { tables with blocklists := tables.blocklists.insert (newBlocklist name url format listType 24) }

def blocklistsUpdateFrequency (tables : Tables) (id : Nat) (updateFrequencyHours : Int) : Tables :=
  editBlocklist tables id .updateFrequency fun bl =>
    { bl with updateFrequencyHours := updateFrequencyHours }

def blocklistsToggle (tables : Tables) (id : Nat) : Tables :=
  editBlocklist tables id .toggle fun bl => { bl with enabled := !bl.enabled }

def given (text : String) : Option String := if text = "" then none else some (Python.strip text)

def blocklistsUpdateSchedule (tables : Tables) (id : Nat) (scheduleEnabled : Bool)
    (scheduleStart scheduleEnd : String) (scheduleDays : List String) : Tables :=
  editBlocklist tables id .updateSchedule fun bl =>
    { bl with
      scheduleEnabled := scheduleEnabled
      scheduleStart := given scheduleStart
      scheduleEnd := given scheduleEnd
      scheduleDays := if scheduleDays = [] then none else some (",".intercalate scheduleDays) }

def blocklistsDelete (tables : Tables) (id : Nat) : Tables := removeBlocklist tables id .delete

/-- The check at the local time of the configured zone. -/
def runScheduleCheck (tables : Tables) (now : LocalTime) : Tables :=
  { tables with
    blocklists := tables.blocklists.map fun _ bl => { bl with enabled := scheduledState bl now } }

/-! ## Forward zones -/

def recordZone (tables : Tables) (id : Nat) (action : Action) (before after : Option ForwardZone) :
    Tables :=
  tables.recordChange (.forwardZone ⟨id, action, before, after⟩)

def addZone (tables : Tables) (action : Action) (zone : ForwardZone) : Tables :=
  recordZone { tables with forwardZones := tables.forwardZones.insert zone }
    tables.forwardZones.nextId action none (some zone)

def editZone (tables : Tables) (id : Nat) (action : Action) (edit : ForwardZone → ForwardZone) :
    Tables :=
  match tables.forwardZones.get id with
  | some zone =>
      recordZone { tables with forwardZones := tables.forwardZones.set id (edit zone) } id action
        (some zone) (some (edit zone))
  | none => tables

def removeZone (tables : Tables) (id : Nat) (action : Action) : Tables :=
  match tables.forwardZones.get id with
  | some zone =>
      recordZone { tables with forwardZones := tables.forwardZones.erase id } id action (some zone) none
  | none => tables

/-- The `node_id` of the form; text that is no number counts as absent. -/
def nodeIdInt (applyGlobally : Bool) (nodeId : String) : Option Int :=
  if !applyGlobally && nodeId ≠ "" then Python.int nodeId else none

def newZone (domain servers description : String) (nodeId : Option Nat) : ForwardZone :=
  { domain := Python.rstrip '.' (Python.lower (Python.strip domain))
    servers := Python.strip servers
    description := if Python.strip description = "" then none else some (Python.strip description)
    enabled := true
    nodeId := nodeId }

def forwardZonesAdd (tables : Tables) (domain servers description : String) (applyGlobally : Bool)
    (nodeId : String) : Tables :=
  match nodeIdInt applyGlobally nodeId with
  | none => addZone tables .create (newZone domain servers description none)
  | some (.ofNat id) => addZone tables .create (newZone domain servers description (some id))
  -- no node has a negative id, so the foreign key refuses the row
  | some (.negSucc _) => tables

def forwardZonesToggle (tables : Tables) (id : Nat) : Tables :=
  editZone tables id .toggle fun zone => { zone with enabled := !zone.enabled }

def forwardZonesDelete (tables : Tables) (id : Nat) : Tables := removeZone tables id .delete

/-! ## Nodes -/

def nodesGenerate (tables : Tables) (name : String) : Tables :=
  let name := Python.strip name
  if name = "" ∨ name ∈ tables.nodes.values then tables
  else { tables with nodes := tables.nodes.insert name }

/-- The zones of the node go with it. -/
def nodesDelete (tables : Tables) (id : Nat) : Tables :=
  match tables.nodes.get id with
  | some name =>
      if name = "primary" then tables
      else
        { tables with
          nodes := tables.nodes.erase id
          forwardZones := tables.forwardZones.filter fun _ zone => zone.nodeId ≠ some id }
  | none => tables

/-! ## Rollback -/

/-- The branch of `rollback_change` that a change takes, with the data it reads. -/
inductive Rollback (δ : Type)
  | delete (data : δ)
  | update (data : δ)
  | create
  | refused
deriving DecidableEq

def Change.rollback {δ : Type} (change : Change δ) : Rollback δ :=
  match change.action, change.beforeData with
  | .delete, some data => .delete data
  | .create, some data | .toggle, some data | .update, some data | .updateFrequency, some data =>
      .update data
  | .create, none => .create
  | _, _ => .refused

def cannotRollback : String := "Cannot rollback this change type"

def restoredBlocklist (data : BlocklistData) : Blocklist :=
  { name := data.name
    url := data.url
    format := data.format
    listType := data.listType
    enabled := data.enabled
    updateFrequencyHours := data.updateFrequencyHours
    lastUpdated := none
    lastUpdateStatus := none
    lastError := none
    entryCount := 0
    scheduleEnabled := false
    scheduleStart := none
    scheduleEnd := none
    scheduleDays := none
    entries := ∅ }

def revertedBlocklist (data : BlocklistData) (bl : Blocklist) : Blocklist :=
  { bl with
    name := data.name
    enabled := data.enabled
    updateFrequencyHours := data.updateFrequencyHours }

def rollbackBlocklist (tables : Tables) (change : Change BlocklistData) : String × Tables :=
  match change.rollback with
  | .delete data =>
      match tables.blocklists.rows.find? (·.2.url = data.url) with
      | some existing => (s!"Blocklist with URL already exists (id={existing.1})", tables)
      | none =>
          (s!"Restored blocklist: {data.name}",
            addBlocklist tables .rollbackRestore (restoredBlocklist data))
  | .update data =>
      match tables.blocklists.get change.entityId with
      | none => (s!"Blocklist #{change.entityId} not found", tables)
      | some _ =>
          (s!"Rolled back blocklist: {data.name}",
            editBlocklist tables change.entityId .rollbackUpdate (revertedBlocklist data))
  | .create =>
      match tables.blocklists.get change.entityId with
      | none => (s!"Blocklist #{change.entityId} already deleted", tables)
      | some bl =>
          (s!"Deleted blocklist: {bl.name}", removeBlocklist tables change.entityId .rollbackDelete)
  | .refused => (cannotRollback, tables)

def revertedZone (data : ForwardZone) (zone : ForwardZone) : ForwardZone :=
  { zone with
    domain := data.domain
    servers := data.servers
    description := data.description
    enabled := data.enabled }

def rollbackZone (tables : Tables) (change : Change ForwardZone) : String × Tables :=
  match change.rollback with
  | .delete data =>
      match tables.forwardZones.rows.find? (·.2.domain = data.domain) with
      | some existing => (s!"Forward zone for domain already exists (id={existing.1})", tables)
      | none => (s!"Restored forward zone: {data.domain}", addZone tables .rollbackRestore data)
  | .update data =>
      match tables.forwardZones.get change.entityId with
      | none => (s!"Forward zone #{change.entityId} not found", tables)
      | some _ =>
          (s!"Rolled back forward zone: {data.domain}",
            editZone tables change.entityId .rollbackUpdate (revertedZone data))
  | .create =>
      match tables.forwardZones.get change.entityId with
      | none => (s!"Forward zone #{change.entityId} already deleted", tables)
      | some zone =>
          (s!"Deleted forward zone: {zone.domain}",
            removeZone tables change.entityId .rollbackDelete)
  | .refused => (cannotRollback, tables)

/-- The message that the audit page shows, and the tables to commit. -/
def rollbackChange (tables : Tables) (changeId : Nat) : String × Tables :=
  match tables.configChanges.get changeId with
  | none => ("Change not found", tables)
  | some (.blocklist change) => rollbackBlocklist tables change
  | some (.forwardZone change) => rollbackZone tables change
  | some (.other entityType) => (s!"Rollback not supported for {entityType}", tables)

/-! ## The steps of the database -/

inductive EntityType
  | blocklist
  | forwardZone
deriving DecidableEq

inductive Op
  | blocklistsAdd (name url format listType : String) (updateFrequencyHours : Int)
  | blocklistsAddPreset (name url format listType : String)
  | blocklistsUpdateFrequency (id : Nat) (updateFrequencyHours : Int)
  | blocklistsToggle (id : Nat)
  | blocklistsUpdateSchedule (id : Nat) (scheduleEnabled : Bool)
      (scheduleStart scheduleEnd : String) (scheduleDays : List String)
  | blocklistsDelete (id : Nat)
  | runScheduleCheck (now : LocalTime)
  | forwardZonesAdd (domain servers description : String) (applyGlobally : Bool) (nodeId : String)
  | forwardZonesToggle (id : Nat)
  | forwardZonesDelete (id : Nat)
  | nodesGenerate (name : String)
  | nodesDelete (id : Nat)
  | rollbackChange (changeId : Nat)
  -- a change of another type is recorded: a manual entry, the blocking switch
  | otherChange (entityType : String)
  -- a refused insert uses up an id
  | nextval (entityType : EntityType)
deriving DecidableEq

def handle (tables : Tables) : Op → Tables
  | .blocklistsAdd name url format listType hours => blocklistsAdd tables name url format listType hours
  | .blocklistsAddPreset name url format listType => blocklistsAddPreset tables name url format listType
  | .blocklistsUpdateFrequency id hours => blocklistsUpdateFrequency tables id hours
  | .blocklistsToggle id => blocklistsToggle tables id
  | .blocklistsUpdateSchedule id enabled start stop days =>
      blocklistsUpdateSchedule tables id enabled start stop days
  | .blocklistsDelete id => blocklistsDelete tables id
  | .runScheduleCheck now => runScheduleCheck tables now
  | .forwardZonesAdd domain servers description applyGlobally nodeId =>
      forwardZonesAdd tables domain servers description applyGlobally nodeId
  | .forwardZonesToggle id => forwardZonesToggle tables id
  | .forwardZonesDelete id => forwardZonesDelete tables id
  | .nodesGenerate name => nodesGenerate tables name
  | .nodesDelete id => nodesDelete tables id
  | .rollbackChange changeId => (rollbackChange tables changeId).2
  | .otherChange entityType => tables.recordChange (.other entityType)
  | .nextval .blocklist => { tables with blocklists := tables.blocklists.skip }
  | .nextval .forwardZone => { tables with forwardZones := tables.forwardZones.skip }

def step (db : Database) (op : Op) : Database := db.commit (handle db.toTables op)

end PowerBlockade.Config
