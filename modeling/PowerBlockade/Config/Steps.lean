import PowerBlockade.Config.Routes

/-!
# What a step does to the entities and the log

Each entity has a key, its type and id. A step that records changes the entity of one key, and says
what it was and what it became.
-/

namespace PowerBlockade.Config
open Lib Blocking

/-! ## What a rollback does -/

/-- A rollback adds, edits or removes one row, or leaves the tables. -/
theorem rollbackBlocklist_cases {P : Tables → Prop} {tables : Tables} (change : Change BlocklistData) (same : P tables)
    (adds : ∀ data, P (addBlocklist tables .rollbackRestore (restoredBlocklist data)))
    (edits : ∀ data, change.rollback = .update data →
      P (editBlocklist tables change.entityId .rollbackUpdate (revertedBlocklist data)))
    (removes : P (removeBlocklist tables change.entityId .rollbackDelete)) :
    P (rollbackBlocklist tables change).2 := by
  unfold rollbackBlocklist
  cases kind : change.rollback with
  | delete data =>
      dsimp only
      split
      · exact same
      · exact adds data
  | update data =>
      dsimp only
      split
      · exact same
      · exact edits data kind
  | create =>
      dsimp only
      split
      · exact same
      · exact removes
  | refused => exact same

theorem rollbackZone_cases {P : Tables → Prop} {tables : Tables} (change : Change ForwardZone) (same : P tables)
    (adds : ∀ data, P (addZone tables .rollbackRestore data))
    (edits : ∀ data, change.rollback = .update data →
      P (editZone tables change.entityId .rollbackUpdate (revertedZone data)))
    (removes : P (removeZone tables change.entityId .rollbackDelete)) :
    P (rollbackZone tables change).2 := by
  unfold rollbackZone
  cases kind : change.rollback with
  | delete data =>
      dsimp only
      split
      · exact same
      · exact adds data
  | update data =>
      dsimp only
      split
      · exact same
      · exact edits data kind
  | create =>
      dsimp only
      split
      · exact same
      · exact removes
  | refused => exact same

/-! ## Entities -/

inductive Field
  | name
  | url
  | format
  | listType
  | enabled
  | updateFrequencyHours
  | scheduleEnabled
  | scheduleStart
  | scheduleEnd
  | scheduleDays
  | domain
  | servers
  | description
  | nodeId
deriving DecidableEq

inductive Value
  | text (text : Option String)
  | flag (flag : Bool)
  | number (number : Int)
  | owner (nodeId : Option Nat)
deriving DecidableEq

inductive Image
  | blocklist (data : BlocklistData)
  | forwardZone (zone : ForwardZone)
deriving DecidableEq

namespace Image

/-- `none` for a field of the other type. -/
def get : Image → Field → Option Value
  | blocklist data, .name => some (.text data.name)
  | blocklist data, .url => some (.text data.url)
  | blocklist data, .format => some (.text data.format)
  | blocklist data, .listType => some (.text data.listType)
  | blocklist data, .enabled => some (.flag data.enabled)
  | blocklist data, .updateFrequencyHours => some (.number data.updateFrequencyHours)
  | blocklist data, .scheduleEnabled => some (.flag data.scheduleEnabled)
  | blocklist data, .scheduleStart => some (.text data.scheduleStart)
  | blocklist data, .scheduleEnd => some (.text data.scheduleEnd)
  | blocklist data, .scheduleDays => some (.text data.scheduleDays)
  | forwardZone zone, .domain => some (.text zone.domain)
  | forwardZone zone, .servers => some (.text zone.servers)
  | forwardZone zone, .description => some (.text zone.description)
  | forwardZone zone, .enabled => some (.flag zone.enabled)
  | forwardZone zone, .nodeId => some (.owner zone.nodeId)
  | _, _ => none

end Image

abbrev Key := EntityType × Nat

/-- The user-editable fields of an entity. -/
def Tables.entity (tables : Tables) : Key → Option Image
  | (.blocklist, id) => (tables.blocklists.get id).map fun bl => .blocklist (modelToDict bl)
  | (.forwardZone, id) => (tables.forwardZones.get id).map .forwardZone

/-! ## Changes -/

/-- The fields that the rollback of an edit sets. -/
def restoredFields : List Field := [.name, .enabled, .updateFrequencyHours, .domain, .servers, .description]

def Action.isEdit (action : Action) : Bool := action ∈ [.toggle, .update, .updateFrequency]

namespace ConfigChange

def key : ConfigChange → Option Key
  | blocklist change => some (.blocklist, change.entityId)
  | forwardZone change => some (.forwardZone, change.entityId)
  | other _ => none

def beforeImage : ConfigChange → Option Image
  | blocklist change => change.beforeData.map .blocklist
  | forwardZone change => change.beforeData.map .forwardZone
  | other _ => none

def afterImage : ConfigChange → Option Image
  | blocklist change => change.afterData.map .blocklist
  | forwardZone change => change.afterData.map .forwardZone
  | other _ => none

def action? : ConfigChange → Option Action
  | blocklist change => some change.action
  | forwardZone change => some change.action
  | other _ => none

def isDelete (change : ConfigChange) : Prop :=
  change.action? = some .delete ∨ change.action? = some .rollbackDelete

/-- An edit that a rollback supports changes only fields that the rollback sets. -/
def Covered (change : ConfigChange) : Prop :=
  change.action?.any Action.isEdit → ∀ before after, change.beforeImage = some before →
    change.afterImage = some after → ∀ field ∉ restoredFields, before.get field = after.get field

end ConfigChange

/-! ## Steps that record -/

/-- The step changes no entity, or one entity with a record of what it was and became. -/
inductive Recorded (tables after : Tables) : Prop
  | unchanged (entities : after.entity = tables.entity)
      (log : after.configChanges = tables.configChanges)
  | other (change : ConfigChange) (about : change.key = none) (entities : after.entity = tables.entity)
      (log : after.configChanges = tables.configChanges.insert change)
  | edited (change : ConfigChange) (key : Key) (about : change.key = some key)
      (was : change.beforeImage = tables.entity key)
      (entities : after.entity = Function.update tables.entity key change.afterImage)
      (deleted : change.afterImage = none → change.isDelete) (covered : change.Covered)
      (log : after.configChanges = tables.configChanges.insert change)

theorem log_eq {tables after : Tables} {change : ConfigChange}
    (log : after.configChanges = tables.configChanges.insert change) :
    after.log = tables.log ++ [change] := by
  rw [Tables.log, log]
  exact SerialTable.values_insert _ _

variable (tables : Tables)

theorem entity_blocklists {blocklists : SerialTable Blocklist} {id : Nat} {found : Option Blocklist}
    (gets : blocklists.get = Function.update tables.blocklists.get id found) :
    Tables.entity { tables with blocklists := blocklists } =
      Function.update tables.entity (.blocklist, id) (found.map fun bl => .blocklist (modelToDict bl)) := by
  funext ⟨type, other⟩
  cases type with
  | blocklist => simp only [Tables.entity, gets, Function.update_apply, Prod.mk.injEq, true_and]; split <;> rfl
  | forwardZone => rfl

theorem entity_forwardZones {forwardZones : SerialTable ForwardZone} {id : Nat}
    {found : Option ForwardZone}
    (gets : forwardZones.get = Function.update tables.forwardZones.get id found) :
    Tables.entity { tables with forwardZones := forwardZones } =
      Function.update tables.entity (.forwardZone, id) (found.map .forwardZone) := by
  funext ⟨type, other⟩
  cases type with
  | blocklist => rfl
  | forwardZone =>
      simp only [Tables.entity, gets, Function.update_apply, Prod.mk.injEq, true_and]
      split <;> rfl

section Blocklists

variable {blocklists : SerialTable Blocklist} {id : Nat} {action : Action}
  {before after : Option Blocklist}

theorem recorded_recordBlocklist (was : tables.blocklists.get id = before)
    (gets : blocklists.get = Function.update tables.blocklists.get id after)
    (deleted : after = none → action = .delete ∨ action = .rollbackDelete)
    (covered : action.isEdit → ∀ old new, before = some old → after = some new →
      ∀ field ∉ restoredFields, (Image.blocklist (modelToDict old)).get field =
        (Image.blocklist (modelToDict new)).get field) :
    Recorded tables
      (recordBlocklist { tables with blocklists := blocklists } id action before after) := by
  refine .edited (.blocklist ⟨id, action, before.map modelToDict, after.map modelToDict⟩)
    (.blocklist, id) rfl ?_ ?_ ?_ ?_ rfl
  · rw [ConfigChange.beforeImage, Option.map_map, ← was]
    rfl
  · refine (entity_blocklists tables gets).trans (congrArg _ ?_)
    exact (Option.map_map ..).symm
  · intro gone
    rcases deleted (by simpa [ConfigChange.afterImage] using gone) with rfl | rfl
    · exact .inl rfl
    · exact .inr rfl
  · intro edit old new oldImage newImage
    simp only [ConfigChange.beforeImage, ConfigChange.afterImage, Option.map_map,
      Option.map_eq_some_iff] at oldImage newImage
    obtain ⟨old, rfl, rfl⟩ := oldImage
    obtain ⟨new, rfl, rfl⟩ := newImage
    exact covered edit old new rfl rfl

theorem recorded_addBlocklist (action : Action) (bl : Blocklist) :
    Recorded tables (addBlocklist tables action bl) :=
  recorded_recordBlocklist tables SerialTable.get_nextId (SerialTable.get_insert _ _) (by simp) (by simp)

theorem recorded_editBlocklist (id : Nat) {action : Action} {edit : Blocklist → Blocklist}
    (covered : action.isEdit → ∀ bl, ∀ field ∉ restoredFields,
      (Image.blocklist (modelToDict bl)).get field = (Image.blocklist (modelToDict (edit bl))).get field) :
    Recorded tables (editBlocklist tables id action edit) := by
  unfold editBlocklist
  split
  · rename_i bl stored
    refine recorded_recordBlocklist tables stored (SerialTable.get_set _ stored) (by simp) ?_
    rintro isEdit _ _ ⟨rfl⟩ ⟨rfl⟩
    exact covered isEdit bl
  · exact .unchanged rfl rfl

theorem recorded_removeBlocklist (id : Nat) (deletes : action = .delete ∨ action = .rollbackDelete) :
    Recorded tables (removeBlocklist tables id action) := by
  unfold removeBlocklist
  split
  · rename_i bl stored
    exact recorded_recordBlocklist tables stored (SerialTable.get_erase _ _) (fun _ => deletes) (by simp)
  · exact .unchanged rfl rfl

theorem recorded_blocklistsToggle (id : Nat) : Recorded tables (blocklistsToggle tables id) := by
  apply recorded_editBlocklist
  intro _ bl field other
  cases field <;> first | rfl | exact absurd (by decide) other

theorem recorded_blocklistsUpdateFrequency (id : Nat) (hours : Int) :
    Recorded tables (blocklistsUpdateFrequency tables id hours) := by
  apply recorded_editBlocklist
  intro _ bl field other
  cases field <;> first | rfl | exact absurd (by decide) other

theorem recorded_blocklistsUpdateSchedule (id : Nat) (enabled : Bool) (start stop : String)
    (days : List String) :
    Recorded tables (blocklistsUpdateSchedule tables id enabled start stop days) :=
  recorded_editBlocklist tables id nofun

theorem recorded_rollbackBlocklist (change : Change BlocklistData) :
    Recorded tables (rollbackBlocklist tables change).2 := by
  apply rollbackBlocklist_cases change
  · exact .unchanged rfl rfl
  · exact fun data => recorded_addBlocklist tables _ _
  · exact fun data _ => recorded_editBlocklist tables _ nofun
  · exact recorded_removeBlocklist tables _ (.inr rfl)

end Blocklists

section Zones

variable {forwardZones : SerialTable ForwardZone} {id : Nat} {action : Action}
  {before after : Option ForwardZone}

theorem recorded_recordZone (was : tables.forwardZones.get id = before)
    (gets : forwardZones.get = Function.update tables.forwardZones.get id after)
    (deleted : after = none → action = .delete ∨ action = .rollbackDelete)
    (covered : action.isEdit → ∀ old new, before = some old → after = some new →
      ∀ field ∉ restoredFields, (Image.forwardZone old).get field = (Image.forwardZone new).get field) :
    Recorded tables
      (recordZone { tables with forwardZones := forwardZones } id action before after) := by
  refine .edited (.forwardZone ⟨id, action, before, after⟩) (.forwardZone, id) rfl ?_
    (entity_forwardZones tables gets) ?_ ?_ rfl
  · rw [ConfigChange.beforeImage, ← was]
    rfl
  · intro gone
    rcases deleted (by simpa [ConfigChange.afterImage] using gone) with rfl | rfl
    · exact .inl rfl
    · exact .inr rfl
  · intro edit old new oldImage newImage
    simp only [ConfigChange.beforeImage, ConfigChange.afterImage, Option.map_eq_some_iff]
      at oldImage newImage
    obtain ⟨old, rfl, rfl⟩ := oldImage
    obtain ⟨new, rfl, rfl⟩ := newImage
    exact covered edit old new rfl rfl

theorem recorded_addZone (action : Action) (zone : ForwardZone) :
    Recorded tables (addZone tables action zone) :=
  recorded_recordZone tables SerialTable.get_nextId (SerialTable.get_insert _ _) (by simp) (by simp)

theorem recorded_editZone (id : Nat) {action : Action} {edit : ForwardZone → ForwardZone}
    (covered : action.isEdit → ∀ zone, ∀ field ∉ restoredFields,
      (Image.forwardZone zone).get field = (Image.forwardZone (edit zone)).get field) :
    Recorded tables (editZone tables id action edit) := by
  unfold editZone
  split
  · rename_i zone stored
    refine recorded_recordZone tables stored (SerialTable.get_set _ stored) (by simp) ?_
    rintro isEdit _ _ ⟨rfl⟩ ⟨rfl⟩
    exact covered isEdit zone
  · exact .unchanged rfl rfl

theorem recorded_removeZone (id : Nat) (deletes : action = .delete ∨ action = .rollbackDelete) :
    Recorded tables (removeZone tables id action) := by
  unfold removeZone
  split
  · rename_i zone stored
    exact recorded_recordZone tables stored (SerialTable.get_erase _ _) (fun _ => deletes) (by simp)
  · exact .unchanged rfl rfl

theorem recorded_forwardZonesToggle (id : Nat) : Recorded tables (forwardZonesToggle tables id) := by
  apply recorded_editZone
  intro _ zone field other
  cases field <;> first | rfl | exact absurd (by decide) other

theorem recorded_rollbackZone (change : Change ForwardZone) :
    Recorded tables (rollbackZone tables change).2 := by
  apply rollbackZone_cases change
  · exact .unchanged rfl rfl
  · exact fun data => recorded_addZone tables _ _
  · exact fun data _ => recorded_editZone tables _ nofun
  · exact recorded_removeZone tables _ (.inr rfl)

theorem recorded_forwardZonesAdd (domain servers description : String) (applyGlobally : Bool)
    (nodeId : String) :
    Recorded tables (forwardZonesAdd tables domain servers description applyGlobally nodeId) := by
  unfold forwardZonesAdd
  split
  · exact recorded_addZone tables _ _
  · exact recorded_addZone tables _ _
  · exact .unchanged rfl rfl

end Zones

theorem recorded_rollbackChange (changeId : Nat) :
    Recorded tables (rollbackChange tables changeId).2 := by
  unfold rollbackChange
  split
  · exact .unchanged rfl rfl
  · exact recorded_rollbackBlocklist tables _
  · exact recorded_rollbackZone tables _
  · exact .unchanged rfl rfl

theorem recorded_nodesGenerate (name : String) : Recorded tables (nodesGenerate tables name) := by
  unfold nodesGenerate
  dsimp only
  split
  · exact .unchanged rfl rfl
  · exact .unchanged rfl rfl

/-! ## Every step -/

/-- All but three steps record. -/
def Op.records : Op → Bool
  | .blocklistsAddPreset .. | .runScheduleCheck _ | .nodesDelete _ => false
  | _ => true

theorem recorded_handle {op : Op} (records : op.records = true) : Recorded tables (handle tables op) := by
  cases op with
  | blocklistsAddPreset | runScheduleCheck | nodesDelete => exact absurd records Bool.false_ne_true
  | blocklistsAdd => exact recorded_addBlocklist _ _ _
  | blocklistsUpdateFrequency => exact recorded_blocklistsUpdateFrequency _ _ _
  | blocklistsToggle => exact recorded_blocklistsToggle _ _
  | blocklistsUpdateSchedule => exact recorded_blocklistsUpdateSchedule _ _ _ _ _ _
  | blocklistsDelete => exact recorded_removeBlocklist _ _ (.inl rfl)
  | forwardZonesAdd => exact recorded_forwardZonesAdd _ _ _ _ _ _
  | forwardZonesToggle => exact recorded_forwardZonesToggle _ _
  | forwardZonesDelete => exact recorded_removeZone _ _ (.inl rfl)
  | nodesGenerate => exact recorded_nodesGenerate _ _
  | rollbackChange => exact recorded_rollbackChange _ _
  | otherChange => exact .other _ rfl rfl rfl
  | nextval type =>
      cases type with
      | blocklist | forwardZone => exact .unchanged rfl rfl

theorem configChanges_handle {op : Op} (silent : op.records = false) :
    (handle tables op).configChanges = tables.configChanges := by
  cases op with
  | blocklistsAddPreset | runScheduleCheck => rfl
  | nodesDelete id =>
      rw [handle, nodesDelete]
      split
      · split
        · rfl
        · rfl
      · rfl
  | _ => exact absurd silent.symm Bool.false_ne_true

end PowerBlockade.Config
