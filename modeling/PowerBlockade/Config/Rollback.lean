import PowerBlockade.Config.Steps
import PowerBlockade.Lib.Run

/-!
# Rolling a change back

A change rolled back finds the database as later steps left it. What an edit changed goes back to
what it was, a deletion is undone by an insert, a creation by a deletion.
-/

namespace PowerBlockade.Config
open Lib Blocking

def reached (run : List Op) : Database := run.foldl step Database.empty

theorem reached_append (history later : List Op) :
    reached (history ++ later) = later.foldl step (reached history) := List.foldl_append

/-- The step is the one that recorded the change. -/
def RecordedBy (db : Database) (op : Op) (changeId : Nat) (change : ConfigChange) : Prop :=
  db.configChanges.get changeId = none ∧ (step db op).configChanges.get changeId = some change

/-! ## The log grows -/

theorem configChanges_step (db : Database) (op : Op) :
    (step db op).configChanges = db.configChanges ∨
      ∃ change, (step db op).configChanges = db.configChanges.insert change := by
  refine Database.commit_cases (P := fun tables => tables.configChanges = db.configChanges ∨
    ∃ change, tables.configChanges = db.configChanges.insert change) (.inl rfl) fun _ => ?_
  cases records : op.records with
  | false => exact .inl (configChanges_handle _ records)
  | true =>
      cases recorded_handle db.toTables records with
      | unchanged _ log => exact .inl log
      | other change _ _ log => exact .inr ⟨change, log⟩
      | edited change _ _ _ _ _ _ log => exact .inr ⟨change, log⟩

theorem logged_step {db : Database} {changeId : Nat} {change : ConfigChange}
    (logged : db.configChanges.get changeId = some change) (op : Op) :
    (step db op).configChanges.get changeId = some change := by
  rcases configChanges_step db op with same | ⟨new, inserted⟩
  · rw [same]
    exact logged
  · have older : changeId ≠ db.configChanges.nextId := by
      rintro rfl
      exact absurd (SerialTable.get_nextId.symm.trans logged) (Option.some_ne_none _).symm
    rw [inserted, SerialTable.get_insert, Function.update_of_ne older]
    exact logged

theorem logged_run {db : Database} {changeId : Nat} {change : ConfigChange} (run : List Op)
    (logged : db.configChanges.get changeId = some change) :
    (run.foldl step db).configChanges.get changeId = some change :=
  foldl_preserves (P := fun db : Database => db.configChanges.get changeId = some change) run logged
    fun _ op logged => logged_step logged op

/-- A recorded change holds the entity before the step and after it. -/
theorem RecordedBy.entities {db : Database} {op : Op} {changeId : Nat} {change : ConfigChange}
    {key : Key} (recorded : RecordedBy db op changeId change) (about : change.key = some key) :
    change.beforeImage = db.entity key ∧
      (step db op).entity = Function.update db.entity key change.afterImage ∧ change.Covered := by
  obtain ⟨absent, present⟩ := recorded
  have kept (same : (step db op).configChanges = db.configChanges) : False := by
    rw [same, absent] at present
    exact absurd present (Option.some_ne_none _).symm
  by_cases accepted : (handle db.toTables op).Accepted
  · rw [step, Database.commit_accepted accepted] at present kept ⊢
    have inserted (new : ConfigChange)
        (log : (handle db.toTables op).configChanges = db.configChanges.insert new) : new = change := by
      rw [log, SerialTable.get_insert, Function.update_apply] at present
      split at present
      · exact Option.some.inj present
      · exact absurd (absent.symm.trans present) (Option.some_ne_none _).symm
    cases records : op.records with
    | false => exact (kept (configChanges_handle _ records)).elim
    | true =>
        cases recorded_handle db.toTables records with
        | unchanged _ log => exact (kept log).elim
        | other new other _ log =>
            rw [inserted new log, about] at other
            exact absurd other (Option.some_ne_none _)
        | edited new key' about' was entities _ covered log =>
            obtain rfl := inserted new log
            obtain rfl : key' = key := Option.some.inj (about'.symm.trans about)
            exact ⟨was, entities, covered⟩
  · rw [step, Database.commit_refused accepted] at kept
    exact (kept rfl).elim

/-! ## Domains stay with their ids -/

/-- No step gives a zone another domain, so a recorded one is still the zone's own. -/
def DomainsKept (tables : Tables) : Prop :=
  ∀ change, .forwardZone change ∈ tables.log → change.entityId ≤ tables.forwardZones.lastId ∧
    ∀ data, change.beforeData = some data →
      ∀ zone, tables.forwardZones.get change.entityId = some zone → zone.domain = data.domain

variable {tables after : Tables}

theorem DomainsKept.of_fewer (kept : DomainsKept tables)
    (ids : tables.forwardZones.lastId ≤ after.forwardZones.lastId)
    (zones : ∀ id ≤ tables.forwardZones.lastId, ∀ zone, after.forwardZones.get id = some zone →
      ∃ old, tables.forwardZones.get id = some old ∧ zone.domain = old.domain)
    (log : ∀ change, .forwardZone change ∈ after.log → .forwardZone change ∈ tables.log) :
    DomainsKept after := by
  intro change member
  obtain ⟨bounded, domains⟩ := kept change (log change member)
  refine ⟨bounded.trans ids, fun data recorded zone stored => ?_⟩
  obtain ⟨old, was, same⟩ := zones change.entityId bounded zone stored
  exact same.trans (domains data recorded old was)

theorem domainsKept_recordZone (kept : DomainsKept tables) {forwardZones : SerialTable ForwardZone}
    {id : Nat} {action : Action} {before after : Option ForwardZone}
    (ids : tables.forwardZones.lastId ≤ forwardZones.lastId) (bounded : id ≤ forwardZones.lastId)
    (gets : forwardZones.get = Function.update tables.forwardZones.get id after)
    (fresh : before = none → tables.forwardZones.lastId < id)
    (was : ∀ old, before = some old → tables.forwardZones.get id = some old ∧
      ∀ new, after = some new → new.domain = old.domain) :
    DomainsKept (recordZone { tables with forwardZones := forwardZones } id action before after) := by
  intro change member
  unfold recordZone at member
  rw [log_eq rfl, List.mem_append, List.mem_singleton] at member
  rcases member with older | new
  · obtain ⟨old, domains⟩ := kept change older
    refine ⟨old.trans ids, fun data recorded zone stored => ?_⟩
    change forwardZones.get change.entityId = some zone at stored
    rw [gets, Function.update_apply] at stored
    split at stored
    · rename_i same
      cases earlier : before with
      | none => exact absurd (same ▸ old) (not_le_of_gt (fresh earlier))
      | some old =>
          obtain ⟨here, kept⟩ := was old earlier
          rw [kept zone stored]
          exact domains data recorded old (same ▸ here)
    · exact domains data recorded zone stored
  · cases new
    refine ⟨bounded, fun data recorded zone stored => ?_⟩
    change forwardZones.get id = some zone at stored
    rw [gets, Function.update_self] at stored
    exact (was data recorded).2 zone stored

section Blocklists

theorem domainsKept_recordBlocklist (kept : DomainsKept tables) (blocklists : SerialTable Blocklist)
    (id : Nat) (action : Action) (before after : Option Blocklist) :
    DomainsKept (recordBlocklist { tables with blocklists := blocklists } id action before after) := by
  refine kept.of_fewer le_rfl (fun _ _ zone stored => ⟨zone, stored, rfl⟩) fun change member => ?_
  unfold recordBlocklist at member
  rw [log_eq rfl, List.mem_append, List.mem_singleton] at member
  exact member.resolve_right nofun

theorem domainsKept_addBlocklist (kept : DomainsKept tables) (action : Action) (bl : Blocklist) :
    DomainsKept (addBlocklist tables action bl) := domainsKept_recordBlocklist kept _ _ _ _ _

theorem domainsKept_editBlocklist (kept : DomainsKept tables) (id : Nat) (action : Action)
    (edit : Blocklist → Blocklist) : DomainsKept (editBlocklist tables id action edit) := by
  unfold editBlocklist
  split
  · exact domainsKept_recordBlocklist kept _ _ _ _ _
  · exact kept

theorem domainsKept_removeBlocklist (kept : DomainsKept tables) (id : Nat) (action : Action) :
    DomainsKept (removeBlocklist tables id action) := by
  unfold removeBlocklist
  split
  · exact domainsKept_recordBlocklist kept _ _ _ _ _
  · exact kept

theorem domainsKept_rollbackBlocklist (kept : DomainsKept tables) (change : Change BlocklistData) :
    DomainsKept (rollbackBlocklist tables change).2 := by
  apply rollbackBlocklist_cases change kept
  · exact fun data => domainsKept_addBlocklist kept _ _
  · exact fun data _ => domainsKept_editBlocklist kept _ _ _
  · exact domainsKept_removeBlocklist kept _ _

end Blocklists

section Zones

theorem domainsKept_addZone (kept : DomainsKept tables) (action : Action) (zone : ForwardZone) :
    DomainsKept (addZone tables action zone) :=
  domainsKept_recordZone kept (Nat.le_succ _) le_rfl (SerialTable.get_insert _ _)
    (fun _ => Nat.lt_succ_self _) nofun

theorem domainsKept_editZone (kept : DomainsKept tables) (id : Nat) (action : Action)
    {edit : ForwardZone → ForwardZone}
    (same : ∀ zone, tables.forwardZones.get id = some zone → (edit zone).domain = zone.domain) :
    DomainsKept (editZone tables id action edit) := by
  unfold editZone
  split
  · rename_i zone stored
    have bounded : id ≤ tables.forwardZones.lastId := SerialTable.le_lastId stored
    refine domainsKept_recordZone kept le_rfl bounded (SerialTable.get_set _ stored) nofun ?_
    rintro _ ⟨rfl⟩
    refine ⟨stored, ?_⟩
    rintro _ ⟨rfl⟩
    exact same zone stored
  · exact kept

theorem domainsKept_removeZone (kept : DomainsKept tables) (id : Nat) (action : Action) :
    DomainsKept (removeZone tables id action) := by
  unfold removeZone
  split
  · rename_i zone stored
    have bounded : id ≤ tables.forwardZones.lastId := SerialTable.le_lastId stored
    refine domainsKept_recordZone kept le_rfl bounded (SerialTable.get_erase _ _) nofun ?_
    rintro _ ⟨rfl⟩
    exact ⟨stored, by simp⟩
  · exact kept

theorem Change.beforeData_of_update {δ : Type} {change : Change δ} {data : δ}
    (kind : change.rollback = .update data) : change.beforeData = some data := by
  unfold Change.rollback at kind
  split at kind <;> simp_all

theorem domainsKept_rollbackZone (kept : DomainsKept tables) {change : Change ForwardZone}
    (logged : .forwardZone change ∈ tables.log) : DomainsKept (rollbackZone tables change).2 := by
  apply rollbackZone_cases change kept
  · exact fun data => domainsKept_addZone kept _ _
  · intro data kind
    refine domainsKept_editZone kept _ _ fun zone stored => ?_
    exact ((kept change logged).2 data (Change.beforeData_of_update kind) zone stored).symm
  · exact domainsKept_removeZone kept _ _

theorem domainsKept_forwardZonesAdd (kept : DomainsKept tables) (domain servers description : String)
    (applyGlobally : Bool) (nodeId : String) :
    DomainsKept (forwardZonesAdd tables domain servers description applyGlobally nodeId) := by
  unfold forwardZonesAdd
  split
  · exact domainsKept_addZone kept _ _
  · exact domainsKept_addZone kept _ _
  · exact kept

end Zones

theorem domainsKept_rollbackChange (kept : DomainsKept tables) (changeId : Nat) :
    DomainsKept (rollbackChange tables changeId).2 := by
  unfold rollbackChange
  split
  · exact kept
  · exact domainsKept_rollbackBlocklist kept _
  · rename_i change logged
    exact domainsKept_rollbackZone kept (SerialTable.mem_values.mpr ⟨changeId, logged⟩)
  · exact kept

theorem domainsKept_nodesGenerate (kept : DomainsKept tables) (name : String) :
    DomainsKept (nodesGenerate tables name) := by
  unfold nodesGenerate
  dsimp only
  split
  · exact kept
  · exact kept

theorem domainsKept_nodesDelete (kept : DomainsKept tables) (id : Nat) :
    DomainsKept (nodesDelete tables id) := by
  unfold nodesDelete
  split
  · split
    · exact kept
    · refine kept.of_fewer le_rfl (fun zoneId _ zone stored => ?_) fun _ member => member
      rw [SerialTable.get_filter, Option.filter_eq_some_iff] at stored
      exact ⟨zone, stored.1, rfl⟩
  · exact kept

theorem domainsKept_handle (kept : DomainsKept tables) (op : Op) : DomainsKept (handle tables op) := by
  cases op with
  | blocklistsAdd => exact domainsKept_addBlocklist kept _ _
  | blocklistsAddPreset | runScheduleCheck => exact kept
  | blocklistsUpdateFrequency | blocklistsToggle | blocklistsUpdateSchedule =>
      exact domainsKept_editBlocklist kept _ _ _
  | blocklistsDelete => exact domainsKept_removeBlocklist kept _ _
  | forwardZonesAdd => exact domainsKept_forwardZonesAdd kept _ _ _ _ _
  | forwardZonesToggle => exact domainsKept_editZone kept _ _ fun _ _ => rfl
  | forwardZonesDelete => exact domainsKept_removeZone kept _ _
  | nodesGenerate =>
      rw [handle]
      exact domainsKept_nodesGenerate kept _
  | nodesDelete => exact domainsKept_nodesDelete kept _
  | rollbackChange => exact domainsKept_rollbackChange kept _
  | otherChange entityType =>
      refine kept.of_fewer le_rfl (fun _ _ zone stored => ⟨zone, stored, rfl⟩) fun change member => ?_
      rw [handle, log_eq rfl, List.mem_append, List.mem_singleton] at member
      exact member.resolve_right fun same => by cases same
  | nextval type =>
      cases type with
      | blocklist => exact kept
      | forwardZone =>
          exact kept.of_fewer (Nat.le_succ _) (fun _ _ zone stored => ⟨zone, stored, rfl⟩)
            fun _ member => member

theorem domainsKept_empty : DomainsKept Database.empty.toTables := fun _ member =>
  absurd member List.not_mem_nil

theorem domainsKept_reached (run : List Op) : DomainsKept (reached run).toTables :=
  foldl_preserves (P := fun db : Database => DomainsKept db.toTables) run domainsKept_empty fun _ op kept =>
    Database.commit_cases kept fun _ => domainsKept_handle kept op

/-! ## An edit is rolled back -/

/-- The change was recorded by the step after the history, on an entity that is still there once the
later steps are done. -/
structure Edited (actions : List Action) (history : List Op) (op : Op) (later : List Op)
    (changeId : Nat) (key : Key) (before after now : Image) : Prop where
  change : ∃ change, RecordedBy (reached history) op changeId change ∧ change.key = some key ∧
    ∃ action ∈ actions, change.action? = some action
  before : (reached history).entity key = some before
  after : (reached (history ++ [op])).entity key = some after
  now : (reached (history ++ op :: later)).entity key = some now

def rolledBack (history : List Op) (op : Op) (later : List Op) (changeId : Nat) : Database :=
  step (reached (history ++ op :: later)) (.rollbackChange changeId)

theorem Change.rollback_edit {δ : Type} {change : Change δ} {data : δ} (edit : change.action.isEdit = true)
    (before : change.beforeData = some data) : change.rollback = .update data := by
  unfold Change.rollback
  rw [before]
  cases action : change.action with
  | create | toggle | update | updateFrequency => rfl
  | updateSchedule | delete | rollbackRestore | rollbackUpdate | rollbackDelete =>
      rw [action] at edit
      exact absurd edit (by decide)

theorem rollbackChange_rollbackUpdate {changeId : Nat} {change : ConfigChange}
    (logged : tables.configChanges.get changeId = some change)
    (action : change.action? = some .rollbackUpdate) :
    rollbackChange tables changeId = (cannotRollback, tables) := by
  rw [rollbackChange, logged]
  cases change with
  | blocklist change =>
      have refused : change.rollback = .refused := by
        rw [Change.rollback, Option.some.inj action]
      simp only [rollbackBlocklist, refused]
  | forwardZone change =>
      have refused : change.rollback = .refused := by
        rw [Change.rollback, Option.some.inj action]
      simp only [rollbackZone, refused]
  | other => exact absurd action (Option.some_ne_none _).symm

/-- The rollback went through, and a rollback of it is refused. -/
structure Reverted (db : Database) (changeId : Nat) (key : Key) (result : Image) : Prop where
  entities : (step db (.rollbackChange changeId)).entity = Function.update db.entity key (some result)
  refused : rollbackChange (step db (.rollbackChange changeId)).toTables db.configChanges.nextId =
    (cannotRollback, (step db (.rollbackChange changeId)).toTables)
  unchanged : step (step db (.rollbackChange changeId)) (.rollbackChange db.configChanges.nextId) =
    step db (.rollbackChange changeId)

theorem Reverted.of_logged {db : Database} {changeId : Nat} {key : Key} {result : Image}
    {change : ConfigChange} (accepted : (handle db.toTables (.rollbackChange changeId)).Accepted)
    (entities : (handle db.toTables (.rollbackChange changeId)).entity =
      Function.update db.entity key (some result))
    (log : (handle db.toTables (.rollbackChange changeId)).configChanges =
      db.configChanges.insert change)
    (action : change.action? = some .rollbackUpdate) : Reverted db changeId key result := by
  have logged : (step db (.rollbackChange changeId)).configChanges.get db.configChanges.nextId =
      some change := by
    rw [step, Database.commit_accepted accepted, log, SerialTable.get_insert, Function.update_self]
  have refused := rollbackChange_rollbackUpdate logged action
  refine ⟨?_, refused, ?_⟩
  · rw [step, Database.commit_accepted accepted]
    exact entities
  · rw [step.eq_def (step db _), handle, refused]
    exact Database.commit_self _

theorem get_reverted_blocklist (data : BlocklistData) (bl : Blocklist) (field : Field) :
    (Image.blocklist (modelToDict (revertedBlocklist data bl))).get field =
      if field ∈ restoredFields then (Image.blocklist data).get field
      else (Image.blocklist (modelToDict bl)).get field := by
  cases field <;> rfl

theorem get_reverted_zone (data zone : ForwardZone) (field : Field) :
    (Image.forwardZone (revertedZone data zone)).get field =
      if field ∈ restoredFields then (Image.forwardZone data).get field
      else (Image.forwardZone zone).get field := by
  cases field <;> rfl

theorem storable_reverted_blocklist {old bl : Blocklist} (stored : storableBlocklist bl = true)
    (was : storableBlocklist old = true) :
    storableBlocklist (revertedBlocklist (modelToDict old) bl) = true := by
  simp only [storableBlocklist, decide_eq_true_eq] at stored was ⊢
  exact ⟨was.1, stored.2.1, stored.2.2.1, stored.2.2.2.1, was.2.2.2.2.1, stored.2.2.2.2.2⟩

theorem storable_reverted_zone {old zone : ForwardZone} (was : old.storable = true) :
    (revertedZone old zone).storable = true := was

theorem reverted_blocklist {db : Database} {changeId : Nat} {change : Change BlocklistData}
    {old bl : Blocklist} (logged : db.configChanges.get changeId = some (.blocklist change))
    (kind : change.rollback = .update (modelToDict old))
    (stored : db.blocklists.get change.entityId = some bl) (storable : storableBlocklist old = true) :
    Reverted db changeId (.blocklist, change.entityId)
      (.blocklist (modelToDict (revertedBlocklist (modelToDict old) bl))) := by
  have after : handle db.toTables (.rollbackChange changeId) =
      recordBlocklist
        { db.toTables with
          blocklists := db.blocklists.set change.entityId (revertedBlocklist (modelToDict old) bl) }
        change.entityId .rollbackUpdate (some bl) (some (revertedBlocklist (modelToDict old) bl)) := by
    simp only [handle, rollbackChange, logged, rollbackBlocklist, kind, stored, editBlocklist]
  refine Reverted.of_logged ?_ ?_ (congrArg Tables.configChanges after) rfl
  · rw [after]
    refine Tables.accepted_recordChange.mpr (Tables.accepted_map_blocklists db.accepted ?_ ?_)
    · intro id other found
      split
      · rename_i same
        obtain rfl : bl = other := Option.some.inj (stored.symm.trans (same ▸ found))
        rfl
      · rfl
    · intro id other found
      have fits := db.accepted.blocklists other (SerialTable.mem_values.mpr ⟨id, found⟩)
      split
      · rename_i same
        obtain rfl : bl = other := Option.some.inj (stored.symm.trans (same ▸ found))
        exact storable_reverted_blocklist fits storable
      · exact fits
  · rw [after]
    exact entity_blocklists db.toTables (SerialTable.get_set _ stored)

theorem reverted_zone {db : Database} {changeId : Nat} {change : Change ForwardZone}
    {old zone : ForwardZone} (logged : db.configChanges.get changeId = some (.forwardZone change))
    (kind : change.rollback = .update old)
    (stored : db.forwardZones.get change.entityId = some zone) (storable : old.storable = true)
    (domain : zone.domain = old.domain) :
    Reverted db changeId (.forwardZone, change.entityId) (.forwardZone (revertedZone old zone)) := by
  have after : handle db.toTables (.rollbackChange changeId) =
      recordZone
        { db.toTables with
          forwardZones := db.forwardZones.set change.entityId (revertedZone old zone) }
        change.entityId .rollbackUpdate (some zone) (some (revertedZone old zone)) := by
    simp only [handle, rollbackChange, logged, rollbackZone, kind, stored, editZone]
  refine Reverted.of_logged ?_ ?_ (congrArg Tables.configChanges after) rfl
  · rw [after]
    refine Tables.accepted_recordChange.mpr (Tables.accepted_map_zones db.accepted ?_ ?_)
    · intro id other found
      split
      · rename_i same
        obtain rfl : zone = other := Option.some.inj (stored.symm.trans (same ▸ found))
        exact ⟨domain.symm, rfl⟩
      · exact ⟨rfl, rfl⟩
    · intro id other found
      split
      · exact storable_reverted_zone storable
      · exact (db.accepted.forwardZones other (SerialTable.mem_values.mpr ⟨id, found⟩)).1
  · rw [after]
    exact entity_forwardZones db.toTables (SerialTable.get_set _ stored)

def edits : List Action := [.toggle, .update, .updateFrequency]

/-- The rollback of an edit sets the name, the switch and the frequency of a list, and all but the
node of a zone, to what they were; the edit had changed no other field. It leaves the rest as it is
now, and cannot itself be rolled back. -/
theorem rollback_restores (history : List Op) (op : Op) (later : List Op) (changeId : Nat) (key : Key)
    (before after now : Image) (edited : Edited edits history op later changeId key before after now) :
    ∃ result, Reverted (reached (history ++ op :: later)) changeId key result ∧
      ∀ field, result.get field =
        if field ∈ restoredFields ∨ before.get field ≠ after.get field then before.get field
        else now.get field := by
  obtain ⟨⟨change, recorded, about, action, isEdit, same⟩, was, became, present⟩ := edited
  have step_eq : reached (history ++ [op]) = step (reached history) op := reached_append history [op]
  obtain ⟨beforeImage, entities, covered⟩ := recorded.entities about
  rw [was] at beforeImage
  have afterImage : change.afterImage = some after := by
    rw [← became, step_eq, entities, Function.update_self]
  have isEdit : change.action?.any Action.isEdit = true := by
    rw [same]
    exact decide_eq_true isEdit
  have fields (result : Image) (restored : ∀ field, result.get field =
      if field ∈ restoredFields then before.get field else now.get field) (field : Field) :
      result.get field = if field ∈ restoredFields ∨ before.get field ≠ after.get field
        then before.get field else now.get field := by
    rw [restored]
    by_cases sets : field ∈ restoredFields
    · rw [if_pos sets, if_pos (.inl sets)]
    · have unchanged := covered isEdit before after beforeImage afterImage field sets
      rw [if_neg sets, if_neg (not_or.mpr ⟨sets, not_not_intro unchanged⟩)]
  have logged : (reached (history ++ op :: later)).configChanges.get changeId = some change := by
    rw [reached_append]
    exact logged_run later recorded.2
  cases change with
  | other => exact absurd about (Option.some_ne_none _).symm
  | blocklist change =>
      obtain rfl := Option.some.inj about
      obtain ⟨old, stored, rfl⟩ := Option.map_eq_some_iff.mp was
      obtain ⟨bl, here, rfl⟩ := Option.map_eq_some_iff.mp present
      obtain ⟨_, recordedData, ⟨rfl⟩⟩ := Option.map_eq_some_iff.mp beforeImage
      refine ⟨_, reverted_blocklist logged (Change.rollback_edit isEdit recordedData) here ?_, ?_⟩
      · exact (reached history).accepted.blocklists old (SerialTable.mem_values.mpr ⟨_, stored⟩)
      · exact fields _ (get_reverted_blocklist _ bl)
  | forwardZone change =>
      obtain rfl := Option.some.inj about
      obtain ⟨old, stored, rfl⟩ := Option.map_eq_some_iff.mp was
      obtain ⟨zone, here, rfl⟩ := Option.map_eq_some_iff.mp present
      obtain ⟨_, recordedData, ⟨rfl⟩⟩ := Option.map_eq_some_iff.mp beforeImage
      have kept := (domainsKept_reached (history ++ op :: later) change
        (SerialTable.mem_values.mpr ⟨changeId, logged⟩)).2
      refine ⟨_, reverted_zone logged (Change.rollback_edit isEdit recordedData) here ?_ ?_, ?_⟩
      · exact ((reached history).accepted.forwardZones old (SerialTable.mem_values.mpr ⟨_, stored⟩)).1
      · exact kept old recordedData zone here
      · exact fields _ (get_reverted_zone old zone)

/-! ### A list is switched off, then updated less often -/

def adsData : BlocklistData :=
  { name := "Ads"
    url := "https://lists.example/ads.txt"
    format := "domains"
    listType := "block"
    enabled := true
    updateFrequencyHours := 24
    scheduleEnabled := false
    scheduleStart := none
    scheduleEnd := none
    scheduleDays := none }

def addsAds : Op := .blocklistsAdd "Ads" "https://lists.example/ads.txt" "domains" "block" 24

def disabledAds : BlocklistData := { adsData with enabled := false }

def weeklyAds : BlocklistData := { disabledAds with updateFrequencyHours := 168 }

theorem edited_ads (actions : List Action) (toggle : .toggle ∈ actions) :
    Edited actions [addsAds] (.blocklistsToggle 1) [.blocklistsUpdateFrequency 1 168] 2 (.blocklist, 1)
      (.blocklist adsData) (.blocklist disabledAds) (.blocklist weeklyAds) where
  change := ⟨.blocklist ⟨1, .toggle, some adsData, some disabledAds⟩,
    ⟨by decide +kernel, by decide +kernel⟩, rfl, .toggle, toggle, rfl⟩
  before := by decide +kernel
  after := by decide +kernel
  now := by decide +kernel

theorem rollback_of_toggle_resets_frequency :
    ¬ ∀ (history : List Op) (op : Op) (later : List Op) (changeId : Nat) (key : Key)
      (before after now : Image),
      Edited [.toggle, .update, .updateFrequency, .updateSchedule] history op later changeId key before
        after now →
      (∃ result, (rolledBack history op later changeId).entity =
          Function.update (reached (history ++ op :: later)).entity key (some result) ∧
        ∀ field, result.get field =
          if before.get field = after.get field then now.get field else before.get field) ∧
      (step (rolledBack history op later changeId)
        (.rollbackChange (reached (history ++ op :: later)).configChanges.nextId)).entity =
          (reached (history ++ op :: later)).entity := by
  intro exactly
  obtain ⟨⟨result, entities, fields⟩, -⟩ := exactly _ _ _ _ _ _ _ _ (edited_ads _ (by decide))
  have daily : (rolledBack [addsAds] (.blocklistsToggle 1) [.blocklistsUpdateFrequency 1 168] 2).entity
      (.blocklist, 1) = some (.blocklist adsData) := by decide +kernel
  rw [entities, Function.update_self] at daily
  rw [Option.some.inj daily] at fields
  exact absurd (fields .updateFrequencyHours) (by decide)

theorem rollback_restores_ads :
    ∃ result, Reverted (reached ([addsAds] ++ .blocklistsToggle 1 :: [.blocklistsUpdateFrequency 1 168])) 2
        (.blocklist, 1) result ∧
      ∀ field, result.get field =
        if field ∈ restoredFields ∨
            (Image.blocklist adsData).get field ≠ (Image.blocklist disabledAds).get field
        then (Image.blocklist adsData).get field else (Image.blocklist weeklyAds).get field :=
  rollback_restores [addsAds] (.blocklistsToggle 1) [.blocklistsUpdateFrequency 1 168] 2 (.blocklist, 1)
    (.blocklist adsData) (.blocklist disabledAds) (.blocklist weeklyAds) (edited_ads edits (by decide))

end PowerBlockade.Config
