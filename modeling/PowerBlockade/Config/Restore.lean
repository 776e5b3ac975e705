import PowerBlockade.Config.Rollback

/-!
# Deletions and creations rolled back

A deleted entity comes back under another id. The insert that restores a list sets no schedule, and
the constraints refuse a zone whose node is gone.
-/

namespace PowerBlockade.Config
open Lib Blocking

/-- The URL or the domain, which no two entities of a type share. -/
def Image.address : Image → EntityType × String
  | blocklist data => (.blocklist, data.url)
  | forwardZone zone => (.forwardZone, zone.domain)

/-- The step after the history deleted the entity, and no later one has its address. -/
structure Deleted (history : List Op) (op : Op) (later : List Op) (changeId : Nat) (key : Key)
    (before : Image) : Prop where
  change : ∃ change, RecordedBy (reached history) op changeId change ∧ change.key = some key ∧
    change.action? = some .delete
  was : (reached history).entity key = some before
  fresh : ∀ other image, (reached (history ++ op :: later)).entity other = some image →
    image.address ≠ before.address

def Restored (history : List Op) (op : Op) (later : List Op) (changeId : Nat) (before : Image) : Prop :=
  ∃ key, (rolledBack history op later changeId).entity key = some before

def Restorable (tables : Tables) : Image → Prop
  | .blocklist data => data.scheduleEnabled = false ∧ data.scheduleStart = none ∧
      data.scheduleEnd = none ∧ data.scheduleDays = none
  | .forwardZone zone => tables.owned zone = true

def Op.creates : Op → Bool
  | .blocklistsAdd .. | .blocklistsAddPreset .. | .forwardZonesAdd .. => true
  | _ => false

/-- The step after the history is a route that created the entity. -/
structure Created (history : List Op) (op : Op) (key : Key) (image : Image) : Prop where
  creates : op.creates = true
  before : (reached history).entity key = none
  after : (reached (history ++ [op])).entity key = some image

/-- Some change records the creation; its rollback takes the entity away, and nothing else. -/
def CreationUndone (history : List Op) (op : Op) (key : Key) : Prop :=
  ∃ changeId change, RecordedBy (reached history) op changeId change ∧ change.key = some key ∧
    (rolledBack history op [] changeId).entity = (reached history).entity ∧
    ∀ later, (rolledBack history op later changeId).entity =
      Function.update (reached (history ++ op :: later)).entity key none

/-! ## Deletions -/

variable {db : Database} {changeId : Nat}

theorem Change.rollback_delete {δ : Type} {change : Change δ} {data : δ} (action : change.action = .delete)
    (before : change.beforeData = some data) : change.rollback = .delete data := by
  rw [Change.rollback, action, before]

theorem entity_addBlocklist (tables : Tables) (action : Action) (bl : Blocklist) :
    (addBlocklist tables action bl).entity = Function.update tables.entity
      (.blocklist, tables.blocklists.nextId) (some (.blocklist (modelToDict bl))) :=
  entity_blocklists tables (SerialTable.get_insert _ _)

theorem entity_addZone (tables : Tables) (action : Action) (zone : ForwardZone) :
    (addZone tables action zone).entity = Function.update tables.entity
      (.forwardZone, tables.forwardZones.nextId) (some (.forwardZone zone)) :=
  entity_forwardZones tables (SerialTable.get_insert _ _)

theorem restored_blocklist {change : Change BlocklistData} {old : Blocklist}
    (logged : db.configChanges.get changeId = some (.blocklist change))
    (kind : change.rollback = .delete (modelToDict old)) (storable : storableBlocklist old = true)
    (fresh : ∀ bl ∈ db.blocklists.values, bl.url ≠ old.url) :
    (step db (.rollbackChange changeId)).entity = Function.update db.entity
      (.blocklist, db.blocklists.nextId)
      (some (.blocklist (modelToDict (restoredBlocklist (modelToDict old))))) := by
  have absent : db.blocklists.rows.find? (·.2.url = old.url) = none := by
    rw [List.find?_eq_none]
    intro row member
    exact fun same => fresh row.2 (List.mem_map_of_mem member) (of_decide_eq_true same)
  have after : handle db.toTables (.rollbackChange changeId) =
      addBlocklist db.toTables .rollbackRestore (restoredBlocklist (modelToDict old)) := by
    simp only [handle, rollbackChange, logged, rollbackBlocklist, kind]
    rw [show (modelToDict old).url = old.url from rfl, absent]
  have takes : db.TakesBlocklist (restoredBlocklist (modelToDict old)) := by
    refine ⟨fun member => ?_, ?_⟩
    · obtain ⟨bl, there, same⟩ := List.mem_map.mp member
      exact fresh bl there same
    · simp only [storableBlocklist, decide_eq_true_eq] at storable ⊢
      exact ⟨storable.1, storable.2.1, storable.2.2.1, storable.2.2.2.1, storable.2.2.2.2.1, rfl, rfl, rfl⟩
  have accepted : (handle db.toTables (.rollbackChange changeId)).Accepted := by
    rw [after]
    exact Tables.accepted_recordChange.mpr ((Tables.accepted_insert_blocklist db.accepted).mpr takes)
  rw [step, Database.commit_accepted accepted, after]
  exact entity_addBlocklist _ _ _

theorem restored_zone {change : Change ForwardZone} {zone : ForwardZone}
    (logged : db.configChanges.get changeId = some (.forwardZone change))
    (kind : change.rollback = .delete zone) (storable : zone.storable = true)
    (fresh : ∀ other ∈ db.forwardZones.values, other.domain ≠ zone.domain) :
    (step db (.rollbackChange changeId)).entity =
      if db.owned zone = true then
        Function.update db.entity (.forwardZone, db.forwardZones.nextId) (some (.forwardZone zone))
      else db.entity := by
  have absent : db.forwardZones.rows.find? (·.2.domain = zone.domain) = none := by
    rw [List.find?_eq_none]
    intro row member
    exact fun same => fresh row.2 (List.mem_map_of_mem member) (of_decide_eq_true same)
  have after : handle db.toTables (.rollbackChange changeId) =
      addZone db.toTables .rollbackRestore zone := by
    simp only [handle, rollbackChange, logged, rollbackZone, kind, absent]
  have accepted : (handle db.toTables (.rollbackChange changeId)).Accepted ↔ db.owned zone = true := by
    rw [after]
    refine Tables.accepted_recordChange.trans ((Tables.accepted_insert_zone db.accepted).trans ?_)
    refine ⟨fun takes => takes.2.2, fun owned => ⟨fun member => ?_, storable, owned⟩⟩
    obtain ⟨other, there, same⟩ := List.mem_map.mp member
    exact fresh other there same
  by_cases owned : db.owned zone = true
  · rw [if_pos owned, step, Database.commit_accepted (accepted.mpr owned), after]
    exact entity_addZone _ _ _
  · rw [if_neg owned, step, Database.commit_refused (mt accepted.mp owned)]

/-- What no entity was before the update is, after it, the updated one or none. -/
theorem exists_update_iff {entity : Key → Option Image} {key : Key} {image before : Image}
    (elsewhere : ∀ other, entity other ≠ some before) :
    (∃ other, Function.update entity key (some image) other = some before) ↔ image = before := by
  constructor
  · rintro ⟨other, there⟩
    rw [Function.update_apply] at there
    split at there
    · exact Option.some.inj there
    · exact absurd there (elsewhere other)
  · rintro rfl
    exact ⟨key, Function.update_self ..⟩

theorem image_restored_iff {tables : Tables} {old : Blocklist} :
    Image.blocklist (modelToDict (restoredBlocklist (modelToDict old))) = .blocklist (modelToDict old) ↔
      Restorable tables (.blocklist (modelToDict old)) := by
  constructor
  · intro image
    have same := Image.blocklist.inj image
    exact ⟨(congrArg BlocklistData.scheduleEnabled same).symm,
      (congrArg BlocklistData.scheduleStart same).symm, (congrArg BlocklistData.scheduleEnd same).symm,
      (congrArg BlocklistData.scheduleDays same).symm⟩
  · rintro ⟨enabled, start, stop, days⟩
    simp only [modelToDict] at enabled start stop days
    simp [modelToDict, restoredBlocklist, enabled, start, stop, days]

theorem restored_iff {history : List Op} {op : Op} {later : List Op} {key : Key} {before : Image}
    (deleted : Deleted history op later changeId key before) :
    Restored history op later changeId before ↔
      Restorable (reached (history ++ op :: later)).toTables before := by
  obtain ⟨⟨change, recorded, about, action⟩, was, fresh⟩ := deleted
  obtain ⟨beforeImage, -, -⟩ := recorded.entities about
  rw [was] at beforeImage
  have logged : (reached (history ++ op :: later)).configChanges.get changeId = some change := by
    rw [reached_append]
    exact logged_run later recorded.2
  have elsewhere (other : Key) : (reached (history ++ op :: later)).entity other ≠ some before :=
    fun there => fresh other before there rfl
  unfold Restored rolledBack
  generalize reached (history ++ op :: later) = now at *
  cases change with
  | other => exact absurd about (Option.some_ne_none _).symm
  | blocklist change =>
      obtain rfl := Option.some.inj about
      obtain ⟨old, stored, rfl⟩ := Option.map_eq_some_iff.mp was
      obtain ⟨_, recordedData, ⟨rfl⟩⟩ := Option.map_eq_some_iff.mp beforeImage
      have kind := Change.rollback_delete (Option.some.inj action) recordedData
      have storable := (reached history).accepted.blocklists old (SerialTable.mem_values.mpr ⟨_, stored⟩)
      have entities := restored_blocklist logged kind storable fun bl member same => by
        obtain ⟨id, found⟩ := SerialTable.mem_values.mp member
        exact fresh (.blocklist, id) _ (congrArg (Option.map _) found) (congrArg (Prod.mk _) same)
      rw [entities]
      exact (exists_update_iff elsewhere).trans image_restored_iff
  | forwardZone change =>
      obtain rfl := Option.some.inj about
      obtain ⟨zone, stored, rfl⟩ := Option.map_eq_some_iff.mp was
      obtain ⟨_, recordedData, ⟨rfl⟩⟩ := Option.map_eq_some_iff.mp beforeImage
      have kind := Change.rollback_delete (Option.some.inj action) recordedData
      have storable :=
        ((reached history).accepted.forwardZones zone (SerialTable.mem_values.mpr ⟨_, stored⟩)).1
      have entities := restored_zone logged kind storable fun other member same => by
        obtain ⟨id, found⟩ := SerialTable.mem_values.mp member
        exact fresh (.forwardZone, id) _ (congrArg (Option.map _) found) (congrArg (Prod.mk _) same)
      rw [entities]
      by_cases owned : now.owned zone = true
      · rw [if_pos owned]
        exact iff_of_true ((exists_update_iff elsewhere).mpr rfl) owned
      · rw [if_neg owned]
        exact iff_of_false (fun ⟨other, there⟩ => elsewhere other there) owned

/-! ## Creations -/

theorem undone_blocklist {id : Nat} {data : BlocklistData}
    (logged : db.configChanges.get changeId = some (.blocklist ⟨id, .create, none, some data⟩)) :
    (step db (.rollbackChange changeId)).entity = Function.update db.entity (.blocklist, id) none := by
  have after : handle db.toTables (.rollbackChange changeId) =
      removeBlocklist db.toTables id .rollbackDelete := by
    simp only [handle, rollbackChange, logged, rollbackBlocklist, Change.rollback, removeBlocklist]
    cases db.blocklists.get id <;> rfl
  cases stored : db.blocklists.get id with
  | none =>
      rw [step, after, removeBlocklist, stored, Database.commit_self, Function.update_eq_self_iff.mpr]
      simp only [Tables.entity, stored, Option.map_none]
  | some bl =>
      have accepted : (removeBlocklist db.toTables id .rollbackDelete).Accepted := by
        rw [removeBlocklist, stored]
        exact Tables.accepted_recordChange.mpr (Tables.accepted_filter_blocklists db.accepted _)
      rw [step, after, Database.commit_accepted accepted, removeBlocklist, stored]
      exact entity_blocklists db.toTables (SerialTable.get_erase _ _)

theorem undone_zone {id : Nat} {zone : ForwardZone}
    (logged : db.configChanges.get changeId = some (.forwardZone ⟨id, .create, none, some zone⟩)) :
    (step db (.rollbackChange changeId)).entity = Function.update db.entity (.forwardZone, id) none := by
  have after : handle db.toTables (.rollbackChange changeId) =
      removeZone db.toTables id .rollbackDelete := by
    simp only [handle, rollbackChange, logged, rollbackZone, Change.rollback, removeZone]
    cases db.forwardZones.get id <;> rfl
  cases stored : db.forwardZones.get id with
  | none =>
      rw [step, after, removeZone, stored, Database.commit_self, Function.update_eq_self_iff.mpr]
      simp only [Tables.entity, stored, Option.map_none]
  | some zone =>
      have accepted : (removeZone db.toTables id .rollbackDelete).Accepted := by
        rw [removeZone, stored]
        exact Tables.accepted_recordChange.mpr (Tables.accepted_filter_zones db.accepted _)
      rw [step, after, Database.commit_accepted accepted, removeZone, stored]
      exact entity_forwardZones db.toTables (SerialTable.get_erase _ _)

theorem creationUndone_of_record {history : List Op} {op : Op} {key : Key} {change : ConfigChange}
    {image : Image} (created : Created history op key image)
    (recorded : RecordedBy (reached history) op changeId change) (about : change.key = some key)
    (undone : ∀ db : Database, db.configChanges.get changeId = some change →
      (step db (.rollbackChange changeId)).entity = Function.update db.entity key none) :
    CreationUndone history op key := by
  have general (later : List Op) : (rolledBack history op later changeId).entity =
      Function.update (reached (history ++ op :: later)).entity key none := by
    apply undone
    rw [reached_append]
    exact logged_run later recorded.2
  refine ⟨changeId, change, recorded, about, ?_, general⟩
  have entities := (recorded.entities about).2.1
  have immediate : reached (history ++ [op]) = step (reached history) op := reached_append history [op]
  rw [general [], immediate, entities, Function.update_idem, Function.update_eq_self_iff]
  exact created.before.symm

theorem Created.committed {history : List Op} {op : Op} {key : Key} {image : Image}
    (created : Created history op key image) :
    (handle (reached history).toTables op).Accepted ∧
      (step (reached history) op).toTables = handle (reached history).toTables op := by
  have immediate : reached (history ++ [op]) = step (reached history) op := reached_append history [op]
  have after := created.after
  rw [immediate, step] at after
  by_cases accepted : (handle (reached history).toTables op).Accepted
  · exact ⟨accepted, Database.commit_accepted accepted⟩
  · rw [Database.commit_refused accepted, created.before] at after
    exact absurd after (Option.some_ne_none _).symm

theorem creationUndone_addBlocklist {history : List Op} {op : Op} {key : Key} {image : Image}
    {bl : Blocklist} (created : Created history op key image)
    (adds : handle (reached history).toTables op = addBlocklist (reached history).toTables .create bl) :
    CreationUndone history op key := by
  have committed := created.committed.2
  have immediate : reached (history ++ [op]) = step (reached history) op := reached_append history [op]
  have after := created.after
  rw [immediate, committed, adds, entity_addBlocklist, Function.update_apply] at after
  split at after
  · rename_i here
    have recorded : RecordedBy (reached history) op (reached history).configChanges.nextId
        (.blocklist ⟨(reached history).blocklists.nextId, .create, none, some (modelToDict bl)⟩) := by
      refine ⟨SerialTable.get_nextId, ?_⟩
      rw [committed, adds, addBlocklist, recordBlocklist, Tables.recordChange, SerialTable.get_insert]
      exact Function.update_self ..
    refine creationUndone_of_record created recorded (congrArg some here.symm) fun db logged => ?_
    rw [here]
    exact undone_blocklist logged
  · rw [created.before] at after
    exact absurd after (Option.some_ne_none _).symm

theorem creationUndone_addZone {history : List Op} {op : Op} {key : Key} {image : Image}
    {zone : ForwardZone} (created : Created history op key image)
    (adds : handle (reached history).toTables op = addZone (reached history).toTables .create zone) :
    CreationUndone history op key := by
  have committed := created.committed.2
  have immediate : reached (history ++ [op]) = step (reached history) op := reached_append history [op]
  have after := created.after
  rw [immediate, committed, adds, entity_addZone, Function.update_apply] at after
  split at after
  · rename_i here
    have recorded : RecordedBy (reached history) op (reached history).configChanges.nextId
        (.forwardZone ⟨(reached history).forwardZones.nextId, .create, none, some zone⟩) := by
      refine ⟨SerialTable.get_nextId, ?_⟩
      rw [committed, adds, addZone, recordZone, Tables.recordChange, SerialTable.get_insert]
      exact Function.update_self ..
    refine creationUndone_of_record created recorded (congrArg some here.symm) fun db logged => ?_
    rw [here]
    exact undone_zone logged
  · rw [created.before] at after
    exact absurd after (Option.some_ne_none _).symm

theorem creationUndone_iff {history : List Op} {op : Op} {key : Key} {image : Image}
    (created : Created history op key image) :
    CreationUndone history op key ↔ op.records = true := by
  have committed := created.committed.2
  constructor
  · rintro ⟨changeId, change, ⟨absent, present⟩, -⟩
    cases records : op.records with
    | true => rfl
    | false =>
        rw [committed, configChanges_handle _ records, absent] at present
        exact absurd present (Option.some_ne_none _).symm
  · intro records
    have creates := created.creates
    cases op with
    | blocklistsAdd => exact creationUndone_addBlocklist created rfl
    | forwardZonesAdd domain servers description applyGlobally nodeId =>
        cases owner : nodeIdInt applyGlobally nodeId with
        | none => exact creationUndone_addZone created (by rw [handle, forwardZonesAdd, owner])
        | some id =>
            cases id with
            | ofNat id => exact creationUndone_addZone created (by rw [handle, forwardZonesAdd, owner])
            | negSucc id =>
                have after := created.after
                rw [reached_append] at after
                change (step (reached history) _).entity key = some image at after
                rw [committed, handle, forwardZonesAdd, owner, created.before] at after
                exact absurd after (Option.some_ne_none _).symm
    | blocklistsAddPreset => exact absurd records Bool.false_ne_true
    | _ => exact absurd creates Bool.false_ne_true

/-- A deletion is undone exactly when the list has no schedule, or the zone's node is still there;
a creation exactly when it was recorded, which it is unless it came from a preset. -/
theorem rollback_inverts_iff (history : List Op) (op : Op) :
    (∀ (later : List Op) (changeId : Nat) (key : Key) (before : Image),
      Deleted history op later changeId key before →
      (Restored history op later changeId before ↔
        Restorable (reached (history ++ op :: later)).toTables before)) ∧
    ∀ (key : Key) (image : Image), Created history op key image →
      (CreationUndone history op key ↔ op.records = true) :=
  ⟨fun _ _ _ _ deleted => restored_iff deleted, fun _ _ created => creationUndone_iff created⟩

/-! ### A list with a schedule is deleted -/

def nightlyAds : BlocklistData :=
  { adsData with
    scheduleEnabled := true
    scheduleStart := some "22:00"
    scheduleEnd := some "06:00" }

def addsNightlyAds : List Op := [addsAds, .blocklistsUpdateSchedule 1 true "22:00" "06:00" []]

theorem entity_of_no_rows {tables : Tables} (blocklists : tables.blocklists.rows = [])
    (forwardZones : tables.forwardZones.rows = []) (key : Key) : tables.entity key = none := by
  obtain ⟨type, id⟩ := key
  cases type with
  | blocklist => simp [Tables.entity, SerialTable.get, KeyedTable.find?, blocklists]
  | forwardZone => simp [Tables.entity, SerialTable.get, KeyedTable.find?, forwardZones]

theorem deleted_nightlyAds :
    Deleted addsNightlyAds (.blocklistsDelete 1) [] 3 (.blocklist, 1) (.blocklist nightlyAds) where
  change := ⟨.blocklist ⟨1, .delete, some nightlyAds, none⟩, ⟨by decide +kernel, by decide +kernel⟩, rfl, rfl⟩
  was := by decide +kernel
  fresh := by
    intro other image present
    rw [entity_of_no_rows (by decide +kernel) (by decide +kernel)] at present
    exact absurd present (Option.some_ne_none _).symm

theorem rollback_loses_schedule :
    ¬ ((∀ (history : List Op) (op : Op) (later : List Op) (changeId : Nat) (key : Key) (before : Image),
        Deleted history op later changeId key before → Restored history op later changeId before) ∧
      ∀ (history : List Op) (op : Op) (key : Key) (image : Image), Created history op key image →
        CreationUndone history op key) := by
  intro inverts
  have restorable := (restored_iff deleted_nightlyAds).mp (inverts.1 _ _ _ _ _ _ deleted_nightlyAds)
  exact absurd restorable.1 (by decide)

theorem created_ads : Created [] addsAds (.blocklist, 1) (.blocklist adsData) where
  creates := rfl
  before := rfl
  after := by decide +kernel

theorem rollback_inverts_iff_ads :
    (Restored addsNightlyAds (.blocklistsDelete 1) [] 3 (.blocklist nightlyAds) ↔
      Restorable (reached (addsNightlyAds ++ [.blocklistsDelete 1])).toTables (.blocklist nightlyAds)) ∧
    (CreationUndone [] addsAds (.blocklist, 1) ↔ addsAds.records = true) :=
  ⟨(rollback_inverts_iff addsNightlyAds (.blocklistsDelete 1)).1 [] 3 (.blocklist, 1)
      (.blocklist nightlyAds) deleted_nightlyAds,
    (rollback_inverts_iff [] addsAds).2 (.blocklist, 1) (.blocklist adsData) created_ads⟩

end PowerBlockade.Config
