import PowerBlockade.Config.Steps
import PowerBlockade.Lib.ChangeLog
import PowerBlockade.Lib.Run

/-!
# The audit log against the configuration

The log is complete when the last change of a key is the entity as it is, or its deletion. Then
replaying the log gives the configuration.
-/

namespace PowerBlockade.Config
open Lib Blocking

namespace Tables

def latest (tables : Tables) (key : Key) : Option ConfigChange :=
  ChangeLog.latest ConfigChange.key tables.log key

def Complete (tables : Tables) : Prop :=
  ∀ key, match tables.entity key with
    | some image => ∃ change, tables.latest key = some change ∧ change.afterImage = some image
    | none => ∀ change, tables.latest key = some change → change.afterImage = none ∧ change.isDelete

def Reconstructs (tables : Tables) : Prop :=
  ChangeLog.replay ConfigChange.key ConfigChange.afterImage tables.log = tables.entity

end Tables

open Tables

theorem Tables.Complete.reconstructs {tables : Tables} (complete : tables.Complete) :
    tables.Reconstructs := by
  funext key
  rw [ChangeLog.replay_eq]
  have last := complete key
  cases here : tables.entity key with
  | some image =>
      simp only [here] at last
      obtain ⟨change, found, same⟩ := last
      exact (congrArg (Option.bind · ConfigChange.afterImage) found).trans same
  | none =>
      simp only [here] at last
      exact Option.bind_eq_none_iff.mpr fun change found => (last change found).1

theorem Recorded.complete {tables after : Tables} (recorded : Recorded tables after)
    (complete : tables.Complete) : after.Complete := by
  cases recorded with
  | unchanged entities log =>
      unfold Complete latest Tables.log
      rw [entities, log]
      exact complete
  | other change about entities log =>
      intro key
      have last := complete key
      unfold latest at last ⊢
      rw [entities, log_eq log, ChangeLog.latest_append, about, if_neg (by simp)]
      exact last
  | edited change key about _ entities deleted _ log =>
      intro other
      unfold latest
      rw [entities, log_eq log, ChangeLog.latest_append, about, Function.update_apply]
      by_cases same : other = key
      · rw [if_pos same, if_pos (congrArg some same.symm)]
        cases became : change.afterImage with
        | some image => exact ⟨change, rfl, became⟩
        | none =>
            intro last equal
            rw [← Option.some.inj equal]
            exact ⟨became, deleted became⟩
      · rw [if_neg same, if_neg fun equal => same (Option.some.inj equal).symm]
        exact complete other

/-! ## The steps that record nothing -/

/-- A complete log determines the entities, so they have to stay as long as it does. -/
theorem complete_iff_of_log {tables after : Tables} (complete : tables.Complete)
    (log : after.configChanges = tables.configChanges) :
    after.Complete ↔ after.entity = tables.entity := by
  constructor
  · intro later
    rw [← later.reconstructs, ← complete.reconstructs, Tables.log, Tables.log, log]
  · intro entities
    exact (Recorded.unchanged entities log).complete complete

theorem accepted_runScheduleCheck {tables : Tables} (accepted : tables.Accepted) (now : LocalTime) :
    (runScheduleCheck tables now).Accepted := by
  refine accepted_map_blocklists accepted (fun _ _ _ => rfl) fun id bl stored => ?_
  exact accepted.blocklists bl (SerialTable.mem_values.mpr ⟨id, stored⟩)

theorem accepted_delete_node {tables : Tables} (accepted : tables.Accepted) (id : Nat) :
    Accepted { tables with
      nodes := tables.nodes.erase id
      forwardZones := tables.forwardZones.filter fun _ zone => zone.nodeId ≠ some id } where
  names :=
    have kept := SerialTable.values_filter_sublist tables.nodes fun other _ => other ≠ id
    ⟨kept.nodup accepted.names.1, fun name member => accepted.names.2 name (kept.subset member)⟩
  urls := accepted.urls
  domains := ((SerialTable.values_filter_sublist _ _).map _).nodup accepted.domains
  blocklists := accepted.blocklists
  forwardZones := by
    intro zone member
    obtain ⟨zoneId, found⟩ := SerialTable.mem_values.mp member
    rw [SerialTable.get_filter, Option.filter_eq_some_iff, decide_eq_true_iff] at found
    obtain ⟨storable, owned⟩ := accepted.forwardZones zone (SerialTable.mem_values.mpr ⟨zoneId, found.1⟩)
    refine ⟨storable, ?_⟩
    unfold Tables.owned at owned ⊢
    cases owner : zone.nodeId with
    | none => rfl
    | some node =>
        have other : node ≠ id := fun same => found.2 (owner.trans (congrArg some same))
        rw [owner] at owned
        simpa [SerialTable.get_erase, Function.update_of_ne other] using owned

theorem entity_insert_preset {tables : Tables} (bl : Blocklist) :
    Tables.entity { tables with blocklists := tables.blocklists.insert bl } ≠ tables.entity := by
  intro same
  have here := congrFun same (.blocklist, tables.blocklists.nextId)
  rw [entity_blocklists tables (SerialTable.get_insert _ _), Function.update_self] at here
  simp [entity, SerialTable.get_nextId] at here

theorem entity_runScheduleCheck {tables : Tables} (now : LocalTime) :
    (runScheduleCheck tables now).entity = tables.entity ↔
      ∀ bl ∈ tables.blocklists.values, scheduledState bl now = bl.enabled := by
  constructor
  · intro same bl member
    obtain ⟨id, stored⟩ := SerialTable.mem_values.mp member
    have here := congrFun same (.blocklist, id)
    simp only [entity, runScheduleCheck, SerialTable.get_map, stored, Option.map_some,
      Option.some.injEq, Image.blocklist.injEq] at here
    exact congrArg BlocklistData.enabled here
  · intro same
    funext key
    obtain ⟨type, id⟩ := key
    cases type with
    | forwardZone => rfl
    | blocklist =>
        simp only [entity, runScheduleCheck, SerialTable.get_map, Option.map_map]
        cases stored : tables.blocklists.get id with
        | none => rfl
        | some bl =>
            have kept := same bl (SerialTable.mem_values.mpr ⟨id, stored⟩)
            simp [modelToDict, kept]

theorem entity_delete_node {tables : Tables} (id : Nat) :
    Tables.entity { tables with
      nodes := tables.nodes.erase id
      forwardZones := tables.forwardZones.filter fun _ zone => zone.nodeId ≠ some id } = tables.entity ↔
      ∀ zone ∈ tables.forwardZones.values, zone.nodeId ≠ some id := by
  constructor
  · intro same zone member owned
    obtain ⟨zoneId, stored⟩ := SerialTable.mem_values.mp member
    have here := congrFun same (.forwardZone, zoneId)
    simp [entity, stored, owned] at here
  · intro others
    funext key
    obtain ⟨type, zoneId⟩ := key
    cases type with
    | blocklist => rfl
    | forwardZone =>
        cases stored : tables.forwardZones.get zoneId with
        | none => simp [entity, stored]
        | some zone => simp [entity, stored, others zone (SerialTable.mem_values.mpr ⟨zoneId, stored⟩)]

/-! ## Runs -/

/-- The step is one of those that record, or it has nothing to record. -/
def Audited (db : Database) : Op → Prop
  | .blocklistsAddPreset name url format listType =>
      ¬ db.TakesBlocklist (newBlocklist name url format listType 24)
  | .runScheduleCheck now => ∀ bl ∈ db.blocklists.values, scheduledState bl now = bl.enabled
  | .nodesDelete id => ∀ name, db.nodes.get id = some name → name ≠ "primary" →
      ∀ zone ∈ db.forwardZones.values, zone.nodeId ≠ some id
  | _ => True

theorem complete_preset {db : Database} (complete : db.Complete) (name url format listType : String) :
    (step db (.blocklistsAddPreset name url format listType)).Complete ↔
      Audited db (.blocklistsAddPreset name url format listType) := by
  let preset := newBlocklist name url format listType 24
  have takes := @accepted_insert_blocklist db.toTables db.accepted preset
  by_cases accepted : (handle db.toTables (.blocklistsAddPreset name url format listType)).Accepted
  · rw [step, Database.commit_accepted accepted]
    refine Iff.trans (complete_iff_of_log complete rfl) ?_
    exact iff_of_false (entity_insert_preset _) (not_not_intro (takes.mp accepted))
  · rw [step, Database.commit_refused accepted]
    exact iff_of_true complete (mt takes.mpr accepted)

theorem complete_schedule {db : Database} (complete : db.Complete) (now : LocalTime) :
    (step db (.runScheduleCheck now)).Complete ↔ Audited db (.runScheduleCheck now) := by
  have accepted := accepted_runScheduleCheck db.accepted now
  rw [step, handle, Database.commit_accepted accepted]
  exact Iff.trans (complete_iff_of_log complete rfl) (entity_runScheduleCheck now)

theorem complete_nodesDelete {db : Database} (complete : db.Complete) (id : Nat) :
    (step db (.nodesDelete id)).Complete ↔ Audited db (.nodesDelete id) := by
  rw [step, handle, nodesDelete]
  cases stored : db.nodes.get id with
  | none => simpa [Audited, stored] using complete
  | some name =>
      by_cases primary : name = "primary"
      · simpa [Audited, stored, primary] using complete
      · simp only [Audited, stored, if_neg primary]
        rw [Database.commit_accepted (accepted_delete_node db.accepted id)]
        refine Iff.trans (complete_iff_of_log complete rfl) ((entity_delete_node id).trans ?_)
        simp [primary]

theorem complete_step_iff {db : Database} (complete : db.Complete) (op : Op) :
    (step db op).Complete ↔ Audited db op := by
  have kept (records : op.records = true) : (step db op).Complete :=
    Database.commit_cases complete fun _ => (recorded_handle _ records).complete complete
  cases op with
  | blocklistsAddPreset name url format listType => exact complete_preset complete name url format listType
  | runScheduleCheck now => exact complete_schedule complete now
  | nodesDelete id => exact complete_nodesDelete complete id
  | _ => exact iff_of_true (kept rfl) trivial

theorem complete_empty : Database.empty.Complete := by
  rintro ⟨type, id⟩
  cases type <;> exact fun _ latest => nomatch latest

/-- The log is complete all along a run exactly when every step is audited. -/
theorem complete_iff_audited (run : List Op) :
    (∀ db ∈ visited step Database.empty run, db.Complete ∧ db.Reconstructs) ↔
      Along step Audited Database.empty run := by
  have sound (db : Database) : db.Complete ∧ db.Reconstructs ↔ db.Complete :=
    and_iff_left_of_imp Complete.reconstructs
  simp only [sound]
  exact forall_visited_iff_along (I := fun _ => True) trivial (fun _ _ _ => trivial) complete_empty
    fun _ op _ complete => complete_step_iff complete op

/-! ## A preset is added -/

def addsPreset : Op := .blocklistsAddPreset "Ads" "https://lists.example/ads.txt" "domains" "block"

theorem added_preset_has_no_record :
    ¬ ∀ run : List Op, ∀ db ∈ visited step Database.empty run, db.Complete ∧ db.Reconstructs := by
  intro every
  have complete := every [addsPreset] (step Database.empty addsPreset)
    (List.mem_cons_of_mem _ (mem_visited_self _ []))
  have audited := (complete_step_iff complete_empty addsPreset).mp complete.1
  have taken : Database.empty.TakesBlocklist
      (newBlocklist "Ads" "https://lists.example/ads.txt" "domains" "block" 24) := by decide
  exact audited taken

end PowerBlockade.Config
