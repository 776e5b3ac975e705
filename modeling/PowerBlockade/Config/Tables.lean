import PowerBlockade.Blocking.Writers
import PowerBlockade.Lib.SerialTable

/-!
# The configuration tables

The block lists and forward zones, the nodes that zones may belong to, and the log of changes.
-/

namespace PowerBlockade.Config
open Lib Blocking

structure ForwardZone where
  domain : String
  servers : String
  description : Option String
  enabled : Bool
  nodeId : Option Nat
deriving DecidableEq

/-- The columns of a list that a user edits, as `model_to_dict` records them. -/
structure BlocklistData where
  name : String
  url : String
  format : String
  listType : String
  enabled : Bool
  updateFrequencyHours : Int
  scheduleEnabled : Bool
  scheduleStart : Option String
  scheduleEnd : Option String
  scheduleDays : Option String
deriving DecidableEq

def modelToDict (bl : Blocklist) : BlocklistData :=
  { name := bl.name
    url := bl.url
    format := bl.format
    listType := bl.listType
    enabled := bl.enabled
    updateFrequencyHours := bl.updateFrequencyHours
    scheduleEnabled := bl.scheduleEnabled
    scheduleStart := bl.scheduleStart
    scheduleEnd := bl.scheduleEnd
    scheduleDays := bl.scheduleDays }

/-! ## The log -/

inductive Action
  | create
  | update
  | toggle
  | updateFrequency
  | updateSchedule
  | delete
  | rollbackRestore
  | rollbackUpdate
  | rollbackDelete
deriving DecidableEq

structure Change (δ : Type) where
  entityId : Nat
  action : Action
  beforeData : Option δ
  afterData : Option δ
deriving DecidableEq

inductive ConfigChange
  | blocklist (change : Change BlocklistData)
  | forwardZone (change : Change ForwardZone)
  | other (entityType : String)
deriving DecidableEq

/-! ## The database -/

structure Tables where
  nodes : SerialTable String
  blocklists : SerialTable Blocklist
  forwardZones : SerialTable ForwardZone
  configChanges : SerialTable ConfigChange

def storableBlocklist (bl : Blocklist) : Bool :=
  fitsText 255 bl.name ∧ storableText bl.url ∧ fitsText 50 bl.format ∧ fitsText 10 bl.listType ∧
    fitsInteger 32 bl.updateFrequencyHours ∧ bl.scheduleStart.all (fitsText 5) ∧
    bl.scheduleEnd.all (fitsText 5) ∧ bl.scheduleDays.all (fitsText 20)

def ForwardZone.storable (zone : ForwardZone) : Bool :=
  fitsText 255 zone.domain ∧ storableText zone.servers ∧ zone.description.all storableText

namespace Tables

def recordChange (tables : Tables) (change : ConfigChange) : Tables :=
  { tables with configChanges := tables.configChanges.insert change }

def log (tables : Tables) : List ConfigChange := tables.configChanges.values

/-- Whether the zone's node is there; a global zone has none. -/
def owned (tables : Tables) (zone : ForwardZone) : Bool :=
  zone.nodeId.all fun id => (tables.nodes.get id).isSome

/-- The constraints of the schema. -/
structure Accepted (tables : Tables) : Prop where
  names : tables.nodes.values.Nodup ∧ ∀ name ∈ tables.nodes.values, fitsText 255 name = true
  urls : (tables.blocklists.values.map (·.url)).Nodup
  domains : (tables.forwardZones.values.map (·.domain)).Nodup
  blocklists : ∀ bl ∈ tables.blocklists.values, storableBlocklist bl = true
  forwardZones : ∀ zone ∈ tables.forwardZones.values, zone.storable = true ∧ tables.owned zone = true

instance (tables : Tables) : Decidable tables.Accepted :=
  decidable_of_iff
    ((tables.nodes.values.Nodup ∧ ∀ name ∈ tables.nodes.values, fitsText 255 name = true) ∧
      (tables.blocklists.values.map (·.url)).Nodup ∧
      (tables.forwardZones.values.map (·.domain)).Nodup ∧
      (∀ bl ∈ tables.blocklists.values, storableBlocklist bl = true) ∧
      ∀ zone ∈ tables.forwardZones.values, zone.storable = true ∧ tables.owned zone = true)
    ⟨fun ⟨names, urls, domains, blocklists, forwardZones⟩ =>
      ⟨names, urls, domains, blocklists, forwardZones⟩,
    fun ⟨names, urls, domains, blocklists, forwardZones⟩ =>
      ⟨names, urls, domains, blocklists, forwardZones⟩⟩

def empty : Tables := ⟨.empty, .empty, .empty, .empty⟩

/-! ### Rows that keep the constraints -/

def TakesBlocklist (tables : Tables) (bl : Blocklist) : Prop :=
  bl.url ∉ tables.blocklists.values.map (·.url) ∧ storableBlocklist bl = true

def TakesZone (tables : Tables) (zone : ForwardZone) : Prop :=
  zone.domain ∉ tables.forwardZones.values.map (·.domain) ∧ zone.storable = true ∧
    tables.owned zone = true

instance (tables : Tables) (bl : Blocklist) : Decidable (tables.TakesBlocklist bl) := by
  unfold TakesBlocklist
  infer_instance

instance (tables : Tables) (zone : ForwardZone) : Decidable (tables.TakesZone zone) := by
  unfold TakesZone
  infer_instance

variable {tables : Tables}

@[simp] theorem accepted_recordChange {change : ConfigChange} :
    (tables.recordChange change).Accepted ↔ tables.Accepted :=
  ⟨fun ⟨names, urls, domains, blocklists, forwardZones⟩ =>
    ⟨names, urls, domains, blocklists, forwardZones⟩,
  fun ⟨names, urls, domains, blocklists, forwardZones⟩ =>
    ⟨names, urls, domains, blocklists, forwardZones⟩⟩

theorem nodup_append_singleton {α : Type} {xs : List α} {x : α} (distinct : xs.Nodup) :
    (xs ++ [x]).Nodup ↔ x ∉ xs := by
  rw [← List.concat_eq_append, List.nodup_concat]
  exact and_iff_left distinct

theorem accepted_insert_blocklist (accepted : tables.Accepted) {bl : Blocklist} :
    Accepted { tables with blocklists := tables.blocklists.insert bl } ↔ tables.TakesBlocklist bl := by
  have urls : ((tables.blocklists.insert bl).values.map (·.url)).Nodup ↔
      bl.url ∉ tables.blocklists.values.map (·.url) := by
    rw [SerialTable.values_insert, List.map_append]
    exact nodup_append_singleton accepted.urls
  constructor
  · intro after
    exact ⟨urls.mp after.urls, after.blocklists bl (by simp)⟩
  · rintro ⟨fresh, storable⟩
    refine { accepted with urls := urls.mpr fresh, blocklists := ?_ }
    intro other member
    rw [SerialTable.values_insert, List.mem_append, List.mem_singleton] at member
    rcases member with old | rfl
    · exact accepted.blocklists other old
    · exact storable

theorem accepted_insert_zone (accepted : tables.Accepted) {zone : ForwardZone} :
    Accepted { tables with forwardZones := tables.forwardZones.insert zone } ↔ tables.TakesZone zone := by
  have domains : ((tables.forwardZones.insert zone).values.map (·.domain)).Nodup ↔
      zone.domain ∉ tables.forwardZones.values.map (·.domain) := by
    rw [SerialTable.values_insert, List.map_append]
    exact nodup_append_singleton accepted.domains
  constructor
  · intro after
    exact ⟨domains.mp after.domains, after.forwardZones zone (by simp)⟩
  · rintro ⟨fresh, takes⟩
    refine { accepted with domains := domains.mpr fresh, forwardZones := ?_ }
    intro other member
    rw [SerialTable.values_insert, List.mem_append, List.mem_singleton] at member
    rcases member with old | rfl
    · exact accepted.forwardZones other old
    · exact takes

theorem accepted_map_blocklists (accepted : tables.Accepted) {edit : Nat → Blocklist → Blocklist}
    (same : ∀ id bl, tables.blocklists.get id = some bl → (edit id bl).url = bl.url)
    (storable : ∀ id bl, tables.blocklists.get id = some bl → storableBlocklist (edit id bl) = true) :
    Accepted { tables with blocklists := tables.blocklists.map edit } where
  names := accepted.names
  urls := (SerialTable.values_map same).symm ▸ accepted.urls
  domains := accepted.domains
  blocklists := by
    intro bl member
    obtain ⟨id, found⟩ := SerialTable.mem_values.mp member
    rw [SerialTable.get_map, Option.map_eq_some_iff] at found
    obtain ⟨old, stored, rfl⟩ := found
    exact storable id old stored
  forwardZones := accepted.forwardZones

theorem accepted_map_zones (accepted : tables.Accepted) {edit : Nat → ForwardZone → ForwardZone}
    (same : ∀ id zone, tables.forwardZones.get id = some zone →
      (edit id zone).domain = zone.domain ∧ (edit id zone).nodeId = zone.nodeId)
    (storable : ∀ id zone, tables.forwardZones.get id = some zone → (edit id zone).storable = true) :
    Accepted { tables with forwardZones := tables.forwardZones.map edit } where
  names := accepted.names
  urls := accepted.urls
  domains :=
    (SerialTable.values_map fun id zone stored => (same id zone stored).1).symm ▸ accepted.domains
  blocklists := accepted.blocklists
  forwardZones := by
    intro zone member
    obtain ⟨id, found⟩ := SerialTable.mem_values.mp member
    rw [SerialTable.get_map, Option.map_eq_some_iff] at found
    obtain ⟨old, stored, rfl⟩ := found
    have owned := (accepted.forwardZones old (SerialTable.mem_values.mpr ⟨id, stored⟩)).2
    refine ⟨storable id old stored, ?_⟩
    rwa [Tables.owned, (same id old stored).2]

theorem accepted_filter_blocklists (accepted : tables.Accepted) (keeps : Nat → Blocklist → Bool) :
    Accepted { tables with blocklists := tables.blocklists.filter keeps } :=
  have kept := SerialTable.values_filter_sublist tables.blocklists keeps
  { accepted with
    urls := (kept.map _).nodup accepted.urls
    blocklists := fun bl member => accepted.blocklists bl (kept.subset member) }

theorem accepted_filter_zones (accepted : tables.Accepted) (keeps : Nat → ForwardZone → Bool) :
    Accepted { tables with forwardZones := tables.forwardZones.filter keeps } :=
  have kept := SerialTable.values_filter_sublist tables.forwardZones keeps
  { accepted with
    domains := (kept.map _).nodup accepted.domains
    forwardZones := fun zone member => accepted.forwardZones zone (kept.subset member) }

end Tables

structure Database extends Tables where
  accepted : toTables.Accepted

namespace Database

/-- A transaction that breaks a constraint leaves nothing behind. -/
def commit (db : Database) (tables : Tables) : Database :=
  if accepted : tables.Accepted then ⟨tables, accepted⟩ else db

def empty : Database := ⟨.empty, by decide⟩

variable {db : Database} {tables : Tables}

theorem commit_accepted (accepted : tables.Accepted) : (db.commit tables).toTables = tables := by
  rw [commit, dif_pos accepted]

theorem commit_refused (refused : ¬ tables.Accepted) : db.commit tables = db := dif_neg refused

@[simp] theorem commit_self (db : Database) : db.commit db.toTables = db := dif_pos db.accepted

/-- What holds whether the transaction goes through or not. -/
theorem commit_cases {P : Tables → Prop} (before : P db.toTables) (after : tables.Accepted → P tables) :
    P (db.commit tables).toTables := by
  by_cases accepted : tables.Accepted
  · rw [commit_accepted accepted]
    exact after accepted
  · rw [commit_refused accepted]
    exact before

end Database

end PowerBlockade.Config
