import PowerBlockade.Config.Rollback
import PowerBlockade.Sync.Versions

/-!
# Overrides of a forward zone

The bundle of a node lets a zone of the node go before a global one of the same domain, but the table
takes only one zone for each domain.
-/

namespace PowerBlockade.Config
open Lib

def primary (rest : Sync.Primary) (tables : Tables) : Sync.Primary :=
  { rest with
    zones := tables.forwardZones.values.map fun zone =>
      ⟨zone.domain, zone.servers, zone.enabled, zone.nodeId⟩ }

/-- A filled form that asks for a zone of one node. -/
structure Override where
  domain : String
  servers : String
  description : String
  nodeId : String
  node : Nat
deriving DecidableEq

namespace Override

def zone (override : Override) : ForwardZone :=
  newZone override.domain override.servers override.description (some override.node)

def op (override : Override) : Op :=
  .forwardZonesAdd override.domain override.servers override.description false override.nodeId

end Override

def added (db : Database) (overrides : List Override) : Database :=
  (overrides.map Override.op).foldl step db

/-- The forms ask for zones of the domain that the columns take, for different nodes that are there. -/
structure OverridesOf (db : Database) (zone : ForwardZone) (overrides : List Override) : Prop where
  domain : ∀ override ∈ overrides, override.zone.domain = zone.domain
  storable : ∀ override ∈ overrides, override.zone.storable = true
  nodeId : ∀ override ∈ overrides, nodeIdInt false override.nodeId = some (.ofNat override.node)
  node : ∀ override ∈ overrides, (db.nodes.get override.node).isSome = true
  distinct : (overrides.map Override.node).Nodup

/-- What a global zone gives to every node without an override. -/
def ForwardZone.global (zone : ForwardZone) : Option String :=
  if zone.enabled then some zone.servers else none

def expected (zone : ForwardZone) (overrides : List Override) (node : Nat) : Option String :=
  match overrides.find? (·.node = node) with
  | some override => some override.zone.servers
  | none => zone.global

structure OverrideLaw (db : Database) (zone : ForwardZone) (overrides : List Override) : Prop where
  accepted : ∀ override ∈ overrides, ∃ id,
    (added db overrides).forwardZones.get id = some override.zone
  bundles : ∀ rest node bundle,
    Sync.config (primary rest (added db overrides).toTables) node = .ok bundle →
      bundle.servers zone.domain = expected zone overrides node.id ∧
      (bundle.forwardZones.map (·.domain)).Nodup
  restored : ∀ override ∈ overrides, ∀ id,
    (added db overrides).forwardZones.get id = some override.zone →
      ∀ op ∈ [Op.forwardZonesDelete id, .forwardZonesToggle id], ∀ rest node bundle,
        node.id = override.node →
        Sync.config (primary rest (step (added db overrides) op).toTables) node = .ok bundle →
          bundle.servers zone.domain = zone.global

/-! ## Bundles of an accepted database -/

theorem find?_filter_of_unique {α κ : Type} [DecidableEq κ] {key : α → κ} {xs : List α} {x : α}
    (unique : (xs.map key).Nodup) (member : x ∈ xs) (p : α → Bool) :
    (xs.filter p).reverse.find? (key · = key x) = if p x = true then some x else none := by
  split
  · rename_i kept
    obtain ⟨y, found⟩ : ∃ y, (xs.filter p).reverse.find? (key · = key x) = some y := by
      apply Option.isSome_iff_exists.mp
      refine List.find?_isSome.mpr ⟨x, ?_, decide_eq_true rfl⟩
      exact List.mem_reverse.mpr (List.mem_filter.mpr ⟨member, kept⟩)
    have there := List.mem_filter.mp (List.mem_reverse.mp (List.mem_of_find?_eq_some found))
    have same : key y = key x := by simpa using List.find?_some found
    rw [found, List.inj_on_of_nodup_map unique there.1 member same]
  · rename_i dropped
    rw [List.find?_eq_none]
    intro y there same
    obtain ⟨inside, kept⟩ := List.mem_filter.mp (List.mem_reverse.mp there)
    rw [List.inj_on_of_nodup_map unique inside member (of_decide_eq_true same)] at kept
    exact dropped kept

variable {db : Database} {zone : ForwardZone} {overrides : List Override}

/-- The one zone of a domain decides what every node gets for it. -/
theorem zoneServers_eq {id : Nat} (stored : db.forwardZones.get id = some zone) (rest : Sync.Primary)
    (node : Sync.Secondary) :
    Sync.zoneServers (primary rest db.toTables) node zone.domain =
      if zone.enabled = true ∧ (zone.nodeId = none ∨ zone.nodeId = some node.id) then some zone.servers
      else none := by
  have unique : ((primary rest db.toTables).zones.map (·.domain)).Nodup := by
    have domains := db.accepted.domains
    simpa [primary, Function.comp_def] using domains
  have member : (⟨zone.domain, zone.servers, zone.enabled, zone.nodeId⟩ : Sync.ForwardZone) ∈
      (primary rest db.toTables).zones :=
    List.mem_map.mpr ⟨zone, SerialTable.mem_values.mpr ⟨id, stored⟩, rfl⟩
  have found (owner : Option Nat) :
      (Sync.enabledZones (primary rest db.toTables) owner).reverse.find? (·.domain = zone.domain) =
        _ := find?_filter_of_unique unique member fun z => z.enabled && z.nodeId = owner
  rw [Sync.zoneServers, found, found]
  cases enabled : zone.enabled with
  | false => simp
  | true =>
      cases owner : zone.nodeId with
      | none => simp
      | some other => by_cases same : other = node.id <;> simp [same]

theorem nodup_domains {tables : Sync.Primary} {node : Sync.Secondary} {bundle : Sync.Bundle}
    (served : Sync.config tables node = .ok bundle) : (bundle.forwardZones.map (·.domain)).Nodup := by
  have rows := (Sync.zoneMap tables node).unique.map (Option.some_injective String)
  rw [(Sync.config_ok served).2.2]
  simpa [Function.comp_def] using rows

/-! ## The law -/

theorem step_override {override : Override} {id : Nat} (stored : db.forwardZones.get id = some zone)
    (domain : override.zone.domain = zone.domain)
    (nodeId : nodeIdInt false override.nodeId = some (.ofNat override.node)) :
    step db override.op = db := by
  apply Database.commit_refused
  have adds : handle db.toTables override.op = addZone db.toTables .create override.zone := by
    rw [Override.op, handle, forwardZonesAdd, nodeId]
    rfl
  rw [adds, addZone, recordZone, Tables.accepted_recordChange, Tables.accepted_insert_zone db.accepted]
  intro takes
  exact takes.1 (List.mem_map.mpr ⟨zone, SerialTable.mem_values.mpr ⟨id, stored⟩, domain.symm⟩)

theorem added_eq {id : Nat} (stored : db.forwardZones.get id = some zone)
    (domain : ∀ override ∈ overrides, override.zone.domain = zone.domain)
    (nodeId : ∀ override ∈ overrides, nodeIdInt false override.nodeId = some (.ofNat override.node)) :
    added db overrides = db := by
  induction overrides with
  | nil => rfl
  | cons override rest ih =>
      obtain ⟨here, later⟩ := List.forall_mem_cons.mp domain
      obtain ⟨number, numbers⟩ := List.forall_mem_cons.mp nodeId
      rw [added, List.map_cons, List.foldl_cons, step_override stored here number]
      exact ih later numbers

/-- The law holds of a global zone exactly when nobody asks for an override. -/
theorem overrideLaw_iff (db : Database) (id : Nat) (zone : ForwardZone) (overrides : List Override)
    (stored : db.forwardZones.get id = some zone) (global : zone.nodeId = none)
    (asked : OverridesOf db zone overrides) : OverrideLaw db zone overrides ↔ overrides = [] := by
  constructor
  · intro law
    cases overrides with
    | nil => rfl
    | cons override rest =>
        obtain ⟨other, present⟩ := law.accepted override List.mem_cons_self
        rw [added_eq stored asked.domain asked.nodeId] at present
        have same := List.inj_on_of_nodup_map db.accepted.domains
          (SerialTable.mem_values.mpr ⟨other, present⟩) (SerialTable.mem_values.mpr ⟨id, stored⟩)
          (asked.domain override List.mem_cons_self)
        rw [← same] at global
        exact absurd global (Option.some_ne_none _)
  · rintro rfl
    refine ⟨nofun, fun rest node bundle served => ⟨?_, nodup_domains served⟩, nofun⟩
    rw [Sync.servers_eq served]
    refine (zoneServers_eq stored rest node).trans ?_
    simp [global, expected, ForwardZone.global]

/-! ## An override of the only zone -/

def corpRun : List Op :=
  [.nodesGenerate "edge", .forwardZonesAdd "corp.local" "10.0.0.1" "" true ""]

def corpZone : ForwardZone :=
  { domain := "corp.local"
    servers := "10.0.0.1"
    description := none
    enabled := true
    nodeId := none }

def edgeOverride : Override :=
  { domain := "corp.local"
    servers := "10.9.0.1"
    description := ""
    nodeId := "1"
    node := 1 }

theorem stored_corpZone : (reached corpRun).forwardZones.get 1 = some corpZone := by decide +kernel

theorem overridesOf_edge : OverridesOf (reached corpRun) corpZone [edgeOverride] where
  domain := by decide
  storable := by decide
  nodeId := by decide
  node := by decide +kernel
  distinct := by decide

theorem override_refused :
    ¬ ∀ (run : List Op) (id : Nat) (zone : ForwardZone) (overrides : List Override),
      (reached run).forwardZones.get id = some zone → zone.nodeId = none →
        OverridesOf (reached run) zone overrides → OverrideLaw (reached run) zone overrides := by
  intro law
  obtain ⟨id, present⟩ :=
    (law corpRun 1 corpZone [edgeOverride] stored_corpZone rfl overridesOf_edge).accepted edgeOverride
      List.mem_cons_self
  rw [added_eq stored_corpZone overridesOf_edge.domain overridesOf_edge.nodeId] at present
  have same := List.inj_on_of_nodup_map (reached corpRun).accepted.domains
    (SerialTable.mem_values.mpr ⟨id, present⟩) (SerialTable.mem_values.mpr ⟨1, stored_corpZone⟩)
    (overridesOf_edge.domain edgeOverride List.mem_cons_self)
  exact absurd (congrArg ForwardZone.nodeId same) (by decide)

theorem overrideLaw_iff_edge :
    OverrideLaw (reached corpRun) corpZone [edgeOverride] ↔ [edgeOverride] = [] :=
  overrideLaw_iff (reached corpRun) 1 corpZone [edgeOverride] stored_corpZone rfl overridesOf_edge

end PowerBlockade.Config
