import Mathlib.Data.List.Nodup
import PowerBlockade.Columns
import PowerBlockade.Settings
import PowerBlockade.Time

/-!
# The tables of the primary

Nodes, clients, query events and node metrics. A table's constraints are part of its type, so that a
commit that would break them has no result.
-/

namespace PowerBlockade.Primary

/-! ## Nodes -/

inductive NodeStatus
  | pending
  | active
  | stale
  | offline
  | quarantine
  | error
deriving DecidableEq

/-- A row of `nodes`; its times are stored without a time zone. -/
structure Node where
  id : Nat
  name : String
  apiKey : String
  ipAddress : Option String
  version : Option String
  status : NodeStatus
  lastSeen : Option DateTime
  lastHeartbeat : Option DateTime
  lastError : Option String
  quarantineEntryTime : Option DateTime
  quarantineReason : Option String
  queriesTotal : Int
  queriesBlocked : Int
deriving DecidableEq

def Node.storable (node : Node) : Bool :=
  fitsText 255 node.name && fitsText 64 node.apiKey && node.ipAddress.all (fitsText 45) &&
    node.version.all (fitsText 20) && node.lastError.all storableText &&
    node.quarantineReason.all storableText && fitsInteger 64 node.queriesTotal &&
    fitsInteger 64 node.queriesBlocked

structure NodesWellFormed (rows : List Node) : Prop where
  ids : (rows.map (·.id)).Nodup
  keys : (rows.map (·.apiKey)).Nodup
  names : (rows.map (·.name)).Nodup
  storable : ∀ row ∈ rows, row.storable = true

instance (rows : List Node) : Decidable (NodesWellFormed rows) :=
  decidable_of_iff ((rows.map (·.id)).Nodup ∧ (rows.map (·.apiKey)).Nodup ∧ (rows.map (·.name)).Nodup ∧
      ∀ row ∈ rows, row.storable = true)
    ⟨fun h => ⟨h.1, h.2.1, h.2.2.1, h.2.2.2⟩, fun h => ⟨h.ids, h.keys, h.names, h.storable⟩⟩

theorem NodesWellFormed.map {rows : List Node} (wellFormed : NodesWellFormed rows) (f : Node → Node)
    (ids : ∀ row, (f row).id = row.id) (keys : ∀ row, (f row).apiKey = row.apiKey)
    (names : ∀ row, (f row).name = row.name) (storable : ∀ row, (f row).storable = row.storable) :
    NodesWellFormed (rows.map f) where
  ids := by simpa [Function.comp_def, ids] using wellFormed.ids
  keys := by simpa [Function.comp_def, keys] using wellFormed.keys
  names := by simpa [Function.comp_def, names] using wellFormed.names
  storable := by
    intro row member
    obtain ⟨before, was, rfl⟩ := List.mem_map.1 member
    rw [storable]
    exact wellFormed.storable before was

structure NodeTable where
  rows : List Node
  wellFormed : NodesWellFormed rows

def replaceRow (node row : Node) : Node := if row.id = node.id then node else row

def seenRow (name : String) (now : DateTime) (row : Node) : Node :=
  if row.name = name then { row with lastSeen := some now } else row

section
variable (name : String) (now : DateTime) (row : Node)

@[simp] theorem id_seenRow : (seenRow name now row).id = row.id := by
  unfold seenRow
  split <;> rfl

@[simp] theorem apiKey_seenRow : (seenRow name now row).apiKey = row.apiKey := by
  unfold seenRow
  split <;> rfl

@[simp] theorem name_seenRow : (seenRow name now row).name = row.name := by
  unfold seenRow
  split <;> rfl

@[simp] theorem storable_seenRow : (seenRow name now row).storable = row.storable := by
  unfold seenRow
  split <;> rfl

end

namespace NodeTable

def withKey (table : NodeTable) (key : String) : Option Node := table.rows.find? (·.apiKey = key)

def save (table : NodeTable) (node : Node) : Option NodeTable :=
  if wellFormed : NodesWellFormed (table.rows.map (replaceRow node)) then some ⟨_, wellFormed⟩ else none

def setStatus (table : NodeTable) (status : Node → NodeStatus) : NodeTable where
  rows := table.rows.map fun row => { row with status := status row }
  wellFormed := table.wellFormed.map _ (fun _ => rfl) (fun _ => rfl) (fun _ => rfl)
    fun _ => by simp only [Node.storable]

def withName (table : NodeTable) (name : String) : Option Node := table.rows.find? (·.name = name)

/-- An id that no row has. -/
def nextId (table : NodeTable) : Nat := (table.rows.map (·.id)).foldr max 0 + 1

def insert (table : NodeTable) (node : Node) : Option NodeTable :=
  if wellFormed : NodesWellFormed (table.rows ++ [node]) then some ⟨_, wellFormed⟩ else none

def markSeen (table : NodeTable) (name : String) (now : DateTime) : NodeTable where
  rows := table.rows.map (seenRow name now)
  wellFormed := table.wellFormed.map _ (id_seenRow name now) (apiKey_seenRow name now)
    (name_seenRow name now) (storable_seenRow name now)

theorem eq_of_id {table : NodeTable} {a b : Node} (left : a ∈ table.rows) (right : b ∈ table.rows)
    (same : a.id = b.id) : a = b := List.inj_on_of_nodup_map table.wellFormed.ids left right same

theorem eq_of_key {table : NodeTable} {a b : Node} (left : a ∈ table.rows) (right : b ∈ table.rows)
    (same : a.apiKey = b.apiKey) : a = b := List.inj_on_of_nodup_map table.wellFormed.keys left right same

theorem withKey_eq_some {table : NodeTable} {key : String} {node : Node} :
    table.withKey key = some node ↔ node ∈ table.rows ∧ node.apiKey = key := by
  constructor
  · intro found
    exact ⟨List.mem_of_find?_eq_some found, by simpa using List.find?_some found⟩
  · rintro ⟨member, rfl⟩
    cases found : table.withKey node.apiKey with
    | none => simpa using List.find?_eq_none.1 found node member
    | some other =>
        have same : other.apiKey = node.apiKey := by simpa using List.find?_some found
        rw [eq_of_key (List.mem_of_find?_eq_some found) member same]

theorem withName_insert {table inserted : NodeTable} {node : Node}
    (absent : table.withName node.name = none) (committed : table.insert node = some inserted) :
    inserted.withName node.name = some node := by
  unfold insert at committed
  split at committed
  · cases committed
    show (table.rows ++ [node]).find? (·.name = node.name) = some node
    rw [List.find?_append, show table.rows.find? (·.name = node.name) = none from absent, Option.none_or]
    exact List.find?_cons_of_pos (decide_eq_true rfl)
  · contradiction

theorem withName_insert_of_ne {table inserted : NodeTable} {node : Node} {name : String}
    (other : name ≠ node.name) (committed : table.insert node = some inserted) :
    inserted.withName name = table.withName name := by
  unfold insert at committed
  split at committed
  · cases committed
    show (table.rows ++ [node]).find? (·.name = name) = table.rows.find? (·.name = name)
    rw [List.find?_append, List.find?_cons_of_neg (by simpa using Ne.symm other), List.find?_nil, Option.or_none]
  · contradiction

theorem withName_markSeen (table : NodeTable) (seen name : String) (now : DateTime) :
    (table.markSeen seen now).withName name = (table.withName name).map (seenRow seen now) := by
  show (table.rows.map (seenRow seen now)).find? (·.name = name) = _
  rw [List.find?_map]
  simp only [Function.comp_def, name_seenRow]
  rfl

theorem save_rows {table saved : NodeTable} {node : Node} (committed : table.save node = some saved) :
    saved.rows = table.rows.map (replaceRow node) := by
  unfold save at committed
  split at committed
  · rw [← Option.some.inj committed]
  · contradiction

theorem map_replaceRow {α : Type*} {table : NodeTable} {node row : Node} (column : Node → α)
    (member : row ∈ table.rows) (sameId : row.id = node.id) (same : column node = column row) :
    (table.rows.map (replaceRow node)).map column = table.rows.map column := by
  rw [List.map_map]
  apply List.map_congr_left
  intro other present
  simp only [Function.comp_apply, replaceRow]
  split
  · rename_i found
    rw [eq_of_id present member (found.trans sameId.symm), same]
  · rfl

theorem save_isSome_iff {table : NodeTable} (node : Node) {row : Node} (member : row ∈ table.rows)
    (sameId : row.id = node.id) (sameKey : row.apiKey = node.apiKey) :
    (table.save node).isSome = true ↔
      node.storable = true ∧ ∀ other ∈ table.rows, other.name = node.name → other.id = node.id := by
  have ids := map_replaceRow (·.id) member sameId sameId.symm
  have keys := map_replaceRow (·.apiKey) member sameId sameKey.symm
  have saved : node ∈ table.rows.map (replaceRow node) :=
    List.mem_map.2 ⟨row, member, if_pos sameId⟩
  unfold save
  constructor
  · intro committed
    split at committed
    · rename_i wellFormed
      refine ⟨wellFormed.storable node saved, fun other present sameName => ?_⟩
      by_contra different
      have kept : other ∈ table.rows.map (replaceRow node) :=
        List.mem_map.2 ⟨other, present, if_neg different⟩
      exact different (congrArg Node.id (List.inj_on_of_nodup_map wellFormed.names kept saved sameName))
    · contradiction
  · rintro ⟨storable, free⟩
    suffices wellFormed : NodesWellFormed (table.rows.map (replaceRow node)) by
      simp [wellFormed]
    refine ⟨ids ▸ table.wellFormed.ids, keys ▸ table.wellFormed.keys, ?_, ?_⟩
    · rw [List.map_map]
      refine table.wellFormed.ids.of_map.map_on ?_
      intro a left b right same
      simp only [Function.comp_apply, replaceRow] at same
      split at same <;> split at same
      · rename_i first second
        exact eq_of_id left right (first.trans second.symm)
      · rename_i first second
        exact absurd (free b right same.symm) second
      · rename_i first second
        exact absurd (free a left same) first
      · exact List.inj_on_of_nodup_map table.wellFormed.names left right same
    · intro changed present
      obtain ⟨other, was, rfl⟩ := List.mem_map.1 present
      unfold replaceRow
      split
      · exact storable
      · exact table.wellFormed.storable other was

theorem save_isSome_of_name {table : NodeTable} (node : Node) {row : Node}
    (member : row ∈ table.rows) (sameId : row.id = node.id) (sameKey : row.apiKey = node.apiKey) (sameName : row.name = node.name) :
    (table.save node).isSome = true ↔ node.storable = true := by
  rw [save_isSome_iff node member sameId sameKey, and_iff_left_iff_imp]
  intro _ other present named
  rw [List.inj_on_of_nodup_map table.wellFormed.names present member (named.trans sameName.symm), sameId]

end NodeTable

/-! ## Clients and events -/

structure Client where
  id : Nat
  ip : String
  lastSeen : Option Int
deriving DecidableEq

/-- A row of `dns_query_events`; `ts` is an instant in microseconds since 0001-01-01 UTC. -/
structure DNSQueryEvent where
  eventId : Option String
  eventSeq : Option Int
  ts : Int
  nodeId : Option Nat
  clientIp : String
  clientId : Option Nat
  qname : String
  qtype : Int
  rcode : Int
  blocked : Bool
  blockReason : Option String
  blocklistName : Option String
  latencyMs : Option Int
  isInternal : Bool
deriving DecidableEq

def DNSQueryEvent.storable (row : DNSQueryEvent) : Bool :=
  row.eventId.all (fitsText 64) && row.eventSeq.all (fitsInteger 64) && fitsText 64 row.clientIp &&
    storableText row.qname && fitsInteger 32 row.qtype && fitsInteger 32 row.rcode &&
    row.blockReason.all (fitsText 50) && row.blocklistName.all (fitsText 255) &&
    row.latencyMs.all (fitsInteger 32)

/-- `latency_ms < 5`; a NULL latency is no hit. -/
def DNSQueryEvent.cacheHit (row : DNSQueryEvent) : Bool := row.latencyMs.any (· < 5)

/-- The rows of `dns_query_events`, whose event ids are unique unless they are NULL. Migration 0014 drops
the other constraint, on `(node_id, event_seq)`. -/
structure EventTable where
  rows : List DNSQueryEvent
  unique : (rows.filterMap (·.eventId)).Nodup

namespace EventTable

def hasId (table : EventTable) (eventId : String) : Bool :=
  table.rows.any (·.eventId = some eventId)

theorem hasId_iff {table : EventTable} {eventId : String} :
    table.hasId eventId = true ↔ ∃ row ∈ table.rows, row.eventId = some eventId := by
  simp [hasId]

/-- `INSERT ... ON CONFLICT (event_id) DO NOTHING` of one row. -/
def insert (table : EventTable) (row : DNSQueryEvent) : EventTable :=
  if conflict : row.eventId.any table.hasId then table
  else
    { rows := table.rows ++ [row]
      unique := by
        rw [List.filterMap_append]
        refine List.nodup_append.2 ⟨table.unique, ?_, ?_⟩
        · cases eventId : row.eventId <;> simp [eventId]
        · intro known old new added same
          obtain ⟨stored, present, storedId⟩ := List.mem_filterMap.1 old
          have added : row.eventId = some new := by simpa using added
          apply conflict
          rw [added, Option.any_some, hasId_iff]
          exact ⟨stored, present, storedId.trans (congrArg some same)⟩ }

def insertAll (table : EventTable) (rows : List DNSQueryEvent) : EventTable := rows.foldl insert table

theorem insert_keeps_rows (table : EventTable) (row : DNSQueryEvent) :
    table.rows <+: (table.insert row).rows := by
  unfold insert
  split
  · exact List.prefix_rfl
  · exact List.prefix_append _ _

theorem insertAll_keeps_rows (table : EventTable) (rows : List DNSQueryEvent) :
    table.rows <+: (table.insertAll rows).rows := by
  induction rows generalizing table with
  | nil => exact List.prefix_rfl
  | cons row rest ih => exact (insert_keeps_rows table row).trans (ih (table.insert row))

theorem mem_insert {table : EventTable} {row other : DNSQueryEvent}
    (member : other ∈ (table.insert row).rows) : other ∈ table.rows ∨ other = row := by
  unfold insert at member
  split at member
  · exact Or.inl member
  · simpa using member

theorem mem_insertAll {table : EventTable} {rows : List DNSQueryEvent} {row : DNSQueryEvent}
    (member : row ∈ (table.insertAll rows).rows) : row ∈ table.rows ∨ row ∈ rows := by
  induction rows generalizing table with
  | nil => exact Or.inl member
  | cons first rest ih =>
      rcases @ih (table.insert first) member with earlier | later
      · exact (mem_insert earlier).imp_right fun same => List.mem_cons.mpr (Or.inl same)
      · exact Or.inr (List.mem_cons_of_mem _ later)

theorem hasId_insert {table : EventTable} {row : DNSQueryEvent} {eventId : String}
    (named : row.eventId = some eventId) : (table.insert row).hasId eventId = true := by
  unfold insert
  split
  · rename_i conflict
    simpa [named] using conflict
  · exact hasId_iff.2 ⟨row, by simp, named⟩

theorem hasId_mono {before after : EventTable} (kept : before.rows <+: after.rows)
    {eventId : String} (stored : before.hasId eventId = true) : after.hasId eventId = true := by
  obtain ⟨row, present, named⟩ := hasId_iff.1 stored
  exact hasId_iff.2 ⟨row, kept.subset present, named⟩

theorem hasId_insertAll {table : EventTable} {rows : List DNSQueryEvent} {row : DNSQueryEvent}
    {eventId : String} (given : row ∈ rows) (named : row.eventId = some eventId) :
    (table.insertAll rows).hasId eventId = true := by
  induction rows generalizing table with
  | nil => contradiction
  | cons first rest ih =>
      rcases List.mem_cons.1 given with rfl | later
      · exact hasId_mono (insertAll_keeps_rows _ rest) (hasId_insert named)
      · exact @ih (table.insert first) later

theorem exists_insert (table : EventTable) (row : DNSQueryEvent) :
    ∃ other ∈ (table.insert row).rows, other = row ∨ other.eventId = row.eventId ∧ other.eventId ≠ none := by
  unfold insert
  split
  · rename_i conflict
    obtain ⟨eventId, named, stored⟩ := (Option.any_eq_true _ _).1 conflict
    obtain ⟨other, present, same⟩ := hasId_iff.1 stored
    exact ⟨other, present, Or.inr ⟨same.trans named.symm, by simp [same]⟩⟩
  · exact ⟨row, by simp, Or.inl rfl⟩

/-- What was to be inserted is there, or another row of its event id. -/
theorem exists_insertAll (table : EventTable) {rows : List DNSQueryEvent} {row : DNSQueryEvent}
    (given : row ∈ rows) : ∃ other ∈ (table.insertAll rows).rows,
      other = row ∨ other.eventId = row.eventId ∧ other.eventId ≠ none := by
  induction rows generalizing table with
  | nil => contradiction
  | cons first rest ih =>
      rcases List.mem_cons.1 given with rfl | later
      · obtain ⟨other, present, same⟩ := exists_insert table row
        exact ⟨other, (insertAll_keeps_rows _ rest).subset present, same⟩
      · exact ih (table.insert first) later

theorem length_filter_le_one (table : EventTable) (eventId : String) :
    (table.rows.filter (·.eventId = some eventId)).length ≤ 1 := by
  have counted : ∀ rows : List DNSQueryEvent, (rows.filter (·.eventId = some eventId)).length =
      (rows.filterMap (·.eventId)).count eventId := by
    intro rows
    induction rows with
    | nil => rfl
    | cons row rest ih => cases named : row.eventId <;> simp [List.filter_cons, named, List.count_cons] <;> grind
  rw [counted]
  exact List.nodup_iff_count_le_one.1 table.unique eventId

end EventTable

end PowerBlockade.Primary
