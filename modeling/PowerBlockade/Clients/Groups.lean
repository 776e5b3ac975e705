import Mathlib.Data.List.Nodup
import Mathlib.Data.Set.BooleanAlgebra
import Mathlib.Order.CompletePartialOrder
import PowerBlockade.Clients.Tables

/-!
# Automatic group assignment

`auto_assign_groups` goes through the groups, and takes the clients without a group at each of them
from the table anew.
-/

namespace PowerBlockade.Clients
open Lib

/-- `_ip_in_cidr` -/
def ipInCidr (ip cidr : String) : Bool := inNetwork ip cidr

/-- `_auto_assign_by_cidr`: the clients after its commit, and how many it assigned. -/
def autoAssignByCidr (clients : List Client) (group : ClientGroup) : List Client × Nat :=
  match group.cidr with
  | none => (clients, 0)
  | some cidr =>
      if cidr = "" then (clients, 0)
      else
        let matching := fun client : Client => client.groupId = none ∧ ipInCidr client.ip cidr = true
        (clients.map fun client => if matching client then { client with groupId := some group.id } else client,
          clients.countP (matching ·))

/-- `assigned += _auto_assign_by_cidr(db, group)` -/
def assignGroup (state : List Client × Nat) (group : ClientGroup) : List Client × Nat :=
  let result := autoAssignByCidr state.1 group
  (result.1, state.2 + result.2)

/-- The clients afterwards, and where the browser is sent. -/
def autoAssignGroups (user : Option Nat) (groups : ClientGroups) (clients : List Client) :
    List Client × String :=
  match user with
  | none => (clients, "/login")
  | some _ =>
      let state := (groups.rows.filter (·.cidr.isSome)).foldl assignGroup (clients, 0)
      (state.1, s!"/clients/groups?assigned={state.2}")

/-! ## What a run does to a client -/

def ClientGroup.addresses (group : ClientGroup) : Set IpNetwork.Address :=
  {address | ∃ cidr, group.cidr = some cidr ∧ address ∈ networkAddresses cidr}

/-- The address of a client is in the network of a group. -/
def LiesIn (ip : String) (group : ClientGroup) : Prop :=
  ∃ address, IpNetwork.ipAddress ip.toList = some address ∧ address ∈ group.addresses

/-- A client's row before and after. -/
structure RowAssigned (groups : ClientGroups) (before after : Client) : Prop where
  others : { after with groupId := before.groupId } = before
  conservative : before.groupId ≠ none → after = before
  complete : before.groupId = none → (after.groupId ≠ none ↔ ∃ group ∈ groups.rows, LiesIn before.ip group)
  known : before.groupId = none → ∀ id, after.groupId = some id → ∃ group ∈ groups.rows, group.id = id
  sound : before.groupId = none → ∀ group ∈ groups.rows, after.groupId = some group.id → LiesIn before.ip group

def PairwiseDisjoint (groups : ClientGroups) : Prop :=
  ∀ g ∈ groups.rows, ∀ h ∈ groups.rows, g ≠ h → Disjoint g.addresses h.addresses

structure AutoAssigned (user : Nat) (groups : ClientGroups) (clients : List Client) : Prop where
  rows : List.Forall₂ (RowAssigned groups) clients (autoAssignGroups (some user) groups clients).1
  idempotent : ∀ again : ClientGroups, again.rows.Perm groups.rows →
    autoAssignGroups (some user) again (autoAssignGroups (some user) groups clients).1 =
      ((autoAssignGroups (some user) groups clients).1, "/clients/groups?assigned=0")
  ordered : PairwiseDisjoint groups → ∀ other : ClientGroups, other.rows.Perm groups.rows →
    autoAssignGroups (some user) other clients = autoAssignGroups (some user) groups clients

def covers (ip : String) (group : ClientGroup) : Bool := group.cidr.any (ipInCidr ip)

theorem covers_iff {ip : String} {group : ClientGroup} : covers ip group = true ↔ LiesIn ip group := by
  unfold covers LiesIn ClientGroup.addresses
  cases group.cidr with
  | none => simp
  | some cidr =>
      rw [Option.any_some, ipInCidr, inNetwork_iff]
      simp

/-- The client after one group. -/
def assign (group : ClientGroup) (client : Client) : Client :=
  if client.groupId = none ∧ covers client.ip group = true then { client with groupId := some group.id } else client

/-- The client after all groups: the first one that covers its address takes it. -/
def assigned (groups : List ClientGroup) (client : Client) : Client :=
  { client with groupId := client.groupId.or ((groups.find? (covers client.ip)).map (·.id)) }

def awaits (groups : List ClientGroup) (client : Client) : Bool :=
  client.groupId.isNone && groups.any (covers client.ip)

theorem autoAssignByCidr_eq (clients : List Client) (group : ClientGroup) :
    autoAssignByCidr clients group = (clients.map (assign group), clients.countP (awaits [group])) := by
  have idle (uncovered : ∀ ip, covers ip group = false) :
      (clients, 0) = (clients.map (assign group), clients.countP (awaits [group])) := by
    have kept : assign group = id := by
      funext client
      simp [assign, uncovered]
    have nobody : awaits [group] = fun _ => false := by
      funext client
      simp [awaits, uncovered]
    rw [kept, nobody, List.map_id, List.countP_false]
    rfl
  unfold autoAssignByCidr
  cases cidr : group.cidr with
  | none => exact idle fun ip => by rw [covers, cidr, Option.any_none]
  | some text =>
      dsimp only
      have covered (ip : String) : covers ip group = ipInCidr ip text := by rw [covers, cidr, Option.any_some]
      split
      · rename_i empty
        exact idle fun ip => by rw [covered, empty, ipInCidr, inNetwork_empty]
      · congr 1
        · apply List.map_congr_left
          intro client _
          simp [assign, covered]
        · apply List.countP_congr
          intro client _
          simp [awaits, covered]

theorem assigned_assign (group : ClientGroup) (groups : List ClientGroup) (client : Client) :
    assigned groups (assign group client) = assigned (group :: groups) client := by
  unfold assigned assign
  cases grouped : client.groupId with
  | some id => simp [grouped]
  | none =>
      cases covered : covers client.ip group <;> simp [grouped, covered]

theorem awaits_cons (group : ClientGroup) (groups : List ClientGroup) (client : Client) :
    (if awaits [group] client = true then 1 else 0) + (if awaits groups (assign group client) = true then 1 else 0) =
      if awaits (group :: groups) client = true then 1 else 0 := by
  unfold awaits assign
  cases grouped : client.groupId with
  | some id => simp [grouped]
  | none => cases covered : covers client.ip group <;> simp [grouped, covered]

theorem countP_awaits_cons (group : ClientGroup) (groups : List ClientGroup) (clients : List Client) :
    clients.countP (awaits [group]) + (clients.map (assign group)).countP (awaits groups) =
      clients.countP (awaits (group :: groups)) := by
  induction clients with
  | nil => rfl
  | cons client rest ih =>
      have one := awaits_cons group groups client
      simp only [List.map_cons, List.countP_cons]
      omega

/-- The loop of `auto_assign_groups`. -/
theorem foldl_assignGroup (groups : List ClientGroup) (clients : List Client) (before : Nat) :
    groups.foldl assignGroup (clients, before) =
      (clients.map (assigned groups), before + clients.countP (awaits groups)) := by
  induction groups generalizing clients before with
  | nil =>
      have kept : assigned [] = id := by
        funext client
        simp [assigned]
      have nobody : awaits [] = fun _ => false := by
        funext client
        simp [awaits]
      rw [kept, nobody, List.map_id, List.countP_false]
      rfl
  | cons group groups ih =>
      rw [List.foldl_cons, assignGroup, autoAssignByCidr_eq, ih, List.map_map, Nat.add_assoc,
        countP_awaits_cons]
      congr 2
      funext client
      exact assigned_assign group groups client

theorem cidr_isSome {ip : String} {group : ClientGroup} (covered : covers ip group = true) :
    group.cidr.isSome = true := by
  unfold covers at covered
  cases cidr : group.cidr with
  | none => simp [cidr] at covered
  | some _ => rfl

/-- A group without a network covers nothing. -/
theorem find?_filter_cidr (groups : List ClientGroup) (ip : String) :
    (groups.filter (·.cidr.isSome)).find? (covers ip) = groups.find? (covers ip) := by
  rw [List.find?_filter]
  congr 1
  funext group
  cases covered : covers ip group with
  | false => simp
  | true => simp [cidr_isSome covered]

theorem assigned_congr {groups others : List ClientGroup}
    (same : ∀ ip, others.find? (covers ip) = groups.find? (covers ip)) : assigned others = assigned groups := by
  funext client
  rw [assigned, assigned, same]

theorem awaits_congr {groups others : List ClientGroup}
    (same : ∀ ip, others.find? (covers ip) = groups.find? (covers ip)) : awaits others = awaits groups := by
  funext client
  rw [awaits, awaits, ← List.isSome_find?, ← List.isSome_find?, same]

theorem autoAssignGroups_eq (user : Nat) (groups : ClientGroups) (clients : List Client) :
    autoAssignGroups (some user) groups clients = (clients.map (assigned groups.rows),
      s!"/clients/groups?assigned={clients.countP (awaits groups.rows)}") := by
  have same := find?_filter_cidr groups.rows
  rw [autoAssignGroups, foldl_assignGroup, assigned_congr same, awaits_congr same, Nat.zero_add]

/-! ## The whole run -/

theorem rowAssigned (groups : ClientGroups) (client : Client) :
    RowAssigned groups client (assigned groups.rows client) where
  others := rfl
  conservative := by
    intro grouped
    obtain ⟨id, grouped⟩ := Option.ne_none_iff_exists'.mp grouped
    unfold assigned
    rw [grouped, Option.some_or, ← grouped]
  complete := by
    intro ungrouped
    unfold assigned
    rw [ungrouped, Option.none_or]
    simp only [← covers_iff]
    rw [← Option.isSome_iff_ne_none, Option.isSome_map, List.find?_isSome]
  known := by
    intro ungrouped id taken
    unfold assigned at taken
    rw [ungrouped, Option.none_or] at taken
    obtain ⟨group, found, rfl⟩ := Option.map_eq_some_iff.mp taken
    exact ⟨group, List.mem_of_find?_eq_some found, rfl⟩
  sound := by
    intro ungrouped group listed taken
    unfold assigned at taken
    rw [ungrouped, Option.none_or] at taken
    obtain ⟨found, first, same⟩ := Option.map_eq_some_iff.mp taken
    have equal : found = group :=
      List.inj_on_of_nodup_map groups.unique (List.mem_of_find?_eq_some first) listed same
    rw [← equal]
    exact covers_iff.mp (List.find?_some first)

theorem assigned_of_not_awaits {groups : List ClientGroup} {client : Client}
    (done : awaits groups client = false) : assigned groups client = client := by
  unfold assigned
  cases grouped : client.groupId with
  | some id => rw [Option.some_or, ← grouped]
  | none =>
      rw [awaits, grouped, Option.isNone_none, Bool.true_and, ← List.isSome_find?, Option.isSome_eq_false_iff,
        Option.isNone_iff_eq_none] at done
      rw [done, Option.none_or, Option.map_none, ← grouped]

theorem not_awaits_assigned {groups again : List ClientGroup} (within : again ⊆ groups) (client : Client) :
    awaits again (assigned groups client) = false := by
  have given : (assigned groups client).groupId =
      client.groupId.or ((groups.find? (covers client.ip)).map (·.id)) := rfl
  unfold awaits
  rw [given]
  cases client.groupId with
  | some id => rfl
  | none =>
      cases first : groups.find? (covers client.ip) with
      | some group => rfl
      | none =>
          rw [List.find?_eq_none] at first
          have nobody : again.any (covers client.ip) = false := by
            rw [List.any_eq_false]
            exact fun group listed => first group (within listed)
          exact nobody

theorem eq_of_covers {groups : ClientGroups} (disjoint : PairwiseDisjoint groups) {ip : String} {g h : ClientGroup}
    (left : g ∈ groups.rows) (right : h ∈ groups.rows) (first : covers ip g = true) (second : covers ip h = true) :
    g = h := by
  by_contra different
  obtain ⟨address, read, inFirst⟩ := covers_iff.mp first
  obtain ⟨other, readAgain, inSecond⟩ := covers_iff.mp second
  rw [read] at readAgain
  rw [← Option.some.inj readAgain] at inSecond
  exact Set.disjoint_left.mp (disjoint g left h right different) inFirst inSecond

theorem auto_assigned (user : Nat) (groups : ClientGroups) (clients : List Client) :
    AutoAssigned user groups clients := by
  refine ⟨?_, ?_, ?_⟩
  · rw [autoAssignGroups_eq, List.forall₂_map_right_iff, List.forall₂_same]
    exact fun client _ => rowAssigned groups client
  · intro again perm
    have done : ∀ client, awaits again.rows (assigned groups.rows client) = false :=
      not_awaits_assigned perm.subset
    rw [autoAssignGroups_eq, autoAssignGroups_eq, List.map_map]
    have kept : assigned again.rows ∘ assigned groups.rows = assigned groups.rows := by
      funext client
      exact assigned_of_not_awaits (done client)
    have nobody : (clients.map (assigned groups.rows)).countP (awaits again.rows) = 0 := by
      rw [List.countP_map, List.countP_eq_zero]
      exact fun client _ => by simp [done]
    rw [kept, nobody]
    rfl
  · intro disjoint other perm
    have same (ip : String) : other.rows.find? (covers ip) = groups.rows.find? (covers ip) :=
      find?_perm perm fun g left h right => eq_of_covers disjoint left right
    rw [autoAssignGroups_eq, autoAssignGroups_eq, assigned_congr same, awaits_congr same]

end PowerBlockade.Clients
