import PowerBlockade.Lib.Lists
import PowerBlockade.Sync.Bundle

/-!
# Two versions of one configuration

The heartbeat's version digests the bytes of the RPZ files, the bundle's their texts and the forward
zones.
-/

namespace PowerBlockade.Sync
open Lib

variable {primary primary' : Primary} {node node' : Secondary}

/-! ## What a state has -/

def fileBytes (primary : Primary) : List Bytes := rpzNames.filterMap primary.rpz

def text (primary : Primary) (name : RpzName) : Option String := (primary.rpz name).bind readText

def fileTexts (primary : Primary) : List String := rpzNames.filterMap (text primary)

/-- The enabled zones of one owner, `none` for the global ones. -/
def enabledZones (primary : Primary) (owner : Option Nat) : List ForwardZone :=
  primary.zones.filter fun z => z.enabled && z.nodeId = owner

/-- Where the node forwards a domain: its own zone goes before a global one. -/
def zoneServers (primary : Primary) (node : Secondary) (domain : String) : Option String :=
  (((enabledZones primary (some node.id)).reverse.find? (·.domain = domain)).or
    ((enabledZones primary none).reverse.find? (·.domain = domain))).map (·.servers)

def heartbeatInput (primary : Primary) : Bytes :=
  encode (":".intercalate ((fileBytes primary).map (sha256Hex 16)))

def bundleInput (primary : Primary) (node : Secondary) : Bytes :=
  encode (String.ofList (configData ((fileTexts primary).map checksum)
    (sortedLines (zoneLines primary node))))

theorem computeConfigVersion_eq (primary : Primary) :
    computeConfigVersion primary = sha256Hex 12 (heartbeatInput primary) := by
  rw [heartbeatInput, fileBytes, List.map_filterMap]
  rfl

theorem rpzFiles_eq (primary : Primary) : rpzFiles primary =
    rpzNames.filterMap fun name =>
      (text primary name).map fun content => ⟨name.filename, content, checksum content⟩ := by
  unfold rpzFiles text
  congr 1
  funext name
  cases (primary.rpz name).bind readText <;> rfl

theorem bundleVersion_eq (primary : Primary) (node : Secondary) :
    bundleVersion primary node = sha256Hex 12 (bundleInput primary node) := by
  have checksums : (rpzFiles primary).map (·.checksum) = (fileTexts primary).map checksum := by
    rw [rpzFiles_eq, fileTexts, List.map_filterMap, List.map_filterMap]
    congr 1
    funext name
    cases text primary name <;> rfl
  rw [bundleVersion, bundleInput, checksums]

/-! ## The digests as injective -/

/-- The digests that the two states' versions are made of collide nowhere. -/
structure NoCollision (primary : Primary) (node : Secondary) (primary' : Primary)
    (node' : Secondary) : Prop where
  bytes : ∀ x ∈ fileBytes primary, ∀ y ∈ fileBytes primary', sha256Hex 16 x = sha256Hex 16 y → x = y
  texts : ∀ x ∈ fileTexts primary, ∀ y ∈ fileTexts primary', checksum x = checksum y → x = y
  heartbeat : sha256Hex 12 (heartbeatInput primary) = sha256Hex 12 (heartbeatInput primary') →
    heartbeatInput primary = heartbeatInput primary'
  bundle : sha256Hex 12 (bundleInput primary node) = sha256Hex 12 (bundleInput primary' node') →
    bundleInput primary node = bundleInput primary' node'

theorem length_sha256Hex {n : Nat} (short : n ≤ 64) (bytes : Bytes) :
    (sha256Hex n bytes).toList.length = n := by
  have whole : (Sha256.hexDigest bytes).toList.length = 64 := Sha256.length_hexDigest bytes
  rw [sha256Hex, Python.take, String.toList_ofList, List.length_take, whole]
  exact Nat.min_eq_left short

theorem heartbeatInput_inj
    (separated : ∀ x ∈ fileBytes primary, ∀ y ∈ fileBytes primary',
      sha256Hex 16 x = sha256Hex 16 y → x = y)
    (same : heartbeatInput primary = heartbeatInput primary') :
    fileBytes primary = fileBytes primary' := by
  have joined := congrArg String.toList (encode_inj same)
  rw [String.toList_intercalate, String.toList_intercalate] at joined
  have blocks : ∀ files : List Bytes,
      ∀ x ∈ (files.map (sha256Hex 16)).map String.toList, x.length = 16 := by
    intro files x member
    rw [List.map_map] at member
    obtain ⟨bytes, -, rfl⟩ := List.mem_map.mp member
    exact length_sha256Hex (by decide) bytes
  have parts := intercalate_inj (n := 16) (by decide) (blocks _) (blocks _) joined
  have checksums := List.map_injective_iff.mpr (fun _ _ => String.toList_inj.mp) parts
  exact map_inj_of_injOn separated checksums

theorem configData_inj {checksums checksums' lines lines' : List String}
    (same : configData checksums lines = configData checksums' lines') :
    checksums = checksums' ∧ lines = lines' := by
  unfold configData at same
  simp only [List.append_assoc, List.append_cancel_left_eq] at same
  obtain ⟨zones, rest⟩ := JsonText.array_inj same
  rw [List.append_cancel_left_eq] at rest
  exact ⟨(JsonText.array_inj rest).1, zones⟩

theorem pairwise_sortedLines (lines : List String) : (sortedLines lines).Pairwise (· ≤ ·) := by
  have sorted : (sortedLines lines).Pairwise fun a b => decide (a ≤ b) = true := by
    apply List.pairwise_mergeSort
    · intro a b c first second
      exact decide_eq_true ((of_decide_eq_true first).trans (of_decide_eq_true second))
    · intro a b
      simpa using le_total a b
  exact sorted.imp of_decide_eq_true

theorem sortedLines_eq_iff {lines lines' : List String} :
    sortedLines lines = sortedLines lines' ↔ lines.Perm lines' := by
  have perm (lines : List String) : (sortedLines lines).Perm lines := List.mergeSort_perm _ _
  constructor
  · intro same
    exact (perm lines).symm.trans (same ▸ perm lines')
  · intro reordered
    exact ((perm lines).trans (reordered.trans (perm lines').symm)).eq_of_pairwise
      (fun _ _ _ _ => le_antisymm) (pairwise_sortedLines lines) (pairwise_sortedLines lines')

theorem bundleInput_inj
    (separated : ∀ x ∈ fileTexts primary, ∀ y ∈ fileTexts primary', checksum x = checksum y → x = y)
    (same : bundleInput primary node = bundleInput primary' node') :
    fileTexts primary = fileTexts primary' ∧
      (zoneLines primary node).Perm (zoneLines primary' node') := by
  obtain ⟨checksums, lines⟩ := configData_inj (String.ofList_injective (encode_inj same))
  exact ⟨map_inj_of_injOn separated checksums, sortedLines_eq_iff.mp lines⟩

/-! ## The bundle -/

namespace Bundle

/-- Its `forward_zones` as a map. -/
def servers (bundle : Bundle) (domain : String) : Option String :=
  (bundle.forwardZones.find? (·.domain = some domain)).bind (·.servers)

end Bundle

theorem find?_rpzFiles (primary : Primary) (name : RpzName) :
    ((rpzFiles primary).find? (·.filename = name.filename)).map (·.content) = text primary name := by
  rw [rpzFiles_eq]
  cases combined : text primary .combined <;> cases whitelist : text primary .whitelist <;>
    cases name <;> simp [rpzNames, RpzName.filename, combined, whitelist]

theorem rpzFiles_eq_iff : rpzFiles primary = rpzFiles primary' ↔ text primary = text primary' := by
  constructor
  · intro same
    funext name
    rw [← find?_rpzFiles, ← find?_rpzFiles, same]
  · intro same
    rw [rpzFiles_eq, rpzFiles_eq, same]

theorem zoneMap_find? (primary : Primary) (node : Secondary) (domain : String) :
    ((zoneMap primary node).find? domain).map (·.servers) = zoneServers primary node domain := by
  unfold zoneMap zoneServers enabledZones
  rw [KeyedTable.find?_upsertAll, List.reverse_append, List.find?_append]
  exact congrArg (Option.map _) (Option.or_none)

theorem servers_eq {bundle : Bundle} (served : config primary node = .ok bundle) :
    bundle.servers = zoneServers primary node := by
  funext domain
  rw [← zoneMap_find?, Bundle.servers, (config_ok served).2.2, List.find?_map, Option.bind_map]
  simp only [Function.comp_def, Option.some.injEq, KeyedTable.find?]
  exact Option.map_eq_bind.symm

theorem zoneLines_perm (same : zoneServers primary node = zoneServers primary' node') :
    (zoneLines primary node).Perm (zoneLines primary' node') := by
  let pairs (primary : Primary) (node : Secondary) : List (String × String) :=
    (zoneMap primary node).rows.map fun z => (z.domain, z.servers)
  have lines (primary : Primary) (node : Secondary) :
      zoneLines primary node = (pairs primary node).map fun pair => zoneLine pair.1 pair.2 := by
    simp only [zoneLines, pairs, List.map_map, Function.comp_def]
  have distinct (primary : Primary) (node : Secondary) : (pairs primary node).Nodup := by
    apply List.Nodup.of_map Prod.fst
    simpa only [pairs, List.map_map, Function.comp_def] using (zoneMap primary node).unique
  have member (primary : Primary) (node : Secondary) (domain servers : String) :
      (domain, servers) ∈ pairs primary node ↔ zoneServers primary node domain = some servers := by
    rw [← zoneMap_find?, Option.map_eq_some_iff, List.mem_map]
    constructor
    · rintro ⟨z, there, equal⟩
      cases equal
      exact ⟨z, KeyedTable.find?_eq_some_iff.mpr ⟨there, rfl⟩, rfl⟩
    · rintro ⟨z, found, rfl⟩
      obtain ⟨there, rfl⟩ := KeyedTable.find?_eq_some_iff.mp found
      exact ⟨z, there, rfl⟩
  rw [lines, lines]
  apply List.Perm.map
  rw [List.perm_ext_iff_of_nodup (distinct _ _) (distinct _ _)]
  rintro ⟨domain, servers⟩
  rw [member, member, same]

/-- The two states' versions change exactly when what the bundles configure does. -/
def VersionsAgree (primary primary' : Primary) (bundle bundle' : Bundle) : Prop :=
  (computeConfigVersion primary = computeConfigVersion primary' ↔
    bundle.rpzFiles = bundle'.rpzFiles ∧ bundle.servers = bundle'.servers) ∧
  (bundle.configVersion = bundle'.configVersion ↔
    computeConfigVersion primary = computeConfigVersion primary')

theorem agree_iff {bytes configured digested : Prop} (implied : configured → digested) :
    (bytes ↔ configured) ∧ (digested ↔ bytes) ↔ bytes ∧ configured ∨ ¬ bytes ∧ ¬ digested := by
  tauto

/-- Without collisions they do for two states with the same file bytes exactly when these are under
the same names and the zones are the same, and for two with other bytes exactly when a text or a zone
line is another too. -/
theorem versionsAgree_iff (primary primary' : Primary) (node node' : Secondary)
    (bundle bundle' : Bundle) (served : config primary node = .ok bundle)
    (served' : config primary' node' = .ok bundle')
    (free : NoCollision primary node primary' node') :
    VersionsAgree primary primary' bundle bundle' ↔
      fileBytes primary = fileBytes primary' ∧ text primary = text primary' ∧
          zoneServers primary node = zoneServers primary' node' ∨
        fileBytes primary ≠ fileBytes primary' ∧ ¬ (fileTexts primary = fileTexts primary' ∧
          (zoneLines primary node).Perm (zoneLines primary' node')) := by
  have heartbeat : computeConfigVersion primary = computeConfigVersion primary' ↔
      fileBytes primary = fileBytes primary' := by
    rw [computeConfigVersion_eq, computeConfigVersion_eq]
    constructor
    · intro same
      exact heartbeatInput_inj free.bytes (free.heartbeat same)
    · intro same
      rw [heartbeatInput, heartbeatInput, same]
  have version : bundle.configVersion = bundle'.configVersion ↔
      fileTexts primary = fileTexts primary' ∧
        (zoneLines primary node).Perm (zoneLines primary' node') := by
    rw [(config_ok served).1, (config_ok served').1, bundleVersion_eq, bundleVersion_eq]
    constructor
    · intro same
      exact bundleInput_inj free.texts (free.bundle same)
    · rintro ⟨texts, lines⟩
      rw [bundleInput, bundleInput, texts, sortedLines_eq_iff.mpr lines]
  have configured : bundle.rpzFiles = bundle'.rpzFiles ∧ bundle.servers = bundle'.servers ↔
      text primary = text primary' ∧ zoneServers primary node = zoneServers primary' node' := by
    rw [(config_ok served).2.1, (config_ok served').2.1, rpzFiles_eq_iff, servers_eq served,
      servers_eq served']
  have digested : text primary = text primary' ∧ zoneServers primary node = zoneServers primary' node' →
      fileTexts primary = fileTexts primary' ∧
        (zoneLines primary node).Perm (zoneLines primary' node') := by
    rintro ⟨texts, zones⟩
    exact ⟨by rw [fileTexts, fileTexts, texts], zoneLines_perm zones⟩
  rw [VersionsAgree, heartbeat, version, configured]
  exact agree_iff digested

/-! ## A forward zone is added -/

def corpZone : ForwardZone := ⟨"corp", "10.0.0.1", true, none⟩

def stateWith (zones : List ForwardZone) : Primary := ⟨none, fun _ => none, zones, []⟩

def anyNode : Secondary := ⟨1, none⟩

def bundleWith (zones : List ForwardZone) : Bundle where
  configVersion := bundleVersion (stateWith zones) anyNode
  rpzFiles := []
  forwardZones := (zoneMap (stateWith zones) anyNode).rows.map fun z => ⟨some z.domain, some z.servers⟩
  settings := settingKeys.map fun key => (key, (stateWith zones).settings.get key)

theorem config_stateWith (zones : List ForwardZone) :
    config (stateWith zones) anyNode = .ok (bundleWith zones) := rfl

theorem noCollision_corp : NoCollision (stateWith []) anyNode (stateWith [corpZone]) anyNode where
  bytes := by decide
  texts := by decide
  heartbeat := fun _ => rfl
  bundle := by
    have different : sha256Hex 12 (bundleInput (stateWith []) anyNode) ≠
        sha256Hex 12 (bundleInput (stateWith [corpZone]) anyNode) := by
      have none : sortedLines (zoneLines (stateWith []) anyNode) = [] := List.mergeSort_nil
      have one : sortedLines (zoneLines (stateWith [corpZone]) anyNode) = ["corp=10.0.0.1"] :=
        List.mergeSort_singleton _
      rw [bundleInput, bundleInput, none, one]
      decide +kernel
    exact fun same => absurd same different

theorem added_zone_keeps_heartbeat_version :
    ¬ ∀ (primary primary' : Primary) (node node' : Secondary) (bundle bundle' : Bundle),
      config primary node = .ok bundle → config primary' node' = .ok bundle' →
        NoCollision primary node primary' node' → VersionsAgree primary primary' bundle bundle' := by
  intro agrees
  have agree := agrees _ _ _ _ _ _ (config_stateWith []) (config_stateWith [corpZone]) noCollision_corp
  have unseen : computeConfigVersion (stateWith []) = computeConfigVersion (stateWith [corpZone]) := rfl
  have zones := congrFun (agree.1.mp unseen).2 "corp"
  rw [servers_eq (config_stateWith []), servers_eq (config_stateWith [corpZone])] at zones
  exact absurd zones (by decide)

theorem versionsAgree_iff_corp :
    VersionsAgree (stateWith []) (stateWith [corpZone]) (bundleWith []) (bundleWith [corpZone]) ↔
      fileBytes (stateWith []) = fileBytes (stateWith [corpZone]) ∧
          text (stateWith []) = text (stateWith [corpZone]) ∧
          zoneServers (stateWith []) anyNode = zoneServers (stateWith [corpZone]) anyNode ∨
        fileBytes (stateWith []) ≠ fileBytes (stateWith [corpZone]) ∧
          ¬ (fileTexts (stateWith []) = fileTexts (stateWith [corpZone]) ∧
            (zoneLines (stateWith []) anyNode).Perm (zoneLines (stateWith [corpZone]) anyNode)) :=
  versionsAgree_iff (stateWith []) (stateWith [corpZone]) anyNode anyNode (bundleWith [])
    (bundleWith [corpZone]) (config_stateWith []) (config_stateWith [corpZone]) noCollision_corp

end PowerBlockade.Sync
