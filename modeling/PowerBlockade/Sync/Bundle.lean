import Mathlib.Data.String.Basic
import PowerBlockade.Lib.JsonText
import PowerBlockade.Lib.Sha256
import PowerBlockade.Lib.KeyedTable
import PowerBlockade.Settings

/-!
# What the primary hands to a secondary

`config` and the two digests that stand for a configuration: the bundle's version and the one that a
heartbeat returns.
-/

namespace PowerBlockade.Sync
open Lib

/-! ## Files and digests -/

abbrev Bytes := List UInt8

def encode (text : String) : Bytes := text.toByteArray.data.toList

/-- `none` is the `UnicodeDecodeError`. -/
def decode (bytes : Bytes) : Option String := String.fromUTF8? ⟨bytes.toArray⟩

/-- A file opened as text. -/
def readText (bytes : Bytes) : Option String :=
  (decode bytes).map fun text => String.ofList (Python.universalNewlines text.toList)

def sha256Hex (length : Nat) (bytes : Bytes) : String := Python.take length (Sha256.hexDigest bytes)

/-- `compute_file_checksum` of the agent, and the checksum of a bundled file. -/
def checksum (content : String) : String := sha256Hex 16 (encode content)

theorem decode_encode (text : String) : decode (encode text) = some text := by
  have whole : (⟨(encode text).toArray⟩ : ByteArray) = text.toByteArray := by simp [encode]
  rw [decode, whole, String.fromUTF8?, dif_pos text.isValidUTF8]
  exact congrArg some (String.toByteArray_inj.mp rfl)

theorem encode_inj {text text' : String} (same : encode text = encode text') : text = text' := by
  have decoded := decode_encode text
  rw [same, decode_encode] at decoded
  exact (Option.some.inj decoded).symm

/-! ## Versions of the software -/

inductive Compatibility
  | allow
  | warn
  | block
deriving DecidableEq

def known (version : Option String) : Option String :=
  version.filter fun v => v ≠ "" ∧ v ≠ "unknown"

def lstripV (version : String) : String := String.ofList (version.toList.dropWhile (· = 'v'))

/-- Up to three numbers; `none` is the `ValueError`. -/
def versionParts (version : String) : Option (Int × Int × Int) := do
  let parts ← ((version.toList.splitOn '.').take 3).mapM fun part => Python.int (String.ofList part)
  return (parts.getD 0 0, parts.getD 1 0, parts.getD 2 0)

def checkVersionCompatibility (primary secondary : Option String) : Compatibility × String :=
  match known primary, known secondary with
  | none, none => (.allow, "Both versions unknown, assuming compatibility")
  | none, some secondary => (.warn, s!"Primary version unknown, cannot verify secondary {secondary}")
  | some primary, none =>
      (.warn, s!"Secondary version unknown, cannot verify against primary {primary}")
  | some primary, some secondary =>
      let primary := lstripV primary
      let secondary := lstripV secondary
      match versionParts primary, versionParts secondary with
      | some (pMajor, pMinor, pPatch), some (sMajor, sMinor, sPatch) =>
          if pMajor ≠ sMajor then
            (.block, s!"Major version mismatch: primary={primary}, secondary={secondary}")
          else if pMinor ≠ sMinor then
            (.warn, s!"Minor version skew: primary={primary}, secondary={secondary}")
          else if sPatch < pPatch then
            (.warn, s!"Secondary patch behind: primary={primary}, secondary={secondary}")
          else (.allow, s!"Versions compatible: primary={primary}, secondary={secondary}")
      | _, _ => (.warn, s!"Unparseable version: primary={primary}, secondary={secondary}")

/-! ## The primary -/

inductive RpzName
  | combined
  | whitelist
deriving DecidableEq

def RpzName.filename : RpzName → String
  | combined => "blocklist-combined.rpz"
  | whitelist => "whitelist.rpz"

def rpzNames : List RpzName := [.combined, .whitelist]

structure ForwardZone where
  domain : String
  servers : String
  enabled : Bool
  nodeId : Option Nat
deriving DecidableEq

/-- What `config` and the heartbeat read: a file that is missing or cannot be opened is `none`. -/
structure Primary where
  pbVersion : Option String
  rpz : RpzName → Option Bytes
  zones : List ForwardZone
  settings : Settings

structure Secondary where
  id : Nat
  version : Option String

structure RpzFile where
  filename : String
  content : String
  checksum : String
deriving DecidableEq

/-- A forward zone as the agent reads it; a key that is not there is `none`. -/
structure ZoneEntry where
  domain : Option String
  servers : Option String
deriving DecidableEq

structure Bundle where
  configVersion : String
  rpzFiles : List RpzFile
  forwardZones : List ZoneEntry
  settings : Settings
deriving DecidableEq

def rpzFiles (primary : Primary) : List RpzFile :=
  rpzNames.filterMap fun name => do
    let content ← (primary.rpz name).bind readText
    return ⟨name.filename, content, checksum content⟩

/-- The zones of the node over the global ones, one for each domain. -/
def zoneMap (primary : Primary) (node : Secondary) : KeyedTable ForwardZone.domain :=
  KeyedTable.empty.upsertAll
    (primary.zones.filter (fun z => z.enabled && z.nodeId = none) ++
      primary.zones.filter fun z => z.enabled && z.nodeId = some node.id)

def zoneLine (domain servers : String) : String := s!"{domain}={servers}"

def zoneLines (primary : Primary) (node : Secondary) : List String :=
  (zoneMap primary node).rows.map fun z => zoneLine z.domain z.servers

def sortedLines (lines : List String) : List String := lines.mergeSort fun a b => decide (a ≤ b)

/-- `json.dumps(..., sort_keys=True)`. -/
def configData (checksums lines : List String) : List Char :=
  "\x7b\"forward_zones\": ".toList ++ JsonText.array lines ++ ", \"rpz_checksums\": ".toList ++
    JsonText.array checksums ++ "\x7d".toList

def bundleVersion (primary : Primary) (node : Secondary) : String :=
  sha256Hex 12 (encode (String.ofList (configData ((rpzFiles primary).map (·.checksum))
    (sortedLines (zoneLines primary node)))))

def settingKeys : List String :=
  ["retention_events_days", "ptr_resolution_enabled", "precache_enabled", "precache_domain_count",
    "precache_refresh_minutes", "precache_ignore_ttl", "precache_custom_refresh_minutes"]

/-- The endpoint; a refused version is its 409. -/
def config (primary : Primary) (node : Secondary) : Except (Nat × String) Bundle :=
  match checkVersionCompatibility primary.pbVersion node.version with
  | (.block, message) => .error (409, message)
  | _ => .ok
      { configVersion := bundleVersion primary node
        rpzFiles := rpzFiles primary
        forwardZones := (zoneMap primary node).rows.map fun z => ⟨some z.domain, some z.servers⟩
        settings := settingKeys.map fun key => (key, primary.settings.get key) }

/-- Whatever the versions, a served bundle is made of the state alone. -/
theorem config_ok {primary : Primary} {node : Secondary} {bundle : Bundle}
    (served : config primary node = .ok bundle) :
    bundle.configVersion = bundleVersion primary node ∧ bundle.rpzFiles = rpzFiles primary ∧
      bundle.forwardZones =
        (zoneMap primary node).rows.map fun z => ⟨some z.domain, some z.servers⟩ := by
  unfold config at served
  split at served
  · exact nomatch served
  · rw [← Except.ok.inj served]
    exact ⟨rfl, rfl, rfl⟩

/-- `compute_config_version`, which a heartbeat returns. -/
def computeConfigVersion (primary : Primary) : String :=
  let checksums := rpzNames.filterMap fun name => (primary.rpz name).map (sha256Hex 16)
  sha256Hex 12 (encode (":".intercalate checksums))

end PowerBlockade.Sync
