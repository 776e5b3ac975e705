import PowerBlockade.Lib.Run
import PowerBlockade.Lib.Sha256
import PowerBlockade.Lib.Utf8
import PowerBlockade.Primary.Ingest
import PowerBlockade.Zones.LoadFile

/-!
# The key of the local node

When the primary's stack starts, admin-ui sees to the row of its own node, and the dnstap processor
works out the key that it sends with its events. The row keeps the key that it was made with.
-/

namespace PowerBlockade.Nodes
open Lib Primary

/-- The environment of both containers; `none` is a variable that is not set. -/
structure Environment where
  nodeName : Option String
  localNodeApiKey : Option String
  primaryApiKey : Option String
  adminSecretKey : Option String
  adminPassword : Option String
  allowInsecure : Option String

/-- One start of the stack. The containers have host names of their own, of which the processor may
fail to learn its. -/
structure Start where
  environment : Environment
  adminHostname : String
  processorHostname : Option String
  time : DateTime

def keySeed (nodeName secret : String) : String := s!"{nodeName}:{secret}"

def derivedKey (nodeName secret : String) : String :=
  Sha256.hexDigest (keySeed nodeName secret).toUTF8.toList

/-! ## admin-ui -/

def insecureDefaults : List String := ["change-me", "password", "admin", "secret", ""]

namespace Environment
variable (environment : Environment)

def adminSecret : String := environment.adminSecretKey.getD "change-me"

def securityIssues : List String :=
  (if environment.adminPassword.getD "change-me" ∈ insecureDefaults then
    ["ADMIN_PASSWORD is set to a default/weak value"] else []) ++
  (if environment.adminSecret ∈ insecureDefaults then
    ["ADMIN_SECRET_KEY is set to a default/weak value"] else []) ++
  (if environment.primaryApiKey.getD "" ≠ "" ∧ environment.primaryApiKey.getD "" ∈ insecureDefaults then
    ["PRIMARY_API_KEY is set to a default/weak value"] else [])

/-- `false` is `sys.exit(1)`. -/
def validateSecuritySettings : Bool :=
  environment.securityIssues = [] ∨ Python.lower (environment.allowInsecure.getD "") = "true"

end Environment

/-- `value or fallback`. -/
def orElse (value : Option String) (fallback : String) : String :=
  if value.getD "" = "" then fallback else value.getD ""

namespace Start
variable (start : Start)

def adminNodeName : String := orElse start.environment.nodeName start.adminHostname

def localKey : String :=
  orElse start.environment.localNodeApiKey (derivedKey start.adminNodeName start.environment.adminSecret)

def localNode (id : Nat) : Node where
  id := id
  name := start.adminNodeName
  apiKey := start.localKey
  ipAddress := none
  version := none
  status := .active
  lastSeen := some start.time
  lastHeartbeat := none
  lastError := none
  quarantineEntryTime := none
  quarantineReason := none
  queriesTotal := 0
  queriesBlocked := 0

/-- `none` is a constraint of the table that the new row breaks. -/
def bootstrapPrimaryNode (nodes : NodeTable) : Option NodeTable :=
  match nodes.withName start.adminNodeName with
  | none => nodes.insert (start.localNode nodes.nextId)
  | some _ => some (nodes.markSeen start.adminNodeName start.time)

/-- What the start of admin-ui does to the nodes; `none` when it does not come up. -/
def lifespan (nodes : NodeTable) : Option NodeTable :=
  if start.environment.validateSecuritySettings then start.bootstrapPrimaryNode nodes else none

end Start

def startUp (db : Database) (start : Start) : Database :=
  match start.lifespan db.nodes with
  | none => db
  | some nodes => { db with nodes := nodes }

/-! ## The processor -/

def trimSpace (text : String) : String := String.ofList (trim Zones.isSpace text.toList)

/-- `strings.TrimSpace(os.Getenv(...))` -/
def trimmedEnv (value : Option String) : String := trimSpace (value.getD "")

structure Config where
  nodeName : String
  apiKey : String

namespace Start
variable (start : Start)

def processorNodeName : String :=
  if trimmedEnv start.environment.nodeName ≠ "" then trimmedEnv start.environment.nodeName
  else start.processorHostname.getD "unknown"

def load : Config :=
  let environment := start.environment
  let apiKey :=
    if trimmedEnv environment.localNodeApiKey ≠ "" then trimmedEnv environment.localNodeApiKey
    else trimmedEnv environment.primaryApiKey
  { nodeName := start.processorNodeName
    apiKey :=
      if apiKey = "" then
        let secret := trimmedEnv environment.adminSecretKey
        if secret ≠ "" then derivedKey start.processorNodeName secret else ""
      else apiKey }

end Start

/-- Without a key the processor ends at once. -/
def BothStarted (db : Database) (start : Start) : Prop :=
  (start.lifespan db.nodes).isSome = true ∧ start.load.apiKey ≠ ""

/-- What the client sends as the value of a header, one character or byte of UTF-8 after another. -/
def isFieldChar (c : Char) : Bool := c = '\t' ∨ 32 ≤ c.toNat ∧ c.toNat ≠ 127

/-- The header as the server reads it, its bytes taken as Latin-1; `none` when the client refuses to
send it. -/
def receivedHeader (value : String) : Option String :=
  if value.toList.all isFieldChar then
    some (String.ofList (Utf8.latin1 (Utf8.encode value.toList)))
  else none

def authenticated (db : Database) (apiKey : String) : Option Node :=
  match receivedHeader apiKey with
  | none => none
  | some key => (db.getNodeFromApiKey (some key)).toOption

/-- The key that is sent is the one stored for the local node, and stands for that node. -/
def KeyAgrees (db : Database) (start : Start) : Prop :=
  ∃ row, db.nodes.withName start.adminNodeName = some row ∧ row.apiKey = start.load.apiKey ∧
    authenticated db start.load.apiKey = some row

def AgreesAfter (db : Database) (start : Start) : Prop :=
  BothStarted db start → KeyAgrees (startUp db start) start

/-! ## The header -/

/-- Text that a header carries as it is: printable ASCII and tabs. -/
def Plain (text : String) : Prop := ∀ c ∈ text.toList, isFieldChar c = true ∧ c.toNat < 128

theorem receivedHeader_eq_self_iff {text : String} : receivedHeader text = some text ↔ Plain text := by
  have whole : String.ofList (Utf8.latin1 (Utf8.encode text.toList)) = text ↔
      ∀ c ∈ text.toList, c.toNat < 128 := by
    rw [← Utf8.latin1_encode_eq_self_iff, ← String.toList_inj, String.toList_ofList]
  unfold receivedHeader
  by_cases sent : text.toList.all isFieldChar
  · rw [if_pos sent, Option.some_inj, whole]
    rw [List.all_eq_true] at sent
    constructor
    · intro ascii c member
      exact ⟨sent c member, ascii c member⟩
    · intro plain c member
      exact (plain c member).2
  · rw [if_neg sent]
    refine iff_of_false nofun fun plain => sent ?_
    exact List.all_eq_true.mpr fun c member => (plain c member).1

theorem keyAgrees_iff {db : Database} {start : Start} (nonempty : start.load.apiKey ≠ "") :
    KeyAgrees db start ↔
      (db.nodes.withName start.adminNodeName).map (·.apiKey) = some start.load.apiKey ∧
        Plain start.load.apiKey := by
  rw [← receivedHeader_eq_self_iff]
  constructor
  · intro ⟨row, named, same, taken⟩
    refine ⟨by rw [named, Option.map_some, same], ?_⟩
    unfold authenticated at taken
    cases read : receivedHeader start.load.apiKey with
    | none => simp [read] at taken
    | some key =>
        simp only [read] at taken
        cases found : db.getNodeFromApiKey (some key) with
        | error failure => simp [found, Except.toOption] at taken
        | ok node =>
            have node_eq : node = row := by simpa [found, Except.toOption] using taken
            have keyed := (Database.getNodeFromApiKey_eq_ok.mp found).2.1
            rw [keyed, node_eq, same]
  · intro ⟨stored, carried⟩
    obtain ⟨row, named, same⟩ := Option.map_eq_some_iff.mp stored
    have member : row ∈ db.nodes.rows := List.mem_of_find?_eq_some named
    have found : db.getNodeFromApiKey (some start.load.apiKey) = .ok row :=
      Database.getNodeFromApiKey_eq_ok.mpr ⟨member, congrArg some same.symm, same ▸ nonempty⟩
    refine ⟨row, named, same, ?_⟩
    rw [authenticated, carried]
    simp [found, Except.toOption]

/-! ## What admin-ui stores -/

theorem lifespan_cases {nodes after : NodeTable} {start : Start}
    (started : start.lifespan nodes = some after) :
    (nodes.withName start.adminNodeName = none ∧
      nodes.insert (start.localNode nodes.nextId) = some after) ∨
    (∃ row, nodes.withName start.adminNodeName = some row ∧
      after = nodes.markSeen start.adminNodeName start.time) := by
  unfold Start.lifespan at started
  split at started
  · unfold Start.bootstrapPrimaryNode at started
    cases named : nodes.withName start.adminNodeName with
    | none =>
        simp only [named] at started
        exact Or.inl ⟨rfl, started⟩
    | some row =>
        simp only [named] at started
        exact Or.inr ⟨row, rfl, (Option.some.inj started).symm⟩
  · contradiction

theorem storedKey_startUp {db : Database} {start : Start} (up : (start.lifespan db.nodes).isSome = true) :
    ((startUp db start).nodes.withName start.adminNodeName).map (·.apiKey) =
      some (((db.nodes.withName start.adminNodeName).map (·.apiKey)).getD start.localKey) := by
  obtain ⟨nodes, started⟩ := Option.isSome_iff_exists.mp up
  have after : (startUp db start).nodes = nodes := by rw [startUp, started]
  rw [after]
  rcases lifespan_cases started with ⟨absent, inserted⟩ | ⟨row, named, rfl⟩
  · have made : nodes.withName (start.localNode _).name = some (start.localNode _) :=
      NodeTable.withName_insert absent inserted
    rw [absent]
    exact congrArg (Option.map (·.apiKey)) made
  · rw [NodeTable.withName_markSeen, named]
    exact congrArg some (apiKey_seenRow _ _ row)

theorem storedKey_kept {db : Database} {name key : String} (start : Start)
    (stored : (db.nodes.withName name).map (·.apiKey) = some key) :
    ((startUp db start).nodes.withName name).map (·.apiKey) = some key := by
  unfold startUp
  cases started : start.lifespan db.nodes with
  | none => exact stored
  | some nodes =>
      show (nodes.withName name).map (·.apiKey) = some key
      rcases lifespan_cases started with ⟨absent, inserted⟩ | ⟨row, -, rfl⟩
      · have other : name ≠ (start.localNode db.nodes.nextId).name := by
          intro same
          rw [same, show db.nodes.withName (start.localNode _).name = none from absent] at stored
          contradiction
        rw [NodeTable.withName_insert_of_ne other inserted, stored]
      · rw [NodeTable.withName_markSeen, Option.map_map]
        simpa [Function.comp_def] using stored

/-- A key that is stored stays, whatever the environments of later starts say. -/
theorem storedKey_run {db : Database} {name key : String} (run : List Start)
    (stored : (db.nodes.withName name).map (·.apiKey) = some key) :
    ((run.foldl startUp db).nodes.withName name).map (·.apiKey) = some key :=
  foldl_preserves (P := fun db : Database => (db.nodes.withName name).map (·.apiKey) = some key) run stored
    fun _ start => storedKey_kept start

/-! ## What the processor sends -/

theorem solid_of_mem_derivedKey {nodeName secret : String} {c : Char}
    (member : c ∈ (derivedKey nodeName secret).toList) :
    Zones.isSpace c = false ∧ isFieldChar c = true ∧ c.toNat < 128 := by
  obtain ⟨low, high⟩ := Sha256.toNat_of_mem_hexDigest member
  refine ⟨?_, ?_, Nat.lt_of_le_of_lt high (by decide)⟩
  · have other : Python.isSpace c = false := by
      simp only [Python.isSpace, List.mem_cons, List.not_mem_nil, or_false, decide_eq_false_iff_not]
      intro blank
      omega
    rw [Zones.isSpace, other, Bool.false_and]
  · exact decide_eq_true (Or.inr ⟨by omega, by omega⟩)

theorem plain_derivedKey (nodeName secret : String) : Plain (derivedKey nodeName secret) :=
  fun _ member => (solid_of_mem_derivedKey member).2

theorem derivedKey_ne_empty (nodeName secret : String) : derivedKey nodeName secret ≠ "" := by
  intro empty
  have length := Sha256.length_hexDigest (keySeed nodeName secret).toUTF8.toList
  rw [← derivedKey, empty] at length
  contradiction

theorem trimSpace_eq_empty_iff {text : String} :
    trimSpace text = "" ↔ ∀ c ∈ text.toList, Zones.isSpace c = true := by
  rw [trimSpace, String.ofList_eq_empty_iff, trim_eq_nil_iff]

namespace Start
variable {start : Start}

theorem load_of_local (set : trimmedEnv start.environment.localNodeApiKey ≠ "") :
    start.load.apiKey = trimmedEnv start.environment.localNodeApiKey := by
  simp [load, set]

theorem load_of_primary (blank : trimmedEnv start.environment.localNodeApiKey = "")
    (set : trimmedEnv start.environment.primaryApiKey ≠ "") :
    start.load.apiKey = trimmedEnv start.environment.primaryApiKey := by
  simp [load, blank, set]

theorem load_of_secret (blank : trimmedEnv start.environment.localNodeApiKey = "")
    (unset : trimmedEnv start.environment.primaryApiKey = "") (nonempty : start.load.apiKey ≠ "") :
    start.load.apiKey =
      derivedKey start.processorNodeName (trimmedEnv start.environment.adminSecretKey) := by
  have set : trimmedEnv start.environment.adminSecretKey ≠ "" := by
    intro none
    simp [load, blank, unset, none] at nonempty
  simp [load, blank, unset, set]

theorem trimSpace_apiKey_ne_empty (nonempty : start.load.apiKey ≠ "") :
    trimSpace start.load.apiKey ≠ "" := by
  have solid {value : Option String} (set : trimmedEnv value ≠ "") : trimSpace (trimmedEnv value) ≠ "" := by
    rw [trimmedEnv, trimSpace, Ne, String.ofList_eq_empty_iff] at set
    obtain ⟨c, member, other⟩ := exists_solid_of_trim set
    rw [Ne, trimSpace_eq_empty_iff, trimmedEnv, trimSpace, String.toList_ofList]
    exact fun blanks => by simp [blanks c member] at other
  by_cases ownSet : trimmedEnv start.environment.localNodeApiKey ≠ ""
  · rw [load_of_local ownSet]
    exact solid ownSet
  have ownBlank := not_not.mp ownSet
  by_cases primarySet : trimmedEnv start.environment.primaryApiKey ≠ ""
  · rw [load_of_primary ownBlank primarySet]
    exact solid primarySet
  · rw [load_of_secret ownBlank (not_not.mp primarySet) nonempty, Ne, trimSpace_eq_empty_iff]
    intro blanks
    apply derivedKey_ne_empty start.processorNodeName (trimmedEnv start.environment.adminSecretKey)
    rw [← String.toList_eq_nil_iff, List.eq_nil_iff_forall_not_mem]
    intro c member
    have solid := (solid_of_mem_derivedKey member).1
    simp [blanks c member] at solid

end Start

/-! ## When they agree -/

/-- The processor's key by the variable it comes from, against the key stored under admin-ui's node
name, or against the one that admin-ui stores now when there is none. -/
def KeyFits (stored : Option String) (start : Start) : Prop :=
  let environment := start.environment
  let own := trimmedEnv environment.localNodeApiKey
  let primary := trimmedEnv environment.primaryApiKey
  let derived := derivedKey start.processorNodeName (trimmedEnv environment.adminSecretKey)
  if own ≠ "" then
    Plain own ∧ match stored with
      | some key => key = own
      | none => environment.localNodeApiKey = some own
  else if primary ≠ "" then
    Plain primary ∧ match stored with
      | some key => key = primary
      | none => environment.localNodeApiKey.getD "" = "" ∧
          derivedKey start.adminNodeName environment.adminSecret = primary
  else match stored with
    | some key => key = derived
    | none => environment.localNodeApiKey.getD "" = "" ∧
        derivedKey start.adminNodeName environment.adminSecret = derived

def FitsBefore (db : Database) (start : Start) : Prop :=
  BothStarted db start → KeyFits ((db.nodes.withName start.adminNodeName).map (·.apiKey)) start

/-- Blanks alone are a key for admin-ui, and none for the processor. -/
theorem localKey_eq_iff_of_blank {start : Start} (nonempty : start.load.apiKey ≠ "")
    (blank : trimmedEnv start.environment.localNodeApiKey = "") :
    start.localKey = start.load.apiKey ↔ start.environment.localNodeApiKey.getD "" = "" ∧
      derivedKey start.adminNodeName start.environment.adminSecret = start.load.apiKey := by
  unfold Start.localKey orElse
  by_cases empty : start.environment.localNodeApiKey.getD "" = ""
  · rw [if_pos empty, and_iff_right empty]
  · rw [if_neg empty]
    refine iff_of_false (fun same => ?_) fun both => empty both.1
    apply Start.trimSpace_apiKey_ne_empty nonempty
    rw [← same]
    exact blank

theorem localKey_eq_iff_of_set {start : Start}
    (set : trimmedEnv start.environment.localNodeApiKey ≠ "") :
    start.localKey = trimmedEnv start.environment.localNodeApiKey ↔
      start.environment.localNodeApiKey = some (trimmedEnv start.environment.localNodeApiKey) := by
  unfold Start.localKey orElse
  cases given : start.environment.localNodeApiKey with
  | none =>
      rw [given] at set
      exact absurd (by decide) set
  | some text =>
      have nonempty : text ≠ "" := by
        rintro rfl
        rw [given] at set
        exact absurd (by decide) set
      rw [Option.getD_some, if_neg nonempty, Option.some_inj]

theorem keyFits_iff {stored : Option String} {start : Start} (nonempty : start.load.apiKey ≠ "") :
    KeyFits stored start ↔ stored.getD start.localKey = start.load.apiKey ∧ Plain start.load.apiKey := by
  unfold KeyFits
  by_cases ownSet : trimmedEnv start.environment.localNodeApiKey ≠ ""
  · rw [Start.load_of_local ownSet, and_comm (a := stored.getD _ = _)]
    simp only [if_pos ownSet]
    cases stored with
    | none => rw [Option.getD_none, localKey_eq_iff_of_set ownSet]
    | some key => rfl
  have ownBlank := not_not.mp ownSet
  simp only [if_neg ownSet]
  by_cases primarySet : trimmedEnv start.environment.primaryApiKey ≠ ""
  · have sent := Start.load_of_primary ownBlank primarySet
    rw [and_comm (a := stored.getD _ = _)]
    simp only [if_pos primarySet]
    cases stored with
    | none => rw [Option.getD_none, localKey_eq_iff_of_blank nonempty ownBlank, sent]
    | some key => rw [Option.getD_some, sent]
  · have sent := Start.load_of_secret ownBlank (not_not.mp primarySet) nonempty
    have plain : Plain start.load.apiKey := sent ▸ plain_derivedKey _ _
    simp only [if_neg primarySet]
    rw [and_iff_left plain]
    cases stored with
    | none => rw [Option.getD_none, localKey_eq_iff_of_blank nonempty ownBlank, sent]
    | some key => rw [Option.getD_some, sent]

theorem agreesAfter_iff {db : Database} {start : Start} :
    AgreesAfter db start ↔ FitsBefore db start := by
  refine imp_congr_right fun ⟨up, nonempty⟩ => ?_
  rw [keyAgrees_iff nonempty, storedKey_startUp up, Option.some_inj, keyFits_iff nonempty]

theorem localKey_agreement_iff (db : Database) (run : List Start) :
    Along startUp AgreesAfter db run ↔ Along startUp FitsBefore db run :=
  ⟨Along.imp fun _ _ => agreesAfter_iff.mp, Along.imp fun _ _ => agreesAfter_iff.mpr⟩

/-! ## A key that was changed -/

def fresh : Database where
  settings := []
  nodes := ⟨[], by decide⟩
  clients := []
  clientSeq := 0
  events := ⟨[], by decide⟩
  metrics := []

def startWith (localNodeApiKey : String) : Start where
  environment :=
    { nodeName := some "primary"
      localNodeApiKey := some localNodeApiKey
      primaryApiKey := none
      adminSecretKey := some "kJ3vQ8"
      adminPassword := some "tR7wZ2"
      allowInsecure := none }
  adminHostname := "admin-ui"
  processorHostname := some "dnstap-processor"
  time := minute 0

theorem lifespan_startWith_isSome :
    ((startWith "first").lifespan fresh.nodes).isSome = true := by decide

theorem storedKey_first :
    ((startUp fresh (startWith "first")).nodes.withName "primary").map (·.apiKey) = some "first" :=
  storedKey_startUp lifespan_startWith_isSome

theorem second_bothStarted : BothStarted (startUp fresh (startWith "first")) (startWith "second") := by
  refine ⟨?_, by decide⟩
  obtain ⟨row, named, -⟩ := Option.map_eq_some_iff.mp storedKey_first
  have secure : (startWith "second").environment.validateSecuritySettings = true := by decide
  have found : (startUp fresh (startWith "first")).nodes.withName (startWith "second").adminNodeName =
      some row := named
  rw [Start.lifespan, if_pos secure, Start.bootstrapPrimaryNode, found]
  rfl

/-- The key is given a new value between two starts: the row keeps the old one, and the processor
sends the new one. -/
theorem rotated_key_refused : ¬ ∀ db run, Along startUp AgreesAfter db run := by
  intro always
  have second := (always fresh [startWith "first", startWith "second"]).2.1
  obtain ⟨row, named, same, -⟩ := second second_bothStarted
  have kept := storedKey_kept (startWith "second") storedKey_first
  rw [show (startWith "second").adminNodeName = "primary" from rfl] at named
  rw [named, Option.map_some, same] at kept
  exact absurd kept (by decide)

end PowerBlockade.Nodes
