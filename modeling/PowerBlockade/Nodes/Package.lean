import PowerBlockade.Lib.Dedent
import PowerBlockade.Primary.Tables
import PowerBlockade.Zones.Normalize

/-!
# The package of a secondary node

`nodes_generate` finds or makes the node, and `generate_secondary_package_zip` writes the `.env` of its
package.
-/

namespace PowerBlockade.Nodes
open Lib Primary

/-- `secrets.token_urlsafe` -/
structure Token (length : Nat) where
  text : String
  size : text.toList.length = length
  urlsafe : ∀ c ∈ text.toList, c.isAlphanum = true ∨ c = '-' ∨ c = '_'

structure Tokens where
  apiKey : Token 64
  recursorApiKey : Token 43
  recursorWebPassword : Token 32

/-! ## The environment file -/

def envLine (entry : String × String) : List Char := entry.1.toList ++ '=' :: entry.2.toList

def envEntries (version safeNode primaryUrl nodeApiKey recursorApiKey recursorWebPassword
    dnsdistListenAddress : String) : List (String × String) :=
  [("POWERBLOCKADE_REPO", "zerostate-io"),
    ("POWERBLOCKADE_VERSION", version),
    ("NODE_NAME", safeNode),
    ("PRIMARY_URL", primaryUrl),
    ("PRIMARY_API_KEY", nodeApiKey),
    ("RECURSOR_API_KEY", recursorApiKey),
    ("RECURSOR_WEB_PASSWORD", recursorWebPassword),
    ("DNSDIST_LISTEN_ADDRESS", dnsdistListenAddress),
    ("HEARTBEAT_INTERVAL_SECONDS", "60"),
    ("CONFIG_SYNC_INTERVAL_SECONDS", "300"),
    ("DOCKER_SUBNET", "172.30.0.0/24"),
    ("RECURSOR_IP", "172.30.0.10"),
    ("DNSTAP_PROCESSOR_IP", "172.30.0.20")]

/-- The template stands eight blanks to the right, as do its closing quotes. -/
def envTemplate (entries : List (String × String)) : List Char :=
  ((entries.map envLine).map (indented 8)).flatMap (· ++ ['\n']) ++ List.replicate 8 ' '

/-- The `.env` of `generate_secondary_package_zip`. -/
def generateEnv (version nodeName primaryUrl nodeApiKey recursorApiKey dnsdistListenAddress : String)
    (recursorWebPassword : Token 32) : String :=
  let safeNode := Python.strip nodeName
  let primaryUrl := Python.rstrip '/' primaryUrl
  let entries := envEntries version safeNode primaryUrl nodeApiKey
    (if recursorApiKey = "" then "change-me" else recursorApiKey) recursorWebPassword.text dnsdistListenAddress
  String.ofList (dedent Python.isSpace (envTemplate entries))

/-! ## The request -/

structure GenerateForm where
  name : String
  primaryUrl : String

/-- What the handler makes its response of. -/
inductive GenerateResponse
  | redirect (url : String)
  | package (env filename : String)
  | failed

def newNode (id : Nat) (name apiKey : String) : Node where
  id := id
  name := name
  apiKey := apiKey
  ipAddress := none
  version := none
  status := .pending
  lastSeen := none
  lastHeartbeat := none
  lastError := none
  quarantineEntryTime := none
  quarantineReason := none
  queriesTotal := 0
  queriesBlocked := 0

/-- The row of the name, made and committed if there is none; `none` is a row that the table refuses. -/
def findOrAdd (table : NodeTable) (name : String) (apiKey : Token 64) : Option (NodeTable × Node) :=
  match table.withName name with
  | some node => some (table, node)
  | none =>
      let node := newNode table.nextId name (String.ofList (apiKey.text.toList.take 64))
      (table.insert node).map (·, node)

def nodesGenerate (version : String) (user : Option Nat) (table : NodeTable) (form : GenerateForm)
    (tokens : Tokens) : NodeTable × GenerateResponse :=
  match user with
  | none => (table, .redirect "/login")
  | some _ =>
      let nodeName := Python.strip form.name
      if nodeName = "" then (table, .redirect "/nodes")
      else match findOrAdd table nodeName tokens.apiKey with
        | none => (table, .failed)
        | some (table, node) =>
            (table, .package
              (generateEnv version node.name form.primaryUrl node.apiKey tokens.recursorApiKey.text "0.0.0.0"
                tokens.recursorWebPassword)
              s!"powerblockade-secondary-{node.name}.zip")

/-! ## Reading the file -/

/-- A way to read lines: which characters end one, and that lines written are the lines read. -/
structure LineReader where
  lines : List Char → List (List Char)
  isBreak : Char → Bool
  lineFeed : isBreak '\n' = true
  graphic : ∀ c : Char, 33 ≤ c.toNat → c.toNat ≤ 126 → isBreak c = false
  whole : ∀ text, ∀ line ∈ lines text, ∀ c ∈ line, isBreak c = false
  written : ∀ rows, (∀ row ∈ rows, ∀ c ∈ row, isBreak c = false) → lines (rows.flatMap (· ++ ['\n'])) = rows

/-- No character of the text ends a line. -/
def LineReader.Single (reader : LineReader) (text : String) : Prop := ∀ c ∈ text.toList, reader.isBreak c = false

def readLine (line : List Char) : Option (String × String) :=
  if '=' ∈ line then
    some (String.ofList (line.takeWhile (· ≠ '=')), String.ofList (line.dropWhile (· ≠ '=')).tail)
  else none

def LineReader.readEnv (reader : LineReader) (env : String) : Option (List (String × String)) :=
  (reader.lines env.toList).mapM readLine

/-- What the file is to say. -/
def intended (version : String) (node : Node) (form : GenerateForm) (tokens : Tokens) : List (String × String) :=
  envEntries version node.name (Python.rstrip '/' form.primaryUrl) node.apiKey tokens.recursorApiKey.text
    tokens.recursorWebPassword.text "0.0.0.0"

/-- The file says what it is to say, each key once, and its layout is always the same. -/
structure EnvFaithful (reader : LineReader) (env : String) (entries : List (String × String)) : Prop where
  reading : reader.readEnv env = some entries
  once : (entries.map (·.1)).Nodup
  layout : env = String.ofList ((entries.map envLine).flatMap (· ++ ['\n']))

/-- Each value is of one line. -/
structure OneLine (reader : LineReader) (version : String) (node : Node) (form : GenerateForm) : Prop where
  version : reader.Single version
  name : reader.Single node.name
  primaryUrl : reader.Single form.primaryUrl
  apiKey : reader.Single node.apiKey

/-! ## Two readers -/

theorem withoutLastEmpty_lines (lines : List (List Char)) : Zones.withoutLastEmpty (lines ++ [[]]) = lines := by
  rw [Zones.withoutLastEmpty, if_pos List.getLast?_concat, List.dropLast_concat]

theorem withoutLastEmpty_subset (lines : List (List Char)) : Zones.withoutLastEmpty lines ⊆ lines := by
  unfold Zones.withoutLastEmpty
  split
  · exact List.dropLast_subset lines
  · exact List.Subset.refl lines

theorem splitOnP_written {isBreak : Char → Bool} (lineFeed : isBreak '\n' = true) {rows : List (List Char)}
    (whole : ∀ row ∈ rows, ∀ c ∈ row, isBreak c = false) :
    Zones.withoutLastEmpty ((rows.flatMap (· ++ ['\n'])).splitOnP isBreak) = rows := by
  have cut := splitOnP_lines lineFeed whole []
  rw [List.append_nil, List.splitOnP_nil] at cut
  rw [cut, withoutLastEmpty_lines]

/-- Lines end at line feeds. -/
def lineFeeds : LineReader where
  lines text := Zones.withoutLastEmpty (text.splitOnP (· = '\n'))
  isBreak c := c = '\n'
  lineFeed := rfl
  graphic c low _ := decide_eq_false fun same => absurd (same ▸ low) (by decide)
  whole _ _ member := not_sep_of_mem_splitOnP (withoutLastEmpty_subset _ member)
  written _ whole := splitOnP_written rfl whole

theorem isLineBreak_graphic (c : Char) (low : 33 ≤ c.toNat) (high : c.toNat ≤ 126) : Zones.isLineBreak c = false := by
  simp [Zones.isLineBreak]
  omega

theorem splitlines_written (rows : List (List Char)) (whole : ∀ row ∈ rows, ∀ c ∈ row, Zones.isLineBreak c = false) :
    Zones.splitlines (rows.flatMap (· ++ ['\n'])) = rows := by
  have plain : '\r' ∉ rows.flatMap (· ++ ['\n']) := by
    intro member
    obtain ⟨row, listed, inside⟩ := List.mem_flatMap.mp member
    rcases List.mem_append.mp inside with here | ended
    · exact absurd (whole row listed _ here) (by decide)
    · exact absurd (List.mem_singleton.mp ended) (by decide)
  rw [Zones.splitlines, Python.universalNewlines_eq_self plain, splitOnP_written rfl whole]

/-- `str.splitlines` -/
def splitlines : LineReader where
  lines := Zones.splitlines
  isBreak := Zones.isLineBreak
  lineFeed := rfl
  graphic := isLineBreak_graphic
  whole _ _ member := not_sep_of_mem_splitOnP (withoutLastEmpty_subset _ member)
  written := splitlines_written

/-! ## One line a value -/

variable {reader : LineReader}

def envKeys : List String :=
  ["POWERBLOCKADE_REPO", "POWERBLOCKADE_VERSION", "NODE_NAME", "PRIMARY_URL", "PRIMARY_API_KEY", "RECURSOR_API_KEY",
    "RECURSOR_WEB_PASSWORD", "DNSDIST_LISTEN_ADDRESS", "HEARTBEAT_INTERVAL_SECONDS", "CONFIG_SYNC_INTERVAL_SECONDS",
    "DOCKER_SUBNET", "RECURSOR_IP", "DNSTAP_PROCESSOR_IP"]

structure PlainKey (key : String) : Prop where
  nonempty : key.toList ≠ []
  chars : ∀ c ∈ key.toList, c.isUpper = true ∨ c = '_'

theorem PlainKey.not_mem {key : String} (plain : PlainKey key) {c : Char}
    (other : ¬ (c.isUpper = true ∨ c = '_')) : c ∉ key.toList := fun member => other (plain.chars c member)

theorem plainKey_envKeys : ∀ key ∈ envKeys, PlainKey key := by
  have all : ∀ key ∈ envKeys, key.toList ≠ [] ∧ ∀ c ∈ key.toList, c.isUpper = true ∨ c = '_' := by decide
  exact fun key listed => ⟨(all key listed).1, (all key listed).2⟩

theorem toNat_of_isUpper {c : Char} (upper : c.isUpper = true) : 65 ≤ c.toNat ∧ c.toNat ≤ 90 := by
  have range : 65 ≤ c.val ∧ c.val ≤ 90 := of_decide_eq_true upper
  simpa [UInt32.le_iff_toNat_le] using range

theorem toNat_of_isAlphanum {c : Char} (letter : c.isAlphanum = true) : 48 ≤ c.toNat ∧ c.toNat ≤ 122 := by
  rcases Bool.or_eq_true_iff.mp letter with alpha | digit
  · rcases Bool.or_eq_true_iff.mp alpha with upper | lower
    · have range := toNat_of_isUpper upper
      omega
    · have range : 97 ≤ c.toNat ∧ c.toNat ≤ 122 := by
        simpa [UInt32.le_iff_toNat_le] using Bool.and_eq_true_iff.mp lower
      omega
  · have range : 48 ≤ c.toNat ∧ c.toNat ≤ 57 := by
      simpa [UInt32.le_iff_toNat_le] using Bool.and_eq_true_iff.mp digit
    omega

theorem not_isSpace_of_plain {c : Char} (plain : c.isUpper = true ∨ c = '_') :
    Python.isSpace c = false ∧ isIndent c = false := by
  rcases plain with upper | rfl
  · have range : 65 ≤ c.toNat ∧ c.toNat ≤ 90 := toNat_of_isUpper upper
    constructor
    · simp [Python.isSpace]
      omega
    · simp only [isIndent, decide_eq_false_iff_not, not_or]
      constructor <;> rintro rfl <;> exact absurd range (by decide)
  · decide

theorem body_envLine {entry : String × String} (plain : PlainKey entry.1) :
    Body Python.isSpace (envLine entry) where
  nonempty := by simp [envLine]
  first := by
    intro c first
    rw [envLine, List.head?_append_of_ne_nil _ plain.nonempty] at first
    exact not_isSpace_of_plain (plain.chars c (List.mem_of_mem_head? first))

theorem PlainKey.single {key : String} (plain : PlainKey key) : reader.Single key := by
  intro c member
  rcases plain.chars c member with upper | rfl
  · have range : 65 ≤ c.toNat ∧ c.toNat ≤ 90 := toNat_of_isUpper upper
    exact reader.graphic c (by omega) (by omega)
  · exact reader.graphic '_' (by decide) (by decide)

theorem single_lines {entries : List (String × String)} (plain : ∀ entry ∈ entries, PlainKey entry.1)
    (oneLine : ∀ entry ∈ entries, reader.Single entry.2) :
    ∀ line ∈ entries.map envLine, ∀ c ∈ line, reader.isBreak c = false := by
  intro line member c inside
  obtain ⟨entry, listed, rfl⟩ := List.mem_map.mp member
  rcases List.mem_append.mp inside with key | value
  · exact (plain entry listed).single c key
  · rcases List.mem_cons.mp value with rfl | value
    · exact reader.graphic '=' (by decide) (by decide)
    · exact oneLine entry listed c value

theorem readLine_envLine {entry : String × String} (plain : PlainKey entry.1) :
    readLine (envLine entry) = some entry := by
  have key : ∀ c ∈ entry.1.toList, decide (c ≠ '=') = true := by
    intro c member
    rw [decide_eq_true_eq]
    rintro rfl
    exact plain.not_mem (by decide) member
  have stop : ∀ c ∈ ('=' :: entry.2.toList).head?, decide (c ≠ '=') = false := by simp
  rw [readLine, if_pos (by simp [envLine]), envLine, takeWhile_append_stop key stop,
    dropWhile_append_stop key stop, List.tail_cons, String.ofList_toList, String.ofList_toList]

theorem readEnv_lines {entries : List (String × String)} (plain : ∀ entry ∈ entries, PlainKey entry.1)
    (oneLine : ∀ entry ∈ entries, reader.Single entry.2) :
    reader.readEnv (String.ofList ((entries.map envLine).flatMap (· ++ ['\n']))) = some entries := by
  have read := mapM_eq_map (f := readLine ∘ envLine) fun entry listed => readLine_envLine (plain entry listed)
  rw [List.map_id'] at read
  rw [LineReader.readEnv, String.toList_ofList, reader.written _ (single_lines plain oneLine), List.mapM_map, read]

theorem mem_of_readLine {line : List Char} {entry : String × String} (read : readLine line = some entry) {c : Char}
    (member : c ∈ entry.2.toList) : c ∈ line := by
  unfold readLine at read
  split at read
  · rw [← Option.some.inj read, String.toList_ofList] at member
    exact (List.dropWhile_suffix _).subset (List.mem_of_mem_tail member)
  · contradiction

theorem single_readEnv {env : String} {entries : List (String × String)} (reading : reader.readEnv env = some entries)
    {entry : String × String} (listed : entry ∈ entries) : reader.Single entry.2 := by
  refine forall_of_mapM (P := fun entry => reader.Single entry.2) ?_ reading entry listed
  intro line kept entry read c member
  exact reader.whole _ line kept c (mem_of_readLine read member)

/-! ## The package of a request -/

theorem keys_intended (version : String) (node : Node) (form : GenerateForm) (tokens : Tokens) :
    (intended version node form tokens).map (·.1) = envKeys := rfl

theorem plainKey_intended {version : String} {node : Node} {form : GenerateForm} {tokens : Tokens}
    {entry : String × String} (listed : entry ∈ intended version node form tokens) : PlainKey entry.1 :=
  plainKey_envKeys _ (keys_intended version node form tokens ▸ List.mem_map_of_mem listed)

theorem Token.single {length : Nat} (token : Token length) : reader.Single token.text := by
  intro c member
  rcases token.urlsafe c member with letter | rfl | rfl
  · have range : 48 ≤ c.toNat ∧ c.toNat ≤ 122 := toNat_of_isAlphanum letter
    exact reader.graphic c (by omega) (by omega)
  · exact reader.graphic '-' (by decide) (by decide)
  · exact reader.graphic '_' (by decide) (by decide)

theorem Token.take_text {length : Nat} (token : Token length) :
    String.ofList (token.text.toList.take length) = token.text := by
  rw [List.take_of_length_le token.size.le, String.ofList_toList]

theorem single_rstrip {c : Char} (text : String) (stays : reader.isBreak c = false) :
    reader.Single (Python.rstrip c text) ↔ reader.Single text := by
  unfold LineReader.Single
  rw [Python.rstrip, String.toList_ofList]
  constructor
  · intro single d member
    by_cases same : d = c
    · rw [same, stays]
    · exact single d (mem_rdropWhile_of_not (decide_eq_false same) member)
  · exact fun single d kept => single d ((List.rdropWhile_prefix _ _).subset kept)

theorem single_of_graphic {text : String} (chars : ∀ c ∈ text.toList, 33 ≤ c.toNat ∧ c.toNat ≤ 126) :
    reader.Single text := fun c member => reader.graphic c (chars c member).1 (chars c member).2

theorem oneLine_iff {version : String} {node : Node} {form : GenerateForm} {tokens : Tokens} :
    OneLine reader version node form ↔ ∀ entry ∈ intended version node form tokens, reader.Single entry.2 := by
  have slash := single_rstrip form.primaryUrl (reader.graphic '/' (by decide) (by decide))
  constructor
  · intro oneLine entry listed
    simp only [intended, envEntries, List.mem_cons, List.not_mem_nil, or_false] at listed
    rcases listed with rfl | rfl | rfl | rfl | rfl | rfl | rfl | rfl | rfl | rfl | rfl | rfl | rfl
    · exact single_of_graphic (by decide)
    · exact oneLine.version
    · exact oneLine.name
    · exact slash.mpr oneLine.primaryUrl
    · exact oneLine.apiKey
    · exact tokens.recursorApiKey.single
    · exact tokens.recursorWebPassword.single
    all_goals exact single_of_graphic (by decide)
  · intro single
    simp only [intended, envEntries, List.forall_mem_cons] at single
    obtain ⟨-, version, name, url, key, -⟩ := single
    exact ⟨version, name, slash.mp url, key⟩

theorem findOrAdd_withName {table after : NodeTable} {name : String} {apiKey : Token 64} {node : Node}
    (found : findOrAdd table name apiKey = some (after, node)) :
    after.withName name = some node ∧ node.name = name := by
  unfold findOrAdd at found
  split at found
  · rename_i present
    obtain ⟨rfl, rfl⟩ := Prod.mk.inj (Option.some.inj found)
    exact ⟨present, by simpa using List.find?_some present⟩
  · rename_i absent
    obtain ⟨inserted, committed, same⟩ := Option.map_eq_some_iff.mp found
    obtain ⟨rfl, rfl⟩ := Prod.mk.inj same
    exact ⟨NodeTable.withName_insert absent committed, rfl⟩

/-- A package is of the row that its name has afterwards. -/
theorem nodesGenerate_package {version : String} {user : Option Nat} {table after : NodeTable} {form : GenerateForm}
    {tokens : Tokens} {env filename : String}
    (generated : nodesGenerate version user table form tokens = (after, .package env filename)) :
    ∃ node, after.withName (Python.strip form.name) = some node ∧ node.name = Python.strip form.name ∧
      env = generateEnv version node.name form.primaryUrl node.apiKey tokens.recursorApiKey.text "0.0.0.0"
        tokens.recursorWebPassword := by
  unfold nodesGenerate at generated
  split at generated
  · cases generated
  · dsimp only at generated
    split at generated
    · cases generated
    · split at generated
      · cases generated
      · rename_i found
        obtain ⟨rfl, response⟩ := Prod.mk.inj generated
        obtain ⟨rfl, -⟩ := GenerateResponse.package.inj response
        exact ⟨_, (findOrAdd_withName found).1, (findOrAdd_withName found).2, rfl⟩

theorem strip_strip (text : String) : Python.strip (Python.strip text) = Python.strip text := by
  simp only [Python.strip, String.toList_ofList]
  exact congrArg String.ofList (trim_trim Python.isSpace text.toList)

theorem generateEnv_eq {version : String} {node : Node} {form : GenerateForm} {tokens : Tokens}
    (stripped : Python.strip node.name = node.name) :
    generateEnv version node.name form.primaryUrl node.apiKey tokens.recursorApiKey.text "0.0.0.0"
        tokens.recursorWebPassword =
      String.ofList (dedent Python.isSpace (envTemplate (intended version node form tokens))) := by
  have some : tokens.recursorApiKey.text ≠ "" := by
    intro empty
    have size := tokens.recursorApiKey.size
    rw [empty] at size
    exact absurd size (by decide)
  simp only [generateEnv, intended, stripped, if_neg some]

theorem dedent_envTemplate {entries : List (String × String)} (nonempty : entries ≠ [])
    (plain : ∀ entry ∈ entries, PlainKey entry.1) (oneLine : ∀ entry ∈ entries, reader.Single entry.2) :
    dedent Python.isSpace (envTemplate entries) = (entries.map envLine).flatMap (· ++ ['\n']) := by
  have bodies : ∀ line ∈ entries.map envLine, Body Python.isSpace line := by
    intro line member
    obtain ⟨entry, listed, rfl⟩ := List.mem_map.mp member
    exact body_envLine (plain entry listed)
  have whole : ∀ line ∈ entries.map envLine, '\n' ∉ line := by
    intro line listed member
    have stays := single_lines plain oneLine line listed '\n' member
    rw [reader.lineFeed] at stays
    exact nomatch stays
  exact dedent_indented (by decide) (by decide) (by simpa using nonempty) bodies whole

theorem nodesGenerate_eq (version : String) (user : Nat) {table after : NodeTable} (form : GenerateForm)
    {tokens : Tokens} {node : Node} (named : Python.strip form.name ≠ "")
    (found : findOrAdd table (Python.strip form.name) tokens.apiKey = some (after, node)) :
    nodesGenerate version (some user) table form tokens =
      (after, .package (generateEnv version node.name form.primaryUrl node.apiKey tokens.recursorApiKey.text "0.0.0.0"
        tokens.recursorWebPassword) s!"powerblockade-secondary-{node.name}.zip") := by
  simp only [nodesGenerate, if_neg named, found]

/-- Tokens of one letter. -/
def someTokens : Tokens where
  apiKey := ⟨String.ofList (List.replicate 64 'a'), by simp, by simp⟩
  recursorApiKey := ⟨String.ofList (List.replicate 43 'a'), by simp, by simp⟩
  recursorWebPassword := ⟨String.ofList (List.replicate 32 'a'), by simp, by simp⟩

def edge : Node := newNode 1 "edge" someTokens.apiKey.text

theorem wellFormed_nil : NodesWellFormed [] := by decide

theorem wellFormed_edge : NodesWellFormed [edge] := by decide +kernel

theorem findOrAdd_edge :
    findOrAdd ⟨[], wellFormed_nil⟩ (Python.strip "edge") someTokens.apiKey = some (⟨[edge], wellFormed_edge⟩, edge) := by
  have stripped : Python.strip "edge" = "edge" := by decide
  have committed : NodeTable.insert ⟨[], wellFormed_nil⟩ edge = some ⟨[edge], wellFormed_edge⟩ := by
    unfold NodeTable.insert
    exact dif_pos wellFormed_edge
  rw [stripped, findOrAdd]
  show (NodeTable.insert _ (newNode 1 "edge" _)).map _ = _
  rw [Token.take_text, ← edge, committed]
  rfl

theorem env_faithful_iff (reader : LineReader) {version : String} {user : Option Nat} {table after : NodeTable}
    {form : GenerateForm} {tokens : Tokens} {env filename : String}
    (generated : nodesGenerate version user table form tokens = (after, .package env filename)) :
    ∃ node, after.withName (Python.strip form.name) = some node ∧
      (EnvFaithful reader env (intended version node form tokens) ↔ OneLine reader version node form) := by
  obtain ⟨node, stored, name, rfl⟩ := nodesGenerate_package generated
  have stripped : Python.strip node.name = node.name := by rw [name, strip_strip]
  refine ⟨node, stored, ?_⟩
  rw [generateEnv_eq stripped, oneLine_iff]
  constructor
  · intro faithful entry listed
    exact single_readEnv faithful.reading listed
  · intro oneLine
    have plain : ∀ entry ∈ intended version node form tokens, PlainKey entry.1 := fun _ => plainKey_intended
    have nonempty : intended version node form tokens ≠ [] := List.cons_ne_nil _ _
    rw [dedent_envTemplate nonempty plain oneLine]
    exact {
      reading := readEnv_lines plain oneLine
      once := by rw [keys_intended]; decide
      layout := rfl }

theorem env_faithful_edge : ∃ env filename,
    nodesGenerate "v0.10.0" (some 1) ⟨[], wellFormed_nil⟩ ⟨"edge", "http://p/"⟩ someTokens =
        (⟨[edge], wellFormed_edge⟩, .package env filename) ∧
      EnvFaithful lineFeeds env (intended "v0.10.0" edge ⟨"edge", "http://p/"⟩ someTokens) ∧
      EnvFaithful splitlines env (intended "v0.10.0" edge ⟨"edge", "http://p/"⟩ someTokens) := by
  have named : Python.strip "edge" ≠ "" := by decide
  have generated := nodesGenerate_eq "v0.10.0" 1 ⟨"edge", "http://p/"⟩ named findOrAdd_edge
  have oneLine (reader : LineReader) : OneLine reader "v0.10.0" edge ⟨"edge", "http://p/"⟩ := {
    version := single_of_graphic (by decide)
    name := single_of_graphic (by decide)
    primaryUrl := single_of_graphic (by decide)
    apiKey := someTokens.apiKey.single }
  obtain ⟨node, stored, faithful⟩ := env_faithful_iff lineFeeds generated
  obtain rfl : node = edge := List.mem_singleton.mp (List.mem_of_find?_eq_some stored)
  obtain ⟨again, storedAgain, faithfulAgain⟩ := env_faithful_iff splitlines generated
  obtain rfl : again = edge := List.mem_singleton.mp (List.mem_of_find?_eq_some storedAgain)
  exact ⟨_, _, generated, faithful.mpr (oneLine lineFeeds), faithfulAgain.mpr (oneLine splitlines)⟩

/-- A line feed in the URL. -/
theorem env_not_faithful : ∃ env filename,
    nodesGenerate "v0.10.0" (some 1) ⟨[], wellFormed_nil⟩ ⟨"edge", "http://p\nPRIMARY_API_KEY=x"⟩ someTokens =
        (⟨[edge], wellFormed_edge⟩, .package env filename) ∧
      ∀ reader, ¬ EnvFaithful reader env (intended "v0.10.0" edge ⟨"edge", "http://p\nPRIMARY_API_KEY=x"⟩ someTokens) := by
  have named : Python.strip "edge" ≠ "" := by decide
  have generated := nodesGenerate_eq "v0.10.0" 1 ⟨"edge", "http://p\nPRIMARY_API_KEY=x"⟩ named findOrAdd_edge
  refine ⟨_, _, generated, fun reader faithful => ?_⟩
  have single := (oneLine_iff.mpr fun _ => single_readEnv faithful.reading).primaryUrl '\n' (by decide)
  rw [reader.lineFeed] at single
  exact nomatch single

end PowerBlockade.Nodes
