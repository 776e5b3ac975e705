import PowerBlockade.Lib.Run
import PowerBlockade.Primary.NodeSync

/-!
# When a client was last seen

Each event of an accepted request sets `last_seen` of its client to its own time, in the order of the
request.
-/

namespace PowerBlockade.Primary.LastSeen
open Lib

/-! ## What a request leaves of a client -/

def times (ip : String) (now : DateTime) (parsed : List IngestEvent) : List Int :=
  (parsed.filter (·.clientIp = ip)).map (storedTime now)

def touched (now : DateTime) (parsed : List IngestEvent) (client : Client) : Client :=
  { client with lastSeen := (times client.ip now parsed).getLast?.or client.lastSeen }

theorem times_append (ip : String) (now : DateTime) (parsed later : List IngestEvent) :
    times ip now (parsed ++ later) = times ip now parsed ++ times ip now later := by
  simp [times]

theorem foldl_touchClient (now : DateTime) (parsed : List IngestEvent) (clients : List Client) :
    parsed.foldl (touchClient now) clients = clients.map (touched now parsed) := by
  induction parsed using List.reverseRecOn with
  | nil =>
      have same : touched now [] = id := rfl
      rw [same, List.map_id]
      rfl
  | append_singleton parsed event ih =>
      rw [List.foldl_append, List.foldl_cons, List.foldl_nil, ih, touchClient, List.map_map]
      apply List.map_congr_left
      intro client _
      rw [Function.comp_apply, touched, touched, times_append, List.getLast?_append]
      by_cases same : client.ip = event.clientIp
      · have mine : times client.ip now [event] = [storedTime now event] := by
          simp [times, same]
        rw [if_pos same, mine]
        rfl
      · have other : times client.ip now [event] = [] := by
          simp [times, Ne.symm same]
        rw [if_neg same, other]
        rfl

theorem mem_foldl_addClient {ips : List String} {known : List Client × Nat} {client : Client}
    (member : client ∈ (ips.foldl addClient known).1) :
    client ∈ known.1 ∨ client.ip ∈ ips ∧ client.lastSeen = none := by
  induction ips generalizing known with
  | nil => exact Or.inl member
  | cons ip rest ih =>
      rcases ih member with before | ⟨listed, unseen⟩
      · unfold addClient at before
        split at before
        · exact Or.inl before
        · rcases List.mem_append.mp before with old | new
          · exact Or.inl old
          · rw [List.mem_singleton.mp new]
            exact Or.inr ⟨List.mem_cons_self, rfl⟩
      · exact Or.inr ⟨List.mem_cons_of_mem _ listed, unseen⟩

theorem subset_foldl_addClient (ips : List String) (known : List Client × Nat) :
    known.1 ⊆ (ips.foldl addClient known).1 := by
  induction ips generalizing known with
  | nil => exact fun _ member => member
  | cons ip rest ih =>
      refine List.Subset.trans ?_ (ih (addClient known ip))
      unfold addClient
      split
      · exact fun _ member => member
      · exact List.subset_append_left _ _

theorem exists_foldl_addClient {ips : List String} {ip : String} (listed : ip ∈ ips)
    (known : List Client × Nat) : ∃ client ∈ (ips.foldl addClient known).1, client.ip = ip := by
  induction ips generalizing known with
  | nil => contradiction
  | cons first rest ih =>
      rcases List.mem_cons.mp listed with rfl | later
      · have added : ∃ client ∈ (addClient known ip).1, client.ip = ip := by
          unfold addClient
          split
          · rename_i present
            simpa using present
          · exact ⟨_, List.mem_append_right _ (List.mem_singleton_self _), rfl⟩
        obtain ⟨client, member, same⟩ := added
        exact ⟨client, subset_foldl_addClient rest _ member, same⟩
      · exact ih later _

/-! ## Requests -/

structure Request where
  key : Option String
  payload : List Json.Members
  now : DateTime

/-- `accepted` are the addresses and times of all events of accepted requests. -/
structure World where
  database : Database
  accepted : List (String × Int)

variable (modelValidate : ModelValidate)

def parsed (request : Request) : List IngestEvent := request.payload.filterMap modelValidate

def batch (request : Request) : List (String × Int) :=
  (parsed modelValidate request).map fun event => (event.clientIp, storedTime request.now event)

def step (world : World) (request : Request) : World :=
  match ingest modelValidate world.database request.key request.payload request.now with
  | .ok (after, _) => ⟨after, world.accepted ++ batch modelValidate request⟩
  | .error _ => world

def timesOf (accepted : List (String × Int)) (ip : String) : List Int :=
  (accepted.filter (·.1 = ip)).map Prod.snd

/-- Every client was last seen at the latest of its accepted events. -/
def Current (world : World) : Prop :=
  ∀ client ∈ world.database.clients, client.lastSeen = (timesOf world.accepted client.ip).max?

/-- A node of the table sends the request, and its rows can be stored. -/
def Accepts (world : World) (request : Request) : Prop :=
  ∃ node ∈ world.database.nodes.rows, request.key = some node.apiKey ∧ node.apiKey ≠ "" ∧
    rowsFit (ingestRows modelValidate world.database node request.payload request.now) = true

/-- For each client, no event so far, in the request or before it, is later than its last one in the
request. -/
def InOrder (world : World) (request : Request) : Prop :=
  Accepts modelValidate world request → ∀ ip,
    ∀ last ∈ (timesOf (batch modelValidate request) ip).getLast?,
      ∀ t ∈ timesOf (world.accepted ++ batch modelValidate request) ip, t ≤ last

variable {modelValidate}

theorem timesOf_batch (request : Request) (ip : String) :
    timesOf (batch modelValidate request) ip = times ip request.now (parsed modelValidate request) := by
  simp [timesOf, batch, times, List.filter_map, Function.comp_def]

theorem timesOf_append (accepted later : List (String × Int)) (ip : String) :
    timesOf (accepted ++ later) ip = timesOf accepted ip ++ timesOf later ip := by
  simp [timesOf]

/-! ### One request -/

theorem step_refused {world : World} {request : Request} (refused : ¬ Accepts modelValidate world request) :
    step modelValidate world request = world := by
  unfold step
  cases answered : ingest modelValidate world.database request.key request.payload request.now with
  | error failure => rfl
  | ok answer =>
      obtain ⟨after, received⟩ := answer
      obtain ⟨node, member, named, nonempty, nothing | ⟨some, -, -⟩⟩ := ingest_ok answered
      · have empty : batch modelValidate request = [] := by
          rw [batch, parsed, nothing.1]
          rfl
        simp [nothing.2, empty]
      · have fits := (ingest_isOk_iff member nonempty).mp ⟨_, named ▸ answered⟩
        exact absurd ⟨node, member, named, nonempty, fits.resolve_left some⟩ refused

theorem step_accepted {world : World} {request : Request} (accepts : Accepts modelValidate world request) :
    (step modelValidate world request).accepted = world.accepted ++ batch modelValidate request ∧
      (parsed modelValidate request = [] ∧
          (step modelValidate world request).database.clients = world.database.clients ∨
        (step modelValidate world request).database.clients =
          (((parsed modelValidate request).map (·.clientIp)).foldl addClient
            (world.database.clients, world.database.clientSeq)).1.map
              (touched request.now (parsed modelValidate request))) := by
  obtain ⟨node, member, named, nonempty, fits⟩ := accepts
  obtain ⟨⟨after, received⟩, answered⟩ : ∃ answer, ingest modelValidate world.database (some node.apiKey)
      request.payload request.now = .ok answer :=
    (ingest_isOk_iff member nonempty).mpr (Or.inr fits)
  rw [← named] at answered
  have stepped : step modelValidate world request =
      ⟨after, world.accepted ++ batch modelValidate request⟩ := by
    simp [step, answered]
  rw [stepped]
  refine ⟨rfl, ?_⟩
  have found := Database.getNodeFromApiKey_eq_ok.mpr ⟨member, named, nonempty⟩
  simp only [ingest, found, bind, Except.bind] at answered
  split at answered
  · rename_i nothing
    cases answered
    exact Or.inl ⟨nothing, rfl⟩
  · right
    split at answered
    · split at answered
      · contradiction
      · rename_i saved committed
        cases answered
        rw [(Database.saveNode_eq_ok committed).2]
        exact foldl_touchClient _ _ _
    · contradiction

/-- The last time stands in for the maximum exactly when none is later. -/
theorem last_or_max_iff {before new : List Int} :
    new.getLast?.or before.max? = (before ++ new).max? ↔
      ∀ last ∈ new.getLast?, ∀ t ∈ before ++ new, t ≤ last := by
  cases found : new.getLast? with
  | none => simp [List.getLast?_eq_none_iff.mp found]
  | some last =>
      have present : last ∈ before ++ new := List.mem_append_right _ (List.mem_of_getLast? found)
      rw [Option.some_or, eq_comm, List.max?_eq_some_iff, and_iff_right present]
      simp

theorem touched_lastSeen {world : World} (current : Current world) {request : Request} {client : Client}
    (member : client ∈ (((parsed modelValidate request).map (·.clientIp)).foldl addClient
      (world.database.clients, world.database.clientSeq)).1) :
    (touched request.now (parsed modelValidate request) client).lastSeen =
      (timesOf (batch modelValidate request) client.ip).getLast?.or
        (timesOf world.accepted client.ip).max? := by
  rw [touched, timesOf_batch]
  rcases mem_foldl_addClient member with old | ⟨listed, unseen⟩
  · rw [current client old]
  · obtain ⟨event, sent, same⟩ := List.mem_map.mp listed
    have nonempty : times client.ip request.now (parsed modelValidate request) ≠ [] := by
      apply List.ne_nil_of_mem
      exact List.mem_map_of_mem (List.mem_filter.mpr ⟨sent, decide_eq_true same⟩)
    rw [List.getLast?_eq_some_getLast nonempty]
    rfl

theorem current_step_iff {world : World} (current : Current world) (request : Request) :
    Current (step modelValidate world request) ↔ InOrder modelValidate world request := by
  by_cases accepts : Accepts modelValidate world request
  · rw [InOrder, imp_iff_right accepts]
    obtain ⟨accepted, ⟨nothing, clients⟩ | clients⟩ := step_accepted accepts
    · have empty : batch modelValidate request = [] := by
        rw [batch, nothing]
        rfl
      rw [Current, clients, accepted, empty, List.append_nil]
      exact iff_of_true current (by simp [timesOf])
    · rw [Current, clients, accepted, List.forall_mem_map]
      constructor
      · intro seen ip last found
        have listed : ip ∈ (parsed modelValidate request).map (·.clientIp) := by
          rw [timesOf_batch] at found
          obtain ⟨event, sent, -⟩ := List.mem_map.mp (List.mem_of_getLast? found)
          obtain ⟨inRequest, same⟩ := List.mem_filter.mp sent
          exact List.mem_map.mpr ⟨event, inRequest, of_decide_eq_true same⟩
        obtain ⟨client, member, rfl⟩ :=
          exists_foldl_addClient listed (world.database.clients, world.database.clientSeq)
        have same := seen client member
        rw [touched_lastSeen current member, touched, timesOf_append, last_or_max_iff] at same
        rw [timesOf_append]
        exact same last found
      · intro ordered client member
        rw [touched_lastSeen current member, touched, timesOf_append, last_or_max_iff, ← timesOf_append]
        exact ordered client.ip
  · rw [step_refused accepts]
    exact iff_of_true current fun accepted => absurd accepted accepts

def seenAt (ts : String) (asked : Fin 10080) : Request where
  key := some "edge-key"
  payload := [[("ts", .string ts), ("client_ip", .string "192.0.2.7"), ("qname", .string "example.org"),
    ("qtype", .integer 1), ("rcode", .integer 0)]]
  now := minute asked

def unseen : World := ⟨office .active none, []⟩

theorem unseen_current : Current unseen := fun _ member => absurd member List.not_mem_nil

def noonAndEleven : List Request :=
  [seenAt "2021-07-30T12:00:00Z" 740, seenAt "2021-07-30T11:00:00Z" 750]

def elevenAndNoon : List Request :=
  [seenAt "2021-07-30T11:00:00Z" 740, seenAt "2021-07-30T12:00:00Z" 750]

end PowerBlockade.Primary.LastSeen
