import Mathlib.Data.List.Sort
import PowerBlockade.Clients.Tables
import PowerBlockade.Columns
import PowerBlockade.Lib.Run

/-!
# The names of the clients

`resolve_client_hostname` asks for the name of an address again when the last answer has expired. A row
keeps the last name, the last error and one time for both.
-/

namespace PowerBlockade.Clients
open Lib

def ptrCacheTtlSeconds : Nat := 3600

def ptrCacheErrorTtlSeconds : Nat := 300

/-- Python's truth of a text. -/
def given (text : Option String) : Bool := text.getD "" ≠ ""

structure ClientResolverRule where
  subnet : String
  nameserver : String
  enabled : Bool
  priority : Int
  storable : fitsText 255 nameserver = true

/-- `ip_in_subnet` -/
def ipInSubnet (ip subnet : String) : Bool := inNetwork ip subnet

/-- Rules of one priority stay in the order of the table. -/
def getMatchingRule (rules : List ClientResolverRule) (ip : String) : Option ClientResolverRule :=
  ((rules.filter (·.enabled)).insertionSort fun a b => a.priority ≤ b.priority).find? fun rule =>
    ipInSubnet ip rule.subnet

/-- What a call meets: the time, the rules and, for an address and a name server, what `ptr_lookup` gets. -/
structure Call where
  now : DateTime
  rules : List ClientResolverRule
  ptrLookup : String → String → Option String

/-- The row as it is committed, what a lookup got if there was one, and the result; `none` is an exception
of the database. A row that is new and not committed is that of a client which is not there. -/
structure Resolution where
  client : Option Client
  lookup : Option (Option String)
  result : Option (Option String)

def Client.new (ip : String) : Client where
  ip := ip
  displayName := none
  rdnsName := none
  rdnsLastResolvedAt := none
  rdnsLastError := none
  groupId := none

def Client.age (now resolvedAt : DateTime) : Int := now.micros - resolvedAt.micros

/-- What is returned without a lookup because of an earlier one. -/
def Client.cached (client : Client) (now : DateTime) : Option (Option String) :=
  client.rdnsLastResolvedAt.bind fun resolvedAt =>
    if given client.rdnsName = true ∧ Client.age now resolvedAt < ptrCacheTtlSeconds * secondMicros then
      some client.rdnsName
    else if given client.rdnsLastError = true ∧
        Client.age now resolvedAt < ptrCacheErrorTtlSeconds * secondMicros then
      some client.displayName
    else none

def lookupFailed (rule : ClientResolverRule) : String := "PTR lookup failed via " ++ rule.nameserver

/-- The lookup, and the commit of what it got. -/
def resolve (row : Option Client) (client : Client) (ip : String) (rule : ClientResolverRule) (call : Call) :
    Resolution :=
  let hostname := call.ptrLookup ip rule.nameserver
  let client := { client with rdnsLastResolvedAt := some call.now }
  if given hostname then
    if hostname.all (fitsText 255) then
      ⟨some { client with rdnsName := hostname, rdnsLastError := none }, some hostname, some hostname⟩
    else ⟨row, some hostname, none⟩
  else if storableText (lookupFailed rule) then
    ⟨some { client with rdnsLastError := some (lookupFailed rule) }, some hostname, some client.displayName⟩
  else ⟨row, some hostname, none⟩

def resolveClientHostname (row : Option Client) (ip : String) (force : Bool) (call : Call) : Resolution :=
  if row = none ∧ fitsText 64 ip = false then ⟨none, none, none⟩
  else
    let client := row.getD (.new ip)
    match if force then none else client.cached call.now with
    | some name => ⟨row, none, some name⟩
    | none =>
        if given client.displayName then ⟨row, none, some client.displayName⟩
        else match getMatchingRule call.rules ip with
          | none => ⟨row, none, some none⟩
          | some rule => resolve row client ip rule call

/-! ## Histories -/

structure Attempt where
  time : DateTime
  succeeded : Bool
deriving DecidableEq

structure History where
  client : Option Client
  attempts : List Attempt

/-- One call; a lookup succeeds with a name that is not empty. -/
def History.step (ip : String) (history : History) (call : Call) : History :=
  let resolution := resolveClientHostname history.client ip false call
  ⟨resolution.client,
    history.attempts ++ (resolution.lookup.map fun hostname => ⟨call.now, given hostname⟩).toList⟩

def Attempt.age (last : Attempt) (now : DateTime) : Int := Client.age now last.time

/-- A new lookup is due: the last one succeeded an hour ago, or failed five minutes ago. -/
def Attempt.Due (last : Attempt) (now : DateTime) : Prop :=
  if last.succeeded then (ptrCacheTtlSeconds * secondMicros : Int) ≤ last.age now
  else (ptrCacheErrorTtlSeconds * secondMicros : Int) ≤ last.age now

/-- After an earlier lookup, there is one exactly when it is due. -/
def RetryPolicy (ip : String) (history : History) (call : Call) : Prop :=
  ∀ last ∈ history.attempts.getLast?,
    ((resolveClientHostname history.client ip false call).lookup.isSome = true ↔ last.Due call.now)

/-- The call comes more than five minutes and less than an hour after a lookup failed, and one before it
found a name. -/
def FailedRefresh (history : History) (call : Call) : Prop :=
  ∃ last ∈ history.attempts.getLast?, last.succeeded = false ∧
    (∃ attempt ∈ history.attempts, attempt.succeeded = true) ∧
    ptrCacheErrorTtlSeconds * secondMicros ≤ last.age call.now ∧
    last.age call.now < ptrCacheTtlSeconds * secondMicros

/-- There is a rule for the address, and the column takes a name that is found. -/
def Answerable (ip : String) (call : Call) : Prop :=
  (getMatchingRule call.rules ip).isSome = true ∧
    ∀ nameserver, ∀ hostname ∈ call.ptrLookup ip nameserver, fitsText 255 hostname = true

/-- The row of a client whose name was never looked up, and that has none. -/
def Unresolved (row : Option Client) : Prop :=
  ∀ client ∈ row, given client.displayName = false ∧ given client.rdnsName = false ∧
    client.rdnsLastResolvedAt = none ∧ given client.rdnsLastError = false

structure Recorded (history : History) : Prop where
  hidden : ∀ client ∈ history.client, given client.displayName = false
  fresh : history.attempts = [] → Unresolved history.client
  last : ∀ last ∈ history.attempts.getLast?, ∃ client, history.client = some client ∧
    client.rdnsLastResolvedAt = some last.time ∧ given client.rdnsLastError = !last.succeeded ∧
    (given client.rdnsName = true ↔ ∃ attempt ∈ history.attempts, attempt.succeeded = true)

theorem given_lookupFailed (rule : ClientResolverRule) : given (some (lookupFailed rule)) = true := by
  rw [given, decide_eq_true_eq, Option.getD_some]
  intro empty
  unfold lookupFailed at empty
  exact absurd (String.append_eq_empty_iff.mp empty).1 (by decide)

theorem storable_lookupFailed (rule : ClientResolverRule) : storableText (lookupFailed rule) = true := by
  have nameserver := rule.storable
  unfold fitsText at nameserver
  have text : '\x00' ∉ "PTR lookup failed via ".toList := by decide
  unfold storableText lookupFailed
  rw [decide_eq_true_eq] at nameserver ⊢
  rw [String.toList_append, List.mem_append]
  exact not_or.mpr ⟨text, nameserver.2⟩

variable {ip : String} {history : History} {call : Call}

/-- With a rule and names that the column takes, every lookup is committed. -/
theorem resolve_of_answerable (answerable : Answerable ip call) (row : Option Client) (client : Client)
    (rule : ClientResolverRule) : ∃ hostname, (resolve row client ip rule call).lookup = some hostname ∧
      (resolve row client ip rule call).client = some { client with
        rdnsLastResolvedAt := some call.now
        rdnsName := if given hostname then hostname else client.rdnsName
        rdnsLastError := if given hostname then none else some (lookupFailed rule) } := by
  have fits : (call.ptrLookup ip rule.nameserver).all (fitsText 255) = true := by
    rw [Option.all_eq_true]
    exact answerable.2 rule.nameserver
  refine ⟨call.ptrLookup ip rule.nameserver, ?_⟩
  simp only [resolve, fits, storable_lookupFailed, if_true]
  cases given (call.ptrLookup ip rule.nameserver) <;> exact ⟨rfl, rfl⟩

/-- A call answers from the row and leaves it, or looks the name up. -/
theorem resolveClientHostname_cases (recorded : Recorded history) (answerable : Answerable ip call) :
    (∃ result, resolveClientHostname history.client ip false call = ⟨history.client, none, result⟩ ∧
        ∀ client ∈ history.client, (client.cached call.now).isSome = true) ∨
      ∃ rule, resolveClientHostname history.client ip false call =
          resolve history.client (history.client.getD (.new ip)) ip rule call ∧
        ∀ client ∈ history.client, client.cached call.now = none := by
  have hidden : given (history.client.getD (.new ip)).displayName = false := by
    cases row : history.client with
    | none => rfl
    | some client => exact recorded.hidden client row
  have kept : ∀ client ∈ history.client, history.client.getD (.new ip) = client := by
    intro client row
    rw [Option.mem_def.mp row, Option.getD_some]
  obtain ⟨rule, matching⟩ := Option.isSome_iff_exists.mp answerable.1
  unfold resolveClientHostname
  by_cases refused : history.client = none ∧ fitsText 64 ip = false
  · rw [if_pos refused, refused.1]
    exact Or.inl ⟨none, rfl, nofun⟩
  · rw [if_neg refused]
    cases cached : (history.client.getD (.new ip)).cached call.now with
    | some name =>
        refine Or.inl ⟨some name, by simp [cached], fun client row => ?_⟩
        rw [← kept client row, cached]
        rfl
    | none =>
        refine Or.inr ⟨rule, by simp [cached, hidden, matching], fun client row => ?_⟩
        rw [← kept client row, cached]

theorem cached_eq_none_iff {client : Client} {now resolvedAt : DateTime}
    (resolved : client.rdnsLastResolvedAt = some resolvedAt) : client.cached now = none ↔
      (given client.rdnsName = true → ptrCacheTtlSeconds * secondMicros ≤ Client.age now resolvedAt) ∧
        (given client.rdnsLastError = true →
          ptrCacheErrorTtlSeconds * secondMicros ≤ Client.age now resolvedAt) := by
  rw [Client.cached, resolved, Option.bind_some]
  split_ifs with named failed
  · simp [named.1, not_le.mpr named.2]
  · simp [failed.1, not_le.mpr failed.2]
  · simp only [not_and, not_lt] at named failed
    exact ⟨fun _ => ⟨named, failed⟩, fun _ => rfl⟩

theorem lookup_isSome_iff (recorded : Recorded history) (answerable : Answerable ip call) {client : Client}
    (row : history.client = some client) :
    (resolveClientHostname history.client ip false call).lookup.isSome = true ↔ client.cached call.now = none := by
  rcases resolveClientHostname_cases recorded answerable with ⟨result, same, answered⟩ | ⟨rule, same, due⟩
  · have cached := answered client row
    rw [same]
    simp [← Option.isNone_iff_eq_none, cached]
  · obtain ⟨hostname, found, -⟩ :=
      resolve_of_answerable answerable history.client (history.client.getD (.new ip)) rule
    rw [same, found, due client row]
    simp

theorem retryPolicy_iff (recorded : Recorded history) (answerable : Answerable ip call) :
    RetryPolicy ip history call ↔ ¬ FailedRefresh history call := by
  unfold RetryPolicy FailedRefresh
  cases latest : history.attempts.getLast? with
  | none => simp
  | some last =>
      obtain ⟨client, row, resolved, failed, named⟩ := recorded.last last latest
      have interval : (ptrCacheErrorTtlSeconds * secondMicros : Int) ≤ ptrCacheTtlSeconds * secondMicros := by
        decide
      simp only [Option.mem_def, Option.some_inj, forall_eq', exists_eq_left']
      rw [lookup_isSome_iff recorded answerable row, cached_eq_none_iff resolved, failed, named, Attempt.Due, Attempt.age]
      cases succeeded : last.succeeded with
      | true =>
          have before : ∃ attempt ∈ history.attempts, attempt.succeeded = true :=
            ⟨last, List.mem_of_getLast? latest, succeeded⟩
          simp [before]
      | false =>
          by_cases before : ∃ attempt ∈ history.attempts, attempt.succeeded = true
          · simp only [before]
            simp
          · simp only [before]
            simp

theorem recorded_lookup {attempts : List Attempt} {client : Client} (now : DateTime) (hostname : Option String)
    (rule : ClientResolverRule) (hidden : given client.displayName = false)
    (named : given client.rdnsName = true ↔ ∃ attempt ∈ attempts, attempt.succeeded = true) :
    Recorded ⟨some { client with
      rdnsLastResolvedAt := some now
      rdnsName := if given hostname then hostname else client.rdnsName
      rdnsLastError := if given hostname then none else some (lookupFailed rule) },
      attempts ++ [⟨now, given hostname⟩]⟩ := by
  refine ⟨by rintro _ ⟨⟩; exact hidden, fun none => absurd none (by simp), ?_⟩
  intro last latest
  rw [List.getLast?_concat, Option.mem_def, Option.some_inj] at latest
  subst latest
  refine ⟨_, rfl, rfl, ?_, ?_⟩
  · cases found : given hostname with
    | true => simp [given]
    | false => simp [given_lookupFailed]
  · simp only [List.mem_append, List.mem_singleton]
    cases found : given hostname with
    | true => simp [found]
    | false => simp [named]

theorem recorded_step (recorded : Recorded history) (answerable : Answerable ip call) :
    Recorded (history.step ip call) := by
  rcases resolveClientHostname_cases recorded answerable with ⟨result, same, -⟩ | ⟨rule, same, -⟩
  · have unchanged : history.step ip call = history := by
      simp only [History.step, same, Option.map_none, Option.toList_none, List.append_nil]
    rw [unchanged]
    exact recorded
  · obtain ⟨hostname, found, committed⟩ :=
      resolve_of_answerable answerable history.client (history.client.getD (.new ip)) rule
    simp only [History.step, same, found, committed, Option.map_some, Option.toList_some]
    apply recorded_lookup
    · cases row : history.client with
      | none => rfl
      | some client => exact recorded.hidden client row
    · cases latest : history.attempts.getLast? with
      | none =>
          have none := List.getLast?_eq_none_iff.mp latest
          have unresolved : given (history.client.getD (.new ip)).rdnsName = false := by
            cases row : history.client with
            | none => rfl
            | some client => exact (recorded.fresh none client row).2.1
          simp [unresolved, none]
      | some last =>
          obtain ⟨client, row, -, -, named⟩ := recorded.last last latest
          rw [row, Option.getD_some, named]

theorem ptr_retry_iff (ip : String) (start : Option Client) (calls : List Call) (unresolved : Unresolved start)
    (answerable : ∀ call ∈ calls, Answerable ip call) :
    Along (History.step ip) (RetryPolicy ip) ⟨start, []⟩ calls ↔
      Along (History.step ip) (fun history call => ¬ FailedRefresh history call) ⟨start, []⟩ calls := by
  have initial : Recorded ⟨start, []⟩ := ⟨fun client row => (unresolved client row).1, fun _ => unresolved, nofun⟩
  exact along_congr_of_invariant initial (along_of_forall_mem answerable)
    (fun _ _ => recorded_step) fun _ _ => retryPolicy_iff

/-! ## A laptop that leaves -/

def lanRule : ClientResolverRule := ⟨"192.168.1.0/24", "192.168.1.1", true, 100, by decide⟩

def callAt (n : Fin 10080) (answer : Option String) : Call := ⟨minute n, [lanRule], fun _ _ => answer⟩

theorem answerable_callAt {n : Fin 10080} {answer : Option String}
    (fits : ∀ hostname ∈ answer, fitsText 255 hostname = true) : Answerable "192.168.1.7" (callAt n answer) := by
  have matching : (getMatchingRule [lanRule] "192.168.1.7").isSome = true := by decide +kernel
  exact ⟨matching, fun _ => fits⟩

theorem ptr_retry_laptop : Along (History.step "192.168.1.7") (RetryPolicy "192.168.1.7") ⟨none, []⟩
    [callAt 0 (some "laptop.lan"), callAt 60 none] := by
  refine (ptr_retry_iff "192.168.1.7" none _ nofun ?_).mpr ⟨?_, ?_, trivial⟩
  · intro call member
    rcases List.mem_pair.mp member with rfl | rfl
    · exact answerable_callAt (by rintro _ ⟨⟩; decide)
    · exact answerable_callAt nofun
  · rintro ⟨last, latest, -⟩
    exact nomatch latest
  · rintro ⟨last, latest, failed, -⟩
    have found : (History.step "192.168.1.7" ⟨none, []⟩ (callAt 0 (some "laptop.lan"))).attempts.getLast? =
        some ⟨minute 0, true⟩ := by decide +kernel
    rw [Option.mem_def, found] at latest
    rw [← Option.some.inj latest] at failed
    exact nomatch failed

/-- Five minutes after the failure the name is not looked up again. -/
theorem ptr_not_retried : ¬ ∀ (ip : String) (start : Option Client) (calls : List Call), Unresolved start →
    (∀ call ∈ calls, Answerable ip call) → Along (History.step ip) (RetryPolicy ip) ⟨start, []⟩ calls := by
  intro always
  have answerable : ∀ call ∈ [callAt 0 (some "laptop.lan"), callAt 60 none, callAt 65 none],
      Answerable "192.168.1.7" call := by
    intro call member
    simp only [List.mem_cons, List.not_mem_nil, or_false] at member
    rcases member with rfl | rfl | rfl
    · exact answerable_callAt (by rintro _ ⟨⟩; decide)
    · exact answerable_callAt nofun
    · exact answerable_callAt nofun
  have along := always "192.168.1.7" none _ nofun answerable
  have policy := along.2.2.1 ⟨minute 60, false⟩ (by decide +kernel)
  have due : Attempt.Due ⟨minute 60, false⟩ (minute 65) := by
    change (ptrCacheErrorTtlSeconds * secondMicros : Int) ≤ Attempt.age ⟨minute 60, false⟩ (minute 65)
    decide +kernel
  have looked := policy.mpr due
  revert looked
  decide +kernel

end PowerBlockade.Clients
