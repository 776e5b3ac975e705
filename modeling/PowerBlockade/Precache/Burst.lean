import Mathlib.Algebra.BigOperators.Group.List.Basic
import Mathlib.Algebra.GroupWithZero.Nat
import Mathlib.Algebra.Order.BigOperators.Group.List
import PowerBlockade.Precache.Pairs

/-!
# The queries of one pass

`run_burst` with its retries, the boot burst over it and `warm_cache` of the periodic job.
-/

namespace PowerBlockade.Precache

/-- The keys of a dict, each where it was first put. -/
def fromkeys {α : Type*} [DecidableEq α] : List α → List α
  | [] => []
  | x :: xs => x :: (fromkeys xs).filter (· ≠ x)

def maxRetries : Nat := 2

/-- `send_fn`, by how often the pair has been sent before. -/
abbrev Script := Pair → Nat → PairWarmOutcome

structure PairResult where
  pair : Pair
  ok : Bool
  attempts : Nat
  error : Option String

/-- `outcome.error or error`. -/
def orError (new old : Option String) : Option String := new.elim old fun e => if e = "" then old else e

/-- The rest of `_warm_one` after `attempts`. -/
def warmOneFrom (script : Script) (pair : Pair) (attempts : Nat) (error : Option String) : Nat → PairResult
  | 0 => ⟨pair, false, attempts, error⟩
  | left + 1 =>
      let outcome := script pair attempts
      if outcome.ttl.isSome then ⟨pair, true, attempts + 1, none⟩
      else warmOneFrom script pair (attempts + 1) (orError outcome.error error) left

def warmOne (script : Script) (pair : Pair) : PairResult :=
  warmOneFrom script pair 0 none (maxRetries + 1)

structure BurstStats where
  attemptedPairs : Nat
  queriesSent : Nat
  succeeded : Nat
  failed : Nat
deriving DecidableEq

/-- `results` is in the order of `work` however the workers took turns. -/
def runBurst (script : Script) (pairs : List Pair) : BurstStats :=
  let work := fromkeys pairs
  let results := work.map (warmOne script)
  let failures := results.filter (!·.ok)
  { attemptedPairs := work.length
    queriesSent := (results.map (·.attempts)).sum
    succeeded := results.length - failures.length
    failed := failures.length }

/-! ## The boot burst -/

structure BootBurstConfig where
  maxQueries : Nat
  ignoreTtl : Bool
  customRefreshMinutes : Int
  qps : ℚ
  concurrency : Nat

inductive BootBurstStatus
  | completed
  | partialSuccess
  | failed
  | noPairs
  | skippedLock
  | unready
  | disabled
  | error
deriving DecidableEq

structure BootBurstResult where
  status : BootBurstStatus
  reason : String
  candidates : Nat
  skippedFresh : Nat
  attemptedPairs : Nat
  queriesSent : Nat
  succeeded : Nat
  failed : Nat
  qps : ℚ
  concurrency : Nat
  plannedWindow : ℚ
deriving DecidableEq

def BootBurstResult.ofStatus (status : BootBurstStatus) (reason : String) (qps : ℚ) (concurrency : Nat) :
    BootBurstResult :=
  { status, reason, qps, concurrency, candidates := 0, skippedFresh := 0, attemptedPairs := 0,
    queriesSent := 0, succeeded := 0, failed := 0, plannedWindow := 0 }

def statusFor (stats : BurstStats) : BootBurstStatus :=
  if stats.attemptedPairs = 0 then .completed
  else if stats.failed = 0 then .completed
  else if stats.succeeded = 0 then .failed
  else .partialSuccess

def duePairs (config : BootBurstConfig) (ttls : PairTtlCache) (now : ℚ) (selected : List Pair) : List Pair :=
  (getPairsNeedingRefresh ttls (fromkeys selected) config.ignoreTtl config.customRefreshMinutes now).take
    config.maxQueries

/-- The result that `_boot_burst_locked` records, from the pairs that were selected and what its
engine returns or raises. -/
def bootBurst (config : BootBurstConfig) (ttls : PairTtlCache) (now : ℚ) (selected : List Pair)
    (engine : List Pair → Except String BurstStats) : BootBurstResult :=
  let candidates := fromkeys selected
  let result := { BootBurstResult.ofStatus .noPairs "" config.qps config.concurrency with
    candidates := candidates.length }
  if candidates = [] then
    { result with reason := "no (qname, qtype) pairs observed in the last 24h" }
  else
    let needing := getPairsNeedingRefresh ttls candidates config.ignoreTtl config.customRefreshMinutes now
    let due := duePairs config ttls now selected
    let result := { result with
      skippedFresh := candidates.length - needing.length
      plannedWindow := due.length / config.qps }
    if due = [] then { result with status := .completed, reason := "all candidate pairs still fresh" }
    else match engine due with
      | .error e => { result with status := .error, reason := s!"burst engine failed: {e}" }
      | .ok stats =>
          { result with
            status := statusFor stats
            attemptedPairs := stats.attemptedPairs
            queriesSent := stats.queriesSent
            succeeded := stats.succeeded
            failed := stats.failed }

/-! ## The periodic pass -/

structure WarmingResult where
  success : Nat
  failed : Nat
  sent : List Pair
  ttls : PairTtlCache

/-- One round of the loop of `warm_cache`; `reply` is what the edge does and when it is recorded. -/
def warmNext (reply : Pair → PairWarmOutcome × ℚ) (result : WarmingResult) (pair : Pair) : WarmingResult :=
  let (outcome, now) := reply pair
  let result := { result with sent := result.sent ++ [pair] }
  match outcome.ttl with
  | some ttl =>
      { result with success := result.success + 1, ttls := recordWarmedPair result.ttls pair ttl now }
  | none => { result with failed := result.failed + 1 }

def warmCache (ttls : PairTtlCache) (reply : Pair → PairWarmOutcome × ℚ) (pairs : List Pair) :
    WarmingResult :=
  pairs.foldl (warmNext reply) ⟨0, 0, [], ttls⟩

def precacheWarmingJob (config : BootBurstConfig) (ttls : PairTtlCache) (now : ℚ) (selected : List Pair)
    (reply : Pair → PairWarmOutcome × ℚ) : WarmingResult :=
  warmCache ttls reply ((getPairsNeedingRefresh ttls selected config.ignoreTtl config.customRefreshMinutes
    now).take config.maxQueries)

/-! ## How many are sent -/

/-- The failed sends that another follows. -/
def retries (outcome : Nat → PairWarmOutcome) : Nat :=
  ((List.range maxRetries).takeWhile fun attempt => (outcome attempt).ttl.isNone).length

variable {config : BootBurstConfig} {ttls : PairTtlCache} {now : ℚ} {script : Script} {pair : Pair}

theorem mem_fromkeys {α : Type*} [DecidableEq α] {xs : List α} {x : α} : x ∈ fromkeys xs ↔ x ∈ xs := by
  induction xs with
  | nil => exact Iff.rfl
  | cons y ys ih =>
      rw [fromkeys, List.mem_cons, List.mem_cons, List.mem_filter, ih, decide_eq_true_eq]
      exact ⟨fun member => member.imp_right And.left, fun member => by
        by_cases same : x = y
        · exact Or.inl same
        · exact Or.inr ⟨member.resolve_left same, same⟩⟩

theorem fromkeys_nodup {α : Type*} [DecidableEq α] (xs : List α) : (fromkeys xs).Nodup := by
  induction xs with
  | nil => exact List.nodup_nil
  | cons y ys ih => exact List.nodup_cons.mpr ⟨by simp, ih.filter _⟩

theorem fromkeys_of_nodup {α : Type*} [DecidableEq α] {xs : List α} (distinct : xs.Nodup) :
    fromkeys xs = xs := by
  induction xs with
  | nil => rfl
  | cons y ys ih =>
      obtain ⟨absent, distinct⟩ := List.nodup_cons.mp distinct
      rw [fromkeys, ih distinct, List.filter_eq_self.mpr]
      intro x member
      exact decide_eq_true fun same => absent (same ▸ member)

theorem duePairs_nodup (config : BootBurstConfig) (ttls : PairTtlCache) (now : ℚ) (selected : List Pair) :
    (duePairs config ttls now selected).Nodup :=
  ((fromkeys_nodup selected).filter _).sublist (List.take_sublist _ _)

theorem attempts_warmOne (script : Script) (pair : Pair) :
    (warmOne script pair).attempts = retries (script pair) + 1 := by
  cases first : (script pair 0).ttl <;> cases second : (script pair 1).ttl <;>
    cases third : (script pair 2).ttl <;>
    simp [warmOne, warmOneFrom, maxRetries, retries, List.range_succ, first, second, third]

theorem queriesSent_runBurst {pairs : List Pair} (distinct : pairs.Nodup) :
    (runBurst script pairs).queriesSent =
      pairs.length + (pairs.map fun pair => retries (script pair)).sum := by
  simp only [runBurst, fromkeys_of_nodup distinct, List.map_map, Function.comp_def, attempts_warmOne,
    List.sum_map_add, List.map_const', List.sum_replicate]
  rw [Nat.add_comm, Nat.nsmul_eq_mul, Nat.mul_one]

theorem duePairs_nil {selected : List Pair} (none : fromkeys selected = []) :
    duePairs config ttls now selected = [] := by simp [duePairs, getPairsNeedingRefresh, none]

theorem queriesSent_bootBurst (config : BootBurstConfig) (ttls : PairTtlCache) (now : ℚ)
    (selected : List Pair) (script : Script) :
    (bootBurst config ttls now selected fun due => .ok (runBurst script due)).queriesSent =
      (duePairs config ttls now selected).length +
        ((duePairs config ttls now selected).map fun pair => retries (script pair)).sum := by
  unfold bootBurst
  dsimp only
  split
  · rename_i none
    simp [duePairs_nil none, BootBurstResult.ofStatus]
  · split
    · rename_i none
      simp [none, BootBurstResult.ofStatus]
    · exact queriesSent_runBurst (duePairs_nodup config ttls now selected)

theorem sent_warmNext (reply : Pair → PairWarmOutcome × ℚ) (result : WarmingResult) (pair : Pair) :
    (warmNext reply result pair).sent = result.sent ++ [pair] := by
  unfold warmNext
  dsimp only
  split <;> rfl

theorem sent_foldl_warmNext (reply : Pair → PairWarmOutcome × ℚ) (pairs : List Pair)
    (result : WarmingResult) : (pairs.foldl (warmNext reply) result).sent = result.sent ++ pairs := by
  induction pairs generalizing result with
  | nil => simp
  | cons pair rest ih =>
      rw [List.foldl_cons, ih, sent_warmNext, List.append_assoc, List.singleton_append]

theorem sent_le_maxQueries (config : BootBurstConfig) (ttls : PairTtlCache) (now : ℚ)
    (selected : List Pair) (reply : Pair → PairWarmOutcome × ℚ) :
    (precacheWarmingJob config ttls now selected reply).sent.length ≤ config.maxQueries := by
  rw [precacheWarmingJob, warmCache, sent_foldl_warmNext, List.nil_append]
  exact List.length_take_le _ _

theorem queries_within_cap_iff (config : BootBurstConfig) (ttls : PairTtlCache) (now : ℚ)
    (selected : List Pair) (script : Script) (reply : Pair → PairWarmOutcome × ℚ) :
    ((bootBurst config ttls now selected fun due => .ok (runBurst script due)).queriesSent ≤
        config.maxQueries ∧
      (precacheWarmingJob config ttls now selected reply).sent.length ≤ config.maxQueries) ↔
    (duePairs config ttls now selected).length +
      ((duePairs config ttls now selected).map fun pair => retries (script pair)).sum ≤
        config.maxQueries := by
  rw [queriesSent_bootBurst]
  exact and_iff_left (sent_le_maxQueries config ttls now selected reply)

def oneQuery : BootBurstConfig := ⟨1, false, 60, 50, 8⟩

/-- A cap of one, one pair that is due and an edge that does not answer. -/
theorem retries_exceed_cap :
    ¬ (bootBurst oneQuery (fun _ => none) 0 [("example.com", 1)] fun due =>
      .ok (runBurst (fun _ _ => ⟨none, some "timed out"⟩) due)).queriesSent ≤ oneQuery.maxQueries := by
  decide +kernel

end PowerBlockade.Precache
