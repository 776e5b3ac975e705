import Mathlib.Algebra.BigOperators.Group.Finset.Basic
import Mathlib.Algebra.Order.BigOperators.Group.Finset
import PowerBlockade.Lib.Run
import PowerBlockade.Precache.Burst

/-!
# The counters of a burst

The worker threads of `run_burst` between their lock sections, with any outcome of any send. The
pacers and the backoff only decide when a worker goes on.
-/

namespace PowerBlockade.Precache.Accounting
open Lib

/-- Where `_warm_one` is in an attempt: `counted` before `send_fn`, `answered` after it. -/
inductive Stage
  | attempting
  | counted
  | sending
  | answered (outcome : PairWarmOutcome)
  | deciding (outcome : PairWarmOutcome)

structure Held where
  pair : Pair
  attempt : Nat
  error : Option String
  stage : Stage

inductive Turn
  | take
  | enter
  | send
  | answer (outcome : PairWarmOutcome)
  | leave
  | decide (now : ℚ)

structure Label where
  worker : Nat
  turn : Turn

/-- `calls`: what the calls of `send_fn` have returned, in order. -/
structure State where
  work : List Pair
  workers : List (Option Held)
  inFlight : Nat
  maxConcurrency : Nat
  queriesSent : Nat
  ttls : PairTtlCache
  results : List PairResult
  calls : List (Pair × PairWarmOutcome)

def workerCount (pairs : List Pair) (concurrency : Int) : Nat :=
  (max 1 (min concurrency (fromkeys pairs).length)).toNat

namespace State

def start (pairs : List Pair) (concurrency : Int) (ttls : PairTtlCache) : State :=
  { work := fromkeys pairs, workers := List.replicate (workerCount pairs concurrency) none
    inFlight := 0, maxConcurrency := 0, queriesSent := 0, ttls, results := [], calls := [] }

def put (s : State) (worker : Nat) (held : Option Held) : State :=
  { s with workers := s.workers.set worker held }

def finish (s : State) (worker : Nat) (result : PairResult) : State :=
  { s.put worker none with results := s.results ++ [result] }

/-- What `_warm_one` does with an outcome. -/
def decide (maxRetries : Nat) (s : State) (worker : Nat) (held : Held) (outcome : PairWarmOutcome)
    (now : ℚ) : State :=
  match outcome.ttl with
  | some ttl =>
      { s.finish worker ⟨held.pair, true, held.attempt + 1, none⟩ with
        ttls := recordWarmedPair s.ttls held.pair ttl now }
  | none =>
      let error := orError outcome.error held.error
      if held.attempt < maxRetries then
        s.put worker (some ⟨held.pair, held.attempt + 1, error, .attempting⟩)
      else s.finish worker ⟨held.pair, false, held.attempt + 1, error⟩

def move (maxRetries : Nat) (s : State) (worker : Nat) (held : Held) : Turn → State
  | .enter => match held.stage with
      | .attempting => { s.put worker (some { held with stage := .counted }) with
          inFlight := s.inFlight + 1
          maxConcurrency := max s.maxConcurrency (s.inFlight + 1) }
      | _ => s
  | .send => match held.stage with
      | .counted => s.put worker (some { held with stage := .sending })
      | _ => s
  | .answer outcome => match held.stage with
      | .sending => { s.put worker (some { held with stage := .answered outcome }) with
          calls := s.calls ++ [(held.pair, outcome)] }
      | _ => s
  | .leave => match held.stage with
      | .answered outcome => { s.put worker (some { held with stage := .deciding outcome }) with
          inFlight := s.inFlight - 1
          queriesSent := s.queriesSent + 1 }
      | _ => s
  | .decide now => match held.stage with
      | .deciding outcome => s.decide maxRetries worker held outcome now
      | _ => s
  | .take => s

/-- A turn that is not the worker's next changes nothing. -/
def step (maxRetries : Nat) (s : State) (label : Label) : State :=
  match s.workers[label.worker]?, label.turn, s.work with
  | some none, .take, pair :: rest =>
      { s.put label.worker (some ⟨pair, 0, none, .attempting⟩) with work := rest }
  | some (some held), turn, _ => s.move maxRetries label.worker held turn
  | _, _, _ => s

def Finished (s : State) : Prop := s.work = [] ∧ ∀ worker ∈ s.workers, worker = none

/-- What `run_burst` returns. -/
structure Stats where
  attemptedPairs : Nat
  queriesSent : Nat
  succeeded : Nat
  failed : Nat
  maxConcurrency : Nat

def stats (pairs : List Pair) (s : State) : Stats :=
  let failures := s.results.filter (!·.ok)
  { attemptedPairs := (fromkeys pairs).length
    queriesSent := s.queriesSent
    succeeded := s.results.length - failures.length
    failed := failures.length
    maxConcurrency := s.maxConcurrency }

end State

/-- Between the two sections under `send_lock`. -/
def Held.counted (held : Held) : Bool :=
  match held.stage with
  | .counted | .sending | .answered _ => true
  | .attempting | .deciding _ => false

/-- `send_fn` has returned, and `queries_sent` does not count it yet. -/
def Held.uncounted (held : Held) : Bool :=
  match held.stage with
  | .answered _ => true
  | _ => false

def inFlightSends (s : State) : Nat := s.workers.countP (·.any Held.counted)

/-- What the sends of a pair returned. -/
def answers (calls : List (Pair × PairWarmOutcome)) (pair : Pair) : List PairWarmOutcome :=
  (calls.filter (·.1 = pair)).map (·.2)

/-! ## Where the pairs are -/

/-- The sends of the attempts that are over, and none of them returned a TTL. -/
structure Failing (outcomes : List PairWarmOutcome) (attempts : Nat) : Prop where
  length : outcomes.length = attempts
  failed : ∀ outcome ∈ outcomes, outcome.ttl = none

def Held.Fits (maxRetries : Nat) (held : Held) (outcomes : List PairWarmOutcome) : Prop :=
  held.attempt ≤ maxRetries ∧ match held.stage with
    | .attempting | .counted | .sending => Failing outcomes held.attempt
    | .answered outcome | .deciding outcome =>
        ∃ earlier, outcomes = earlier ++ [outcome] ∧ Failing earlier held.attempt

/-- The entry of a pair after a send that returned `ttl`. -/
def recorded (cached : Option PairTTL) (ttl : Nat) (now : ℚ) : Option PairTTL :=
  some ⟨cached.elim ttl fun old => min old.ttl ttl, some now⟩

inductive Settled (maxRetries : Nat) (old : Option PairTTL) (result : PairResult)
    (outcomes : List PairWarmOutcome) (cached : Option PairTTL) : Prop
  | warmed (earlier : List PairWarmOutcome) (outcome : PairWarmOutcome) (ttl : Nat) (now : ℚ)
      (ok : result.ok = true) (split : outcomes = earlier ++ [outcome]) (found : outcome.ttl = some ttl)
      (failing : Failing earlier earlier.length) (few : earlier.length ≤ maxRetries)
      (entry : cached = recorded old ttl now)
  | exhausted (failed : result.ok = false) (failing : Failing outcomes (maxRetries + 1)) (entry : cached = old)

def heldPairs (workers : List (Option Held)) : List Pair := workers.filterMap (Option.map Held.pair)

structure Tracked (pairs : List Pair) (maxRetries : Nat) (initial : PairTtlCache) (s : State) : Prop where
  places : (s.work ++ (heldPairs s.workers ++ s.results.map (·.pair))).Perm (fromkeys pairs)
  waiting : ∀ pair ∈ s.work, answers s.calls pair = [] ∧ s.ttls pair = initial pair
  held : ∀ held, some held ∈ s.workers → held.Fits maxRetries (answers s.calls held.pair) ∧
    s.ttls held.pair = initial held.pair
  settled : ∀ result ∈ s.results, Settled maxRetries (initial result.pair) result
    (answers s.calls result.pair) (s.ttls result.pair)
  elsewhere : ∀ pair, pair ∉ pairs → answers s.calls pair = [] ∧ s.ttls pair = initial pair

variable {pairs : List Pair} {maxRetries : Nat} {initial : PairTtlCache} {s t : State} {worker : Nat}
  {held after : Held}

theorem perm_of_getElem? {α : Type*} {xs : List α} {i : Nat} {x : α} (found : xs[i]? = some x) :
    xs.Perm (x :: xs.eraseIdx i) ∧ ∀ y, (xs.set i y).Perm (y :: xs.eraseIdx i) := by
  obtain ⟨inside, rfl⟩ := List.getElem?_eq_some_iff.1 found
  exact ⟨(List.getElem_cons_eraseIdx_perm inside).symm, fun y => List.set_perm_cons_eraseIdx inside y⟩

theorem heldPairs_perm {workers others : List (Option Held)} (perm : workers.Perm (some held :: others)) :
    (heldPairs workers).Perm (held.pair :: heldPairs others) :=
  perm.filterMap (Option.map Held.pair)

theorem heldPairs_perm_none {workers others : List (Option Held)} (perm : workers.Perm (none :: others)) :
    (heldPairs workers).Perm (heldPairs others) :=
  perm.filterMap (Option.map Held.pair)

theorem mem_heldPairs {workers : List (Option Held)} (member : some held ∈ workers) :
    held.pair ∈ heldPairs workers :=
  List.mem_filterMap.2 ⟨some held, member, rfl⟩

theorem answers_append (calls : List (Pair × PairWarmOutcome)) (pair other : Pair) (outcome : PairWarmOutcome) :
    answers (calls ++ [(pair, outcome)]) other =
      if pair = other then answers calls other ++ [outcome] else answers calls other := by
  by_cases same : pair = other
  · simp [answers, same]
  · simp [answers, same]

/-- The pair of a worker is nowhere else. -/
structure Alone (pairs : List Pair) (s : State) (worker : Nat) (pair : Pair) : Prop where
  work : pair ∉ s.work
  others : ∀ other, some other ∈ s.workers.eraseIdx worker → other.pair ≠ pair
  results : ∀ result ∈ s.results, result.pair ≠ pair
  asked : pair ∈ pairs

theorem Tracked.alone (tracked : Tracked pairs maxRetries initial s)
    (found : s.workers[worker]? = some (some held)) : Alone pairs s worker held.pair := by
  have split : (held.pair :: (s.work ++ (heldPairs (s.workers.eraseIdx worker) ++
      s.results.map (·.pair)))).Perm (fromkeys pairs) := by
    refine List.Perm.trans ?_ tracked.places
    refine List.perm_middle.symm.trans (List.Perm.append_left _ ?_)
    rw [← List.cons_append]
    exact (heldPairs_perm (perm_of_getElem? found).1).symm.append_right _
  have distinct := split.nodup_iff.2 (fromkeys_nodup pairs)
  obtain ⟨absent, -⟩ := List.nodup_cons.1 distinct
  rw [List.mem_append, List.mem_append] at absent
  refine ⟨fun waits => absent (Or.inl waits), ?_, ?_, ?_⟩
  · intro other there same
    exact absent (Or.inr (Or.inl (same ▸ mem_heldPairs there)))
  · intro result there same
    exact absent (Or.inr (Or.inr (List.mem_map.2 ⟨result, there, same⟩)))
  · exact mem_fromkeys.1 (split.subset List.mem_cons_self)

theorem tracked_start (pairs : List Pair) (concurrency : Int) (maxRetries : Nat) (initial : PairTtlCache) :
    Tracked pairs maxRetries initial (State.start pairs concurrency initial) where
  places := by
    have idle (n : Nat) : heldPairs (List.replicate n none) = [] := by
      induction n with
      | zero => rfl
      | succ n ih => exact ih
    simp only [State.start, idle, List.map_nil, List.append_nil]
    exact .refl _
  waiting := fun _ _ => ⟨rfl, rfl⟩
  held := fun held there => absurd (List.eq_of_mem_replicate there) (Option.some_ne_none held)
  settled := fun _ none => absurd none List.not_mem_nil
  elsewhere := fun _ _ => ⟨rfl, rfl⟩

theorem Tracked.take (tracked : Tracked pairs maxRetries initial s) {pair : Pair} {rest : List Pair}
    (found : s.workers[worker]? = some none) (next : s.work = pair :: rest) :
    Tracked pairs maxRetries initial
      { s.put worker (some ⟨pair, 0, none, .attempting⟩) with work := rest } where
  places := by
    have perm := perm_of_getElem? found
    have before := heldPairs_perm_none perm.1
    have after := heldPairs_perm (perm.2 (some ⟨pair, 0, none, .attempting⟩))
    refine List.Perm.trans ?_ tracked.places
    rw [next, List.cons_append]
    refine List.Perm.trans (List.Perm.append_left _ (after.append_right _)) ?_
    rw [List.cons_append]
    exact List.perm_middle.trans ((List.Perm.append_left _ (before.symm.append_right _)).cons _)
  waiting := fun other there => tracked.waiting other (next ▸ List.mem_cons_of_mem _ there)
  held := by
    intro other there
    rcases List.mem_or_eq_of_mem_set there with old | new
    · exact tracked.held other old
    · cases Option.some.inj new
      obtain ⟨none, same⟩ := tracked.waiting pair (next ▸ List.mem_cons_self)
      refine ⟨⟨Nat.zero_le _, ?_⟩, same⟩
      exact ⟨congrArg List.length none, fun outcome there => absurd (none ▸ there) List.not_mem_nil⟩
  settled := tracked.settled
  elsewhere := tracked.elsewhere

/-- A step of a worker that leaves every other pair as it was. -/
structure Touches (pair : Pair) (s t : State) : Prop where
  work : t.work = s.work
  calls : ∀ other, other ≠ pair → answers t.calls other = answers s.calls other
  ttls : ∀ other, other ≠ pair → t.ttls other = s.ttls other

theorem Tracked.held_others (tracked : Tracked pairs maxRetries initial s) (touches : Touches held.pair s t)
    (alone : Alone pairs s worker held.pair) {other : Held} (there : some other ∈ s.workers.eraseIdx worker) :
    other.Fits maxRetries (answers t.calls other.pair) ∧ t.ttls other.pair = initial other.pair := by
  rw [touches.calls _ (alone.others other there), touches.ttls _ (alone.others other there)]
  exact tracked.held other (List.mem_of_mem_eraseIdx there)

theorem Tracked.waiting_others (tracked : Tracked pairs maxRetries initial s)
    (touches : Touches held.pair s t) (alone : Alone pairs s worker held.pair) :
    ∀ pair ∈ t.work, answers t.calls pair = [] ∧ t.ttls pair = initial pair := by
  intro pair there
  rw [touches.work] at there
  have other : pair ≠ held.pair := fun eq => alone.work (eq ▸ there)
  rw [touches.calls pair other, touches.ttls pair other]
  exact tracked.waiting pair there

theorem Tracked.elsewhere_others (tracked : Tracked pairs maxRetries initial s)
    (touches : Touches held.pair s t) (alone : Alone pairs s worker held.pair) :
    ∀ pair, pair ∉ pairs → answers t.calls pair = [] ∧ t.ttls pair = initial pair := by
  intro pair absent
  have other : pair ≠ held.pair := fun eq => absent (eq ▸ alone.asked)
  rw [touches.calls pair other, touches.ttls pair other]
  exact tracked.elsewhere pair absent

theorem Tracked.settled_others (tracked : Tracked pairs maxRetries initial s)
    (touches : Touches held.pair s t) (alone : Alone pairs s worker held.pair) {result : PairResult}
    (there : result ∈ s.results) : Settled maxRetries (initial result.pair) result
      (answers t.calls result.pair) (t.ttls result.pair) := by
  rw [touches.calls _ (alone.results result there), touches.ttls _ (alone.results result there)]
  exact tracked.settled result there

theorem Tracked.keep (tracked : Tracked pairs maxRetries initial s)
    (found : s.workers[worker]? = some (some held)) (touches : Touches held.pair s t)
    (workers : t.workers = s.workers.set worker (some after)) (results : t.results = s.results)
    (same : after.pair = held.pair) (fits : after.Fits maxRetries (answers t.calls held.pair))
    (cached : t.ttls held.pair = s.ttls held.pair) : Tracked pairs maxRetries initial t := by
  have alone := tracked.alone found
  have perm := perm_of_getElem? found
  constructor
  · refine List.Perm.trans ?_ tracked.places
    rw [touches.work, workers, results]
    refine List.Perm.append_left _ (List.Perm.append_right _ ?_)
    refine (heldPairs_perm (perm.2 (some after))).trans ?_
    rw [same]
    exact (heldPairs_perm perm.1).symm
  · exact tracked.waiting_others touches alone
  · intro other there
    rw [workers] at there
    rcases List.mem_cons.1 ((perm.2 (some after)).subset there) with new | old
    · cases Option.some.inj new
      rw [same, cached]
      exact ⟨fits, (tracked.held held (List.mem_of_getElem? found)).2⟩
    · exact tracked.held_others touches alone old
  · intro result there
    rw [results] at there
    exact tracked.settled_others touches alone there
  · exact tracked.elsewhere_others touches alone

theorem Tracked.finish (tracked : Tracked pairs maxRetries initial s)
    (found : s.workers[worker]? = some (some held)) (touches : Touches held.pair s t) {result : PairResult}
    (workers : t.workers = s.workers.set worker none) (results : t.results = s.results ++ [result])
    (same : result.pair = held.pair)
    (settled : Settled maxRetries (initial held.pair) result (answers t.calls held.pair) (t.ttls held.pair)) :
    Tracked pairs maxRetries initial t := by
  have alone := tracked.alone found
  have perm := perm_of_getElem? found
  constructor
  · refine List.Perm.trans ?_ tracked.places
    rw [touches.work, workers, results, List.map_append, List.map_singleton, same]
    refine List.Perm.append_left _ ?_
    have before := heldPairs_perm perm.1
    have freed := heldPairs_perm_none (perm.2 none)
    calc (heldPairs (s.workers.set worker none) ++ (s.results.map (·.pair) ++ [held.pair])).Perm
          (heldPairs (s.workers.eraseIdx worker) ++ (held.pair :: s.results.map (·.pair))) :=
            freed.append (List.perm_append_singleton _ _)
      List.Perm _ (held.pair :: heldPairs (s.workers.eraseIdx worker) ++ s.results.map (·.pair)) :=
            List.perm_middle
      List.Perm _ (heldPairs s.workers ++ s.results.map (·.pair)) := before.symm.append_right _
  · exact tracked.waiting_others touches alone
  · intro other there
    rw [workers] at there
    rcases List.mem_cons.1 ((perm.2 none).subset there) with new | old
    · contradiction
    · exact tracked.held_others touches alone old
  · intro other there
    rw [results] at there
    rcases List.mem_append.1 there with old | new
    · exact tracked.settled_others touches alone old
    · rw [List.mem_singleton.1 new, same]
      exact settled
  · exact tracked.elsewhere_others touches alone

theorem Failing.append {earlier : List PairWarmOutcome} {attempts : Nat} {outcome : PairWarmOutcome}
    (failing : Failing earlier attempts) (failed : outcome.ttl = none) :
    Failing (earlier ++ [outcome]) (attempts + 1) where
  length := by rw [List.length_append, failing.length, List.length_singleton]
  failed := by
    intro other there
    rcases List.mem_append.1 there with old | new
    · exact failing.failed other old
    · rw [List.mem_singleton.1 new, failed]

theorem Tracked.decide (tracked : Tracked pairs maxRetries initial s)
    (found : s.workers[worker]? = some (some held)) {outcome : PairWarmOutcome}
    (stage : held.stage = .deciding outcome) (now : ℚ) :
    Tracked pairs maxRetries initial (s.decide maxRetries worker held outcome now) := by
  obtain ⟨⟨few, fits⟩, cached⟩ := tracked.held held (List.mem_of_getElem? found)
  rw [stage] at fits
  obtain ⟨earlier, split, failing⟩ := fits
  unfold State.decide
  cases warmed : outcome.ttl with
  | some ttl =>
      refine tracked.finish found ?_ rfl rfl rfl ?_
      · exact ⟨rfl, fun _ _ => rfl, fun other apart => recordWarmedPair_other apart⟩
      · refine .warmed earlier outcome ttl now rfl split warmed ?_ (failing.length ▸ few) ?_
        · exact ⟨rfl, failing.failed⟩
        · have entry := recordWarmedPair_self s.ttls held.pair ttl now
          rw [cached] at entry
          exact entry.trans (by cases initial held.pair <;> rfl)
  | none =>
      have failed : Failing (answers s.calls held.pair) (held.attempt + 1) := split ▸ failing.append warmed
      dsimp only
      split
      · rename_i again
        exact tracked.keep found ⟨rfl, fun _ _ => rfl, fun _ _ => rfl⟩ rfl rfl rfl ⟨again, failed⟩ rfl
      · rename_i spent
        have last : held.attempt = maxRetries := le_antisymm few (not_lt.1 spent)
        refine tracked.finish found ⟨rfl, fun _ _ => rfl, fun _ _ => rfl⟩ rfl rfl rfl ?_
        exact .exhausted rfl (last ▸ failed) cached

theorem Tracked.move (tracked : Tracked pairs maxRetries initial s)
    (found : s.workers[worker]? = some (some held)) (turn : Turn) :
    Tracked pairs maxRetries initial (s.move maxRetries worker held turn) := by
  have fits := (tracked.held held (List.mem_of_getElem? found)).1
  unfold Held.Fits at fits
  cases turn with
  | take => exact tracked
  | enter =>
      unfold State.move
      dsimp only
      split
      · rename_i stage
        rw [stage] at fits
        exact tracked.keep found ⟨rfl, fun _ _ => rfl, fun _ _ => rfl⟩ rfl rfl rfl fits rfl
      · exact tracked
  | send =>
      unfold State.move
      dsimp only
      split
      · rename_i stage
        rw [stage] at fits
        exact tracked.keep found ⟨rfl, fun _ _ => rfl, fun _ _ => rfl⟩ rfl rfl rfl fits rfl
      · exact tracked
  | answer outcome =>
      unfold State.move
      dsimp only
      split
      · rename_i stage
        rw [stage] at fits
        refine tracked.keep found ⟨rfl, ?_, fun _ _ => rfl⟩ rfl rfl rfl ⟨fits.1, ?_⟩ rfl
        · intro other apart
          exact (answers_append ..).trans (if_neg apart.symm)
        · exact ⟨_, (answers_append ..).trans (if_pos rfl), fits.2⟩
      · exact tracked
  | leave =>
      unfold State.move
      dsimp only
      split
      · rename_i stage
        rw [stage] at fits
        exact tracked.keep found ⟨rfl, fun _ _ => rfl, fun _ _ => rfl⟩ rfl rfl rfl fits rfl
      · exact tracked
  | decide now =>
      unfold State.move
      dsimp only
      split
      · rename_i stage
        exact tracked.decide found stage now
      · exact tracked

/-- Every step is nothing, a worker that takes the next pair, or a move of a worker that has one. -/
theorem step_cases (maxRetries : Nat) (s : State) (label : Label) :
    s.step maxRetries label = s ∨
      (∃ pair rest, s.workers[label.worker]? = some none ∧ s.work = pair :: rest ∧
        s.step maxRetries label =
          { s.put label.worker (some ⟨pair, 0, none, .attempting⟩) with work := rest }) ∨
      ∃ held, s.workers[label.worker]? = some (some held) ∧
        s.step maxRetries label = s.move maxRetries label.worker held label.turn := by
  unfold State.step
  split
  · rename_i pair rest found _ next
    exact Or.inr (Or.inl ⟨pair, rest, found, next, rfl⟩)
  · rename_i held found
    exact Or.inr (Or.inr ⟨held, found, rfl⟩)
  · exact Or.inl rfl

theorem tracked_step (tracked : Tracked pairs maxRetries initial s) (label : Label) :
    Tracked pairs maxRetries initial (s.step maxRetries label) := by
  rcases step_cases maxRetries s label with same | ⟨pair, rest, found, next, taken⟩ | ⟨held, found, moved⟩
  · rw [same]
    exact tracked
  · rw [taken]
    exact tracked.take found next
  · rw [moved]
    exact tracked.move found label.turn

/-! ## The counters -/

structure Counted (size : Nat) (s : State) : Prop where
  size : s.workers.length = size
  inFlight : s.inFlight = inFlightSends s
  sent : s.calls.length = s.queriesSent + s.workers.countP (·.any Held.uncounted)
  below : s.inFlight ≤ s.maxConcurrency

variable {size : Nat}

theorem countP_set_add {α : Type*} (p : α → Bool) {xs : List α} {i : Nat} {x : α} (found : xs[i]? = some x)
    (y : α) : (xs.set i y).countP p + (p x).toNat = xs.countP p + (p y).toNat := by
  obtain ⟨before, after⟩ := perm_of_getElem? found
  rw [before.countP_eq, (after y).countP_eq, List.countP_cons, List.countP_cons]
  cases p x <;> cases p y <;> simp

theorem counted_start (pairs : List Pair) (concurrency : Int) (initial : PairTtlCache) :
    Counted (workerCount pairs concurrency) (State.start pairs concurrency initial) where
  size := List.length_replicate
  inFlight := by
    simp only [inFlightSends, State.start, List.countP_replicate, Option.any_none, Bool.false_eq_true, if_false]
  sent := by
    simp only [State.start, List.countP_replicate, Option.any_none, Bool.false_eq_true, if_false]
    rfl
  below := le_rfl

/-- A worker whose counters do not see the difference. -/
theorem Counted.put (counted : Counted size s) {old new : Option Held}
    (found : s.workers[worker]? = some old) (flight : new.any Held.counted = old.any Held.counted)
    (answered : new.any Held.uncounted = old.any Held.uncounted) : Counted size (s.put worker new) where
  size := List.length_set.trans counted.size
  inFlight := by
    have same := countP_set_add (·.any Held.counted) found new
    rw [flight, Nat.add_right_cancel_iff] at same
    exact counted.inFlight.trans same.symm
  sent := by
    have same := countP_set_add (·.any Held.uncounted) found new
    rw [answered, Nat.add_right_cancel_iff] at same
    exact counted.sent.trans (congrArg (s.queriesSent + ·) same.symm)
  below := counted.below

theorem Counted.decide (counted : Counted size s) (found : s.workers[worker]? = some (some held))
    {outcome : PairWarmOutcome} (stage : held.stage = .deciding outcome) (now : ℚ) :
    Counted size (s.decide maxRetries worker held outcome now) := by
  have flight : held.counted = false := by rw [Held.counted, stage]
  have answered : held.uncounted = false := by rw [Held.uncounted, stage]
  have freed : Counted size (s.put worker none) := counted.put found flight.symm answered.symm
  unfold State.decide
  split
  · exact ⟨freed.size, freed.inFlight, freed.sent, freed.below⟩
  · dsimp only
    split
    · exact counted.put found flight.symm answered.symm
    · exact ⟨freed.size, freed.inFlight, freed.sent, freed.below⟩

theorem Counted.move (counted : Counted size s) (found : s.workers[worker]? = some (some held)) (turn : Turn) :
    Counted size (s.move maxRetries worker held turn) := by
  have flight (new : Held) := countP_set_add (·.any Held.counted) found (some new)
  have answered (new : Held) := countP_set_add (·.any Held.uncounted) found (some new)
  simp only [Option.any_some] at flight answered
  cases turn with
  | take => exact counted
  | enter =>
      unfold State.move
      dsimp only
      split
      · rename_i stage
        have entered := flight { held with stage := .counted }
        have same := answered { held with stage := .counted }
        rw [show held.counted = false by rw [Held.counted, stage]] at entered
        rw [show held.uncounted = false by rw [Held.uncounted, stage]] at same
        refine ⟨List.length_set.trans counted.size, ?_, ?_, le_max_right _ _⟩
        · exact (congrArg (· + 1) counted.inFlight).trans entered.symm
        · exact counted.sent.trans (congrArg (s.queriesSent + ·) same.symm)
      · exact counted
  | send =>
      unfold State.move
      dsimp only
      split
      · rename_i stage
        apply counted.put found
        · rw [Option.any_some, Option.any_some, Held.counted, Held.counted, stage]
        · rw [Option.any_some, Option.any_some, Held.uncounted, Held.uncounted, stage]
      · exact counted
  | answer outcome =>
      unfold State.move
      dsimp only
      split
      · rename_i stage
        have same := flight { held with stage := .answered outcome }
        have more := answered { held with stage := .answered outcome }
        rw [show held.counted = true by rw [Held.counted, stage]] at same
        rw [show held.uncounted = false by rw [Held.uncounted, stage]] at more
        refine ⟨List.length_set.trans counted.size, ?_, ?_, counted.below⟩
        · exact counted.inFlight.trans (Nat.add_right_cancel same).symm
        · rw [List.length_append, counted.sent, List.length_singleton, Nat.add_assoc]
          exact congrArg (s.queriesSent + ·) more.symm
      · exact counted
  | leave =>
      unfold State.move
      dsimp only
      split
      · rename_i outcome stage
        have left := flight { held with stage := .deciding outcome }
        have fewer := answered { held with stage := .deciding outcome }
        rw [show held.counted = true by rw [Held.counted, stage]] at left
        rw [show held.uncounted = true by rw [Held.uncounted, stage]] at fewer
        refine ⟨List.length_set.trans counted.size, ?_, ?_, (Nat.sub_le _ _).trans counted.below⟩
        · exact Nat.sub_eq_of_eq_add (counted.inFlight.trans left.symm)
        · have sent := counted.sent.trans (congrArg (s.queriesSent + ·) fewer.symm)
          exact sent.trans (by rw [Bool.toNat_true, Nat.add_comm _ 1, ← Nat.add_assoc]; rfl)
      · exact counted
  | decide now =>
      unfold State.move
      dsimp only
      split
      · rename_i stage
        exact counted.decide found stage now
      · exact counted

theorem counted_step (maxRetries : Nat) (counted : Counted size s) (label : Label) :
    Counted size (s.step maxRetries label) := by
  rcases step_cases maxRetries s label with same | ⟨pair, rest, found, next, taken⟩ | ⟨held, found, moved⟩
  · rw [same]
    exact counted
  · rw [taken]
    have taking : Counted size (s.put label.worker (some ⟨pair, 0, none, .attempting⟩)) :=
      counted.put found rfl rfl
    exact ⟨taking.size, taking.inFlight, taking.sent, taking.below⟩
  · rw [moved]
    exact counted.move found label.turn

/-- The only step that raises the maximum is the one that raises the count above it. -/
theorem step_flight (maxRetries : Nat) (s : State) (label : Label) :
    (s.step maxRetries label).maxConcurrency = s.maxConcurrency ∧
        (s.step maxRetries label).inFlight ≤ s.inFlight ∨
      (s.step maxRetries label).maxConcurrency =
        max s.maxConcurrency (s.step maxRetries label).inFlight := by
  rcases step_cases maxRetries s label with same | ⟨pair, rest, -, -, taken⟩ | ⟨held, -, moved⟩
  · rw [same]
    exact Or.inl ⟨rfl, le_rfl⟩
  · rw [taken]
    exact Or.inl ⟨rfl, le_rfl⟩
  · rw [moved]
    unfold State.move
    split
    · split
      · exact Or.inr rfl
      · exact Or.inl ⟨rfl, le_rfl⟩
    · split <;> exact Or.inl ⟨rfl, le_rfl⟩
    · split <;> exact Or.inl ⟨rfl, le_rfl⟩
    · split
      · exact Or.inl ⟨rfl, Nat.sub_le _ _⟩
      · exact Or.inl ⟨rfl, le_rfl⟩
    · split
      · unfold State.decide
        split
        · exact Or.inl ⟨rfl, le_rfl⟩
        · dsimp only
          split <;> exact Or.inl ⟨rfl, le_rfl⟩
      · exact Or.inl ⟨rfl, le_rfl⟩
    · exact Or.inl ⟨rfl, le_rfl⟩

theorem maxConcurrency_run (counted : Counted size s) (run : List Label) :
    s.maxConcurrency ≤ (run.foldl (State.step maxRetries) s).maxConcurrency ∧
      (∀ u ∈ visited (State.step maxRetries) s run,
        inFlightSends u ≤ (run.foldl (State.step maxRetries) s).maxConcurrency) ∧
      ((run.foldl (State.step maxRetries) s).maxConcurrency = s.maxConcurrency ∨
        ∃ u ∈ visited (State.step maxRetries) s run,
          inFlightSends u = (run.foldl (State.step maxRetries) s).maxConcurrency) := by
  induction run generalizing s with
  | nil =>
      refine ⟨le_rfl, fun u here => ?_, Or.inl rfl⟩
      rw [List.mem_singleton.1 here, ← counted.inFlight]
      exact counted.below
  | cons label rest ih =>
      have next := counted_step maxRetries counted label
      obtain ⟨grown, bounded, reached⟩ := ih next
      have grows : s.maxConcurrency ≤ (s.step maxRetries label).maxConcurrency := by
        rcases step_flight maxRetries s label with ⟨same, -⟩ | raised
        · exact same.ge
        · exact raised ▸ le_max_left _ _
      refine ⟨grows.trans grown, ?_, ?_⟩
      · intro u member
        rcases List.mem_cons.1 member with rfl | later
        · rw [← counted.inFlight]
          exact counted.below.trans (grows.trans grown)
        · exact bounded u later
      · rcases reached with kept | ⟨u, later, same⟩
        · rcases step_flight maxRetries s label with ⟨same, -⟩ | raised
          · exact Or.inl (kept.trans same)
          · rcases max_choice s.maxConcurrency (s.step maxRetries label).inFlight with old | new
            · exact Or.inl (kept.trans (raised.trans old))
            · refine Or.inr ⟨s.step maxRetries label, List.mem_cons_of_mem _ (mem_visited_self _ _), ?_⟩
              rw [← next.inFlight]
              exact (kept.trans (raised.trans new)).symm
        · exact Or.inr ⟨u, List.mem_cons_of_mem _ later, same⟩

/-! ## The end of a burst -/

def Stage.left : Stage → Nat
  | attempting => 5
  | counted => 4
  | sending => 3
  | answered _ => 2
  | deciding _ => 1

def Held.remaining (maxRetries : Nat) (held : Held) : Nat :=
  (maxRetries - held.attempt) * 5 + held.stage.left

/-- The steps that are left at most. -/
def remaining (maxRetries : Nat) (s : State) : Nat :=
  s.work.length * (maxRetries * 5 + 6) + (s.workers.map (·.elim 0 (Held.remaining maxRetries))).sum

theorem remaining_put (maxRetries : Nat) {old : Option Held} (found : s.workers[worker]? = some old)
    (new : Option Held) :
    remaining maxRetries (s.put worker new) + old.elim 0 (Held.remaining maxRetries) =
      remaining maxRetries s + new.elim 0 (Held.remaining maxRetries) := by
  obtain ⟨before, after⟩ := perm_of_getElem? found
  have sums := ((after new).map (·.elim 0 (Held.remaining maxRetries))).sum_eq
  have sum := (before.map (·.elim 0 (Held.remaining maxRetries))).sum_eq
  simp only [List.map_cons, List.sum_cons] at sums sum
  simp only [remaining, State.put, sums, sum]
  omega

theorem remaining_take (maxRetries : Nat) {pair : Pair} {rest : List Pair}
    (found : s.workers[worker]? = some none) (next : s.work = pair :: rest) :
    remaining maxRetries { s.put worker (some ⟨pair, 0, none, .attempting⟩) with work := rest } <
      remaining maxRetries s := by
  have moved := remaining_put maxRetries found (some ⟨pair, 0, none, .attempting⟩)
  simp only [remaining, State.put, next, List.length_cons, Option.elim_some, Option.elim_none, Held.remaining,
    Stage.left, Nat.sub_zero, Nat.add_mul, Nat.one_mul] at moved ⊢
  omega

theorem remaining_stage (maxRetries : Nat) (found : s.workers[worker]? = some (some held)) {stage : Stage}
    (less : stage.left < held.stage.left) :
    remaining maxRetries (s.put worker (some { held with stage := stage })) < remaining maxRetries s := by
  have moved := remaining_put maxRetries found (some { held with stage := stage })
  simp only [Option.elim_some, Held.remaining] at moved
  omega

theorem remaining_decide (maxRetries : Nat) (found : s.workers[worker]? = some (some held))
    {outcome : PairWarmOutcome} (stage : held.stage = .deciding outcome) (now : ℚ) :
    remaining maxRetries (s.decide maxRetries worker held outcome now) < remaining maxRetries s := by
  have freed := remaining_put maxRetries found none
  have again := remaining_put maxRetries found
    (some ⟨held.pair, held.attempt + 1, orError outcome.error held.error, .attempting⟩)
  simp only [Option.elim_some, Option.elim_none, Held.remaining, stage, Stage.left] at freed again
  have less : remaining maxRetries (s.put worker none) < remaining maxRetries s := by omega
  unfold State.decide
  split
  · exact less
  · dsimp only
    split
    · omega
    · exact less

theorem move_remaining (maxRetries : Nat) (found : s.workers[worker]? = some (some held)) (turn : Turn) :
    s.move maxRetries worker held turn = s ∨
      remaining maxRetries (s.move maxRetries worker held turn) < remaining maxRetries s := by
  have advance (stage next : Stage) (now : held.stage = stage) (less : next.left < stage.left) :
      remaining maxRetries (s.put worker (some { held with stage := next })) < remaining maxRetries s :=
    remaining_stage maxRetries found (by rw [now]; exact less)
  unfold State.move
  split
  · split
    · rename_i stage
      exact Or.inr (advance _ .counted stage (by decide))
    · exact Or.inl rfl
  · split
    · rename_i stage
      exact Or.inr (advance _ .sending stage (by decide))
    · exact Or.inl rfl
  · split
    · rename_i outcome _ stage
      exact Or.inr (advance _ (.answered outcome) stage (Nat.lt_succ_self 2))
    · exact Or.inl rfl
  · split
    · rename_i outcome stage
      exact Or.inr (advance _ (.deciding outcome) stage (Nat.lt_succ_self 1))
    · exact Or.inl rfl
  · split
    · rename_i stage
      exact Or.inr (remaining_decide maxRetries found stage _)
    · exact Or.inl rfl
  · exact Or.inl rfl

/-- Whatever stage a worker is in, it has a turn that brings the end nearer. -/
theorem exists_turn (maxRetries : Nat) (found : s.workers[worker]? = some (some held)) :
    ∃ turn, remaining maxRetries (s.move maxRetries worker held turn) < remaining maxRetries s := by
  have advance (next : Stage) (less : next.left < held.stage.left) :
      remaining maxRetries (s.put worker (some { held with stage := next })) < remaining maxRetries s :=
    remaining_stage maxRetries found less
  cases stage : held.stage with
  | attempting =>
      refine ⟨.enter, ?_⟩
      rw [State.move, stage]
      exact advance .counted (by rw [stage]; decide)
  | counted =>
      refine ⟨.send, ?_⟩
      rw [State.move, stage]
      exact advance .sending (by rw [stage]; decide)
  | sending =>
      refine ⟨.answer ⟨none, none⟩, ?_⟩
      rw [State.move, stage]
      exact advance (.answered ⟨none, none⟩) (by rw [stage]; decide)
  | answered outcome =>
      refine ⟨.leave, ?_⟩
      rw [State.move, stage]
      exact advance (.deciding outcome) (by rw [stage]; exact Nat.lt_succ_self 1)
  | deciding outcome =>
      refine ⟨.decide 0, ?_⟩
      rw [State.move, stage]
      exact remaining_decide maxRetries found stage 0

theorem step_remaining (maxRetries : Nat) (s : State) (label : Label) :
    s.step maxRetries label = s ∨
      remaining maxRetries (s.step maxRetries label) < remaining maxRetries s := by
  rcases step_cases maxRetries s label with same | ⟨pair, rest, found, next, taken⟩ | ⟨held, found, moved⟩
  · exact Or.inl same
  · rw [taken]
    exact Or.inr (remaining_take maxRetries found next)
  · rw [moved]
    exact move_remaining maxRetries found label.turn

theorem exists_step (maxRetries : Nat) (some_ : 0 < s.workers.length) (unfinished : ¬ s.Finished) :
    ∃ label, remaining maxRetries (s.step maxRetries label) < remaining maxRetries s := by
  by_cases busy : ∃ held, some held ∈ s.workers
  · obtain ⟨held, member⟩ := busy
    obtain ⟨worker, found⟩ := List.mem_iff_getElem?.1 member
    obtain ⟨turn, less⟩ := exists_turn maxRetries found
    refine ⟨⟨worker, turn⟩, ?_⟩
    simp only [State.step, found]
    exact less
  · have idle : ∀ other ∈ s.workers, other = none := by
      intro other member
      cases other with
      | none => rfl
      | some held => exact absurd ⟨held, member⟩ busy
    cases next : s.work with
    | nil => exact absurd ⟨next, idle⟩ unfinished
    | cons pair rest =>
        have found : s.workers[0]? = some none := by
          rw [List.getElem?_eq_getElem some_, idle _ (List.getElem_mem some_)]
        refine ⟨⟨0, .take⟩, ?_⟩
        simp only [State.step, found, next]
        exact remaining_take maxRetries found next

/-- Every run can go on to the end, and no run can go on for longer than `remaining`. -/
theorem exists_finish (maxRetries : Nat) (counted : Counted size s) (positive : 0 < size) :
    ∃ rest : List Label, (rest.foldl (State.step maxRetries) s).Finished := by
  induction left : remaining maxRetries s using Nat.strong_induction_on generalizing s with
  | _ n ih =>
      by_cases finished : s.Finished
      · exact ⟨[], finished⟩
      · obtain ⟨label, less⟩ := exists_step maxRetries (counted.size ▸ positive) finished
        obtain ⟨rest, ends⟩ := ih _ (left ▸ less) (counted_step maxRetries counted label) rfl
        exact ⟨label :: rest, ends⟩

/-! ## What is returned -/

structure Accounted (pairs : List Pair) (maxRetries : Nat) (initial : PairTtlCache) (s : State) : Prop where
  attempted : (s.stats pairs).attemptedPairs = pairs.toFinset.card
  split : (s.stats pairs).attemptedPairs = (s.stats pairs).succeeded + (s.stats pairs).failed
  sent : (s.stats pairs).queriesSent = s.calls.length
  bounded : (s.stats pairs).queriesSent ≤ (s.stats pairs).attemptedPairs * (maxRetries + 1)
  results : (s.results.map (·.pair)).Perm (fromkeys pairs)
  ok : ∀ result ∈ s.results, result.ok = (answers s.calls result.pair).any (·.ttl.isSome)
  succeeded : (s.stats pairs).succeeded =
    (fromkeys pairs).countP fun pair => (answers s.calls pair).any (·.ttl.isSome)
  last : ∀ pair, ∀ outcome ∈ (answers s.calls pair).dropLast, outcome.ttl = none
  warmed : ∀ pair, ∀ outcome ∈ answers s.calls pair, ∀ ttl, outcome.ttl = some ttl →
    ∃ now, s.ttls pair = recorded (initial pair) ttl now
  kept : ∀ pair, (∀ outcome ∈ answers s.calls pair, outcome.ttl = none) → s.ttls pair = initial pair

theorem length_fromkeys (pairs : List Pair) : (fromkeys pairs).length = pairs.toFinset.card := by
  rw [← List.toFinset_card_of_nodup (fromkeys_nodup pairs)]
  congr 1
  ext pair
  rw [List.mem_toFinset, List.mem_toFinset, mem_fromkeys]

/-- Entries under known keys, and few under each of them. -/
theorem length_le_card_mul {α β : Type*} [DecidableEq α] {entries : List (α × β)} {keys : List α} {n : Nat}
    (known : ∀ entry ∈ entries, entry.1 ∈ keys)
    (few : ∀ key, (entries.filter (·.1 = key)).length ≤ n) : entries.length ≤ keys.toFinset.card * n := by
  have within : (entries.map (·.1)).toFinset ⊆ keys.toFinset := by
    intro key member
    obtain ⟨entry, there, rfl⟩ := List.mem_map.1 (List.mem_toFinset.1 member)
    exact List.mem_toFinset.2 (known entry there)
  have count (key : α) : (entries.map (·.1)).count key = (entries.filter (·.1 = key)).length := by
    rw [List.count, List.countP_map, List.countP_eq_length_filter]
    rfl
  calc entries.length = (entries.map (·.1)).length := (List.length_map _).symm
    _ = ∑ key ∈ (entries.map (·.1)).toFinset, (entries.map (·.1)).count key :=
        (List.sum_toFinset_count_eq_length _).symm
    _ ≤ (entries.map (·.1)).toFinset.card * n :=
        Finset.sum_le_card_nsmul _ _ _ fun key _ => (count key).trans_le (few key)
    _ ≤ keys.toFinset.card * n := Nat.mul_le_mul_right _ (Finset.card_le_card within)

variable {result : PairResult} {outcomes : List PairWarmOutcome} {old cached : Option PairTTL}

theorem Settled.length (settled : Settled maxRetries old result outcomes cached) :
    outcomes.length ≤ maxRetries + 1 := by
  cases settled with
  | warmed earlier outcome ttl now ok split found failing few entry =>
      rw [split, List.length_append]
      exact Nat.succ_le_succ few
  | exhausted failed failing entry => exact failing.length.le

theorem Settled.ok (settled : Settled maxRetries old result outcomes cached) :
    result.ok = outcomes.any (·.ttl.isSome) := by
  cases settled with
  | warmed earlier outcome ttl now ok split found failing few entry =>
      rw [ok, split, List.any_append, List.any_cons, found, Option.isSome_some, Bool.true_or, Bool.or_true]
  | exhausted failed failing entry =>
      rw [failed, eq_comm, List.any_eq_false]
      intro outcome member
      rw [failing.failed outcome member]
      exact Bool.false_ne_true

theorem Settled.last (settled : Settled maxRetries old result outcomes cached) :
    ∀ outcome ∈ outcomes.dropLast, outcome.ttl = none := by
  cases settled with
  | warmed earlier outcome ttl now ok split found failing few entry =>
      rw [split, List.dropLast_concat]
      exact failing.failed
  | exhausted failed failing entry =>
      exact fun outcome member => failing.failed outcome (List.mem_of_mem_dropLast member)

theorem Settled.warmed_entry (settled : Settled maxRetries old result outcomes cached) :
    ∀ outcome ∈ outcomes, ∀ ttl, outcome.ttl = some ttl → ∃ now, cached = recorded old ttl now := by
  intro outcome member ttl warm
  cases settled with
  | warmed earlier last ttl' now ok split found failing few entry =>
      rw [split] at member
      rcases List.mem_append.1 member with before | here
      · rw [failing.failed outcome before] at warm
        contradiction
      · rw [List.mem_singleton.1 here, found, Option.some.injEq] at warm
        exact ⟨now, warm ▸ entry⟩
  | exhausted failed failing entry =>
      rw [failing.failed outcome member] at warm
      contradiction

theorem Settled.kept (settled : Settled maxRetries old result outcomes cached)
    (cold : ∀ outcome ∈ outcomes, outcome.ttl = none) : cached = old := by
  cases settled with
  | warmed earlier outcome ttl now ok split found failing few entry =>
      have none := cold outcome (by rw [split]; exact List.mem_append_right _ (List.mem_singleton_self _))
      rw [found] at none
      contradiction
  | exhausted failed failing entry => exact entry

/-- At the end a pair has a result, or nobody asked for it. -/
theorem Tracked.ended (tracked : Tracked pairs maxRetries initial s) (finished : s.Finished) :
    (s.results.map (·.pair)).Perm (fromkeys pairs) ∧ ∀ pair,
      (answers s.calls pair = [] ∧ s.ttls pair = initial pair) ∨
        ∃ result, Settled maxRetries (initial pair) result (answers s.calls pair) (s.ttls pair) := by
  have free : heldPairs s.workers = [] :=
    List.filterMap_eq_nil_iff.2 fun worker member => by rw [finished.2 worker member]; rfl
  have places := tracked.places
  rw [finished.1, free] at places
  refine ⟨places, fun pair => ?_⟩
  by_cases asked : pair ∈ pairs
  · obtain ⟨result, member, rfl⟩ := List.mem_map.1 (places.symm.subset (mem_fromkeys.2 asked))
    exact Or.inr ⟨result, tracked.settled result member⟩
  · exact Or.inl (tracked.elsewhere pair asked)

theorem Tracked.few (tracked : Tracked pairs maxRetries initial s) (finished : s.Finished) :
    s.calls.length ≤ pairs.toFinset.card * (maxRetries + 1) := by
  obtain ⟨-, each⟩ := tracked.ended finished
  apply length_le_card_mul
  · intro call member
    by_contra absent
    have none := (tracked.elsewhere call.1 absent).1
    rw [answers, List.map_eq_nil_iff, List.filter_eq_nil_iff] at none
    exact none call member (decide_eq_true rfl)
  · intro pair
    have same : (answers s.calls pair).length = (s.calls.filter (·.1 = pair)).length := List.length_map _
    rw [← same]
    rcases each pair with ⟨none, -⟩ | ⟨result, settled⟩
    · rw [none]
      exact Nat.zero_le _
    · exact settled.length

theorem accounted_of_finished (tracked : Tracked pairs maxRetries initial s) (counted : Counted size s)
    (finished : s.Finished) : Accounted pairs maxRetries initial s := by
  obtain ⟨places, each⟩ := tracked.ended finished
  have sent : s.calls.length = s.queriesSent := by
    have left : s.workers.countP (·.any Held.uncounted) = 0 :=
      List.countP_eq_zero.2 fun worker member => by rw [finished.2 worker member]; exact Bool.false_ne_true
    rw [counted.sent, left, Nat.add_zero]
  have length : s.results.length = (fromkeys pairs).length := by
    rw [← places.length_eq, List.length_map]
  have ok : ∀ result ∈ s.results, result.ok = (answers s.calls result.pair).any (·.ttl.isSome) :=
    fun result member => (tracked.settled result member).ok
  have halves := List.length_eq_length_filter_add (l := s.results) (·.ok)
  constructor
  · exact length_fromkeys pairs
  · have fewer : (s.results.filter (!·.ok)).length ≤ s.results.length := List.length_filter_le _ _
    exact length.symm.trans (Nat.sub_add_cancel fewer).symm
  · exact sent.symm
  · change s.queriesSent ≤ (fromkeys pairs).length * (maxRetries + 1)
    rw [← sent, length_fromkeys]
    exact tracked.few finished
  · exact places
  · exact ok
  · have warm : s.results.countP (·.ok) =
        (fromkeys pairs).countP fun pair => (answers s.calls pair).any (·.ttl.isSome) := by
      rw [← places.countP_eq, List.countP_map]
      exact List.countP_congr fun result member => by rw [ok result member]; rfl
    rw [← warm, List.countP_eq_length_filter]
    exact Nat.sub_eq_of_eq_add halves
  · intro pair
    rcases each pair with ⟨none, -⟩ | ⟨result, settled⟩
    · rw [none]
      exact fun _ => (absurd · List.not_mem_nil)
    · exact settled.last
  · intro pair
    rcases each pair with ⟨none, -⟩ | ⟨result, settled⟩
    · rw [none]
      exact fun _ => (absurd · List.not_mem_nil)
    · exact settled.warmed_entry
  · intro pair cold
    rcases each pair with ⟨-, same⟩ | ⟨result, settled⟩
    · exact same
    · exact settled.kept cold

/-- However the workers take turns and whatever the sends return. -/
theorem burst_accounted (pairs : List Pair) (concurrency : Int) (maxRetries : Nat) (initial : PairTtlCache)
    (run : List Label) :
    let start := State.start pairs concurrency initial
    let final := run.foldl (State.step maxRetries) start
    (∀ s ∈ visited (State.step maxRetries) start run,
        (inFlightSends s : Int) ≤ max 1 (min concurrency pairs.toFinset.card)) ∧
      IsGreatest { n | ∃ s ∈ visited (State.step maxRetries) start run, inFlightSends s = n }
        (final.stats pairs).maxConcurrency ∧
      (final.Finished → Accounted pairs maxRetries initial final) ∧
      (∃ rest : List Label, (rest.foldl (State.step maxRetries) final).Finished) ∧
      ∀ label, final.step maxRetries label = final ∨
        remaining maxRetries (final.step maxRetries label) < remaining maxRetries final := by
  intro start final
  have begun := counted_start pairs concurrency initial
  have counted : ∀ s ∈ visited (State.step maxRetries) start run, Counted (workerCount pairs concurrency) s :=
    visited_of_forall run begun fun s label counted => counted_step maxRetries counted label
  have tracked : Tracked pairs maxRetries initial final :=
    foldl_preserves run (tracked_start pairs concurrency maxRetries initial)
      fun s label tracked => tracked_step tracked label
  have positive : 0 < workerCount pairs concurrency := by
    rw [workerCount, Int.lt_toNat]
    exact lt_of_lt_of_le Int.one_pos (le_max_left _ _)
  have ended := counted final (foldl_mem_visited start run)
  obtain ⟨-, bounded, reached⟩ := maxConcurrency_run begun run
  refine ⟨?_, ⟨?_, ?_⟩, accounted_of_finished tracked ended, exists_finish maxRetries ended positive,
    step_remaining maxRetries final⟩
  · intro s member
    have few : inFlightSends s ≤ workerCount pairs concurrency := (counted s member).size ▸ List.countP_le_length
    rw [workerCount, length_fromkeys] at few
    have size := Int.toNat_of_nonneg (le_trans zero_le_one (le_max_left 1 (min concurrency (pairs.toFinset.card : Int))))
    omega
  · rcases reached with same | ⟨s, member, same⟩
    · exact ⟨start, mem_visited_self _ _, begun.inFlight.symm.trans same.symm⟩
    · exact ⟨s, member, same⟩
  · rintro n ⟨s, member, rfl⟩
    exact bounded s member

end PowerBlockade.Precache.Accounting
