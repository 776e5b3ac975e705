import Mathlib.Tactic.Linarith
import PowerBlockade.Lib.ExpiringCache
import PowerBlockade.Lib.Run
import PowerBlockade.Precache.Pairs

/-!
# Pairs that are skipped as fresh

Clients and warm queries share the cache of the edge. A warm answer is recorded some time after it
arrived, in any order with the others.
-/

namespace PowerBlockade.Precache
open Lib

structure Answered where
  pair : Pair
  ttl : Nat
  arrived : ℚ
deriving DecidableEq

structure Edge where
  now : ℚ
  cache : ExpiringCache Pair ℚ
  ttls : PairTtlCache
  answered : List Answered

/-- For how long the edge keeps an answer that it fetched. -/
def Response.life (response : Response) : ℚ := ((minResponseTtl response).getD 0 : Nat)

/-- The TTL of an answer can be read and, out of the cache, has been lowered to what is left of the
entry, or below. -/
def Serves (cache : ExpiringCache Pair ℚ) (pair : Pair) (now : ℚ) (response : Response) : Prop :=
  (minResponseTtl response).isSome = true ∧
    ∀ expiry, cache pair = some expiry → now < expiry → now + response.life ≤ expiry

namespace Edge

inductive Event
  | client (pair : Pair) (response : Response)
  | warm (pair : Pair) (response : Response)
  | record (answer : Answered)
  | wait

structure Timed where
  time : ℚ
  event : Event

def step (w : Edge) (timed : Timed) : Edge :=
  let w := { w with now := timed.time }
  match timed.event with
  | .client pair response => { w with cache := w.cache.ask pair w.now response.life }
  | .warm pair response =>
      { w with
        cache := w.cache.ask pair w.now response.life
        answered := w.answered ++ ((warmPairEx (.ok response)).ttl.map fun ttl => ⟨pair, ttl, w.now⟩).toList }
  | .record answer =>
      if answer ∈ w.answered then
        { w with
          ttls := recordWarmedPair w.ttls answer.pair answer.ttl w.now
          answered := w.answered.erase answer }
      else w
  | .wait => w

def Valid (w : Edge) (timed : Timed) : Prop :=
  w.now ≤ timed.time ∧ match timed.event with
    | .client pair response | .warm pair response => Serves w.cache pair timed.time response
    | .record answer => timed.time < answer.arrived + 30
    | .wait => True

def start (cache : ExpiringCache Pair ℚ) (now : ℚ) : Edge := ⟨now, cache, fun _ => none, []⟩

/-! ## What the entries cover -/

structure Covered (w : Edge) : Prop where
  kept : ∀ pair cached, w.ttls pair = some cached → ∃ lastWarmed, cached.lastWarmed = some lastWarmed ∧
    w.cache.Reaches pair (lastWarmed + cached.ttl - 30)
  answered : ∀ answer ∈ w.answered, w.cache.Reaches answer.pair (answer.arrived + answer.ttl)

variable {w : Edge} {pair : Pair} {response : Response}

theorem life_nonneg (response : Response) : 0 ≤ response.life := Nat.cast_nonneg _

theorem Covered.ask (covered : w.Covered) (now : ℚ) (pair : Pair) (response : Response) :
    Covered { w with now := now, cache := w.cache.ask pair now response.life } where
  kept := by
    intro other cached found
    obtain ⟨lastWarmed, warmed, reaches⟩ := covered.kept other cached found
    exact ⟨lastWarmed, warmed, reaches.ask (life_nonneg response)⟩
  answered := fun answer member => (covered.answered answer member).ask (life_nonneg response)

theorem warmed_life {ttl : Nat} (readable : (minResponseTtl response).isSome = true)
    (warmed : (warmPairEx (.ok response)).ttl = some ttl) : response.life = ttl := by
  obtain ⟨least, read⟩ := Option.isSome_iff_exists.mp readable
  by_cases answered : response.rcode = 0
  · simp only [warmPairEx, answered, read, ne_eq, not_true_eq_false, if_false, Option.getD_some,
      Option.some.injEq] at warmed
    simp [Response.life, read, warmed]
  · simp [warmPairEx, answered] at warmed

theorem Covered.record (covered : w.Covered) {answer : Answered} {now : ℚ}
    (member : answer ∈ w.answered) (soon : now < answer.arrived + 30) :
    Covered { w with
      now := now
      ttls := recordWarmedPair w.ttls answer.pair answer.ttl now
      answered := w.answered.erase answer } where
  kept := by
    intro pair cached found
    by_cases same : pair = answer.pair
    · subst same
      have reaches := covered.answered answer member
      dsimp only at found
      rw [recordWarmedPair_self] at found
      cases found
      refine ⟨now, rfl, reaches.mono ?_⟩
      have least : (w.ttls answer.pair).elim answer.ttl (fun cached => min cached.ttl answer.ttl) ≤
          answer.ttl := by
        cases w.ttls answer.pair with
        | none => exact le_rfl
        | some cached => exact min_le_right _ _
      have least : (((w.ttls answer.pair).elim answer.ttl fun cached => min cached.ttl answer.ttl : Nat) : ℚ) ≤
          answer.ttl := by exact_mod_cast least
      dsimp only
      linarith
    · dsimp only at found
      rw [recordWarmedPair_other same] at found
      exact covered.kept pair cached found
  answered := fun other left => covered.answered other (List.mem_of_mem_erase left)

theorem covered_start (cache : ExpiringCache Pair ℚ) (now : ℚ) : (start cache now).Covered where
  kept := by simp [start]
  answered := by simp [start]

theorem covered_step (timed : Timed) (covered : w.Covered) (valid : w.Valid timed) :
    (w.step timed).Covered := by
  obtain ⟨time, event⟩ := timed
  obtain ⟨-, valid⟩ := valid
  cases event with
  | client pair response => exact covered.ask time pair response
  | warm pair response =>
      obtain ⟨kept, answered⟩ := covered.ask time pair response
      refine ⟨kept, fun answer member => ?_⟩
      rcases List.mem_append.mp member with old | new
      · exact answered answer old
      · obtain ⟨ttl, warmed, rfl⟩ := Option.map_eq_some_iff.mp (Option.mem_toList.mp new)
        dsimp only [step]
        rw [← warmed_life valid.1 warmed]
        exact ExpiringCache.reaches_ask valid.2
  | record answer =>
      unfold step
      dsimp only
      split
      · rename_i member
        exact covered.record member valid
      · exact ⟨covered.kept, covered.answered⟩
  | wait => exact ⟨covered.kept, covered.answered⟩

theorem Covered.fresh (covered : w.Covered) (customRefreshMinutes : Int)
    (skipped : needsRefresh w.ttls false customRefreshMinutes w.now pair = false) :
    w.cache.fresh pair w.now = true := by
  unfold needsRefresh at skipped
  cases found : w.ttls pair with
  | none => simp [found] at skipped
  | some cached =>
      obtain ⟨lastWarmed, warmed, reaches⟩ := covered.kept pair cached found
      apply reaches.fresh
      have young : w.now - lastWarmed < refreshThreshold false customRefreshMinutes cached.ttl := by
        simpa [found, warmed] using skipped
      have margin : (30 : ℚ) ≤ max ((cached.ttl : ℚ) * (1 / 5)) 30 := le_max_right _ _
      rw [refreshThreshold, if_neg Bool.false_ne_true] at young
      linarith

/-- Whatever the history, a pair that is left out has an unexpired entry at the edge. -/
theorem skipped_pair_fresh (cache : ExpiringCache Pair ℚ) (now : ℚ) (run : List Timed)
    (valid : Along step Valid (start cache now) run) :
    ∀ w ∈ visited step (start cache now) run, ∀ pairs customRefreshMinutes, ∀ pair ∈ pairs,
      pair ∉ getPairsNeedingRefresh w.ttls pairs false customRefreshMinutes w.now →
        w.cache.fresh pair w.now = true := by
  intro w member pairs customRefreshMinutes pair asked skipped
  have covered : w.Covered :=
    visited_invariant (P := Covered) (covered_start cache now) valid
      (fun _ timed covered valid => covered_step timed covered valid) w member
  apply covered.fresh customRefreshMinutes
  simpa [getPairsNeedingRefresh, asked] using skipped

theorem recently_warmed_pair_fresh :
    let pair : Pair := ("example.com", 1)
    let run := [⟨0, .warm pair (answering 300)⟩, ⟨1, .record ⟨pair, 300, 0⟩⟩, ⟨100, .wait⟩]
    let w := run.foldl step (start (fun _ => none) 0)
    getPairsNeedingRefresh w.ttls [pair] false 60 w.now = [] ∧ w.cache.fresh pair w.now = true := by
  intro pair run w
  have skipped : getPairsNeedingRefresh w.ttls [pair] false 60 w.now = [] := by decide +kernel
  refine ⟨skipped, skipped_pair_fresh (fun _ => none) 0 run ?_ w (foldl_mem_visited _ run) [pair] 60 pair
    (List.mem_singleton_self pair) (by rw [skipped]; exact List.not_mem_nil)⟩
  simp [run, Along, Valid, Serves, start, step, answering, minResponseTtl, warmPairEx, pair]

end Edge

end PowerBlockade.Precache
