import Mathlib.Algebra.Order.Ring.Rat
import Mathlib.Logic.Function.Basic
import PowerBlockade.Python

/-!
# Warming one pair

The answers of warm queries, the TTL kept for each pair and the pairs that are due. Times are in
seconds, and `ttl * 0.2` is exact.
-/

namespace PowerBlockade.Precache

/-- A name and a query type. -/
abbrev Pair := String × Int

/-! ## Answers -/

/-- `minimum` is that of a SOA record. -/
structure RRset where
  rdtype : Nat
  ttl : Nat
  minimum : Nat

structure Response where
  rcode : Nat
  answer : List RRset
  authority : List RRset

def answering (ttl : Nat) : Response := ⟨0, [⟨1, ttl, 0⟩], []⟩

def soa : Nat := 6

def minResponseTtl (response : Response) : Option Nat :=
  let ttls := response.answer.map (·.ttl)
  if ttls = [] then
    ((response.authority.filter (·.rdtype = soa)).map fun rrset => min rrset.ttl rrset.minimum).min?
  else ttls.min?

structure PairWarmOutcome where
  ttl : Option Nat
  error : Option String
deriving DecidableEq

def defaultFallbackTtl : Nat := 300

/-- What `dns.query.udp` gave: an answer, or the text of an exception. -/
def warmPairEx : Except String Response → PairWarmOutcome
  | .error e => ⟨none, some (Python.take 200 e)⟩
  | .ok response =>
      if response.rcode ≠ 0 then ⟨none, some s!"rcode {response.rcode}"⟩
      else ⟨some ((minResponseTtl response).getD defaultFallbackTtl), none⟩

/-! ## The TTL cache -/

structure PairTTL where
  ttl : Nat
  lastWarmed : Option ℚ
deriving DecidableEq

abbrev PairTtlCache := Pair → Option PairTTL

def recordWarmedPair (ttls : PairTtlCache) (pair : Pair) (ttl : Nat) (now : ℚ) : PairTtlCache :=
  Function.update ttls pair <| some <| match ttls pair with
    | none => ⟨ttl, some now⟩
    | some cached => ⟨min cached.ttl ttl, some now⟩

def recordOutcome (ttls : PairTtlCache) (pair : Pair) (outcome : PairWarmOutcome) (now : ℚ) : PairTtlCache :=
  outcome.ttl.elim ttls fun ttl => recordWarmedPair ttls pair ttl now

def refreshThreshold (ignoreTtl : Bool) (customRefreshMinutes : Int) (ttl : Nat) : ℚ :=
  if ignoreTtl then customRefreshMinutes * 60 else (ttl : ℚ) - max ((ttl : ℚ) * (1 / 5)) 30

def needsRefresh (ttls : PairTtlCache) (ignoreTtl : Bool) (customRefreshMinutes : Int) (now : ℚ)
    (pair : Pair) : Bool :=
  match ttls pair with
  | none => true
  | some cached => match cached.lastWarmed with
      | none => true
      | some lastWarmed => refreshThreshold ignoreTtl customRefreshMinutes cached.ttl ≤ now - lastWarmed

def getPairsNeedingRefresh (ttls : PairTtlCache) (pairs : List Pair) (ignoreTtl : Bool)
    (customRefreshMinutes : Int) (now : ℚ) : List Pair :=
  pairs.filter (needsRefresh ttls ignoreTtl customRefreshMinutes now)

variable {ttls : PairTtlCache} {pair other : Pair} {ttl : Nat} {now : ℚ}

theorem recordWarmedPair_other (different : other ≠ pair) :
    recordWarmedPair ttls pair ttl now other = ttls other := Function.update_of_ne different _ _

theorem recordWarmedPair_self (ttls : PairTtlCache) (pair : Pair) (ttl : Nat) (now : ℚ) :
    recordWarmedPair ttls pair ttl now pair =
      some ⟨(ttls pair).elim ttl fun cached => min cached.ttl ttl, some now⟩ := by
  unfold recordWarmedPair
  rw [Function.update_self]
  cases ttls pair <;> rfl

theorem recordOutcome_other {outcome : PairWarmOutcome} (different : other ≠ pair) :
    recordOutcome ttls pair outcome now other = ttls other := by
  unfold recordOutcome
  cases outcome.ttl with
  | none => rfl
  | some ttl => exact recordWarmedPair_other different

end PowerBlockade.Precache
