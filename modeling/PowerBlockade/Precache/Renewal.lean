import Mathlib.Algebra.Order.Floor.Semiring
import Mathlib.Data.Rat.Floor
import PowerBlockade.Precache.Freshness

/-!
# Renewing an entry before it expires

The passes of the warming job over time, for one pair. The edge serves an entry with the seconds it
has left and does not renew it.
-/

namespace PowerBlockade.Precache
open Lib

def edgeTtl (cache : ExpiringCache Pair ℚ) (pair : Pair) (now : ℚ) (authoritative : Nat) : Nat :=
  match cache pair with
  | none => authoritative
  | some expiry => if now < expiry then ⌊expiry - now⌋₊ else authoritative

structure Warming where
  now : ℚ
  cache : ExpiringCache Pair ℚ
  ttls : PairTtlCache
  lastPass : ℚ
  pending : List Pair

namespace Warming

inductive Event
  | client (pair : Pair) (authoritative : Nat)
  | pass (selected : List Pair) (maxQueries : Nat)
  | send (authoritative : Nat) (response : Response)
  | wait

structure Timed where
  time : ℚ
  event : Event

def needing (w : Warming) (selected : List Pair) (now : ℚ) : List Pair :=
  getPairsNeedingRefresh w.ttls selected false 60 now

def step (w : Warming) (timed : Timed) : Warming :=
  let w := { w with now := timed.time }
  match timed.event with
  | .client pair authoritative => { w with cache := w.cache.ask pair w.now authoritative }
  | .pass selected maxQueries =>
      { w with lastPass := w.now, pending := (w.needing selected w.now).take maxQueries }
  | .send authoritative response => match w.pending with
      | [] => w
      | pair :: rest =>
          { w with
            cache := w.cache.ask pair w.now authoritative
            ttls := recordOutcome w.ttls pair (warmPairEx (.ok response)) w.now
            pending := rest }
  | .wait => w

def start (cache : ExpiringCache Pair ℚ) (now : ℚ) : Warming := ⟨now, cache, fun _ => none, now, []⟩

variable (pair : Pair) (T : Nat) (p : ℚ)

/-- A pass begins at most `p` after the one before, which has sent what it selected by then. The pair
is among what each pass selects and its answers carry the TTL that the edge gives it. -/
def Valid (w : Warming) (timed : Timed) : Prop :=
  w.now ≤ timed.time ∧ timed.time ≤ w.lastPass + p ∧ match timed.event with
    | .client asked authoritative => asked = pair → authoritative = T
    | .pass selected maxQueries =>
        w.pending = [] ∧ selected.Nodup ∧ pair ∈ selected ∧
          (pair ∈ w.needing selected timed.time →
            pair ∈ (w.needing selected timed.time).take maxQueries)
    | .send authoritative response => w.pending.head? = some pair → authoritative = T ∧
        response.rcode = 0 ∧ minResponseTtl response = some (edgeTtl w.cache pair timed.time T)
    | .wait => True

instance (w : Warming) (timed : Timed) : Decidable (w.Valid pair T p timed) :=
  match timed with
  | ⟨time, .client asked authoritative⟩ =>
      inferInstanceAs (Decidable (_ ∧ time ≤ w.lastPass + p ∧ (asked = pair → authoritative = T)))
  | ⟨time, .pass selected _⟩ =>
      inferInstanceAs (Decidable (_ ∧ time ≤ w.lastPass + p ∧ _ ∧ selected.Nodup ∧ pair ∈ selected ∧ (_ → _)))
  | ⟨time, .send authoritative response⟩ =>
      inferInstanceAs (Decidable (_ ∧ time ≤ w.lastPass + p ∧ (_ → authoritative = T ∧
        response.rcode = 0 ∧ _)))
  | ⟨time, .wait⟩ => inferInstanceAs (Decidable (_ ∧ time ≤ w.lastPass + p ∧ True))

/-- A warmed pair has an unexpired entry and the TTL of the authority, so it is due 0.8 of it after
the last time. -/
def Renewed (w : Warming) : Prop :=
  ∀ cached, w.ttls pair = some cached → w.cache.fresh pair w.now = true ∧ cached.ttl = T ∧
    ∃ lastWarmed, cached.lastWarmed = some lastWarmed ∧
      ∀ later, needsRefresh w.ttls false 60 later pair = true → lastWarmed + T * (4 / 5) ≤ later

/-- The first warm query meets no entry that has aged, and no pass comes 0.8 of the TTL or more after
the pair was warmed. -/
def Undisturbed (w : Warming) (timed : Timed) : Prop :=
  match timed.event with
  | .send _ _ => w.pending.head? = some pair →
      ∀ expiry ∈ w.cache pair, timed.time < expiry → expiry = timed.time + T
  | .pass _ _ => ∀ cached ∈ w.ttls pair, ∀ lastWarmed ∈ cached.lastWarmed,
      timed.time < lastWarmed + T * (4 / 5)
  | _ => True

instance (w : Warming) (timed : Timed) : Decidable (w.Undisturbed pair T timed) :=
  match timed with
  | ⟨_, .client _ _⟩ | ⟨_, .wait⟩ => inferInstanceAs (Decidable True)
  | ⟨time, .pass _ _⟩ => inferInstanceAs (Decidable (∀ cached ∈ w.ttls pair,
      ∀ lastWarmed ∈ cached.lastWarmed, time < lastWarmed + T * (4 / 5)))
  | ⟨time, .send _ _⟩ => inferInstanceAs (Decidable (w.pending.head? = some pair →
      ∀ expiry ∈ w.cache pair, time < expiry → expiry = time + T))

/-! ## The entry that the first warm query leaves -/

structure Held (w : Warming) : Prop where
  warmed : ∀ cached, w.ttls pair = some cached → pair ∉ w.pending ∧ cached.ttl = T ∧
    ∃ lastWarmed, cached.lastWarmed = some lastWarmed ∧ w.cache pair = some (lastWarmed + T) ∧
      w.lastPass < lastWarmed + T * (4 / 5)
  distinct : w.pending.Nodup
  begun : w.lastPass ≤ w.now
  inTime : w.now ≤ w.lastPass + p

variable {pair : Pair} {T : Nat} {p : ℚ} {w : Warming}

theorem refreshThreshold_of_long (long : 150 ≤ T) : refreshThreshold false 60 T = T * (4 / 5) := by
  have long : (150 : ℚ) ≤ T := by exact_mod_cast long
  have margin : max ((T : ℚ) * (1 / 5)) 30 = T * (1 / 5) := max_eq_left (by linarith)
  rw [refreshThreshold, if_neg Bool.false_ne_true, margin]
  ring

theorem needsRefresh_iff {ttls : PairTtlCache} {cached : PairTTL} {lastWarmed later : ℚ}
    (long : 150 ≤ T) (found : ttls pair = some cached) (warmed : cached.lastWarmed = some lastWarmed)
    (kept : cached.ttl = T) :
    needsRefresh ttls false 60 later pair = true ↔ lastWarmed + T * (4 / 5) ≤ later := by
  simp only [needsRefresh, found, warmed, kept, refreshThreshold_of_long long, decide_eq_true_eq]
  constructor <;> intro le <;> linarith

theorem edgeTtl_of_unaged {cache : ExpiringCache Pair ℚ} {now : ℚ}
    (unaged : ∀ expiry, cache pair = some expiry → now < expiry → expiry = now + T) :
    edgeTtl cache pair now T = T := by
  unfold edgeTtl
  cases found : cache pair with
  | none => rfl
  | some expiry =>
      dsimp only
      split
      · rename_i before
        simp [unaged expiry found before]
      · rfl

theorem ask_of_unaged {cache : ExpiringCache Pair ℚ} {now : ℚ}
    (unaged : ∀ expiry, cache pair = some expiry → now < expiry → expiry = now + T) :
    cache.ask pair now T pair = some (now + T) := by
  cases hit : cache.fresh pair now with
  | true =>
      obtain ⟨expiry, found, before⟩ := ExpiringCache.fresh_iff.mp hit
      rw [ExpiringCache.ask_of_fresh hit, found, unaged expiry found before]
  | false => rw [ExpiringCache.ask_of_not_fresh hit, Function.update_self]

theorem edgeTtl_of_aged {cache : ExpiringCache Pair ℚ} {now expiry : ℚ}
    (found : cache pair = some expiry) (before : now < expiry) (aged : expiry < now + T) :
    edgeTtl cache pair now T < T := by
  simp only [edgeTtl, found, if_pos before]
  rw [Nat.floor_lt (by linarith)]
  linarith

theorem held_start (cache : ExpiringCache Pair ℚ) (now : ℚ) (nonneg : 0 ≤ p) :
    (start cache now).Held pair T p where
  warmed := by simp [start]
  distinct := List.nodup_nil
  begun := le_rfl
  inTime := by simpa [start] using nonneg

theorem Held.fresh (held : w.Held pair T p) (short : p ≤ T * (1 / 5)) {time : ℚ}
    (inTime : time ≤ w.lastPass + p) {cached : PairTTL} (found : w.ttls pair = some cached) :
    w.cache.fresh pair time = true := by
  obtain ⟨-, -, lastWarmed, -, entry, recent⟩ := held.warmed cached found
  exact ExpiringCache.fresh_iff.mpr ⟨_, entry, by linarith⟩

theorem Held.renewed (held : w.Held pair T p) (long : 150 ≤ T) (short : p ≤ T * (1 / 5)) :
    w.Renewed pair T := by
  intro cached found
  obtain ⟨-, kept, lastWarmed, warmed, -, -⟩ := held.warmed cached found
  exact ⟨held.fresh short held.inTime found, kept, lastWarmed, warmed,
    fun later due => (needsRefresh_iff long found warmed kept).mp due⟩

theorem Held.ask (held : w.Held pair T p) (short : p ≤ T * (1 / 5)) {time : ℚ}
    (inTime : time ≤ w.lastPass + p) (other : Pair) (life : ℚ) {cached : PairTTL}
    (found : w.ttls pair = some cached) : w.cache.ask other time life pair = w.cache pair := by
  by_cases same : pair = other
  · subst same
    rw [ExpiringCache.ask_of_fresh (held.fresh short inTime found)]
  · exact ExpiringCache.ask_other same

theorem Held.client (held : w.Held pair T p) (short : p ≤ T * (1 / 5)) {time : ℚ}
    (forward : w.now ≤ time) (inTime : time ≤ w.lastPass + p) (other : Pair) (life : ℚ) :
    Held pair T p { w with now := time, cache := w.cache.ask other time life } where
  warmed := by
    intro cached found
    obtain ⟨left, kept, lastWarmed, warmed, entry, recent⟩ := held.warmed cached found
    exact ⟨left, kept, lastWarmed, warmed, (held.ask short inTime other life found).trans entry, recent⟩
  distinct := held.distinct
  begun := held.begun.trans forward
  inTime := inTime

theorem Held.pass (held : w.Held pair T p) (long : 150 ≤ T) (nonneg : 0 ≤ p) {time : ℚ}
    {selected : List Pair} {maxQueries : Nat} (distinct : selected.Nodup)
    (undisturbed : w.Undisturbed pair T ⟨time, .pass selected maxQueries⟩) :
    (w.step ⟨time, .pass selected maxQueries⟩).Held pair T p where
  warmed := by
    intro cached found
    obtain ⟨-, kept, lastWarmed, warmed, entry, -⟩ := held.warmed cached found
    have early : time < lastWarmed + T * (4 / 5) := undisturbed cached found lastWarmed warmed
    refine ⟨fun member => ?_, kept, lastWarmed, warmed, entry, early⟩
    have due : needsRefresh w.ttls false 60 time pair = true :=
      (List.mem_filter.mp (List.mem_of_mem_take member)).2
    exact (not_le_of_gt early) ((needsRefresh_iff long found warmed kept).mp due)
  distinct := ((List.filter_sublist).nodup distinct).sublist (List.take_sublist _ _)
  begun := le_rfl
  inTime := by simpa [step] using nonneg

theorem recordOutcome_first {ttls : PairTtlCache} {response : Response} {now : ℚ} {ttl : Nat}
    (unknown : ttls pair = none) (noerror : response.rcode = 0)
    (read : minResponseTtl response = some ttl) :
    recordOutcome ttls pair (warmPairEx (.ok response)) now pair = some ⟨ttl, some now⟩ := by
  simp [recordOutcome, warmPairEx, noerror, read, recordWarmedPair_self, unknown]

theorem Held.send (held : w.Held pair T p) (long : 150 ≤ T) (short : p ≤ T * (1 / 5)) {time : ℚ}
    {authoritative : Nat} {response : Response}
    (valid : w.Valid pair T p ⟨time, .send authoritative response⟩)
    (undisturbed : w.Undisturbed pair T ⟨time, .send authoritative response⟩) :
    (w.step ⟨time, .send authoritative response⟩).Held pair T p := by
  obtain ⟨forward, inTime, answered⟩ := valid
  obtain ⟨now, cache, ttls, lastPass, pending⟩ := w
  have begun : lastPass ≤ time := held.begun.trans forward
  cases pending with
  | nil => exact ⟨held.warmed, held.distinct, begun, inTime⟩
  | cons head rest =>
      obtain ⟨absent, distinct⟩ := List.nodup_cons.mp held.distinct
      refine ⟨fun cached found => ?_, distinct, begun, inTime⟩
      by_cases same : head = pair
      · subst same
        obtain ⟨rfl, noerror, read⟩ := answered rfl
        have unaged := undisturbed rfl
        have unknown : ttls head = none := by
          cases known : ttls head with
          | none => rfl
          | some cached => exact absurd List.mem_cons_self (held.warmed cached known).1
        rw [edgeTtl_of_unaged unaged] at read
        dsimp only [step] at found
        rw [recordOutcome_first unknown noerror read] at found
        cases found
        have positive : (0 : ℚ) < authoritative := by exact_mod_cast (show 0 < authoritative by omega)
        exact ⟨absent, rfl, time, rfl, ask_of_unaged unaged, by dsimp only [step]; linarith⟩
      · dsimp only [step] at found
        rw [recordOutcome_other (Ne.symm same)] at found
        obtain ⟨left, kept, lastWarmed, warmed, entry, recent⟩ := held.warmed cached found
        exact ⟨fun member => left (List.mem_cons_of_mem _ member), kept, lastWarmed, warmed,
          (held.ask short inTime head authoritative found).trans entry, recent⟩

theorem held_step (long : 150 ≤ T) (nonneg : 0 ≤ p) (short : p ≤ T * (1 / 5)) (timed : Timed)
    (held : w.Held pair T p) (valid : w.Valid pair T p timed)
    (undisturbed : w.Undisturbed pair T timed) : (w.step timed).Held pair T p := by
  obtain ⟨time, event⟩ := timed
  cases event with
  | client asked authoritative => exact held.client short valid.1 valid.2.1 asked authoritative
  | pass selected maxQueries => exact held.pass long nonneg valid.2.2.2.1 undisturbed
  | send authoritative response => exact held.send long short valid undisturbed
  | wait => exact ⟨held.warmed, held.distinct, held.begun.trans valid.1, valid.2.1⟩

theorem undisturbed_pair_renewed (pair : Pair) (T : Nat) (p : ℚ) (long : 150 ≤ T) (nonneg : 0 ≤ p)
    (short : p ≤ T * (1 / 5)) (cache : ExpiringCache Pair ℚ) (now : ℚ) (run : List Timed)
    (valid : Along step (Valid pair T p) (start cache now) run)
    (undisturbed : Along step (Undisturbed pair T) (start cache now) run) :
    ∀ w ∈ visited step (start cache now) run, w.Renewed pair T := by
  intro w member
  have held : w.Held pair T p :=
    visited_invariant (P := Held pair T p) (held_start cache now nonneg) (valid.and undisturbed)
      (fun _ timed held holds => held_step long nonneg short timed held holds.1 holds.2) w member
  exact held.renewed long short

/-- The other sends are the ones that break it: an answer from an aged entry lowers the TTL for good. -/
theorem aged_send_not_renewed {time expiry : ℚ} {authoritative : Nat} {response : Response}
    (valid : w.Valid pair T p ⟨time, .send authoritative response⟩) (head : w.pending.head? = some pair)
    (found : w.cache pair = some expiry) (before : time < expiry) (aged : expiry < time + T) :
    ¬ (w.step ⟨time, .send authoritative response⟩).Renewed pair T := by
  obtain ⟨-, -, answered⟩ := valid
  obtain ⟨now, cache, ttls, lastPass, pending⟩ := w
  cases pending with
  | nil => contradiction
  | cons first rest =>
      cases head
      obtain ⟨-, noerror, read⟩ := answered rfl
      intro renewed
      have lowered : edgeTtl cache pair time T < T := edgeTtl_of_aged found before aged
      have kept := (renewed ⟨_, some time⟩ (by
        simp only [step, recordOutcome, warmPairEx, noerror, read, ne_eq, not_true_eq_false, if_false,
          Option.getD_some, Option.elim_some, recordWarmedPair_self]
        rfl)).2.1
      cases known : ttls pair with
      | none => simp only [known, Option.elim_none] at kept; omega
      | some cached => simp only [known, Option.elim_some] at kept; omega

def examplePair : Pair := ("example.com", 1)

/-- A pass a minute from the first, which warms the pair, to the fifth. -/
def firstPasses : List Timed :=
  [⟨0, .pass [examplePair] 2000⟩, ⟨0, .send 310 (answering 310)⟩, ⟨60, .pass [examplePair] 2000⟩,
    ⟨120, .pass [examplePair] 2000⟩, ⟨180, .pass [examplePair] 2000⟩, ⟨240, .pass [examplePair] 2000⟩]

/-- The sixth pass warms the pair again and is answered from the entry of the first. -/
def agedPass : List Timed :=
  firstPasses ++ [⟨300, .pass [examplePair] 2000⟩, ⟨300, .send 310 (answering 10)⟩, ⟨320, .wait⟩]

theorem pass_leaves_gap :
    Along step (Valid examplePair 310 60) (start (fun _ => none) 0) agedPass ∧
      ¬ ∀ w ∈ visited step (start (fun _ => none) 0) agedPass, w.Renewed examplePair 310 := by
  have valid : Along step (Valid examplePair 310 60) (start (fun _ => none) 0) agedPass := by decide +kernel
  refine ⟨valid, fun renewed => ?_⟩
  let w := agedPass.foldl step (start (fun _ => none) 0)
  have recorded : w.ttls examplePair = some ⟨10, some 300⟩ := by decide +kernel
  have expired : w.cache.fresh examplePair w.now = false := by decide +kernel
  have holds := (renewed w (foldl_mem_visited _ agedPass) _ recorded).1
  rw [expired] at holds
  contradiction

theorem first_entry_kept :
    (firstPasses.foldl step (start (fun _ => none) 0)).Renewed examplePair 310 :=
  undisturbed_pair_renewed examplePair 310 60 (by decide) (by decide) (by decide +kernel) (fun _ => none) 0
    firstPasses (by decide +kernel) (by decide +kernel) _ (foldl_mem_visited _ firstPasses)

end Warming

end PowerBlockade.Precache
