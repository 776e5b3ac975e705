import PowerBlockade.Lib.Run
import PowerBlockade.Lib.Spacing
import PowerBlockade.Precache.Burst

/-!
# The pace of a burst

The worker threads of `run_burst` with both pacers, one step at a time. A thread that sleeps until an
instant goes on at that instant or later.
-/

namespace PowerBlockade.Precache
open Lib

def jitterRatio : ℚ := 1 / 10

def qnameMinInterval : ℚ := 1 / 5

def backoffBase : ℚ := 1 / 2

/-- `slots` are those that have been handed out. -/
structure QPSPacer where
  nextSlot : ℚ
  slots : List ℚ

/-- The slot that `wait` reserves. -/
def QPSPacer.slot (pacer : QPSPacer) (clock : ℚ) : ℚ := max pacer.nextSlot clock

def QPSPacer.reserve (pacer : QPSPacer) (qps clock rng : ℚ) : QPSPacer :=
  { nextSlot := pacer.slot clock + 1 / qps * (1 + rng), slots := pacer.slots ++ [pacer.slot clock] }

structure QPSPacer.Spaced (qps : ℚ) (pacer : QPSPacer) : Prop where
  spaced : Lib.Spaced (1 / qps) pacer.slots
  next : ∀ slot ∈ pacer.slots, slot + 1 / qps ≤ pacer.nextSlot

theorem QPSPacer.Spaced.reserve {qps : ℚ} {pacer : QPSPacer} (held : pacer.Spaced qps) (positive : 0 < qps)
    (clock : ℚ) {rng : ℚ} (nonneg : 0 ≤ rng) : (pacer.reserve qps clock rng).Spaced qps where
  spaced := by
    refine spaced_append_singleton.mpr ⟨held.spaced, fun slot member => ?_⟩
    exact (held.next slot member).trans (le_max_left _ _)
  next := by
    have interval : (0 : ℚ) ≤ 1 / qps := (one_div_pos.mpr positive).le
    have stretched : 1 / qps ≤ 1 / qps * (1 + rng) := le_mul_of_one_le_right interval (by linarith)
    intro slot member
    rcases List.mem_append.mp member with old | new
    · have le : slot + 1 / qps ≤ pacer.slot clock := (held.next slot old).trans (le_max_left _ _)
      dsimp only [QPSPacer.reserve]
      linarith
    · rw [List.mem_singleton.mp new]
      dsimp only [QPSPacer.reserve]
      linarith

abbrev QnamePacer := String → Option ℚ

def QnamePacer.at (pacer : QnamePacer) (qname : String) (clock : ℚ) : ℚ :=
  match pacer qname with
  | none => clock
  | some last => max last clock + qnameMinInterval

def QnamePacer.reserve (pacer : QnamePacer) (qname : String) (clock : ℚ) : QnamePacer :=
  Function.update pacer qname (some (pacer.at qname clock))

/-- Where a worker is in `_warm_one`. -/
inductive Phase
  | idle
  | attempting (pair : Pair) (attempt : Nat)
  | slotted (pair : Pair) (attempt : Nat) (slot : ℚ)
  | paced (pair : Pair) (attempt : Nat) (slot at' : ℚ)
  | sending (pair : Pair) (attempt : Nat)
  | backingOff (pair : Pair) (attempt : Nat) (until' : ℚ)

def Phase.slot : Phase → Option ℚ
  | .slotted _ _ slot | .paced _ _ slot _ => some slot
  | _ => none

inductive Turn
  | take
  | reserveSlot (rng : ℚ)
  | paceQname
  | send
  | outcome (outcome : PairWarmOutcome)
  | retry

structure Label where
  time : ℚ
  worker : Nat
  turn : Turn

structure Sent where
  slot : ℚ
  started : ℚ

structure Pool where
  now : ℚ
  work : List Pair
  phase : Nat → Phase
  qpsPacer : QPSPacer
  qnamePacer : QnamePacer
  sent : List Sent

namespace Pool

def start (pairs : List Pair) (clock : ℚ) : Pool :=
  { now := clock, work := fromkeys pairs, phase := fun _ => .idle, qpsPacer := ⟨clock, []⟩
    qnamePacer := fun _ => none, sent := [] }

def workers (pairs : List Pair) (concurrency : Nat) : Nat := max 1 (min concurrency (fromkeys pairs).length)

def enter (w : Pool) (worker : Nat) (phase : Phase) : Pool :=
  { w with phase := Function.update w.phase worker phase }

/-- A turn that is not the worker's next, or comes before the instant it waits for, changes nothing. -/
def step (qps : ℚ) (w : Pool) (label : Label) : Pool :=
  let w := { w with now := label.time }
  match label.turn, w.phase label.worker with
  | .take, .idle => match w.work with
      | [] => w
      | pair :: rest => { w.enter label.worker (.attempting pair 0) with work := rest }
  | .reserveSlot rng, .attempting pair attempt =>
      { w.enter label.worker (.slotted pair attempt (w.qpsPacer.slot w.now)) with
        qpsPacer := w.qpsPacer.reserve qps w.now rng }
  | .paceQname, .slotted pair attempt slot =>
      if slot ≤ w.now then
        { w.enter label.worker (.paced pair attempt slot (w.qnamePacer.at pair.1 w.now)) with
          qnamePacer := w.qnamePacer.reserve pair.1 w.now }
      else w
  | .send, .paced pair attempt slot at' =>
      if at' ≤ w.now then
        { w.enter label.worker (.sending pair attempt) with sent := w.sent ++ [⟨slot, w.now⟩] }
      else w
  | .outcome outcome, .sending pair attempt =>
      if outcome.ttl.isSome then w.enter label.worker .idle
      else if attempt < maxRetries then
        w.enter label.worker (.backingOff pair attempt (w.now + backoffBase * 2 ^ attempt))
      else w.enter label.worker .idle
  | .retry, .backingOff pair attempt until' =>
      if until' ≤ w.now then w.enter label.worker (.attempting pair (attempt + 1)) else w
  | _, _ => w

/-- The clock of `time.monotonic`, the threads of the pool and the range of the jitter. -/
def Valid (workers : Nat) (w : Pool) (label : Label) : Prop :=
  w.now ≤ label.time ∧ label.worker < workers ∧ match label.turn with
    | .reserveSlot rng => 0 ≤ rng ∧ rng ≤ 2 * jitterRatio
    | _ => True

instance (workers : Nat) (w : Pool) (label : Label) : Decidable (w.Valid workers label) :=
  match label with
  | ⟨time, worker, .reserveSlot rng⟩ =>
      inferInstanceAs (Decidable (w.now ≤ time ∧ worker < workers ∧ 0 ≤ rng ∧ rng ≤ 2 * jitterRatio))
  | ⟨time, worker, .take⟩ | ⟨time, worker, .paceQname⟩ | ⟨time, worker, .send⟩
  | ⟨time, worker, .outcome _⟩ | ⟨time, worker, .retry⟩ =>
      inferInstanceAs (Decidable (w.now ≤ time ∧ worker < workers ∧ True))

def sendSlot (w : Pool) (label : Label) : Option ℚ :=
  match label.turn, w.phase label.worker with
  | .send, .paced _ _ slot at' => if at' ≤ label.time then some slot else none
  | _, _ => none

/-- Sends start in the order of their slots, none with less delay after its slot than those before. -/
def InOrder (w : Pool) (label : Label) : Prop :=
  ∀ slot ∈ w.sendSlot label, ∀ earlier ∈ w.sent,
    earlier.slot < slot ∧ earlier.started - earlier.slot ≤ label.time - slot

instance (w : Pool) (label : Label) : Decidable (w.InOrder label) :=
  inferInstanceAs (Decidable (∀ slot ∈ w.sendSlot label, ∀ earlier ∈ w.sent,
    earlier.slot < slot ∧ earlier.started - earlier.slot ≤ label.time - slot))

def Paced (qps : ℚ) (w : Pool) : Prop := Spaced (1 / qps) (w.sent.map (·.started))

/-! ## The slots -/

structure Slotted (qps : ℚ) (w : Pool) : Prop where
  spaced : Spaced (1 / qps) w.qpsPacer.slots
  next : ∀ slot ∈ w.qpsPacer.slots, slot + 1 / qps ≤ w.qpsPacer.nextSlot
  waiting : ∀ worker slot, (w.phase worker).slot = some slot → slot ∈ w.qpsPacer.slots
  used : ∀ sent ∈ w.sent, sent.slot ∈ w.qpsPacer.slots
  paced : w.Paced qps

variable {qps : ℚ} {w : Pool} {worker : Nat}

theorem slotted_start (pairs : List Pair) (clock : ℚ) : (start pairs clock).Slotted qps where
  spaced := List.Pairwise.nil
  next := nofun
  waiting := nofun
  used := nofun
  paced := List.Pairwise.nil

theorem Slotted.at (slotted : w.Slotted qps) (now : ℚ) : Slotted qps { w with now := now } :=
  ⟨slotted.spaced, slotted.next, slotted.waiting, slotted.used, slotted.paced⟩

theorem Slotted.enter (slotted : w.Slotted qps) (worker : Nat) (phase : Phase)
    (holds : ∀ slot, phase.slot = some slot → slot ∈ w.qpsPacer.slots) :
    (w.enter worker phase).Slotted qps :=
  ⟨slotted.spaced, slotted.next, (Function.forall_update_iff w.phase fun _ phase => ∀ slot,
    phase.slot = some slot → slot ∈ w.qpsPacer.slots).mpr ⟨holds, fun other _ => slotted.waiting other⟩,
    slotted.used, slotted.paced⟩

theorem Slotted.reserve (slotted : w.Slotted qps) (positive : 0 < qps) {rng : ℚ} (nonneg : 0 ≤ rng) :
    Slotted qps { w with qpsPacer := w.qpsPacer.reserve qps w.now rng } where
  spaced := (QPSPacer.Spaced.reserve ⟨slotted.spaced, slotted.next⟩ positive w.now nonneg).spaced
  next := (QPSPacer.Spaced.reserve ⟨slotted.spaced, slotted.next⟩ positive w.now nonneg).next
  waiting := fun other slot holds => List.mem_append_left _ (slotted.waiting other slot holds)
  used := fun sent member => List.mem_append_left _ (slotted.used sent member)
  paced := slotted.paced

theorem Slotted.send (slotted : w.Slotted qps) (positive : 0 < qps) {slot started : ℚ}
    (reserved : slot ∈ w.qpsPacer.slots) (inOrder : ∀ earlier ∈ w.sent,
      earlier.slot < slot ∧ earlier.started - earlier.slot ≤ started - slot) :
    Slotted qps { w with sent := w.sent ++ [⟨slot, started⟩] } where
  spaced := slotted.spaced
  next := slotted.next
  waiting := slotted.waiting
  used := by
    intro sent member
    rcases List.mem_append.mp member with old | new
    · exact slotted.used sent old
    · rw [List.mem_singleton.mp new]
      exact reserved
  paced := by
    have interval : (0 : ℚ) ≤ 1 / qps := (one_div_pos.mpr positive).le
    unfold Paced
    rw [List.map_append]
    refine spaced_append_singleton.mpr ⟨slotted.paced, fun earlierStart member => ?_⟩
    obtain ⟨earlier, before, rfl⟩ := List.mem_map.mp member
    obtain ⟨smaller, delayed⟩ := inOrder earlier before
    have apart := slotted.spaced.of_lt interval (slotted.used earlier before) reserved smaller
    dsimp only
    linarith

theorem slotted_step {workers : Nat} (positive : 0 < qps) (label : Label) (slotted : w.Slotted qps)
    (valid : w.Valid workers label) (inOrder : w.InOrder label) : (w.step qps label).Slotted qps := by
  obtain ⟨time, worker, turn⟩ := label
  have now := slotted.at time
  unfold step
  dsimp only
  split
  · split
    · exact now
    · rename_i pair rest work
      have entered := now.enter worker (.attempting pair 0) nofun
      exact ⟨entered.spaced, entered.next, entered.waiting, entered.used, entered.paced⟩
  · rename_i rng pair attempt phase
    have reserved := now.reserve positive valid.2.2.1
    exact reserved.enter _ _ fun slot holds =>
      List.mem_append_right _ (List.mem_singleton.mpr (Option.some.inj holds).symm)
  · rename_i pair attempt slot phase
    split
    · have entered := now.enter worker
        (.paced pair attempt slot (w.qnamePacer.at pair.1 time)) fun held holds =>
          now.waiting worker held (by dsimp only; rw [phase]; exact holds)
      exact ⟨entered.spaced, entered.next, entered.waiting, entered.used, entered.paced⟩
    · exact now
  · rename_i pair attempt slot at' phase
    split
    · rename_i due
      have reserved : slot ∈ w.qpsPacer.slots := slotted.waiting worker slot (by rw [phase]; rfl)
      have ordered : ∀ earlier ∈ w.sent, earlier.slot < slot ∧
          earlier.started - earlier.slot ≤ time - slot :=
        inOrder slot (by simp [sendSlot, phase, due])
      have sent := now.send positive reserved ordered
      exact sent.enter _ _ nofun
    · exact now
  · split
    · exact now.enter _ _ nofun
    · split
      · exact now.enter _ _ nofun
      · exact now.enter _ _ nofun
  · split
    · exact now.enter _ _ nofun
    · exact now
  · exact now

/-- With no send delayed after its slot more than those that follow it, sends are `1/qps` apart. -/
theorem sends_in_order_paced (qps : ℚ) (positive : 0 < qps) (pairs : List Pair) (concurrency : Nat)
    (clock : ℚ) (run : List Label)
    (valid : Along (step qps) (Valid (workers pairs concurrency)) (start pairs clock) run)
    (inOrder : Along (step qps) InOrder (start pairs clock) run) :
    ∀ w ∈ visited (step qps) (start pairs clock) run, w.Paced qps ∧
      ∀ a L : ℚ, ((w.sent.map (·.started)).filter fun t => a ≤ t ∧ t ≤ a + L).length ≤ ⌊L * qps⌋₊ + 1 := by
  intro w member
  have slotted : w.Slotted qps :=
    visited_invariant (P := Slotted qps) (slotted_start pairs clock) (valid.and inOrder)
      (fun _ label slotted holds => slotted_step positive label slotted holds.1 holds.2) w member
  exact ⟨slotted.paced, fun a L => slotted.paced.window positive a L⟩

def warmed : PairWarmOutcome := ⟨some 300, none⟩

def promptRun : List Label :=
  [⟨0, 0, .take⟩, ⟨0, 0, .reserveSlot 0⟩, ⟨0, 0, .paceQname⟩, ⟨0, 0, .send⟩, ⟨1 / 1000, 0, .outcome warmed⟩,
    ⟨1 / 1000, 0, .take⟩, ⟨1 / 1000, 0, .reserveSlot 0⟩, ⟨1 / 50, 0, .paceQname⟩]

def promptSends : List Label := promptRun ++ [⟨1 / 50, 0, .send⟩]

def promptPool : Pool := promptSends.foldl (step 50) (start [("a.example", 1), ("b.example", 1)] 0)

theorem prompt_sends_paced :
    promptPool.sent.map (·.started) = [0, 1 / 50] ∧ promptPool.Paced 50 ∧
      ((promptPool.sent.map (·.started)).filter fun t => 0 ≤ t ∧ t ≤ 0 + 1 / 100).length ≤
        ⌊(1 / 100 : ℚ) * 50⌋₊ + 1 := by
  have paced := sends_in_order_paced 50 (by decide +kernel) [("a.example", 1), ("b.example", 1)] 8 0
    promptSends (by decide +kernel) (by decide +kernel) promptPool (foldl_mem_visited _ promptSends)
  exact ⟨by decide +kernel, paced.1, paced.2 0 (1 / 100)⟩

/-- One worker: the second type of a name waits for the name, and the next name does not. -/
def bunchedPairs : List Pair := [("a.example", 1), ("a.example", 28), ("b.example", 1)]

def bunchedRun : List Label :=
  promptRun ++ [⟨11 / 50, 0, .send⟩, ⟨221 / 1000, 0, .outcome warmed⟩, ⟨221 / 1000, 0, .take⟩,
    ⟨221 / 1000, 0, .reserveSlot 0⟩, ⟨221 / 1000, 0, .paceQname⟩, ⟨221 / 1000, 0, .send⟩]

theorem sends_bunched :
    Along (step 50) (Valid (workers bunchedPairs 1)) (start bunchedPairs 0) bunchedRun ∧
      ¬ ∀ w ∈ visited (step 50) (start bunchedPairs 0) bunchedRun, w.Paced 50 := by
  have valid : Along (step 50) (Valid (workers bunchedPairs 1)) (start bunchedPairs 0) bunchedRun := by
    decide +kernel
  refine ⟨valid, fun paced => ?_⟩
  have sent : (bunchedRun.foldl (step 50) (start bunchedPairs 0)).sent.map (·.started) =
      [0, 11 / 50, 221 / 1000] := by decide +kernel
  have spaced := paced _ (foldl_mem_visited _ bunchedRun)
  rw [Paced, sent] at spaced
  norm_num [Spaced] at spaced

end Pool

end PowerBlockade.Precache
