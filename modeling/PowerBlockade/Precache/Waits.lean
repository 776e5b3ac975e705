import PowerBlockade.Precache.Pacing

/-!
# The pacers on their own

Any callers in any order. `wait` reserves under the pacer's lock, reads the clock again and sleeps for
what is missing; a sleep lasts at least as long as it was asked to.
-/

namespace PowerBlockade.Precache.Waits
open Lib

/-- A call of `wait`: the clock when it was made, and what it found and took under the lock. -/
structure Wait where
  called : ℚ
  clock : ℚ
  nextSlot : ℚ
  slot : ℚ

structure Return where
  wait : Wait
  returned : ℚ
  slept : Bool

inductive Caller
  | outside
  | called (at' : ℚ)
  | reserved (wait : Wait)
  | sleeping (wait : Wait) (until' : ℚ)

inductive Turn
  | call
  | reserve (rng : ℚ)
  | check
  | wake

structure Label where
  time : ℚ
  caller : Nat
  turn : Turn

structure State where
  now : ℚ
  pacer : QPSPacer
  callers : Nat → Caller
  waits : List Wait
  returns : List Return

namespace State

def start (clock : ℚ) : State := ⟨clock, ⟨clock, []⟩, fun _ => .outside, [], []⟩

def enter (s : State) (caller : Nat) (phase : Caller) : State :=
  { s with callers := Function.update s.callers caller phase }

def reserve (s : State) (qps : ℚ) (called rng : ℚ) : State :=
  { s with
    pacer := s.pacer.reserve qps s.now rng
    waits := s.waits ++ [⟨called, s.now, s.pacer.nextSlot, s.pacer.slot s.now⟩] }

def leave (s : State) (wait : Wait) (slept : Bool) : State :=
  { s with returns := s.returns ++ [⟨wait, s.now, slept⟩] }

/-- A turn that is not the caller's next changes nothing but the time. -/
def step (qps : ℚ) (s : State) (label : Label) : State :=
  let s := { s with now := label.time }
  match label.turn, s.callers label.caller with
  | .call, .outside => s.enter label.caller (.called s.now)
  | .reserve rng, .called at' =>
      (s.reserve qps at' rng).enter label.caller
        (.reserved ⟨at', s.now, s.pacer.nextSlot, s.pacer.slot s.now⟩)
  | .check, .reserved wait =>
      let delay := wait.slot - s.now
      if 0 < delay then s.enter label.caller (.sleeping wait (s.now + delay))
      else (s.leave wait false).enter label.caller .outside
  | .wake, .sleeping wait until' =>
      if until' ≤ s.now then (s.leave wait true).enter label.caller .outside else s
  | _, _ => s

/-- The clock does not go back, and the jitter source stays in its range. -/
def Valid (jitterRatio : ℚ) (s : State) (label : Label) : Prop :=
  s.now ≤ label.time ∧ match label.turn with
    | .reserve rng => 0 ≤ rng ∧ rng ≤ 2 * jitterRatio
    | _ => True

instance (jitterRatio : ℚ) (s : State) (label : Label) : Decidable (s.Valid jitterRatio label) :=
  match label with
  | ⟨time, _, .reserve rng⟩ =>
      inferInstanceAs (Decidable (s.now ≤ time ∧ 0 ≤ rng ∧ rng ≤ 2 * jitterRatio))
  | ⟨time, _, .call⟩ | ⟨time, _, .check⟩ | ⟨time, _, .wake⟩ =>
      inferInstanceAs (Decidable (s.now ≤ time ∧ True))

structure Limited (qps : ℚ) (s : State) : Prop where
  spaced : Spaced (1 / qps) (s.waits.map (·.slot))
  window : ∀ a L : ℚ,
    ((s.waits.map (·.slot)).filter fun t => a ≤ t ∧ t ≤ a + L).length ≤ ⌊L * qps⌋₊ + 1
  notBefore : ∀ wait ∈ s.waits, wait.called ≤ wait.slot
  due : ∀ done ∈ s.returns, done.wait ∈ s.waits ∧ done.wait.slot ≤ done.returned
  prompt : ∀ done ∈ s.returns, done.wait.nextSlot ≤ done.wait.clock →
    done.wait.slot = done.wait.clock ∧ done.slept = false
  sleeps : ∀ caller wait until', s.callers caller = .sleeping wait until' → wait.clock < wait.nextSlot

/-! ## What every caller keeps -/

structure Taken (waits : List Wait) (now : ℚ) (wait : Wait) : Prop where
  member : wait ∈ waits
  called : wait.called ≤ wait.clock
  clock : wait.clock ≤ now
  slot : wait.slot = max wait.nextSlot wait.clock

/-- What holds of a caller: it called before now, it took its slot, and it sleeps no less than until
that slot, which was still to come. -/
def Keeps (waits : List Wait) (now : ℚ) : Caller → Prop
  | .outside => True
  | .called at' => at' ≤ now
  | .reserved wait => Taken waits now wait
  | .sleeping wait until' => Taken waits now wait ∧ wait.slot ≤ until' ∧ wait.clock < wait.nextSlot

structure Sound (qps : ℚ) (s : State) : Prop where
  pacer : s.pacer.Spaced qps
  slots : s.pacer.slots = s.waits.map (·.slot)
  waits : ∀ wait ∈ s.waits, Taken s.waits s.now wait
  callers : ∀ caller, Keeps s.waits s.now (s.callers caller)
  returns : ∀ done ∈ s.returns, Taken s.waits s.now done.wait ∧ done.wait.slot ≤ done.returned ∧
    (done.slept = true → done.wait.clock < done.wait.nextSlot)

variable {qps j : ℚ} {s : State} {waits more : List Wait} {now later : ℚ} {wait : Wait}

theorem Taken.imp (taken : Taken waits now wait) (le : now ≤ later) (kept : waits ⊆ more) :
    Taken more later wait :=
  ⟨kept taken.member, taken.called, taken.clock.trans le, taken.slot⟩

theorem Keeps.imp {phase : Caller} (keeps : Keeps waits now phase) (le : now ≤ later)
    (kept : waits ⊆ more) : Keeps more later phase := by
  cases phase with
  | outside => trivial
  | called at' => exact le_trans keeps le
  | reserved wait => exact Taken.imp keeps le kept
  | sleeping wait until' => exact ⟨keeps.1.imp le kept, keeps.2⟩

theorem sound_start (clock : ℚ) : (start clock).Sound qps where
  pacer := ⟨List.Pairwise.nil, fun _ none => absurd none List.not_mem_nil⟩
  slots := rfl
  waits := fun _ none => absurd none List.not_mem_nil
  callers := fun _ => trivial
  returns := fun _ none => absurd none List.not_mem_nil

theorem Sound.at (sound : s.Sound qps) (le : s.now ≤ later) : Sound qps { s with now := later } where
  pacer := sound.pacer
  slots := sound.slots
  waits := fun wait member => (sound.waits wait member).imp le (List.Subset.refl _)
  callers := fun caller => (sound.callers caller).imp le (List.Subset.refl _)
  returns := fun done member =>
    ⟨(sound.returns done member).1.imp le (List.Subset.refl _), (sound.returns done member).2⟩

theorem Sound.enter (sound : s.Sound qps) (caller : Nat) {phase : Caller}
    (keeps : Keeps s.waits s.now phase) : (s.enter caller phase).Sound qps where
  pacer := sound.pacer
  slots := sound.slots
  waits := sound.waits
  callers := (Function.forall_update_iff s.callers fun _ phase => Keeps s.waits s.now phase).2
    ⟨keeps, fun other _ => sound.callers other⟩
  returns := sound.returns

theorem Sound.leave (sound : s.Sound qps) (taken : Taken s.waits s.now wait) (due : wait.slot ≤ s.now)
    (slept : Bool) (late : slept = true → wait.clock < wait.nextSlot) : (s.leave wait slept).Sound qps where
  pacer := sound.pacer
  slots := sound.slots
  waits := sound.waits
  callers := sound.callers
  returns := by
    intro done member
    rcases List.mem_append.1 member with old | new
    · exact sound.returns done old
    · rw [List.mem_singleton.1 new]
      exact ⟨taken, due, late⟩

/-- The wait that `reserve` takes. -/
def taking (s : State) (called : ℚ) : Wait := ⟨called, s.now, s.pacer.nextSlot, s.pacer.slot s.now⟩

theorem taken_reserve {called : ℚ} (before : called ≤ s.now) (rng : ℚ) :
    Taken (s.reserve qps called rng).waits s.now (s.taking called) where
  member := List.mem_append_right _ (List.mem_singleton_self _)
  called := before
  clock := le_rfl
  slot := rfl

theorem Sound.reserve (sound : s.Sound qps) (positive : 0 < qps) {called rng : ℚ} (before : called ≤ s.now)
    (nonneg : 0 ≤ rng) : (s.reserve qps called rng).Sound qps where
  pacer := sound.pacer.reserve positive s.now nonneg
  slots := by
    simp only [State.reserve, QPSPacer.reserve, List.map_append, List.map_singleton, sound.slots]
  waits := by
    intro wait member
    rcases List.mem_append.1 member with old | new
    · exact (sound.waits wait old).imp le_rfl (List.subset_append_left _ _)
    · rw [List.mem_singleton.1 new]
      exact taken_reserve before rng
  callers := fun caller => (sound.callers caller).imp le_rfl (List.subset_append_left _ _)
  returns := fun done member =>
    ⟨(sound.returns done member).1.imp le_rfl (List.subset_append_left _ _), (sound.returns done member).2⟩

theorem sound_step (positive : 0 < qps) (label : Label) (sound : s.Sound qps)
    (valid : s.Valid j label) : (s.step qps label).Sound qps := by
  obtain ⟨time, caller, turn⟩ := label
  have now := sound.at valid.1
  have keeps := now.callers caller
  unfold step
  dsimp only
  split
  · exact now.enter caller le_rfl
  · rename_i rng at' phase
    rw [phase] at keeps
    have reserved := now.reserve positive keeps valid.2.1
    exact reserved.enter caller (taken_reserve keeps rng)
  · rename_i wait phase
    rw [phase] at keeps
    split
    · rename_i early
      apply now.enter caller
      have upTo : wait.slot ≤ time + (wait.slot - time) := by linarith
      have pending : wait.clock < wait.nextSlot := by
        have beyond : wait.clock < wait.slot := by
          have read : wait.clock ≤ time := keeps.clock
          linarith
        rw [keeps.slot] at beyond
        exact (lt_max_iff.1 beyond).resolve_right (lt_irrefl _)
      exact ⟨keeps, upTo, pending⟩
    · rename_i due
      have left := now.leave keeps (by linarith) false fun slept => by contradiction
      exact left.enter caller trivial
  · rename_i wait until' phase
    rw [phase] at keeps
    split
    · rename_i woken
      have left := now.leave keeps.1 (keeps.2.1.trans woken) true fun _ => keeps.2.2
      exact left.enter caller trivial
    · exact now
  · exact now

theorem Sound.limited (sound : s.Sound qps) (positive : 0 < qps) : s.Limited qps where
  spaced := sound.slots ▸ sound.pacer.spaced
  window := fun a L => (sound.slots ▸ sound.pacer.spaced).window positive a L
  notBefore := by
    intro wait member
    have taken := sound.waits wait member
    rw [taken.slot]
    exact taken.called.trans (le_max_right _ _)
  due := fun done member => ⟨(sound.returns done member).1.member, (sound.returns done member).2.1⟩
  prompt := by
    intro done member free
    obtain ⟨taken, _, late⟩ := sound.returns done member
    refine ⟨taken.slot.trans (max_eq_right free), ?_⟩
    cases slept : done.slept with
    | false => rfl
    | true => exact absurd (late slept) (not_lt.2 free)
  sleeps := by
    intro caller wait until' phase
    have keeps := sound.callers caller
    rw [phase] at keeps
    exact keeps.2.2

/-- The slots keep the rate over idle times, bursts and every jitter, and nobody goes before its slot
or waits without one to wait for. -/
theorem slots_limited (qps jitterRatio clock : ℚ) (positive : 0 < qps) (run : List Label)
    (valid : Along (step qps) (Valid jitterRatio) (start clock) run) :
    ∀ s ∈ visited (step qps) (start clock) run, s.Limited qps := by
  intro s member
  have sound : s.Sound qps := visited_invariant (P := Sound qps) (sound_start clock) valid
    (fun _ label sound valid => sound_step positive label sound valid) s member
  exact sound.limited positive

/-- The second caller comes a millisecond after the first, and sleeps for the rest of the interval. -/
def twoCallers : List Label :=
  [⟨0, 0, .call⟩, ⟨0, 0, .reserve (1 / 10)⟩, ⟨0, 0, .check⟩, ⟨1 / 1000, 1, .call⟩, ⟨1 / 1000, 1, .reserve 0⟩,
    ⟨1 / 500, 1, .check⟩, ⟨11 / 500, 1, .wake⟩]

theorem two_callers_limited :
    (twoCallers.foldl (step 50) (start 0)).waits.map (·.slot) = [0, 11 / 500] ∧
      (twoCallers.foldl (step 50) (start 0)).Limited 50 :=
  ⟨by decide +kernel, slots_limited 50 jitterRatio 0 (by decide +kernel) twoCallers (by decide +kernel) _
    (foldl_mem_visited _ twoCallers)⟩

end State

/-! ## The same name -/

structure QnameWait where
  clock : ℚ
  qname : String

/-- The send that `QnamePacer.wait` plans. -/
def planned (minInterval : ℚ) (pacer : QnamePacer) (wait : QnameWait) : ℚ :=
  match pacer wait.qname with
  | none => wait.clock
  | some last => max last wait.clock + minInterval

def plan (minInterval : ℚ) (pacer : QnamePacer) (wait : QnameWait) : QnamePacer :=
  Function.update pacer wait.qname (some (planned minInterval pacer wait))

def fresh : QnamePacer := fun _ => none

def plans (minInterval : ℚ) : QnamePacer → List QnameWait → List (QnameWait × ℚ)
  | _, [] => []
  | pacer, wait :: rest =>
      (wait, planned minInterval pacer wait) :: plans minInterval (plan minInterval pacer wait) rest

def sendsOf (qname : String) (log : List (QnameWait × ℚ)) : List ℚ :=
  (log.filter (·.1.qname = qname)).map (·.2)

/-- The send is neither too early nor later than it has to be. -/
def Exact (minInterval : ℚ) (pacer : QnamePacer) (wait : QnameWait) : Prop :=
  planned minInterval pacer wait = match pacer wait.qname with
    | none => wait.clock
    | some last => max wait.clock (last + minInterval)

/-- No interval, or a call no later than the last planned send of the name. -/
def Pending (minInterval : ℚ) (pacer : QnamePacer) (wait : QnameWait) : Prop :=
  ∀ last, pacer wait.qname = some last →
    minInterval = 0 ∨ wait.clock ≤ last ∧ wait.clock ≤ last + minInterval

variable {minInterval : ℚ} {pacer other : QnamePacer} {qname : String}

theorem at_eq_planned (pacer : QnamePacer) (wait : QnameWait) :
    pacer.at wait.qname wait.clock = planned qnameMinInterval pacer wait := rfl

theorem max_add_eq_iff {last clock d : ℚ} :
    max last clock + d = max clock (last + d) ↔ d = 0 ∨ clock ≤ last ∧ clock ≤ last + d := by
  rcases le_total clock last with before | after
  · rw [max_eq_left before, eq_comm, max_eq_right_iff]
    constructor
    · exact fun later => Or.inr ⟨before, later⟩
    · rintro (rfl | both)
      · rwa [add_zero]
      · exact both.2
  · rw [max_eq_right after]
    constructor
    · intro same
      rcases max_choice clock (last + d) with now | later
      · exact Or.inl (by linarith)
      · have meets : clock = last := by linarith
        exact Or.inr ⟨meets.le, later ▸ le_max_left _ _⟩
    · rintro (rfl | ⟨before, later⟩)
      · rw [add_zero, add_zero, max_eq_left after]
      · rw [max_eq_right later, le_antisymm before after]

theorem exact_iff_pending (minInterval : ℚ) (pacer : QnamePacer) (wait : QnameWait) :
    Exact minInterval pacer wait ↔ Pending minInterval pacer wait := by
  unfold Exact Pending planned
  cases pacer wait.qname with
  | none => exact iff_of_true rfl nofun
  | some last =>
      rw [max_add_eq_iff]
      simp only [Option.some.injEq, forall_eq']

theorem le_planned {wait : QnameWait} {last : ℚ} (found : pacer wait.qname = some last) :
    last + minInterval ≤ planned minInterval pacer wait := by
  unfold planned
  rw [found]
  exact add_le_add_left (le_max_left _ _) _

theorem sendsOf_cons_of_eq (wait : QnameWait) (rest : List QnameWait) :
    sendsOf wait.qname (plans minInterval pacer (wait :: rest)) = planned minInterval pacer wait ::
      sendsOf wait.qname (plans minInterval (plan minInterval pacer wait) rest) := by
  rw [sendsOf, plans, List.filter_cons_of_pos (by simp), List.map_cons]
  rfl

theorem sendsOf_cons_of_ne {wait : QnameWait} (apart : wait.qname ≠ qname) (rest : List QnameWait) :
    sendsOf qname (plans minInterval pacer (wait :: rest)) =
      sendsOf qname (plans minInterval (plan minInterval pacer wait) rest) := by
  rw [sendsOf, plans, List.filter_cons_of_neg (by simpa using apart)]
  rfl

theorem plan_self (wait : QnameWait) :
    plan minInterval pacer wait wait.qname = some (planned minInterval pacer wait) :=
  Function.update_self ..

theorem plan_of_ne {wait : QnameWait} (apart : wait.qname ≠ qname) :
    plan minInterval pacer wait qname = pacer qname := Function.update_of_ne apart.symm ..

/-- Sends of one name keep their distance, from the last one planned before on. -/
theorem sends_chain (minInterval : ℚ) (pacer : QnamePacer) (qname : String) (run : List QnameWait) :
    ((pacer qname).toList ++ sendsOf qname (plans minInterval pacer run)).IsChain
      fun s t => s + minInterval ≤ t := by
  induction run generalizing pacer with
  | nil =>
      cases pacer qname with
      | none => exact .nil
      | some last => exact .singleton last
  | cons wait rest ih =>
      have later := ih (plan minInterval pacer wait)
      by_cases same : wait.qname = qname
      · subst same
        rw [sendsOf_cons_of_eq]
        rw [plan_self] at later
        cases found : pacer wait.qname with
        | none => exact later
        | some last => exact List.isChain_cons_cons.2 ⟨le_planned found, later⟩
      · rw [sendsOf_cons_of_ne same]
        rw [plan_of_ne same] at later
        exact later

/-- Sends of one name are planned as if no other name were sent. -/
theorem sends_alone (minInterval : ℚ) (agree : pacer qname = other qname) (run : List QnameWait) :
    sendsOf qname (plans minInterval pacer run) =
      sendsOf qname (plans minInterval other (run.filter (·.qname = qname))) := by
  induction run generalizing pacer other with
  | nil => rfl
  | cons wait rest ih =>
      by_cases same : wait.qname = qname
      · subst same
        have plannedAlike : planned minInterval pacer wait = planned minInterval other wait := by
          rw [planned, planned, agree]
        rw [List.filter_cons_of_pos (by simp), sendsOf_cons_of_eq, sendsOf_cons_of_eq, plannedAlike]
        exact congrArg _ (ih (by rw [plan_self, plan_self, plannedAlike]))
      · rw [List.filter_cons_of_neg (by simpa using same), sendsOf_cons_of_ne same]
        exact ih (by rw [plan_of_ne same, agree])

/-- A retry a second after the first send of its name. -/
def retryWaits : List QnameWait := [⟨0, "a.example"⟩, ⟨1, "a.example"⟩]

theorem retry_planned_late :
    ¬ ∀ (minInterval : ℚ) (run : List QnameWait), run.Pairwise (·.clock ≤ ·.clock) →
      Along (plan minInterval) (Exact minInterval) fresh run := by
  intro exact
  have second := (exact qnameMinInterval retryWaits (by decide +kernel)).2.1
  have late : planned qnameMinInterval (plan qnameMinInterval fresh ⟨0, "a.example"⟩) ⟨1, "a.example"⟩ = 6 / 5 := by
    decide +kernel
  rw [Exact, late, plan_self] at second
  exact absurd second (by decide +kernel)

theorem plans_exact_iff (minInterval : ℚ) (run : List QnameWait) :
    ((∀ qname, (sendsOf qname (plans minInterval fresh run)).IsChain fun s t => s + minInterval ≤ t) ∧
        (∀ qname, sendsOf qname (plans minInterval fresh run) =
          sendsOf qname (plans minInterval fresh (run.filter (·.qname = qname)))) ∧
        Along (plan minInterval) (Exact minInterval) fresh run) ↔
      Along (plan minInterval) (Pending minInterval) fresh run := by
  have spaced (qname : String) : (sendsOf qname (plans minInterval fresh run)).IsChain
      fun s t => s + minInterval ≤ t := sends_chain minInterval fresh qname run
  have alone (qname : String) : sendsOf qname (plans minInterval fresh run) =
      sendsOf qname (plans minInterval fresh (run.filter (·.qname = qname))) :=
    sends_alone minInterval rfl run
  rw [and_iff_right spaced, and_iff_right alone]
  exact along_congr_of_preserved (P := fun _ => True) run trivial (fun _ _ _ => trivial)
    fun pacer wait _ => exact_iff_pending minInterval pacer wait

end PowerBlockade.Precache.Waits
