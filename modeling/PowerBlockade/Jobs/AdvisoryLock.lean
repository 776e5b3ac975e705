import Mathlib.Algebra.Group.Nat.Defs
import Mathlib.Logic.Function.Basic
import PowerBlockade.Lib.Run
import PowerBlockade.Lib.SessionLocks
import PowerBlockade.Lib.SipHash

/-!
# Jobs under an advisory lock

`run_with_advisory_lock` in any number of processes, each with the string hashing of its own
interpreter.
-/

namespace PowerBlockade.Jobs
open Lib

/-! ## The lock number -/

/-- The characters as they stand in memory: one, two or four bytes each, after the widest. -/
def unicodeData (text : String) : List UInt8 :=
  let byte (c : Char) (i : Nat) : UInt8 := (c.toNat / 256 ^ i).toUInt8
  if text.toList.all (·.toNat < 256) then text.toList.map (byte · 0)
  else if text.toList.all (·.toNat < 65536) then text.toList.flatMap fun c => [byte c 0, byte c 1]
  else text.toList.flatMap fun c => [byte c 0, byte c 1, byte c 2, byte c 3]

/-- `hash(text)` in an interpreter with this key. -/
def hash (key : SipHash.Key) (text : String) : Int :=
  if text = "" then 0
  else
    let h := Int.bmod (SipHash.hash 1 3 key (unicodeData text)).toNat (2 ^ 64)
    if h = -1 then -2 else h

def lockId (key : SipHash.Key) (jobName : String) : Nat := (hash key jobName).natAbs % 2 ^ 31

example : lockId ⟨0, 0⟩ "rollup" = 2110721744 := by decide

/-! ## The wrapper -/

/-- A database session: its process and which of its connections it is. -/
abbrev Session (Process : Type*) := Process × Nat

inductive Phase
  | idle
  | running (jobName : String)
  | releasing (jobName : String)
deriving DecidableEq

structure World (Process : Type*) where
  held : List (Session Process × Nat)
  phase : Session Process → Phase

/-- `dies` is the end of the session with the wrapper it serves. -/
inductive Event
  | triggered (jobName : String)
  | bodyEnds
  | unlocked
  | unlockFails
  | dies

variable {Process : Type*} [DecidableEq Process]

def start : World Process := ⟨[], fun _ => .idle⟩

def World.enter (w : World Process) (s : Session Process) (phase : Phase) : World Process :=
  { w with phase := Function.update w.phase s phase }

def step (key : Process → SipHash.Key) (w : World Process) (label : Session Process × Event) :
    World Process :=
  let s := label.1
  match label.2, w.phase s with
  | .triggered jobName, .idle =>
      let n := lockId (key s.1) jobName
      if SessionLocks.grantable w.held s n then
        { w.enter s (.running jobName) with held := (s, n) :: w.held }
      else w
  | .bodyEnds, .running jobName => w.enter s (.releasing jobName)
  | .unlocked, .releasing jobName =>
      { w.enter s .idle with held := SessionLocks.unlock w.held s (lockId (key s.1) jobName) }
  | .unlockFails, .releasing _ => w.enter s .idle
  | .dies, _ => { w.enter s .idle with held := SessionLocks.endSession w.held s }
  | _, _ => w

/-- At most one process executes the body of the job. -/
def Exclusive (jobName : String) (w : World Process) : Prop :=
  ∀ s t, w.phase s = .running jobName → w.phase t = .running jobName → s.1 = t.1

/-! ## What a running body holds -/

def Phase.job : Phase → Option String
  | .idle => none
  | .running jobName => some jobName
  | .releasing jobName => some jobName

structure Locked (key : Process → SipHash.Key) (w : World Process) : Prop where
  exclusive : SessionLocks.Exclusive w.held
  backed : ∀ s jobName, (w.phase s).job = some jobName → (s, lockId (key s.1) jobName) ∈ w.held

variable {key : Process → SipHash.Key} {w : World Process} {s : Session Process}

omit [DecidableEq Process] in
theorem locked_start : Locked key (start : World Process) :=
  ⟨fun _ _ _ held => (nomatch held), fun _ _ job => (nomatch job)⟩

theorem Locked.enter (locked : Locked key w) {phase : Phase} {held : List (Session Process × Nat)}
    (exclusive : SessionLocks.Exclusive held)
    (others : ∀ t n, t ≠ s → (t, n) ∈ w.held → (t, n) ∈ held)
    (own : ∀ jobName, phase.job = some jobName → (s, lockId (key s.1) jobName) ∈ held) :
    Locked key { w.enter s phase with held := held } := by
  refine ⟨exclusive, (Function.forall_update_iff w.phase fun t phase => ∀ jobName,
    phase.job = some jobName → (t, lockId (key t.1) jobName) ∈ held).mpr ⟨own, ?_⟩⟩
  intro t other jobName job
  exact others t _ other (locked.backed t jobName job)

theorem locked_step (label : Session Process × Event) (locked : Locked key w) :
    Locked key (step key w label) := by
  obtain ⟨s, event⟩ := label
  have same : ∀ t n, t ≠ s → (t, n) ∈ w.held → (t, n) ∈ w.held := fun _ _ _ held => held
  have idle {held : List (Session Process × Nat)} :
      ∀ jobName, Phase.idle.job = some jobName → (s, lockId (key s.1) jobName) ∈ held :=
    fun _ job => nomatch job
  unfold step
  dsimp only
  split
  · rename_i jobName now
    split
    · rename_i grant
      apply locked.enter (locked.exclusive.lock grant)
      · exact fun t n _ held => List.mem_cons_of_mem _ held
      · intro job found
        cases Option.some.inj found
        exact List.mem_cons_self
    · exact locked
  · rename_i jobName now
    apply locked.enter locked.exclusive same
    intro job found
    apply locked.backed
    rw [now]
    exact found
  · exact locked.enter locked.exclusive.unlock (fun t n other => SessionLocks.mem_unlock other) idle
  · exact locked.enter locked.exclusive same idle
  · exact locked.enter locked.exclusive.endSession
      (fun t n other => SessionLocks.mem_endSession other) idle
  · exact locked

omit [DecidableEq Process] in
theorem Locked.exclusive_job {jobName : String} (locked : Locked key w)
    (same : ∀ p q, lockId (key p) jobName = lockId (key q) jobName) : Exclusive jobName w := by
  intro s t first second
  have left := locked.backed s jobName (by rw [first]; rfl)
  have right := locked.backed t jobName (by rw [second]; rfl)
  rw [same s.1 t.1] at left
  rw [locked.exclusive s t _ left right]

/-! ## Mutual exclusion -/

theorem both_run {jobName : String} {p q : Process}
    (different : lockId (key p) jobName ≠ lockId (key q) jobName) :
    let w := [((p, 0), .triggered jobName), ((q, 0), .triggered jobName)].foldl (step key) start
    w.phase (p, 0) = .running jobName ∧ w.phase (q, 0) = .running jobName := by
  have distinct : q ≠ p := fun same => different (by rw [same])
  have other : ((q, 0) : Session Process) ≠ (p, 0) := fun same => distinct (congrArg Prod.fst same)
  simp [step, start, World.enter, SessionLocks.grantable, different, other, other.symm,
    Function.update_of_ne]

/-- A job runs in one process at a time, in every run of any processes, exactly when they all
compute the same lock number for its name. -/
theorem exclusive_iff (key : Process → SipHash.Key) (jobName : String) :
    (∀ run, ∀ w ∈ visited (step key) start run, Exclusive jobName w) ↔
      ∀ p q, lockId (key p) jobName = lockId (key q) jobName := by
  constructor
  · intro exclusive p q
    by_contra different
    have both := both_run different
    have same := exclusive _ _ (foldl_mem_visited start _) (p, 0) (q, 0) both.1 both.2
    exact different (by rw [show p = q from same])
  · intro same run
    have locked : ∀ w ∈ visited (step key) start run, Locked key w :=
      visited_of_forall run locked_start fun _ label locked => locked_step label locked
    exact fun w member => (locked w member).exclusive_job same

/-! ## Two interpreters that disagree -/

def saltedKey : Bool → SipHash.Key
  | false => ⟨0, 0⟩
  | true => ⟨12598376723466036009, 16999324916296290386⟩

theorem rollup_runs_twice :
    ¬ ∀ (key : Bool → SipHash.Key) (run : List (Session Bool × Event)),
      ∀ w ∈ visited (step key) start run, Exclusive "rollup" w := by
  intro exclusive
  have different : lockId (saltedKey false) "rollup" ≠ lockId (saltedKey true) "rollup" := by decide
  have both := both_run different
  exact absurd (exclusive saltedKey _ _ (foldl_mem_visited start _) _ _ both.1 both.2) (by decide)

end PowerBlockade.Jobs
