import PowerBlockade.Primary.NodeSync

/-!
# The job that ages nodes

Its cutoffs only move forward, so a run finds nothing that an earlier one should have left for it. An
exception, such as a cutoff before the year 1, makes a run do nothing.
-/

namespace PowerBlockade.Nodes
open Lib Primary

/-! ## One row -/

/-- The ways a status moves, in one pass or in two. -/
inductive Ages : NodeStatus → NodeStatus → Prop
  | stale : Ages .active .stale
  | offline : Ages .stale .offline
  | both : Ages .active .offline

structure MovedOn (before after : Node) : Prop where
  columns : after = { before with status := after.status }
  status : after.status = before.status ∨
    before.lastSeen.isSome = true ∧ Ages before.status after.status

section

variable {stale offline : DateTime} (node : Node)

theorem stateTransition_moves :
    stateTransition stale offline node = node.status ∨
      node.lastSeen.isSome = true ∧ Ages node.status (stateTransition stale offline node) := by
  cases seen : node.lastSeen with
  | none => exact Or.inl (by simp [stateTransition, seen])
  | some time =>
      unfold stateTransition
      cases status : node.status with
      | active =>
          by_cases late : time < stale
          · by_cases gone : time < offline
            · exact Or.inr ⟨rfl, by simpa [seen, late, gone] using Ages.both⟩
            · exact Or.inr ⟨rfl, by simpa [seen, late, gone] using Ages.stale⟩
          · exact Or.inl (by simp [seen, late])
      | stale =>
          by_cases gone : time < offline
          · exact Or.inr ⟨rfl, by simpa [seen, gone] using Ages.offline⟩
          · exact Or.inl (by simp [seen, gone])
      | pending | offline | quarantine | error => exact Or.inl (by simp)

theorem stateTransition_active (active : stateTransition stale offline node = .active) :
    ∀ seen ∈ node.lastSeen, stale ≤ seen := by
  intro seen member
  by_contra old
  have late := not_le.mp old
  cases status : node.status <;> by_cases gone : seen < offline <;>
    simp [stateTransition, Option.mem_def.mp member, status, late, gone] at active

theorem stateTransition_stale (stopped : stateTransition stale offline node = .stale) :
    ∀ seen ∈ node.lastSeen, offline ≤ seen := by
  intro seen member
  by_contra old
  have gone := not_le.mp old
  cases status : node.status <;> by_cases late : seen < stale <;>
    simp [stateTransition, Option.mem_def.mp member, status, late, gone] at stopped

theorem any_lt_mono {seen : Option DateTime} {s t : DateTime} (later : s ≤ t)
    (expired : seen.any (· < s) = true) : seen.any (· < t) = true := by
  obtain ⟨time, found, before⟩ := (Option.any_eq_true _ _).mp expired
  exact (Option.any_eq_true _ _).mpr ⟨time, found, by simpa using (of_decide_eq_true before).trans_le later⟩

/-- A pass with later cutoffs takes back no step of one with earlier cutoffs, and makes all of them. -/
theorem stateTransition_again {stale' offline' : DateTime} (staleLater : stale ≤ stale')
    (offlineLater : offline ≤ offline') :
    stateTransition stale' offline' { node with status := stateTransition stale offline node } =
      stateTransition stale' offline' node := by
  have late : node.lastSeen.any (· < stale) = true → node.lastSeen.any (· < stale') = true :=
    any_lt_mono staleLater
  have gone : node.lastSeen.any (· < offline) = true → node.lastSeen.any (· < offline') = true :=
    any_lt_mono offlineLater
  unfold stateTransition
  dsimp only
  -- what is left is about the status and the four comparisons
  generalize node.lastSeen.any (· < stale) = late₁ at late ⊢
  generalize node.lastSeen.any (· < stale') = late₂ at late ⊢
  generalize node.lastSeen.any (· < offline) = gone₁ at gone ⊢
  generalize node.lastSeen.any (· < offline') = gone₂ at gone ⊢
  generalize node.status = status
  cases status <;> cases late₁ <;> cases gone₁ <;> simp_all

end

/-! ## The cutoffs -/

theorem minutesBefore_mono {earlier now before cutoff : DateTime} {minutes : Int}
    (later : earlier ≤ now) (first : minutesBefore earlier minutes = some before)
    (second : minutesBefore now minutes = some cutoff) : before ≤ cutoff := by
  have micros := DateTime.le_iff.mp later
  rw [DateTime.le_iff]
  have left := DateTime.before_eq_some first
  have right := DateTime.before_eq_some second
  omega

theorem stateThresholds_eq_some {settings : Settings} {now : DateTime} {cutoffs : DateTime × DateTime} :
    stateThresholds settings now = some cutoffs ↔ ∃ stale offline,
      settings.getHealthStaleMinutes = some stale ∧ settings.getHealthOfflineMinutes = some offline ∧
        minutesBefore now stale = some cutoffs.1 ∧ minutesBefore now offline = some cutoffs.2 := by
  obtain ⟨first, second⟩ := cutoffs
  simp only [stateThresholds, Option.bind_eq_bind, Option.bind_eq_some_iff, Option.pure_def,
    Option.some.injEq, Prod.mk.injEq]
  constructor
  · rintro ⟨stale, staleFound, offline, offlineFound, _, moved, _, movedToo, rfl, rfl⟩
    exact ⟨stale, offline, staleFound, offlineFound, moved, movedToo⟩
  · rintro ⟨stale, offline, staleFound, offlineFound, moved, movedToo⟩
    exact ⟨stale, staleFound, offline, offlineFound, first, moved, second, movedToo, rfl, rfl⟩

/-! ## The job -/

variable {db : Database} {now : DateTime}

theorem job_eq (db : Database) (now : DateTime) :
    nodeStateTransitionsJob db now = { db with nodes := (nodeStateTransitionsJob db now).nodes } := by
  unfold nodeStateTransitionsJob
  split <;> rfl

theorem job_eq_of_none (raised : stateThresholds db.settings now = none) :
    nodeStateTransitionsJob db now = db := by
  simp only [nodeStateTransitionsJob, raised]

theorem job_eq_of_some {cutoffs : DateTime × DateTime}
    (found : stateThresholds db.settings now = some cutoffs) :
    nodeStateTransitionsJob db now =
      { db with nodes := db.nodes.setStatus (stateTransition cutoffs.1 cutoffs.2) } := by
  simp only [nodeStateTransitionsJob, found]

theorem setStatus_setStatus (table : NodeTable) (f g : Node → NodeStatus) :
    (table.setStatus f).setStatus g =
      table.setStatus fun row => g { row with status := f row } := by
  simp [NodeTable.setStatus, Function.comp_def]

theorem job_moves (db : Database) (now : DateTime) :
    List.Forall₂ MovedOn db.nodes.rows (nodeStateTransitionsJob db now).nodes.rows := by
  cases found : stateThresholds db.settings now with
  | none =>
      rw [job_eq_of_none found, List.forall₂_same]
      exact fun row _ => ⟨rfl, Or.inl rfl⟩
  | some cutoffs =>
      rw [job_eq_of_some found]
      refine List.forall₂_map_right_iff.mpr (List.forall₂_same.mpr fun row _ => ⟨rfl, ?_⟩)
      exact stateTransition_moves row

theorem job_job {earlier : DateTime} (later : earlier ≤ now)
    (representable : (stateThresholds db.settings now).isSome = true ∨
      stateThresholds db.settings earlier = none) :
    nodeStateTransitionsJob (nodeStateTransitionsJob db earlier) now =
      nodeStateTransitionsJob db now := by
  cases first : stateThresholds db.settings earlier with
  | none => rw [job_eq_of_none first]
  | some before =>
      obtain ⟨cutoffs, second⟩ :=
        Option.isSome_iff_exists.mp (representable.resolve_right (by simp [first]))
      obtain ⟨stale, offline, staleFound, offlineFound, staleBefore, offlineBefore⟩ :=
        stateThresholds_eq_some.mp first
      obtain ⟨stale', offline', staleAgain, offlineAgain, staleNow, offlineNow⟩ :=
        stateThresholds_eq_some.mp second
      obtain rfl : stale = stale' := Option.some.inj (staleFound.symm.trans staleAgain)
      obtain rfl : offline = offline' := Option.some.inj (offlineFound.symm.trans offlineAgain)
      have staleLater := minutesBefore_mono later staleBefore staleNow
      have offlineLater := minutesBefore_mono later offlineBefore offlineNow
      rw [job_eq_of_some first, job_eq_of_some second, job_eq_of_some (by exact second),
        setStatus_setStatus]
      simp only [stateTransition_again _ staleLater offlineLater]

/-- What a run at `now` is to leave, with or without a run at `earlier`. -/
structure CadenceIndependent (db : Database) (stale offline : Int) (earlier now : DateTime) : Prop where
  once : nodeStateTransitionsJob (nodeStateTransitionsJob db earlier) now = nodeStateTransitionsJob db now
  again : nodeStateTransitionsJob (nodeStateTransitionsJob db now) now = nodeStateTransitionsJob db now
  rest : nodeStateTransitionsJob db now = { db with nodes := (nodeStateTransitionsJob db now).nodes }
  moved : List.Forall₂ MovedOn db.nodes.rows (nodeStateTransitionsJob db now).nodes.rows
  active : ∀ row ∈ (nodeStateTransitionsJob db now).nodes.rows, row.status = .active →
    ∀ seen ∈ row.lastSeen, (now.micros - seen.micros : Int) ≤ stale * minuteMicros
  stale : ∀ row ∈ (nodeStateTransitionsJob db now).nodes.rows, row.status = .stale →
    ∀ seen ∈ row.lastSeen, (now.micros - seen.micros : Int) ≤ offline * minuteMicros

def silentOffice (settings : Settings) : Database :=
  { office .active (some (minute 0)) with settings := settings }

end PowerBlockade.Nodes
