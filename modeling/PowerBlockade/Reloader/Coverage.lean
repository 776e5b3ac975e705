import PowerBlockade.Lib.Run
import PowerBlockade.Reloader.Watch

/-!
# Which changes the reloader catches

A change counts while a watch runs or a reload is still to start; between two watches and during a
reload nothing sees it.
-/

namespace PowerBlockade.Reloader
open Lib

/-! ## Which events matter -/

theorem relevant_of_movedTo (zone : Zone) : ∀ event ∈ zone.movedTo, event.relevant = true := by
  rcases zone with ⟨_ | _⟩ | _ <;> decide

theorem relevant_of_closeWrite (zone : Zone) : ∀ event ∈ zone.closeWrite, event.relevant = true := by
  rcases zone with ⟨_ | _⟩ | _ <;> decide

theorem trigger_irrelevant : (⟨.rpzDir, ".reload-trigger"⟩ : Event).relevant = false := by decide

theorem ignorePattern_dot (rest : List Char) : ignorePattern ('.' :: rest) = true := by
  unfold ignorePattern
  simp only [List.head?_cons, decide_true, Bool.or_true, Bool.true_or]

theorem temp_irrelevant (writer : Writer) (fileName : '/' ∉ writer.suffix.toList) :
    writer.temp.relevant = false := by
  have base : baseName writer.temp.name = '.' :: ("pb-tmp-".toList ++ writer.suffix.toList) := by
    have absent : '/' ∉ ".pb-tmp-".toList ++ writer.suffix.toList := by
      rw [List.mem_append, not_or]
      exact ⟨by decide, fileName⟩
    unfold baseName Writer.temp
    dsimp only
    rw [String.toList_append, List.splitOn_eq_singleton absent]
    rfl
  have ignored : isRelevant writer.temp.name = false := by
    rw [isRelevant, shouldIgnore, base, ignorePattern_dot, Bool.or_true, Bool.not_true]
  obtain ⟨zone, suffix, stage⟩ := writer
  cases zone with
  | rpz name => exact ignored
  | forwardZones =>
      unfold Writer.temp Event.relevant Zone.dir at *
      dsimp only at *
      rw [ignored, Bool.and_false]

namespace Phase

def ReloadDue : Phase → Prop
  | settling | draining | ready => True
  | starting | waiting | reloading => False

instance (phase : Phase) : Decidable phase.ReloadDue :=
  match phase with
  | settling | draining | ready => isTrue trivial
  | starting | waiting | reloading => isFalse id

/-- A zone file's event leads to a reload. -/
def Catches (phase : Phase) : Prop := phase = waiting ∨ phase.ReloadDue

instance (phase : Phase) : Decidable phase.Catches := inferInstanceAs (Decidable (_ ∨ _))

theorem receive_relevant {phase : Phase} {event : Event} (relevant : event.relevant = true)
    (catches : phase.Catches) : (phase.receive event).ReloadDue := by
  cases phase with
  | waiting => simp [receive, relevant, ReloadDue]
  | draining => simp [receive, relevant, ReloadDue]
  | settling => trivial
  | ready => trivial
  | starting => simp [Catches, ReloadDue] at catches
  | reloading => simp [Catches, ReloadDue] at catches

end Phase

/-! ## One step -/

namespace System

variable {s : System}

/-- The zone file whose change a label completes. -/
def completes (s : System) : Label → Option Zone
  | .replace id =>
      match s.writers id with
      | some ⟨zone, _, .staged⟩ => some zone
      | _ => none
  | .closeTarget id =>
      match s.writers id with
      | some ⟨zone, _, .opened⟩ => some zone
      | _ => none
  | _ => none

/-- A change comes while its event is caught, a trigger while a reload is due anyway, and a reload
succeeds. -/
def Timely (s : System) (label : Label) : Prop :=
  (s.completes label ≠ none → s.watcher.Catches) ∧
    (label = .triggerReload → s.watcher.ReloadDue) ∧ label ≠ .endReload false

instance (s : System) (label : Label) : Decidable (s.Timely label) :=
  inferInstanceAs (Decidable (_ ∧ _))

/-- With no reload due, nothing is left that one should have loaded. -/
def Covered (s : System) : Prop :=
  match s.watcher with
  | .settling | .draining | .ready => True
  | .reloading => s.since = [] ∧ s.triggered = false
  | .starting | .waiting => s.changed = [] ∧ s.triggered = false

theorem covered_of_due (due : s.watcher.ReloadDue) : s.Covered := by
  unfold Covered
  cases phase : s.watcher with
  | settling => trivial
  | draining => trivial
  | ready => trivial
  | starting => rw [phase] at due; exact due.elim
  | waiting => rw [phase] at due; exact due.elim
  | reloading => rw [phase] at due; exact due.elim

theorem covered_start : start.Covered := ⟨rfl, rfl⟩

theorem covered_emit (covered : s.Covered) (events : List Event) : (s.emit events).Covered := by
  unfold emit
  cases events.head? with
  | none => exact covered
  | some event =>
      unfold Covered at covered ⊢
      cases phase : s.watcher <;> cases relevant : event.relevant <;>
        simp_all [Phase.receive]

theorem due_emit {events : List Event} {event : Event} (first : events.head? = some event)
    (relevant : event.relevant = true) (catches : s.watcher.Catches) :
    (s.emit events).watcher.ReloadDue := by
  unfold emit
  rw [first]
  exact Phase.receive_relevant relevant catches

/-- The last step of a writer, whichever it is. -/
theorem covered_publish {events : List Event} (relevant : ∀ event ∈ events, event.relevant = true)
    (some : events ≠ []) (id : Nat) (zone : Zone) (catches : s.watcher.Catches) :
    (((s.move id none).change zone).emit events).Covered := by
  cases events with
  | nil => exact absurd rfl some
  | cons event rest => exact covered_of_due (due_emit rfl (relevant event List.mem_cons_self) catches)

theorem covered_step (covered : s.Covered) (label : Label) (timely : s.Timely label) :
    (s.step label).Covered := by
  obtain ⟨catches, due, succeeds⟩ := timely
  cases label with
  | begin id zone suffix =>
      unfold step
      dsimp only
      split <;> exact covered
  | closeTemp id =>
      unfold step
      dsimp only
      split
      · exact covered_emit (s := s.move id _) covered _
      · exact covered
  | replace id =>
      unfold step
      dsimp only
      split
      · rename_i zone suffix staged
        have caught := catches (by simp [completes, staged])
        exact covered_publish (relevant_of_movedTo zone) nofun id zone caught
      · exact covered
  | openTarget id =>
      unfold step
      dsimp only
      split <;> exact covered
  | closeTarget id =>
      unfold step
      dsimp only
      split
      · rename_i zone suffix opened
        have caught := catches (by simp [completes, opened])
        exact covered_publish (relevant_of_closeWrite zone) (by cases zone <;> exact nofun) id zone caught
      · exact covered
  | fail id =>
      unfold step
      dsimp only
      split <;> exact covered
  | triggerReload =>
      apply covered_emit
      exact covered_of_due (due rfl)
  | listen =>
      unfold step Covered at *
      cases phase : s.watcher <;> simp_all
  | timeout =>
      unfold step Covered at *
      cases phase : s.watcher <;> simp_all
  | startReload =>
      unfold step Covered at *
      cases phase : s.watcher <;> simp_all
  | endReload succeeded =>
      have success : succeeded = true := by simpa using succeeds
      unfold step Covered at *
      cases phase : s.watcher <;> simp_all

theorem caught_of_covered (covered : s.Covered) : s.Caught := by
  rintro ⟨waits, -⟩
  unfold Covered at covered
  rw [waits] at covered
  exact covered

end System

/-! ## What ignoring an event costs -/

namespace System

variable {s : System}

/-- A temporary file ends the watch that was to see its rename. -/
theorem closeTemp_ends_watch {id : Nat} {zone : Zone} {suffix : String}
    (waits : s.watcher = .waiting) (writing : s.writers id = some ⟨zone, suffix, .writing⟩)
    (fileName : '/' ∉ suffix.toList) : (s.step (.closeTemp id)).watcher = .starting := by
  have ignored := temp_irrelevant ⟨zone, suffix, .writing⟩ fileName
  simp [step, writing, emit, move, waits, Phase.receive, ignored]

theorem triggerReload_in_vain (idle : ¬ s.watcher.ReloadDue) :
    ¬ (s.step .triggerReload).watcher.ReloadDue := by
  unfold step emit
  cases s.sentinel with
  | true => exact idle
  | false =>
      cases phase : s.watcher <;>
        simp_all [Phase.receive, Phase.ReloadDue, trigger_irrelevant]

end System

/-! ## Over all interleavings -/

/-- When changes and triggers are timely and reloads succeed, none is ever lost. -/
theorem caught_of_timely (labels : List Label)
    (timely : Along System.step System.Timely .start labels) :
    ∀ s ∈ visited System.step .start labels, s.Caught := by
  intro s reached
  apply System.caught_of_covered
  exact visited_invariant System.covered_start timely
    (fun _ label covered timely => System.covered_step covered label timely) s reached

/-! ## The temporary file ends the watch -/

def lostRename : List Label :=
  [.listen, .begin 0 (.rpz .whitelist) "a1b2c3d4", .closeTemp 0, .replace 0, .listen]

theorem lostRename_not_caught :
    ¬ ∀ labels : List Label, ∀ s ∈ visited System.step .start labels, s.Caught := by
  intro caught
  have last := caught lostRename _ (foldl_mem_visited System.start lostRename)
  have waits : (lostRename.foldl System.step .start).watcher = .waiting := by decide
  have idle : ∀ id, (lostRename.foldl System.step .start).writers id = none := by
    intro id
    have moves : (lostRename.foldl System.step .start).writers =
        Function.update (Function.update (Function.update (fun _ => none) 0
          (some ⟨.rpz .whitelist, "a1b2c3d4", .writing⟩)) 0
          (some ⟨.rpz .whitelist, "a1b2c3d4", .staged⟩)) 0 none := rfl
    rw [moves, Function.update_idem, Function.update_idem]
    exact congrFun (Function.update_eq_self 0 (fun _ => none)) id
  have lost : (lostRename.foldl System.step .start).changed ≠ [] := by decide
  exact lost (last ⟨waits, idle⟩).1

theorem caught_of_timely_rename :
    System.Caught (([.begin 0 (.rpz .whitelist) "a1b2c3d4", .closeTemp 0, .listen, .replace 0, .timeout,
      .startReload, .endReload true, .listen] : List Label).foldl System.step .start) :=
  caught_of_timely _ (by decide) _ (foldl_mem_visited _ _)

end PowerBlockade.Reloader
