import Mathlib.Data.List.Sort
import PowerBlockade.Columns
import PowerBlockade.Lib.ChangeLog
import PowerBlockade.Lib.Run
import PowerBlockade.Lib.SerialTable
import PowerBlockade.Time

/-!
# Commands for the nodes

The primary queues commands, each node polls for its own, executes them and reports. A report travels
on its own: it arrives at any later time, or never.
-/

namespace PowerBlockade.Commands
open Lib

/-! ## The primary -/

structure NodeCommand where
  nodeId : Option Nat
  command : String
  params : Option String
  createdAt : DateTime
  executedAt : Option DateTime
  result : Option String
deriving DecidableEq

structure Offer where
  id : Nat
  command : String
  params : Option String
  createdAt : String
deriving DecidableEq

structure Report where
  node : Nat
  commandId : Nat
  success : Bool
  result : Option String
deriving DecidableEq

structure Taken where
  commandId : Nat
  node : Nat
  result : String
deriving DecidableEq

def Taken.key (taken : Taken) : Option Nat := some taken.commandId

def NodeCommand.isFor (cmd : NodeCommand) (node : Nat) : Bool :=
  cmd.nodeId = some node ∨ cmd.nodeId = none

def getCommands (commands : SerialTable NodeCommand) (node : Nat) : List Offer :=
  let pending := commands.rows.filter fun row => row.2.executedAt = none ∧ row.2.isFor node
  (pending.insertionSort fun a b => a.2.createdAt ≤ b.2.createdAt).map fun row =>
    ⟨row.1, row.2.command, row.2.params, PyDateTime.isoformat row.2.createdAt⟩

def resultText (name : String) (report : Report) : String :=
  let success := if report.success then "True" else "False"
  let result := report.result.getD "None"
  s!"node={name} success={success} result={result}"

/-- `report_command_result`; the node's key stands for its row. A result that the column refuses is
the failed commit. -/
def reportCommandResult (nodes : SerialTable String) (commands : SerialTable NodeCommand)
    (report : Report) (now : DateTime) : Except (Nat × String) (SerialTable NodeCommand × Taken) :=
  match nodes.get report.node with
  | none => .error (401, "Invalid node API key")
  | some name =>
      match commands.get report.commandId with
      | none => .error (404, "Command not found")
      | some cmd =>
          if cmd.isFor report.node then
            let text := resultText name report
            if storableText text then
              .ok (commands.set report.commandId
                  { cmd with executedAt := some now, result := some text },
                ⟨report.commandId, report.node, text⟩)
            else .error (500, "Internal Server Error")
          else .error (403, "Command not for this node")

/-! ## The agents and the network -/

/-- `todo`: what an agent has fetched and not yet executed. `taken` is the history of the reports that
the primary took. -/
structure World where
  nodes : SerialTable String
  commands : SerialTable NodeCommand
  todo : Nat → List Offer
  reports : List Report
  taken : List Taken

inductive Label
  | queue (nodeId : Option Nat) (command : String) (params : Option String) (now : DateTime)
  | poll (node : Nat)
  | execute (node : Nat) (flushed : Bool × String)
  | deliver (index : Nat) (now : DateTime)
  | lose (index : Nat)

def known (nodes : SerialTable String) (nodeId : Option Nat) : Bool :=
  nodeId.all fun id => (nodes.get id).isSome

/-- The agent knows one command. -/
def executed (node : Nat) (offer : Offer) (flushed : Bool × String) : Report :=
  if offer.command = "clear_cache" then ⟨node, offer.id, flushed.1, some flushed.2⟩
  else ⟨node, offer.id, false, some "unknown command"⟩

namespace World

def deliver (w : World) (report : Report) (now : DateTime) : World :=
  match reportCommandResult w.nodes w.commands report now with
  | .ok (commands, taken) => { w with commands := commands, taken := w.taken ++ [taken] }
  | .error _ => w

def step (w : World) : Label → World
  | .queue nodeId command params now =>
      if known w.nodes nodeId then
        { w with commands := w.commands.insert ⟨nodeId, command, params, now, none, none⟩ }
      else w
  | .poll node =>
      if known w.nodes (some node) then
        { w with todo := Function.update w.todo node (w.todo node ++ getCommands w.commands node) }
      else w
  | .execute node flushed =>
      match w.todo node with
      | [] => w
      | offer :: rest =>
          { w with
            todo := Function.update w.todo node rest
            reports := w.reports ++ [executed node offer flushed] }
  | .deliver index now =>
      match w.reports[index]? with
      | some report => { w with reports := w.reports.eraseIdx index }.deliver report now
      | none => w
  | .lose index => { w with reports := w.reports.eraseIdx index }

def start (nodes : SerialTable String) : World := ⟨nodes, .empty, fun _ => [], [], []⟩

/-! ## What the nodes and their reports are owed -/

/-- A node addressed by a command is offered it as long as no report of its own was taken. -/
def Delivered (w : World) : Prop :=
  ∀ node name, w.nodes.get node = some name → ∀ id cmd, w.commands.get id = some cmd →
    cmd.isFor node = true → (∀ taken ∈ w.taken, taken.commandId = id → taken.node ≠ node) →
      ∃ offer ∈ getCommands w.commands node, offer.id = id

/-- The result on a command is the latest of each node that reported one, so of one node. -/
def ResultsKept (w : World) : Prop :=
  ∀ taken ∈ w.taken, ∃ last cmd, ChangeLog.latest Taken.key w.taken
      taken.commandId = some last ∧ last.node = taken.node ∧
    w.commands.get taken.commandId = some cmd ∧ cmd.result = some last.result

/-! ## What the history says of the commands -/

structure Linked (w : World) : Prop where
  executed : ∀ id cmd, w.commands.get id = some cmd →
    (cmd.executedAt = none ↔ ∀ taken ∈ w.taken, taken.commandId ≠ id)
  addressed : ∀ taken ∈ w.taken, known w.nodes (some taken.node) = true ∧
    ∃ cmd, w.commands.get taken.commandId = some cmd ∧ cmd.isFor taken.node = true
  result : ∀ id last, ChangeLog.latest Taken.key w.taken id = some last →
    ∃ cmd, w.commands.get id = some cmd ∧ cmd.result = some last.result

/-- Whoever reported a command is the only node that it addresses. -/
def Alone (w : World) : Prop :=
  ∀ taken ∈ w.taken, ∀ cmd, w.commands.get taken.commandId = some cmd →
    ∀ node name, w.nodes.get node = some name → cmd.isFor node = true → node = taken.node

variable {w : World}

theorem offered_iff {commands : SerialTable NodeCommand} {node id : Nat} {cmd : NodeCommand}
    (stored : commands.get id = some cmd) (isFor : cmd.isFor node = true) :
    (∃ offer ∈ getCommands commands node, offer.id = id) ↔ cmd.executedAt = none := by
  have member := SerialTable.get_eq_some_iff.mp stored
  constructor
  · rintro ⟨offer, offered, rfl⟩
    obtain ⟨⟨other, row⟩, there, rfl⟩ := List.mem_map.mp offered
    obtain ⟨inside, pending⟩ := List.mem_filter.mp ((List.mem_insertionSort _).mp there)
    have same : row = cmd := Option.some.inj ((SerialTable.get_eq_some_iff.mpr inside).symm.trans stored)
    rw [← same]
    exact (of_decide_eq_true pending).1
  · intro pending
    refine ⟨_, List.mem_map.mpr ⟨(id, cmd), (List.mem_insertionSort _).mpr ?_, rfl⟩, rfl⟩
    exact List.mem_filter.mpr ⟨member, decide_eq_true ⟨pending, isFor⟩⟩

/-- The two properties together say that no one else is addressed by a command once it is reported. -/
theorem owed_iff (linked : w.Linked) : w.Delivered ∧ w.ResultsKept ↔ w.Alone := by
  constructor
  · rintro ⟨delivered, kept⟩ taken member cmd stored node name here isFor
    have done : cmd.executedAt ≠ none := fun pending =>
      (linked.executed _ cmd stored).mp pending taken member rfl
    obtain ⟨own, there, same, reporter⟩ : ∃ own ∈ w.taken, own.commandId = taken.commandId ∧ own.node = node := by
      by_contra none
      refine done ((offered_iff stored isFor).mp (delivered node name here _ cmd stored isFor ?_))
      exact fun own there same reporter => none ⟨own, there, same, reporter⟩
    obtain ⟨last, -, latest, lastOwn, -⟩ := kept own there
    obtain ⟨last', -, latest', lastTaken, -⟩ := kept taken member
    rw [same, latest'] at latest
    rw [← reporter, ← lastOwn, ← lastTaken, Option.some.inj latest]
  · intro alone
    constructor
    · intro node name here id cmd stored isFor none
      refine (offered_iff stored isFor).mpr ((linked.executed id cmd stored).mpr fun taken member same => ?_)
      subst same
      exact none taken member rfl (alone taken member cmd stored node name here isFor).symm
    · intro taken member
      have about : taken.key = some taken.commandId := rfl
      obtain ⟨last, latest⟩ := ChangeLog.exists_latest member about
      obtain ⟨there, same⟩ := ChangeLog.mem_of_latest latest
      obtain ⟨cmd, stored, result⟩ := linked.result _ last latest
      obtain ⟨here, other, stored', isFor⟩ := linked.addressed last there
      rw [Option.some.inj same, stored] at stored'
      obtain ⟨name, here⟩ := Option.isSome_iff_exists.mp here
      refine ⟨last, cmd, latest, ?_, stored, result⟩
      exact alone taken member cmd stored last.node name here (Option.some.inj stored' ▸ isFor)

/-! ## Steps -/

def recorded (w : World) (report : Report) (now : DateTime) (reporter : String) (cmd : NodeCommand) :
    World :=
  { w with
    commands := w.commands.set report.commandId
      { cmd with executedAt := some now, result := some (resultText reporter report) }
    taken := w.taken ++ [⟨report.commandId, report.node, resultText reporter report⟩] }

structure Takes (w : World) (report : Report) (reporter : String) (cmd : NodeCommand) : Prop where
  here : w.nodes.get report.node = some reporter
  stored : w.commands.get report.commandId = some cmd
  isFor : cmd.isFor report.node = true
  storable : storableText (resultText reporter report) = true

theorem Takes.deliver {report : Report} {reporter : String} {cmd : NodeCommand}
    (takes : w.Takes report reporter cmd) (now : DateTime) :
    w.deliver report now = w.recorded report now reporter cmd := by
  unfold World.deliver reportCommandResult
  simp only [takes.here, takes.stored, takes.isFor, takes.storable, if_true]
  rfl

theorem deliver_cases (w : World) (report : Report) (now : DateTime) :
    w.deliver report now = w ∨ ∃ reporter cmd, w.Takes report reporter cmd := by
  cases here : w.nodes.get report.node with
  | none => exact .inl (by simp only [deliver, reportCommandResult, here])
  | some reporter =>
      cases stored : w.commands.get report.commandId with
      | none => exact .inl (by simp only [deliver, reportCommandResult, here, stored])
      | some cmd =>
          by_cases isFor : cmd.isFor report.node = true
          · by_cases storable : storableText (resultText reporter report) = true
            · exact .inr ⟨reporter, cmd, here, stored, isFor, storable⟩
            · refine .inl ?_
              simp only [deliver, reportCommandResult, here, stored, if_pos isFor, if_neg storable]
          · exact .inl (by simp only [deliver, reportCommandResult, here, stored, if_neg isFor])

/-- The id of a new command is not one that was reported. -/
theorem Linked.older (linked : w.Linked) {taken : Taken} (member : taken ∈ w.taken) :
    taken.commandId ≠ w.commands.nextId := by
  obtain ⟨-, cmd, stored, -⟩ := linked.addressed taken member
  rintro same
  rw [same, SerialTable.get_nextId] at stored
  exact absurd stored (Option.some_ne_none _).symm

theorem linked_queue (linked : w.Linked) (cmd : NodeCommand) (fresh : cmd.executedAt = none) :
    Linked { w with commands := w.commands.insert cmd } := by
  refine ⟨fun id row stored => ?_, fun taken member => ?_, fun id last latest => ?_⟩
  · rw [SerialTable.get_insert, Function.update_apply] at stored
    split at stored
    · rename_i new
      cases stored
      exact iff_of_true fresh fun taken member same => linked.older member (same.trans new)
    · exact linked.executed id row stored
  · rw [SerialTable.get_insert, Function.update_of_ne (linked.older member)]
    exact linked.addressed taken member
  · obtain ⟨there, same⟩ := ChangeLog.mem_of_latest latest
    rw [SerialTable.get_insert, Function.update_of_ne (Option.some.inj same ▸ linked.older there)]
    exact linked.result id last latest

theorem linked_recorded (linked : w.Linked) {report : Report} {reporter : String} {cmd : NodeCommand}
    (takes : w.Takes report reporter cmd) (now : DateTime) :
    (w.recorded report now reporter cmd).Linked := by
  obtain ⟨here, stored, isFor, -⟩ := takes
  unfold recorded
  refine ⟨fun id row found => ?_, fun taken member => ?_, fun id last latest => ?_⟩
  · rw [SerialTable.get_set _ stored, Function.update_apply] at found
    split at found
    · rename_i same
      cases found
      refine iff_of_false (Option.some_ne_none _) fun none => ?_
      exact none _ (List.mem_append_right _ (List.mem_singleton_self _)) same.symm
    · rename_i different
      rw [linked.executed id row found, List.forall_mem_append, List.forall_mem_singleton]
      exact (and_iff_left fun same => different same.symm).symm
  · rw [SerialTable.get_set _ stored, Function.update_apply]
    rcases List.mem_append.mp member with old | new
    · obtain ⟨known, row, was, addressed⟩ := linked.addressed taken old
      refine ⟨known, ?_⟩
      split
      · rename_i same
        rw [same, stored] at was
        cases was
        exact ⟨_, rfl, addressed⟩
      · exact ⟨row, was, addressed⟩
    · rw [List.mem_singleton.mp new]
      refine ⟨by simp [known, here], ?_⟩
      rw [if_pos rfl]
      exact ⟨_, rfl, isFor⟩
  · rw [ChangeLog.latest_append] at latest
    rw [SerialTable.get_set _ stored, Function.update_apply]
    split at latest
    · rename_i about
      cases latest
      rw [if_pos (Option.some.inj about).symm]
      exact ⟨_, rfl, rfl⟩
    · rename_i about
      rw [if_neg fun same => about (congrArg Option.some same.symm)]
      exact linked.result id last latest

theorem linked_deliver (linked : w.Linked) (report : Report) (now : DateTime) :
    (w.deliver report now).Linked := by
  rcases deliver_cases w report now with same | ⟨reporter, cmd, takes⟩
  · rw [same]
    exact linked
  · rw [takes.deliver now]
    exact linked_recorded linked takes now

theorem linked_step (linked : w.Linked) (label : Label) : (w.step label).Linked := by
  cases label with
  | queue nodeId command params now =>
      rw [step]
      split
      · exact linked_queue linked _ rfl
      · exact linked
  | poll node =>
      rw [step]
      split
      · exact ⟨linked.executed, linked.addressed, linked.result⟩
      · exact linked
  | execute node flushed =>
      rw [step]
      split
      · exact linked
      · exact ⟨linked.executed, linked.addressed, linked.result⟩
  | deliver index now =>
      rw [step]
      split
      · apply linked_deliver
        exact ⟨linked.executed, linked.addressed, linked.result⟩
      · exact linked
  | lose index => exact ⟨linked.executed, linked.addressed, linked.result⟩

/-- A report on a command for all nodes is taken only where there is no other node. -/
def OnlyReporter (w : World) (report : Report) : Prop :=
  ∀ reporter cmd, w.Takes report reporter cmd → cmd.nodeId = none →
    ∀ node name, w.nodes.get node = some name → node = report.node

def Exclusive (w : World) : Label → Prop
  | .deliver index _ => ∀ report, w.reports[index]? = some report → w.OnlyReporter report
  | _ => True

theorem alone_queue (linked : w.Linked) (cmd : NodeCommand) :
    Alone { w with commands := w.commands.insert cmd } ↔ w.Alone := by
  refine forall_congr' fun taken => forall_congr' fun member => ?_
  rw [SerialTable.get_insert, Function.update_of_ne (linked.older member)]

/-- A report that is taken leaves the other nodes their due exactly when there are none. -/
theorem alone_recorded_iff (alone : w.Alone) {report : Report} {reporter : String} {cmd : NodeCommand}
    (takes : w.Takes report reporter cmd) (now : DateTime) :
    (w.recorded report now reporter cmd).Alone ↔
      (cmd.nodeId = none → ∀ node name, w.nodes.get node = some name → node = report.node) := by
  obtain ⟨here, stored, isFor, -⟩ := takes
  constructor
  · intro after toAll node name there
    have updated : (w.recorded report now reporter cmd).commands.get report.commandId =
        some { cmd with executedAt := some now, result := some (resultText reporter report) } := by
      rw [recorded, SerialTable.get_set _ stored, Function.update_self]
    have member := List.mem_append_right w.taken (List.mem_singleton_self
      (⟨report.commandId, report.node, resultText reporter report⟩ : Taken))
    exact after _ member _ updated node name there (decide_eq_true (.inr toAll))
  · intro exclusive taken member row found node name there addressed
    have owner : row.nodeId = none ∨ row.nodeId = some node :=
      (of_decide_eq_true addressed).symm
    rw [recorded, SerialTable.get_set _ stored, Function.update_apply] at found
    rcases List.mem_append.mp member with old | new
    · split at found
      · rename_i same
        cases found
        exact alone taken old cmd (same ▸ stored) node name there addressed
      · exact alone taken old row found node name there addressed
    · rw [List.mem_singleton.mp new, if_pos rfl] at found
      rw [List.mem_singleton.mp new]
      cases found
      rcases owner with toAll | toNode
      · exact exclusive toAll node name there
      · rcases of_decide_eq_true isFor with toReporter | toAll
        · exact Option.some.inj (toNode.symm.trans toReporter)
        · exact absurd (toNode.symm.trans toAll) (Option.some_ne_none _)

theorem alone_deliver_iff (alone : w.Alone) (report : Report) (now : DateTime) :
    (w.deliver report now).Alone ↔ w.OnlyReporter report := by
  constructor
  · intro after reporter cmd takes
    rw [takes.deliver now, alone_recorded_iff alone takes] at after
    exact after
  · intro only
    rcases deliver_cases w report now with same | ⟨reporter, cmd, takes⟩
    · rw [same]
      exact alone
    · rw [takes.deliver now, alone_recorded_iff alone takes]
      exact only reporter cmd takes

theorem alone_step_iff (linked : w.Linked) (alone : w.Alone) (label : Label) :
    (w.step label).Alone ↔ w.Exclusive label := by
  cases label with
  | queue nodeId command params now =>
      rw [step]
      split
      · exact iff_of_true ((alone_queue linked _).mpr alone) trivial
      · exact iff_of_true alone trivial
  | poll node =>
      rw [step]
      split
      · exact iff_of_true alone trivial
      · exact iff_of_true alone trivial
  | execute node flushed =>
      rw [step]
      split
      · exact iff_of_true alone trivial
      · exact iff_of_true alone trivial
  | deliver index now =>
      rw [step, Exclusive]
      split
      · rename_i report found
        refine Iff.trans (alone_deliver_iff (w := { w with reports := w.reports.eraseIdx index })
          alone report now) ?_
        rw [found]
        constructor
        · rintro only _ ⟨⟩ reporter cmd ⟨here, stored, isFor, storable⟩
          exact only reporter cmd ⟨here, stored, isFor, storable⟩
        · rintro only reporter cmd ⟨here, stored, isFor, storable⟩
          exact only report rfl reporter cmd ⟨here, stored, isFor, storable⟩
      · rename_i none
        rw [none]
        exact iff_of_true alone nofun
  | lose index => exact iff_of_true alone trivial

theorem linked_start (nodes : SerialTable String) : (start nodes).Linked :=
  ⟨fun _ _ stored => absurd stored (Option.some_ne_none _).symm, fun _ member => absurd member List.not_mem_nil,
    fun _ _ latest => absurd latest (Option.some_ne_none _).symm⟩

/-! ## Runs -/

theorem owed_run_iff (nodes : SerialTable String) (run : List Label) :
    (∀ w ∈ visited step (start nodes) run, w.Delivered ∧ w.ResultsKept) ↔
      Along step Exclusive (start nodes) run := by
  have linked : ∀ w ∈ visited step (start nodes) run, w.Linked :=
    visited_of_forall run (linked_start nodes) fun _ label linked => linked_step linked label
  have none : (start nodes).Alone := fun _ member => absurd member List.not_mem_nil
  calc (∀ w ∈ visited step (start nodes) run, w.Delivered ∧ w.ResultsKept)
      ↔ ∀ w ∈ visited step (start nodes) run, w.Alone :=
        forall₂_congr fun w member => owed_iff (linked w member)
    _ ↔ Along step Exclusive (start nodes) run :=
        forall_visited_iff_along (linked_start nodes) (fun _ label linked => linked_step linked label)
          none fun _ label linked alone => alone_step_iff linked alone label

def twoNodes : SerialTable String := (SerialTable.empty.insert "edge-a").insert "edge-b"

/-- A command for both, and the first of them fetches, executes and reports it. -/
def broadcastRun : List Label :=
  [.queue none "clear_cache" none ⟨0, by decide⟩, .poll 1, .execute 1 (true, "flushed 3 entries"),
    .deliver 0 ⟨30000000, by decide⟩]

/-- The second node is not offered it any more. -/
theorem broadcast_ends_for_second :
    ¬ ∀ w ∈ visited step (start twoNodes) broadcastRun, w.Delivered ∧ w.ResultsKept := by
  intro owed
  have delivered := (owed _ (foldl_mem_visited (start twoNodes) broadcastRun)).1
  generalize final : broadcastRun.foldl step (start twoNodes) = w at delivered
  have nodes : w.nodes.get 2 = some "edge-b" := by rw [← final]; decide +kernel
  have taken : ∀ taken ∈ w.taken, taken.node ≠ 2 := by rw [← final]; decide +kernel
  have ended : getCommands w.commands 2 = [] := by rw [← final]; decide +kernel
  have stored : w.commands.get 1 = some ⟨none, "clear_cache", none, ⟨0, by decide⟩,
      some ⟨30000000, by decide⟩, some "node=edge-a success=True result=flushed 3 entries"⟩ := by
    rw [← final]
    decide +kernel
  obtain ⟨offer, offered, -⟩ := delivered 2 _ nodes 1 _ stored rfl fun own member _ => taken own member
  rw [ended] at offered
  exact absurd offered List.not_mem_nil

end World

end PowerBlockade.Commands
