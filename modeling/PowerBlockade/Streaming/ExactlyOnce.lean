import PowerBlockade.Lib.Run
import PowerBlockade.Streaming.Stream

/-!
# What reaches the client of the live stream
-/

namespace PowerBlockade.Streaming
open Lib Primary

def Label.isPoll : Label → Bool
  | .poll _ => true
  | _ => false

def polls (run : List Label) : Nat := run.countP Label.isPoll

namespace World

/-- An event for the client that was committed after the start id was read. -/
def Fresh (w : World) (row : Nat × DNSQueryEvent) : Prop :=
  row ∈ w.db.visible ∧ row ∉ w.first.visible ∧ row.2.isInternal = false

/-- Whatever happens next, a fresh event has been sent once as soon as enough polls were made. -/
structure ExactlyOnce (w : World) : Prop where
  increasing : ∀ data, Frame.events data ∈ w.connection.sent → data.Pairwise fun a b => a.id < b.id
  once : ∀ row, w.Fresh row → ∃ n, ∀ rest : List Label, n ≤ polls rest →
    (rest.foldl step w).connection.data.count (eventData row) = 1

/-- A commit brings no event that the stream has passed. -/
def Timely (w : World) : Label → Prop
  | .commit tx => w.db.status tx = .opened →
      ∀ row ∈ w.db.rowsOf tx, row.2.isInternal = false → w.connection.lastId < row.1
  | _ => True

def Accounted (w : World) : Prop :=
  ∀ row, w.Fresh row → eventData row ∈ w.connection.data ∨ w.connection.lastId < row.1

structure Ordered (w : World) : Prop where
  increasing : w.connection.data.Pairwise fun a b => a.id < b.id
  below : ∀ event ∈ w.connection.data, event.id ≤ w.connection.lastId
  seen : ∀ event ∈ w.connection.data, ∃ row ∈ w.db.visible, event = eventData row
  first : ∀ row ∈ w.first.visible, row ∈ w.db.visible

variable {w : World} {row : Nat × DNSQueryEvent}

/-! ## Steps -/

theorem mem_visible_step (label : Label) (seen : row ∈ w.db.visible) : row ∈ (w.step label).db.visible := by
  cases label with
  | insert tx row =>
      rw [step, CommitOrder.visible_insert]
      exact seen
  | discard id =>
      rw [step, CommitOrder.visible_discard]
      exact seen
  | commit tx =>
      by_cases opened : w.db.status tx = .opened
      · exact (CommitOrder.mem_visible_commit opened row).mpr (.inl seen)
      · rw [step, CommitOrder.finish, if_neg opened]
        exact seen
  | abort tx =>
      rw [step, CommitOrder.visible_abort]
      exact seen
  | poll message => exact seen

theorem ordered_step (ordered : w.Ordered) (label : Label) : (w.step label).Ordered := by
  have kept (row : Nat × DNSQueryEvent) (seen : row ∈ w.db.visible) : row ∈ (w.step label).db.visible :=
    mem_visible_step label seen
  cases label with
  | insert | discard | commit | abort =>
      refine ⟨ordered.increasing, ordered.below, fun event member => ?_, fun row member => ?_⟩
      · obtain ⟨row, seen, same⟩ := ordered.seen event member
        exact ⟨row, kept row seen, same⟩
      · exact kept row (ordered.first row member)
  | poll message =>
      let page := w.db.page external w.connection.lastId 50
      have increasing : page.Pairwise fun a b => a.1 < b.1 := CommitOrder.page_increasing ..
      refine ⟨?_, fun event member => ?_, fun event member => ?_, ordered.first⟩
      · rw [step, streamQueries_data, List.pairwise_append]
        refine ⟨ordered.increasing, List.pairwise_map.mpr increasing, fun old before new after => ?_⟩
        obtain ⟨row, there, rfl⟩ := List.mem_map.mp after
        exact Nat.lt_of_le_of_lt (ordered.below old before) (CommitOrder.mem_page there).2.1
      · rw [step, streamQueries_data] at member
        rw [step, streamQueries_lastId]
        rcases List.mem_append.mp member with before | after
        · exact (ordered.below event before).trans (CommitOrder.le_advance_page ..)
        · obtain ⟨row, there, rfl⟩ := List.mem_map.mp after
          exact CommitOrder.le_advance_of_mem increasing there
      · rw [step, streamQueries_data] at member
        rcases List.mem_append.mp member with before | after
        · exact ordered.seen event before
        · obtain ⟨row, there, rfl⟩ := List.mem_map.mp after
          exact ⟨row, (CommitOrder.mem_page there).1, rfl⟩

/-- An event in sight that was not sent and not passed is sent by a poll or stays so. -/
theorem pending_poll (seen : row ∈ w.db.visible) (outside : row.2.isInternal = false)
    (pending : w.connection.lastId < row.1)
    (message : Option { message : Incoming // message.leavesCursor = true }) :
    eventData row ∈ (w.step (.poll message)).connection.data ∨
      w.connection.lastId < (w.step (.poll message)).connection.lastId ∧
        (w.step (.poll message)).connection.lastId < row.1 := by
  have want : external row.2 = true := by rw [external, outside]; rfl
  rw [step, streamQueries_data, streamQueries_lastId]
  have positive : 0 < 50 := by decide
  rcases CommitOrder.mem_page_or_advance positive seen pending want with inside | beyond
  · exact .inl (List.mem_append_right _ (List.mem_map_of_mem inside))
  · exact .inr beyond

theorem mem_data_step (label : Label) {event : EventData} (member : event ∈ w.connection.data) :
    event ∈ (w.step label).connection.data := by
  cases label with
  | insert | discard | commit | abort => exact member
  | poll message =>
      rw [step, streamQueries_data]
      exact List.mem_append_left _ member

/-- What the stream has passed without sending it is not sent any more. -/
theorem missed_step (label : Label) (passed : row.1 ≤ w.connection.lastId)
    (missed : eventData row ∉ w.connection.data) :
    row.1 ≤ (w.step label).connection.lastId ∧ eventData row ∉ (w.step label).connection.data := by
  cases label with
  | insert | discard | commit | abort => exact ⟨passed, missed⟩
  | poll message =>
      rw [step, streamQueries_data, streamQueries_lastId, List.mem_append, not_or]
      refine ⟨passed.trans (CommitOrder.le_advance_page ..), missed, fun member => ?_⟩
      obtain ⟨other, there, same⟩ := List.mem_map.mp member
      have above := (CommitOrder.mem_page there).2.1
      have id : other.1 = row.1 := congrArg EventData.id same
      exact absurd passed (id ▸ above).not_ge

/-! ## Exactly once is to be accounted for -/

theorem ordered_run (ordered : w.Ordered) (rest : List Label) : (rest.foldl step w).Ordered :=
  foldl_preserves rest ordered fun _ label ordered => ordered_step ordered label

theorem missed_run (rest : List Label) (passed : row.1 ≤ w.connection.lastId)
    (missed : eventData row ∉ w.connection.data) :
    eventData row ∉ (rest.foldl step w).connection.data :=
  (foldl_preserves (P := fun w : World => row.1 ≤ w.connection.lastId ∧ eventData row ∉ w.connection.data)
    rest ⟨passed, missed⟩ fun _ label both => missed_step label both.1 both.2).2

/-- Each poll sends a pending event or raises the cursor towards it. -/
theorem sent_run (rest : List Label) (seen : row ∈ w.db.visible) (outside : row.2.isInternal = false)
    (coming : eventData row ∈ w.connection.data ∨
      w.connection.lastId < row.1 ∧ row.1 ≤ w.connection.lastId + polls rest) :
    eventData row ∈ (rest.foldl step w).connection.data := by
  induction rest generalizing w with
  | nil => exact coming.resolve_right fun both => absurd both.1 both.2.not_gt
  | cons label rest ih =>
      refine ih (mem_visible_step label seen) ?_
      rcases coming with sent | ⟨pending, near⟩
      · exact .inl (mem_data_step label sent)
      · cases label with
        | insert | discard | commit | abort => exact .inr ⟨pending, near⟩
        | poll message =>
            refine (pending_poll seen outside pending message).imp_right fun beyond => ?_
            have counted : polls (.poll message :: rest) = polls rest + 1 := List.countP_cons_of_pos rfl
            exact ⟨beyond.2, by omega⟩

theorem nodup_data (ordered : w.Ordered) : w.connection.data.Nodup :=
  ordered.increasing.imp fun below same => absurd (congrArg EventData.id same) below.ne

theorem exactlyOnce_iff (ordered : w.Ordered) : w.ExactlyOnce ↔ w.Accounted := by
  constructor
  · intro exactly row fresh
    obtain ⟨n, sent⟩ := exactly.once row fresh
    by_contra lost
    obtain ⟨missed, passed⟩ := not_or.mp lost
    have enough : polls (List.replicate n (.poll none)) = n := List.countP_replicate.trans (if_pos rfl)
    have counted := sent _ enough.ge
    rw [List.count_eq_zero_of_not_mem (missed_run _ (not_lt.mp passed) missed)] at counted
    contradiction
  · intro accounted
    refine ⟨fun data member => ?_, fun row fresh => ⟨row.1, fun rest enough => ?_⟩⟩
    · exact ordered.increasing.sublist
        (List.sublist_flatten_of_mem (List.mem_map_of_mem (f := Frame.data) member))
    · refine List.count_eq_one_of_mem (nodup_data (ordered_run ordered rest)) ?_
      refine sent_run rest fresh.1 fresh.2.2 ((accounted row fresh).imp_right fun pending => ⟨pending, ?_⟩)
      exact enough.trans (Nat.le_add_left _ _)

/-! ## Commits out of order -/

theorem accounted_commit_iff (ordered : w.Ordered) (accounted : w.Accounted) {tx : Nat}
    (opened : w.db.status tx = .opened) : (w.step (.commit tx)).Accounted ↔
      ∀ row ∈ w.db.rowsOf tx, row.2.isInternal = false → w.connection.lastId < row.1 := by
  have unseen (row) (own : row ∈ w.db.rowsOf tx) (other : DNSQueryEvent) : (row.1, other) ∉ w.db.visible :=
    CommitOrder.not_mem_visible_of_opened opened own other
  constructor
  · intro after row own outside
    have fresh : (w.step (.commit tx)).Fresh row :=
      ⟨(CommitOrder.mem_visible_commit opened row).mpr (.inr own),
        fun before => unseen row own row.2 (ordered.first row before), outside⟩
    refine (after row fresh).resolve_left fun sent => ?_
    obtain ⟨other, seen, same⟩ := ordered.seen _ sent
    have id : row.1 = other.1 := congrArg EventData.id same
    exact unseen row own other.2 (id ▸ seen)
  · rintro timely row ⟨seen, late, outside⟩
    rcases (CommitOrder.mem_visible_commit opened row).mp seen with before | own
    · exact accounted row ⟨before, late, outside⟩
    · exact .inr (timely row own outside)

theorem accounted_step_iff (ordered : w.Ordered) (accounted : w.Accounted) (label : Label) :
    (w.step label).Accounted ↔ w.Timely label := by
  cases label with
  | insert tx event =>
      refine iff_of_true (fun row fresh => accounted row ⟨?_, fresh.2⟩) trivial
      exact CommitOrder.visible_insert w.db tx event ▸ fresh.1
  | discard id =>
      refine iff_of_true (fun row fresh => accounted row ⟨?_, fresh.2⟩) trivial
      exact CommitOrder.visible_discard w.db id ▸ fresh.1
  | commit tx =>
      by_cases opened : w.db.status tx = .opened
      · refine (accounted_commit_iff ordered accounted opened).trans ?_
        exact ⟨fun timely _ => timely, fun timely => timely opened⟩
      · refine iff_of_true (fun row fresh => accounted row ⟨?_, fresh.2⟩) fun open' => absurd open' opened
        have same : (w.step (.commit tx)).db = w.db := if_neg opened
        exact same ▸ fresh.1
  | abort tx =>
      refine iff_of_true (fun row fresh => accounted row ⟨?_, fresh.2⟩) trivial
      exact CommitOrder.visible_abort w.db tx ▸ fresh.1
  | poll message =>
      refine iff_of_true (fun row fresh => ?_) trivial
      rcases accounted row fresh with sent | pending
      · exact .inl (mem_data_step (.poll message) sent)
      · exact (pending_poll (w := w) fresh.1 fresh.2.2 pending message).imp_right And.right

/-! ## Runs -/

theorem ordered_start (db : Database) : (start db).Ordered :=
  ⟨.nil, fun _ member => absurd member List.not_mem_nil, fun _ member => absurd member List.not_mem_nil,
    fun _ seen => seen⟩

theorem exactlyOnce_run_iff (db : Database) (run : List Label) :
    (∀ w ∈ visited step (start db) run, w.ExactlyOnce) ↔ Along step Timely (start db) run := by
  have ordered : ∀ w ∈ visited step (start db) run, w.Ordered :=
    visited_of_forall run (ordered_start db) fun _ label ordered => ordered_step ordered label
  have none : (start db).Accounted := fun row fresh => absurd fresh.1 fresh.2.1
  calc (∀ w ∈ visited step (start db) run, w.ExactlyOnce)
      ↔ ∀ w ∈ visited step (start db) run, w.Accounted :=
        forall₂_congr fun w member => exactlyOnce_iff (ordered w member)
    _ ↔ Along step Timely (start db) run :=
        forall_visited_iff_along (ordered_start db) (fun _ label ordered => ordered_step ordered label)
          none fun _ label ordered accounted => accounted_step_iff ordered accounted label

def query (eventId qname : String) : DNSQueryEvent :=
  ⟨some eventId, none, 0, some 1, "192.168.1.10", none, qname, 1, 0, false, none, none, some 12, false⟩

/-- The second transaction commits first, and a poll comes between the commits. -/
def overtakenRun : List Label :=
  [.insert 1 (query "a1" "example.com"), .insert 2 (query "b1" "example.org"), .commit 2, .poll none,
    .commit 1]

theorem overtaken_event_lost :
    ¬ ∀ w ∈ visited step (start .empty) overtakenRun, w.ExactlyOnce := by
  intro exactly
  have final := exactly _ (foldl_mem_visited (start .empty) overtakenRun)
  have ordered : (overtakenRun.foldl step (start .empty)).Ordered := ordered_run (ordered_start _) _
  have accounted := (exactlyOnce_iff ordered).mp final
  have fresh : (overtakenRun.foldl step (start .empty)).Fresh (1, query "a1" "example.com") := by
    unfold Fresh
    decide +kernel
  rcases accounted _ fresh with sent | pending
  · revert sent
    decide +kernel
  · revert pending
    decide +kernel

end World

end PowerBlockade.Streaming
