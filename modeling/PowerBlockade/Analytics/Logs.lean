import PowerBlockade.Lib.Like
import PowerBlockade.Lib.Paging
import PowerBlockade.Rollups.History
import PowerBlockade.Rollups.NodeDeletion
import PowerBlockade.Rollups.Retention
import PowerBlockade.Zones.Names

/-!
# The query log

`logs_page` for its views of single events. A request counts the events that its filters select and
then lists a page of them; other requests and the jobs commit before, between and after.
-/

namespace PowerBlockade.Analytics
open Lib Primary Rollups

def pageSize : Nat := 25

def qtypeNames : List (Int × String) :=
  [(1, "A"), (2, "NS"), (5, "CNAME"), (6, "SOA"), (12, "PTR"), (15, "MX"), (16, "TXT"), (28, "AAAA"),
    (33, "SRV"), (65, "HTTPS")]

def rcodeNames : List (Int × String) :=
  [(0, "NOERROR"), (1, "FORMERR"), (2, "SERVFAIL"), (3, "NXDOMAIN"), (4, "NOTIMP"), (5, "REFUSED")]

/-! ## Filters -/

structure Filters where
  q : Option String
  client : Option String
  window : TimeWindow
  rcode : Option String
  qtype : Option String
  blocked : Option String
  blocklist : Option String
  view : String
  includeInternal : Bool

/-- A parameter that is missing or empty filters nothing. -/
def given (value : Option String) : Option String := value.filter (· ≠ "")

def codeOf (names : List (Int × String)) (name : String) : Option Int :=
  (names.find? (·.2 = name)).map (·.1)

namespace Filters

def effectiveBlocked (filters : Filters) : Option String :=
  if filters.view = "blocked" then some "yes" else filters.blocked

def effectiveRcode (filters : Filters) : Option String :=
  if filters.view = "failures" then none else filters.rcode

variable (folding : Like.Folding)

def ilike (pattern text : String) : Bool :=
  Like.accepts (Like.tokens (pattern.toList.map folding.fold)) (text.toList.map folding.fold)

/-- All filters but the one on the time. -/
def keeps (filters : Filters) (row : DNSQueryEvent) : Bool :=
  shown filters.includeInternal row &&
  (filters.view ≠ "failures" || ((row.rcode = 2 || row.rcode = 3) && !row.blocked)) &&
  (given filters.q).all (fun q => ilike folding ("%" ++ q ++ "%") row.qname) &&
  (given filters.client).all (row.clientIp = ·) &&
  ((given filters.effectiveRcode).bind (codeOf rcodeNames)).all (row.rcode = ·) &&
  ((given filters.qtype).bind (codeOf qtypeNames)).all (row.qtype = ·) &&
  (filters.effectiveBlocked ≠ some "yes" || row.blocked) &&
  (filters.effectiveBlocked ≠ some "no" || !row.blocked) &&
  (given filters.blocklist).all (fun name => row.blocklistName = some name)

def selected (filters : Filters) (since : DateTime) (events : List DNSQueryEvent) : List DNSQueryEvent :=
  events.filter fun row => since.micros ≤ row.ts && filters.keeps folding row

/-! ### The search box -/

variable {folding}

def contains (folding : Like.Folding) (q : String) (row : DNSQueryEvent) : Bool :=
  q.toList.map folding.fold <:+: row.qname.toList.map folding.fold

/-- No filter but a search, which may be missing. -/
def searching (q : Option String) (window : TimeWindow) (includeInternal : Bool) : Filters :=
  ⟨q, none, window, none, none, none, none, "all", includeInternal⟩

theorem toList_searched (q : String) : ("%" ++ q ++ "%").toList = '%' :: (q.toList ++ ['%']) := by
  simp

theorem keeps_searching (q : Option String) (window : TimeWindow) (includeInternal : Bool) (row : DNSQueryEvent) :
    (searching q window includeInternal).keeps folding row =
      (shown includeInternal row && (given q).all fun q => ilike folding ("%" ++ q ++ "%") row.qname) := by
  simp [keeps, searching, given, effectiveBlocked, effectiveRcode]

theorem given_some {q : String} (nonempty : q ≠ "") : given (some q) = some q := by
  simp [given, Option.filter, nonempty]

theorem ilike_eq_contains_iff (folding : Like.Folding) (q : String) :
    (∀ row : DNSQueryEvent, ilike folding ("%" ++ q ++ "%") row.qname = contains folding q row) ↔
      Like.Plain q.toList := by
  rw [← Like.search_iff_plain folding q.toList]
  have same (row : DNSQueryEvent) : ilike folding ("%" ++ q ++ "%") row.qname = contains folding q row ↔
      (Like.accepts (Like.tokens (('%' :: (q.toList ++ ['%'])).map folding.fold)) (row.qname.toList.map folding.fold) =
        true ↔ q.toList.map folding.fold <:+: row.qname.toList.map folding.fold) := by
    rw [Bool.eq_iff_iff, ilike, toList_searched, contains, decide_eq_true_eq]
  simp only [same]
  constructor
  · intro found text
    simpa only [query, String.toList_ofList] using found (query 0 (String.ofList text) none)
  · exact fun found row => found row.qname.toList

/-- The search box lists the events whose name contains the text, whatever the table, exactly when the text
has no `%`, no underscore and no backslash. -/
theorem search_finds_iff_plain (folding : Like.Folding) (q : String) (window : TimeWindow) (includeInternal : Bool) :
    (∀ since events, (searching (some q) window includeInternal).selected folding since events =
      ((searching none window includeInternal).selected folding since events).filter (contains folding q)) ↔
      Like.Plain q.toList := by
  by_cases empty : q = ""
  · subst empty
    refine iff_of_true (fun since events => ?_) (fun c member => absurd member List.not_mem_nil)
    rw [selected, selected, List.filter_filter]
    refine List.filter_congr fun row _ => ?_
    simp [contains, keeps_searching, given]
  · rw [← ilike_eq_contains_iff folding]
    simp only [selected, keeps_searching, given_some empty, List.filter_filter]
    constructor
    · intro finds row
      let probe : DNSQueryEvent := { row with ts := 0, isInternal := false }
      have listed := congrArg (probe ∈ ·) (finds ⟨0, by decide⟩ [probe])
      have visible : shown includeInternal probe = true := by simp [shown, probe]
      have early : (0 : Int) ≤ probe.ts := le_rfl
      have same : ilike folding ("%" ++ q ++ "%") probe.qname = contains folding q probe := by
        simpa [List.mem_filter, visible, given, early] using listed
      exact same
    · intro same since events
      refine List.filter_congr fun row _ => ?_
      simp only [Option.all_some, same]
      cases contains folding q row <;> simp [given]

end Filters

/-! ## Requests -/

abbrev Newest := Listing fun row : DNSQueryEvent => row.ts

/-- A request between its two queries. -/
structure Counted where
  page : Nat
  since : DateTime
  total : Nat
deriving DecidableEq

structure Answer where
  page : Nat
  since : DateTime
  total : Nat
  totalPages : Nat
  events : List DNSQueryEvent

structure World where
  store : Retention.World
  request : Option Counted
  answers : List Answer

inductive Label
  | store (label : Retention.Label)
  | deleteNode (id : Nat)
  /-- The reader asks for a page; `user` says whether somebody is logged in. -/
  | count (user : Bool) (page : Nat) (now : DateTime)
  | list (order : Newest)

def deleteNode (store : Retention.World) (id : Nat) : Retention.World :=
  { store with
    database := store.database.deleteNode id
    table := NodeDeletion.deleteNodeRollups store.table id }

section Steps

variable (modelValidate : ModelValidate) (folding : Like.Folding) (filters : Filters)

def countPage (world : World) (user : Bool) (page : Nat) (now : DateTime) : World :=
  -- a page below one is refused, and so is a window that starts before the year 1
  match if user ∧ 1 ≤ page then windowStart now filters.window.hours else none with
  | none => world
  | some since =>
      let total := (filters.selected folding since world.store.events).length
      { world with request := some ⟨page, since, total⟩ }

def listPage (world : World) (order : Newest) : World :=
  match world.request with
  | none => world
  | some ⟨page, since, total⟩ =>
      let events := pageOf pageSize page (order.sort (filters.selected folding since world.store.events))
      { world with
        request := none
        answers := world.answers ++ [⟨page, since, total, pageCount pageSize total, events⟩] }

def step (world : World) : Label → World
  | .store label => { world with store := Retention.step modelValidate world.store label }
  | .deleteNode id => { world with store := deleteNode world.store id }
  | .count user page now => countPage folding filters world user page now
  | .list order => listPage folding filters world order

end Steps

/-! ## An event in the listing -/

section Rank

variable {modelValidate : ModelValidate} {folding : Like.Folding} {filters : Filters}

/-- An event without its node, which deleting the node takes away. -/
def unattributed (row : DNSQueryEvent) : DNSQueryEvent := { row with nodeId := none }

/-- The number of events that the log lists before those of the time. -/
def newer (folding : Like.Folding) (filters : Filters) (ts : Int) (events : List DNSQueryEvent) : Nat :=
  rank (fun row : DNSQueryEvent => row.ts) ts (events.filter (filters.keeps folding))

theorem unattributed_forgetNode (id : Nat) (row : DNSQueryEvent) :
    unattributed (row.forgetNode id) = unattributed row := by
  unfold DNSQueryEvent.forgetNode
  split <;> rfl

theorem ts_of_unattributed {row other : DNSQueryEvent} (same : unattributed row = unattributed other) :
    row.ts = other.ts := by
  have times := congrArg (fun row : DNSQueryEvent => row.ts) same
  exact times

theorem keeps_of_unattributed {row other : DNSQueryEvent} (same : unattributed row = unattributed other) :
    filters.keeps folding row = filters.keeps folding other := by
  have kept := congrArg (fun row : DNSQueryEvent => filters.keeps folding row) same
  exact kept

theorem rank_selected {since : DateTime} {ts : Int} (inside : (since.micros : Int) ≤ ts)
    (events : List DNSQueryEvent) :
    rank (fun row : DNSQueryEvent => row.ts) ts (filters.selected folding since events) =
      newer folding filters ts events := by
  simp only [newer, rank, Filters.selected, List.countP_filter]
  refine List.countP_congr fun row _ => ?_
  simp only [Bool.and_eq_true, decide_eq_true_eq]
  exact ⟨fun both => ⟨both.1, both.2.2⟩, fun both => ⟨both.1, inside.trans both.1.le, both.2⟩⟩

theorem newer_append (ts : Int) (events more : List DNSQueryEvent) :
    newer folding filters ts (events ++ more) = newer folding filters ts events + newer folding filters ts more := by
  simp only [newer, List.filter_append, rank_append]

/-- Retention keeps what is newer than an event that it keeps. -/
theorem newer_deleteBefore {ts cutoff : Int} (kept : cutoff ≤ ts) (table : EventTable) :
    newer folding filters ts (table.deleteBefore cutoff).rows = newer folding filters ts table.rows := by
  simp only [newer, rank, EventTable.deleteBefore, List.countP_filter]
  refine List.countP_congr fun row _ => ?_
  simp only [Bool.and_eq_true, decide_eq_true_eq, Bool.not_eq_true', decide_eq_false_iff_not, not_lt]
  exact ⟨fun both => both.1, fun both => ⟨both, kept.trans both.1.le⟩⟩

theorem newer_forgetNode (ts : Int) (id : Nat) (table : EventTable) :
    newer folding filters ts (table.forgetNode id).rows = newer folding filters ts table.rows := by
  simp only [newer, rank, EventTable.forgetNode, List.countP_filter, List.countP_map]
  refine List.countP_congr fun row _ => ?_
  have same := unattributed_forgetNode id row
  have kept : filters.keeps folding (row.forgetNode id) = filters.keeps folding row := keeps_of_unattributed same
  simp [ts_of_unattributed same, kept]

end Rank

/-! ## Turning the pages -/

section Walk

variable {modelValidate : ModelValidate} {folding : Like.Folding} {filters : Filters} {event : DNSQueryEvent}

def Holds (event : DNSQueryEvent) (world : World) : Prop :=
  ∃ row ∈ world.store.events, unattributed row = unattributed event

/-- No other event that the filters keep has its time. -/
def Alone (folding : Like.Folding) (filters : Filters) (event : DNSQueryEvent) (world : World) : Prop :=
  ∀ row ∈ world.store.events, filters.keeps folding row = true → row.ts = event.ts →
    unattributed row = unattributed event

def Shows (event : DNSQueryEvent) (answer : Answer) : Prop :=
  ∃ row ∈ answer.events, unattributed row = unattributed event

def place (folding : Like.Folding) (filters : Filters) (event : DNSQueryEvent) (world : World) : Nat :=
  newer folding filters event.ts world.store.events

/-- An answer that was given when this many events were before the event. -/
def GivenAt (event : DNSQueryEvent) (answer : Answer) (place : Nat) : Prop :=
  (answer.since.micros : Int) ≤ event.ts → (answer.page - 1) * pageSize ≤ place →
    place < (answer.page - 1) * pageSize + pageSize → Shows event answer

/-- The invariant: the event has only ever moved back. -/
structure Tracked (folding : Like.Folding) (filters : Filters) (event : DNSQueryEvent) (world : World)
    (places : List Nat) : Prop where
  given : List.Forall₂ (GivenAt event) world.answers places
  grows : places.Pairwise (· ≤ ·)
  bounded : ∀ before ∈ places, before ≤ place folding filters event world

theorem place_store {store : Retention.World} (label : Retention.Label)
    (holds : ∃ row ∈ (Retention.step modelValidate store label).events, unattributed row = unattributed event) :
    newer folding filters event.ts store.events ≤
      newer folding filters event.ts (Retention.step modelValidate store label).events := by
  cases label with
  | primary timed =>
      have kept : store.events <+: (Retention.step modelValidate store (.primary timed)).events :=
        step_events store.database timed
      obtain ⟨more, grown⟩ := kept
      have events : (Retention.step modelValidate store (.primary timed)).events = store.events ++ more := grown.symm
      rw [events, newer_append]
      exact Nat.le_add_right _ _
  | configure | rollupJob | backfill => exact le_rfl
  | retention now =>
      cases cut : Retention.eventsCutoff store.database.settings now with
      | none => rw [Retention.step, Retention.runRetentionJob_raised cut]
      | some cutoff =>
          have events : (Retention.step modelValidate store (.retention now)).events =
              (store.database.events.deleteBefore cutoff.micros).rows := by
            rw [Retention.step, Retention.runRetentionJob_eq cut]
            rfl
          obtain ⟨row, member, same⟩ := holds
          rw [events] at member
          have late := (List.mem_filter.1 member).2
          simp only [Bool.not_eq_true', decide_eq_false_iff_not, not_lt] at late
          rw [ts_of_unattributed same] at late
          rw [events, newer_deleteBefore late]
          exact le_rfl

/-- While the event is there, nothing that is listed before it goes away. -/
theorem place_step {world : World} (label : Label) (holds : Holds event (step modelValidate folding filters world label)) :
    place folding filters event world ≤ place folding filters event (step modelValidate folding filters world label) := by
  cases label with
  | store label => exact place_store label holds
  | deleteNode id => exact (newer_forgetNode event.ts id world.store.database.events).ge
  | count user page now =>
      simp only [step, countPage, place]
      split <;> exact le_rfl
  | list order =>
      simp only [step, listPage, place]
      split <;> exact le_rfl

/-- A page that covers the event's place shows it. -/
theorem givenAt_listed {world : World} (kept : filters.keeps folding event = true) (holds : Holds event world)
    (alone : Alone folding filters event world) (request : Counted) (order : Newest) :
    GivenAt event ⟨request.page, request.since, request.total, pageCount pageSize request.total,
      pageOf pageSize request.page (order.sort (filters.selected folding request.since world.store.events))⟩
      (place folding filters event world) := by
  intro inside after before
  obtain ⟨row, member, same⟩ := holds
  have chosen : row ∈ filters.selected folding request.since world.store.events := by
    refine List.mem_filter.2 ⟨member, ?_⟩
    simp only [Bool.and_eq_true, decide_eq_true_eq]
    exact ⟨inside.trans (ts_of_unattributed same).ge, (keeps_of_unattributed same).trans kept⟩
  have perm := order.perm (filters.selected folding request.since world.store.events)
  obtain ⟨other, found, time⟩ := getElem?_rank (order.sorted _) (perm.mem_iff.2 chosen) (ts_of_unattributed same)
  have ranked : rank (fun row : DNSQueryEvent => row.ts) event.ts
      (order.sort (filters.selected folding request.since world.store.events)) =
        place folding filters event world := by
    rw [rank, perm.countP_eq]
    exact rank_selected inside world.store.events
  rw [ranked] at found
  have listed := (List.mem_filter.1 (perm.mem_iff.1 (List.mem_of_getElem? found)))
  simp only [Bool.and_eq_true, decide_eq_true_eq] at listed
  exact ⟨other, mem_pageOf found after before, alone other listed.1 listed.2.2 time⟩

theorem answers_list {world : World} {request : Counted} (asked : world.request = some request) (order : Newest) :
    (listPage folding filters world order).answers = world.answers ++
      [⟨request.page, request.since, request.total, pageCount pageSize request.total,
        pageOf pageSize request.page (order.sort (filters.selected folding request.since world.store.events))⟩] := by
  simp only [listPage, asked]

theorem tracked_list (kept : filters.keeps folding event = true) {world : World} {places : List Nat}
    (tracked : Tracked folding filters event world places) (holds : Holds event world)
    (alone : Alone folding filters event world) {request : Counted} (asked : world.request = some request)
    (order : Newest) :
    Tracked folding filters event (listPage folding filters world order)
      (places ++ [place folding filters event world]) where
  given := by
    rw [answers_list asked]
    exact List.rel_append tracked.given (.cons (givenAt_listed kept holds alone request order) .nil)
  grows := by
    refine List.pairwise_append.2 ⟨tracked.grows, List.pairwise_singleton _ _, fun before member last same => ?_⟩
    rw [List.mem_singleton.1 same]
    exact tracked.bounded before member
  bounded := by
    have same : place folding filters event (listPage folding filters world order) =
        place folding filters event world := by simp only [listPage, asked, place]
    intro before member
    rw [same]
    rcases List.mem_append.1 member with earlier | last
    · exact tracked.bounded before earlier
    · exact (List.mem_singleton.1 last).le

theorem tracked_step (kept : filters.keeps folding event = true) {world : World} {places : List Nat}
    (tracked : Tracked folding filters event world places) (holds : Holds event world)
    (alone : Alone folding filters event world) (label : Label)
    (after : Holds event (step modelValidate folding filters world label)) :
    ∃ places, Tracked folding filters event (step modelValidate folding filters world label) places := by
  have moved := place_step label after
  have bounded : ∀ before ∈ places, before ≤ place folding filters event (step modelValidate folding filters world label) :=
    fun before member => (tracked.bounded before member).trans moved
  cases label with
  | store | deleteNode => exact ⟨places, tracked.given, tracked.grows, bounded⟩
  | count user page now =>
      refine ⟨places, ?_, tracked.grows, bounded⟩
      simp only [step, countPage]
      split <;> exact tracked.given
  | list order =>
      cases asked : world.request with
      | none => exact ⟨places, by simpa only [step, listPage, asked] using tracked.given, tracked.grows, bounded⟩
      | some request => exact ⟨_, tracked_list kept tracked holds alone asked order⟩

/-- The event is there and no other event that the filters keep has its time. -/
def Stays (folding : Like.Folding) (filters : Filters) (event : DNSQueryEvent) (world : World) : Prop :=
  Holds event world ∧ Alone folding filters event world

theorem tracked_run (kept : filters.keeps folding event = true) {world : World} {places : List Nat}
    (tracked : Tracked folding filters event world places) {run : List Label}
    (stays : ∀ u ∈ visited (step modelValidate folding filters) world run, Stays folding filters event u) :
    ∃ places, Tracked folding filters event (run.foldl (step modelValidate folding filters) world) places := by
  induction run generalizing world places with
  | nil => exact ⟨places, tracked⟩
  | cons label rest ih =>
      obtain ⟨⟨holds, alone⟩, later⟩ := List.forall_mem_cons.1 stays
      obtain ⟨next, moved⟩ := tracked_step kept tracked holds alone label (later _ (mem_visited_self _ rest)).1
      exact ih moved later

/-- The reader is about to get a page without a link to the next one, counted when there were no fewer
events to list. -/
def Last (folding : Like.Folding) (filters : Filters) (world : World) : Prop :=
  ∃ request, world.request = some request ∧ pageCount pageSize request.total ≤ request.page ∧
    (filters.selected folding request.since world.store.events).length ≤ request.total

/-- The pages from the first one on, none left out or turned back to. -/
def InOrder (answers : List Answer) : Prop := answers.map (·.page) = List.range' 1 answers.length

instance (world : World) : Decidable (Stays folding filters event world) :=
  inferInstanceAs (Decidable ((∃ row ∈ world.store.events, unattributed row = unattributed event) ∧
    ∀ row ∈ world.store.events, filters.keeps folding row = true → row.ts = event.ts →
      unattributed row = unattributed event))

instance (answers : List Answer) : Decidable (InOrder answers) :=
  inferInstanceAs (Decidable (_ = _))

theorem page_of_inOrder {answers : List Answer} (inOrder : InOrder answers) {i : Nat} {answer : Answer}
    (found : answers[i]? = some answer) : answer.page = i + 1 := by
  have page := congrArg (fun pages : List Nat => pages[i]?) inOrder
  simp only [List.getElem?_map, found, Option.map_some, List.getElem?_range' (List.getElem?_eq_some_iff.1 found).1,
    Option.some.injEq] at page
  omega

/-- The last page of the reader's ends after the event's place. -/
theorem place_lt_of_last (kept : filters.keeps folding event = true) {world : World} (holds : Holds event world)
    {request : Counted} (final : pageCount pageSize request.total ≤ request.page)
    (current : (filters.selected folding request.since world.store.events).length ≤ request.total)
    (inside : (request.since.micros : Int) ≤ event.ts) :
    place folding filters event world < request.page * pageSize := by
  obtain ⟨row, member, same⟩ := holds
  have chosen : row ∈ filters.selected folding request.since world.store.events := by
    refine List.mem_filter.2 ⟨member, ?_⟩
    simp only [Bool.and_eq_true, decide_eq_true_eq]
    exact ⟨inside.trans (ts_of_unattributed same).ge, (keeps_of_unattributed same).trans kept⟩
  have below : place folding filters event world < request.total := by
    rw [place, ← rank_selected inside]
    exact (rank_lt_length chosen (ts_of_unattributed same)).trans_le current
  calc
    place folding filters event world < pageCount pageSize request.total * pageSize :=
      lt_pageCount (by decide) below
    _ ≤ request.page * pageSize := Nat.mul_le_mul_right _ final

theorem shown_of_tracked (kept : filters.keeps folding event = true) {world : World} {places : List Nat}
    (earlier : Tracked folding filters event world places) (stays : Stays folding filters event world)
    (last : Last folding filters world) (order : Newest)
    (inOrder : InOrder (listPage folding filters world order).answers)
    (inside : ∀ answer ∈ (listPage folding filters world order).answers, (answer.since.micros : Int) ≤ event.ts) :
    ∃ answer ∈ (listPage folding filters world order).answers, Shows event answer := by
  obtain ⟨request, asked, final, current⟩ := last
  have answers : (listPage folding filters world order).answers = world.answers ++ [_] := answers_list asked order
  have tracked := tracked_list kept earlier stays.1 stays.2 asked order
  have lengths := tracked.given.length_eq
  have lastPage : request.page = (places ++ [place folding filters event world]).length := by
    have page := page_of_inOrder (i := world.answers.length) inOrder (by rw [answers]; exact List.getElem?_concat_length)
    rw [answers, List.length_append] at lengths
    exact page.trans lengths
  have since : (request.since.micros : Int) ≤ event.ts := inside _ (by
    rw [answers]
    exact List.mem_append_right _ (List.mem_singleton_self _))
  have covered := place_lt_of_last kept stays.1 final current since
  rw [lastPage] at covered
  obtain ⟨page, position, found, after, before⟩ :=
    exists_page_of_grows tracked.grows (List.getLast?_concat ..) covered
  obtain ⟨within, rfl⟩ := List.getElem?_eq_some_iff.1 found
  have bound := lengths.symm ▸ within
  have number := page_of_inOrder inOrder (List.getElem?_eq_getElem bound)
  have member := List.getElem_mem bound
  refine ⟨_, member, tracked.given.get bound within (inside _ member) ?_ ?_⟩
  · simpa [number] using after
  · simpa [number] using before

/-- Whatever is stored, deleted and aged out while a reader turns the pages, no event that stays in the
log is skipped. -/
theorem walk_shows (kept : filters.keeps folding event = true) {world : World} (fresh : world.answers = [])
    {run : List Label}
    (stays : ∀ u ∈ visited (step modelValidate folding filters) world run, Stays folding filters event u)
    (last : Last folding filters (run.foldl (step modelValidate folding filters) world)) (order : Newest)
    {final : World} (listed : step modelValidate folding filters
      (run.foldl (step modelValidate folding filters) world) (.list order) = final)
    (inOrder : InOrder final.answers) (inside : ∀ answer ∈ final.answers, (answer.since.micros : Int) ≤ event.ts) :
    ∃ answer ∈ final.answers, Shows event answer := by
  have started : Tracked folding filters event world [] := ⟨by rw [fresh]; exact .nil, .nil, by simp⟩
  obtain ⟨places, tracked⟩ := tracked_run kept started stays
  subst listed
  exact shown_of_tracked kept tracked (stays _ (foldl_mem_visited world run)) last order inOrder inside

end Walk

/-! ## Two pages -/

theorem toLower_special (c s : Char) (isSpecial : Like.special s = true) : c.toLower = s ↔ c = s := by
  have fixed : s.toLower = s ∧ s.isLower = false := by
    simp only [Like.special, Bool.or_eq_true, beq_iff_eq] at isSpecial
    rcases isSpecial with (rfl | rfl) | rfl <;> exact ⟨rfl, rfl⟩
  constructor
  · rintro rfl
    by_contra changed
    rw [(Zones.isAlpha_of_toLower (Ne.symm changed)).2] at fixed
    exact absurd fixed.2 (by decide)
  · rintro rfl
    exact fixed.1

/-- ASCII letters are folded. -/
def asciiFolding : Like.Folding := ⟨Char.toLower, toLower_special⟩

def byTime : Newest where
  sort := List.insertionSort fun a b => b.ts ≤ a.ts
  perm := List.perm_insertionSort _
  sorted := by
    have total : Std.Total fun a b : DNSQueryEvent => b.ts ≤ a.ts := ⟨fun a b => le_total b.ts a.ts⟩
    have trans : IsTrans DNSQueryEvent fun a b => b.ts ≤ a.ts := ⟨fun _ _ _ first second => second.trans first⟩
    exact List.pairwise_insertionSort _

def unfiltered : Filters := .searching none .hour false

/-- Twenty-six queries from ten o'clock on, one a minute. -/
def morning : List DNSQueryEvent := (List.finRange 26).map fun i => query (i.castLE (by decide) + 600) "example.org" none

def firstLog : World where
  store := .start { office .active none with events := ⟨morning, by decide +kernel⟩ } KeyedTable.empty
  request := none
  answers := []

/-- A query comes in between the two pages. -/
def turning : List Label :=
  [.count true 1 (minute 630), .list byTime, .store (Retention.askedAt 631), .count true 2 (minute 632)]

def turned : World := turning.foldl (step IngestEvent.ofTyped asciiFolding unfiltered) firstLog

theorem walk_shows_first :
    ∃ answer ∈ (step IngestEvent.ofTyped asciiFolding unfiltered turned (.list byTime)).answers,
      Shows (query 600 "example.org" none) answer :=
  @walk_shows IngestEvent.ofTyped asciiFolding unfiltered (query 600 "example.org" none) (by decide +kernel)
    firstLog rfl turning (by decide +kernel) ⟨⟨2, minute 572, 27⟩, by decide +kernel, by decide +kernel, by decide +kernel⟩
    byTime _ rfl (by decide +kernel) (by decide +kernel)

end PowerBlockade.Analytics
