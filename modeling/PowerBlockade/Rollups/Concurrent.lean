import Mathlib.Logic.Function.Basic
import PowerBlockade.Lib.Run
import PowerBlockade.Rollups.Refinement

/-!
# Rollup transactions side by side

`compute_hourly_rollup` and `compute_daily_rollup` as transactions at read committed: one statement
groups, one statement looks each group's row up, and the commit writes them all.
-/

namespace PowerBlockade.Rollups.Concurrent
open Lib Primary

structure StoredRow where
  id : Nat
  row : QueryRollup
deriving DecidableEq

structure Transaction where
  /-- The grouped rows that are not looked up yet. -/
  results : List QueryRollup
  /-- The stored row as it was loaded, and the row whose values it is given. -/
  updates : List (StoredRow × QueryRollup)
  inserts : List QueryRollup
deriving DecidableEq

structure World where
  events : List DNSQueryEvent
  rows : List StoredRow
  nextId : Nat
  transactions : Nat → Option Transaction

inductive Label
  /-- Ingest and retention, and the deletion of a client or a node, which leaves NULLs. -/
  | setEvents (events : List DNSQueryEvent)
  /-- Retention, and the cascade from a deleted client or node. -/
  | deleteRows (gone : StoredRow → Bool)
  | hourly (t : Nat) (hourStart : DateTime)
  | daily (t : Nat) (dayStart : DateTime)
  | look (t : Nat)
  | commit (t : Nat)
  | rollback (t : Nat)

abbrev Key := DateTime × Granularity × GroupKey

def keys (rows : List StoredRow) : List Key := rows.map fun stored => stored.row.key

/-- `one_or_none`, whose filter compares NULL with `IS`; `none` is `MultipleResultsFound`. -/
def oneOrNone (rows : List StoredRow) (key : Key) : Option (Option StoredRow) :=
  match rows.filter fun stored => stored.row.key = key with
  | [] => some none
  | [stored] => some (some stored)
  | _ => none

def lookUp (rows : List StoredRow) (tx : Transaction) : Option Transaction :=
  match tx.results with
  | [] => some tx
  | row :: rest => (oneOrNone rows row.key).map fun existing =>
      match existing with
      | some stored => { tx with results := rest, updates := tx.updates ++ [(stored, row)] }
      | none => { tx with results := rest, inserts := tx.inserts ++ [row] }

/-! ## The commit -/

def assign (old row : QueryRollup) : QueryRollup :=
  { old with counters := row.counters, avgLatencyMs := row.avgLatencyMs
             uniqueDomains := row.uniqueDomains }

def nullable (row : QueryRollup) : Bool := row.clientId.isNone || row.nodeId.isNone

/-- The unique constraint does not take a NULL for equal to another. -/
def violates (rows : List StoredRow) (row : QueryRollup) : Bool :=
  !nullable row && decide (row.key ∈ keys rows)

/-- A changed row that is gone. -/
def stale (rows : List StoredRow) (update : StoredRow × QueryRollup) : Bool :=
  decide (assign update.1.row update.2 ≠ update.1.row) && rows.all (·.id ≠ update.1.id)

def refused (rows : List StoredRow) (tx : Transaction) : Bool :=
  tx.inserts.any (violates rows) || tx.updates.any (stale rows)

def updated (updates : List (StoredRow × QueryRollup)) (stored : StoredRow) : StoredRow :=
  match updates.find? (·.1.id = stored.id) with
  | some (_, row) => { stored with row := assign stored.row row }
  | none => stored

def inserted (nextId : Nat) (rows : List QueryRollup) : List StoredRow :=
  rows.mapIdx fun i row => ⟨nextId + i, row⟩

def World.close (w : World) (t : Nat) : World :=
  { w with transactions := Function.update w.transactions t none }

def World.begin (w : World) (t : Nat) (results : List QueryRollup) : World :=
  { w with transactions := Function.update w.transactions t (some ⟨results, [], []⟩) }

/-- The rows are written and checked at once: a writer of the same key waits for the commit. -/
def World.commit (w : World) (t : Nat) (tx : Transaction) : World :=
  if refused w.rows tx then w.close t
  else { w.close t with
    rows := w.rows.map (updated tx.updates) ++ inserted w.nextId tx.inserts
    nextId := w.nextId + tx.inserts.length }

def step (w : World) : Label → World
  | .setEvents events => { w with events := events }
  | .deleteRows gone => { w with rows := w.rows.filter (!gone ·) }
  | .hourly t hourStart => match w.transactions t, hourStart.add hourMicros with
      | none, some hourEnd =>
          w.begin t (hourlyRows hourStart (external w.events hourStart.micros hourEnd.micros))
      | _, _ => w
  | .daily t dayStart => match w.transactions t, dayStart.add dayMicros with
      | none, some dayEnd =>
          w.begin t (dailyRows dayStart (hourlyBetween (w.rows.map (·.row)) dayStart dayEnd))
      | _, _ => w
  | .look t => match w.transactions t with
      | some tx => { w with transactions := Function.update w.transactions t (lookUp w.rows tx) }
      | none => w
  | .commit t => match w.transactions t with
      | some tx => if tx.results = [] then w.commit t tx else w
      | none => w
  | .rollback t => w.close t

def stored (table : RollupTable) : List StoredRow := table.rows.mapIdx fun i row => ⟨i, row⟩

def start (events : List DNSQueryEvent) (table : RollupTable) : World :=
  ⟨events, stored table, table.rows.length, fun _ => none⟩

/-- No two rows with one key, NULL being equal to NULL, and no lookup that raises. -/
structure Unique (w : World) : Prop where
  nodup : (keys w.rows).Nodup
  lookup : ∀ key, oneOrNone w.rows key ≠ none

/-- A transaction that commits adds no row with a NULL id whose key is in the table by then. -/
def CommitsFresh (w : World) : Label → Prop
  | .commit t => ∀ tx, w.transactions t = some tx → tx.results = [] → refused w.rows tx = false →
      ∀ row ∈ tx.inserts, nullable row = true → row.key ∉ keys w.rows
  | _ => True

/-! ## Keys -/

variable {w : World} {rows : List StoredRow}

theorem key_updated (updates : List (StoredRow × QueryRollup)) (stored : StoredRow) :
    (updated updates stored).row.key = stored.row.key := by
  unfold updated
  split <;> rfl

theorem keys_commit (rows : List StoredRow) (tx : Transaction) (nextId : Nat) :
    keys (rows.map (updated tx.updates) ++ inserted nextId tx.inserts) =
      keys rows ++ tx.inserts.map QueryRollup.key := by
  have old : keys (rows.map (updated tx.updates)) = keys rows := by
    rw [keys, List.map_map]
    exact List.map_congr_left fun stored _ => key_updated tx.updates stored
  have new : keys (inserted nextId tx.inserts) = tx.inserts.map QueryRollup.key := by
    apply List.ext_getElem
    · simp [keys, inserted]
    · intro i _ _
      simp [keys, inserted]
  rw [keys, List.map_append, ← keys, ← keys, old, new]

theorem oneOrNone_ne_none (nodup : (keys rows).Nodup) (key : Key) : oneOrNone rows key ≠ none := by
  intro raised
  unfold oneOrNone at raised
  split at raised
  · exact nomatch raised
  · exact nomatch raised
  · rename_i several notNone notOne
    cases found : rows.filter fun stored => stored.row.key = key with
    | nil => exact notNone found
    | cons first more =>
        cases more with
        | nil => exact notOne first found
        | cons second rest =>
            have part : (keys (first :: second :: rest)).Sublist (keys rows) := by
              rw [← found]
              exact List.filter_sublist.map _
            have same : ∀ stored ∈ first :: second :: rest, stored.row.key = key := by
              intro stored member
              rw [← found] at member
              simpa using (List.mem_filter.mp member).2
            apply (List.nodup_cons.mp (part.nodup nodup)).1
            show first.row.key ∈ keys (second :: rest)
            rw [same first List.mem_cons_self, ← same second
              (List.mem_cons_of_mem _ List.mem_cons_self)]
            exact List.mem_cons_self

theorem unique_iff : Unique w ↔ (keys w.rows).Nodup :=
  ⟨Unique.nodup, fun nodup => ⟨nodup, oneOrNone_ne_none nodup⟩⟩

/-! ## Transactions in flight -/

/-- A transaction looks up and adds each of its groups once. -/
def Distinct (w : World) : Prop :=
  ∀ t tx, w.transactions t = some tx → ((tx.inserts ++ tx.results).map QueryRollup.key).Nodup

theorem Distinct.update {t : Nat} {next : Option Transaction} (distinct : Distinct w)
    (new : ∀ tx, next = some tx → ((tx.inserts ++ tx.results).map QueryRollup.key).Nodup) :
    Distinct { w with transactions := Function.update w.transactions t next } :=
  (Function.forall_update_iff w.transactions fun _ found => ∀ tx, found = some tx →
    ((tx.inserts ++ tx.results).map QueryRollup.key).Nodup).mpr ⟨new, fun u _ => distinct u⟩

theorem lookUp_distinct {tx tx' : Transaction}
    (distinct : ((tx.inserts ++ tx.results).map QueryRollup.key).Nodup)
    (looked : lookUp rows tx = some tx') :
    ((tx'.inserts ++ tx'.results).map QueryRollup.key).Nodup := by
  unfold lookUp at looked
  split at looked
  · cases looked
    exact distinct
  · rename_i row rest pending
    rw [pending] at distinct
    obtain ⟨existing, -, rfl⟩ := Option.map_eq_some_iff.mp looked
    cases existing with
    | some stored =>
        have fewer : (tx.inserts ++ rest).Sublist (tx.inserts ++ row :: rest) :=
          (List.sublist_cons_self row rest).append_left tx.inserts
        exact (fewer.map _).nodup distinct
    | none =>
        show ((tx.inserts ++ [row] ++ rest).map QueryRollup.key).Nodup
        rw [List.append_assoc]
        exact distinct

theorem distinct_step (label : Label) (distinct : Distinct w) : Distinct (step w label) := by
  have closed {t : Nat} : Distinct (w.close t) := distinct.update fun _ none => nomatch none
  have begun {t : Nat} {results : List QueryRollup} (unique : (results.map QueryRollup.key).Nodup) :
      Distinct (w.begin t results) := by
    apply distinct.update
    intro tx new
    cases new
    exact unique
  cases label with
  | setEvents events => exact distinct
  | deleteRows gone => exact distinct
  | hourly t hourStart =>
      unfold step
      dsimp only
      split
      · exact begun (hourlyRows_unique _ _)
      · exact distinct
  | daily t dayStart =>
      unfold step
      dsimp only
      split
      · exact begun (dailyRows_unique _ _)
      · exact distinct
  | look t =>
      unfold step
      dsimp only
      split
      · rename_i tx found
        exact distinct.update fun tx' looked => lookUp_distinct (distinct t tx found) looked
      · exact distinct
  | commit t =>
      unfold step World.commit
      dsimp only
      split
      · split
        · split
          · exact closed
          · exact closed
        · exact distinct
      · exact distinct
  | rollback t => exact closed

/-! ## One step -/

theorem nodup_commit_iff {t : Nat} {tx : Transaction} (nodup : (keys w.rows).Nodup)
    (distinct : (tx.inserts.map QueryRollup.key).Nodup) :
    (keys (w.commit t tx).rows).Nodup ↔
      (refused w.rows tx = false →
        ∀ row ∈ tx.inserts, nullable row = true → row.key ∉ keys w.rows) := by
  unfold World.commit
  cases refusal : refused w.rows tx with
  | true =>
      rw [if_pos rfl]
      exact iff_of_true nodup fun none => nomatch none
  | false =>
      have checked : ∀ row ∈ tx.inserts, nullable row = false → row.key ∉ keys w.rows := by
        intro row member full stored
        rw [refused, Bool.or_eq_false_iff, List.any_eq_false] at refusal
        apply refusal.1 row member
        simp [violates, full, stored]
      rw [if_neg (by simp)]
      dsimp only
      rw [keys_commit, List.nodup_append, and_iff_right nodup, and_iff_right distinct]
      constructor
      · intro apart _ row member _ stored
        exact apart _ stored _ (List.mem_map_of_mem member) rfl
      · intro fresh stored there key added same
        obtain ⟨row, member, rfl⟩ := List.mem_map.mp added
        subst same
        cases full : nullable row with
        | true => exact fresh rfl row member full there
        | false => exact checked row member full there

theorem nodup_step_iff (label : Label) (distinct : Distinct w) (nodup : (keys w.rows).Nodup) :
    (keys (step w label).rows).Nodup ↔ CommitsFresh w label := by
  cases label with
  | setEvents events => exact iff_of_true nodup trivial
  | deleteRows gone =>
      exact iff_of_true ((List.filter_sublist.map _).nodup nodup) trivial
  | hourly t hourStart => exact iff_of_true (by unfold step; dsimp only; split <;> exact nodup) trivial
  | daily t dayStart => exact iff_of_true (by unfold step; dsimp only; split <;> exact nodup) trivial
  | look t => exact iff_of_true (by unfold step; dsimp only; split <;> exact nodup) trivial
  | commit t =>
      cases found : w.transactions t with
      | none =>
          simp only [step, CommitsFresh, found]
          exact iff_of_true nodup fun _ none => nomatch none
      | some tx =>
          have inserts : (tx.inserts.map QueryRollup.key).Nodup :=
            ((List.sublist_append_left _ _).map _).nodup (distinct t tx found)
          simp only [step, CommitsFresh, found, Option.some.injEq, forall_eq']
          by_cases done : tx.results = []
          · rw [if_pos done, nodup_commit_iff nodup inserts]
            exact ⟨fun fresh _ => fresh, fun fresh => fresh done⟩
          · rw [if_neg done]
            exact iff_of_true nodup fun all => absurd all done
  | rollback t => exact iff_of_true nodup trivial

/-! ## Runs -/

theorem nodup_keys_stored (table : RollupTable) : (keys (stored table)).Nodup := by
  have same : keys (stored table) = table.rows.map QueryRollup.key := by
    apply List.ext_getElem
    · simp [keys, stored]
    · intro i _ _
      simp [keys, stored]
  rw [same]
  exact table.unique

/-- In every run of any transactions over any events, the table keeps one row for each key and no
lookup raises exactly as long as every commit is fresh. -/
theorem unique_iff_commitsFresh (events : List DNSQueryEvent) (table : RollupTable)
    (run : List Label) :
    (∀ w ∈ visited step (start events table) run, Unique w) ↔
      Along step CommitsFresh (start events table) run := by
  have initial := nodup_keys_stored table
  have distinct : Distinct (start events table) := fun _ _ found => nomatch found
  simp only [unique_iff]
  exact forall_visited_iff_along (P := fun w => (keys w.rows).Nodup) distinct
    (fun _ label distinct => distinct_step label distinct) initial
    fun _ label distinct nodup => nodup_step_iff label distinct nodup

/-! ## Two rollups of one hour -/

/-- A query whose client is not known any more. -/
def orphan : DNSQueryEvent := query 0 "example.org" none

def twoRollups : List Label :=
  [.hourly 0 (minute 0), .hourly 1 (minute 0), .look 0, .look 1, .commit 0, .commit 1]

theorem two_rollups_two_rows :
    ¬ ∀ (events : List DNSQueryEvent) (table : RollupTable) (run : List Label),
      ∀ w ∈ visited step (start events table) run, Unique w := by
  intro unique
  have final := unique [orphan] KeyedTable.empty twoRollups _ (foldl_mem_visited _ _)
  have twice : ¬ (keys (twoRollups.foldl step (start [orphan] KeyedTable.empty)).rows).Nodup := by
    decide
  exact twice final.nodup

end PowerBlockade.Rollups.Concurrent
