import PowerBlockade.Blocking.Writers
import PowerBlockade.Lib.Lists
import PowerBlockade.Lib.Run

/-!
# Runs of the operations on the blocking state

The operations of the API, the jobs and the operator's edits, each at its time, and what each of
them publishes, stated on its inputs.
-/

namespace PowerBlockade.Blocking
open Lib

inductive Op
  | disable
  | pause (minutes : Int)
  | enable
  | updateBlocklists (fetch : Fetch)
  | scheduleCheck
  | apply (fetch : Fetch)
  | edit (blocklists : List Blocklist) (manualEntries : List ManualEntry)

structure Timed where
  time : DateTime
  op : Op

structure World where
  clock : DateTime
  db : Database
  combined : Option Zone
  whitelist : Option Zone

def World.publishedBlocks (world : World) : Finset String := (world.combined.map Zone.blocks).getD ∅

variable (zoneInfo : ZoneInfo)

def outcome (now : DateTime) (db : Database) : Op → Outcome
  | .disable => blockingDisable db now
  | .pause minutes => blockingPause db now minutes
  | .enable => blockingEnable db
  | .updateBlocklists fetch => updateBlocklistsJob fetch now db
  | .scheduleCheck => runScheduleCheck zoneInfo now db
  | .apply fetch => blocklistsApply fetch now db
  | .edit blocklists manualEntries =>
      ⟨{ db with blocklists := blocklists, manualEntries := manualEntries }, none, none, true⟩

def step (world : World) (timed : Timed) : World :=
  let result := outcome zoneInfo timed.time world.db timed.op
  ⟨timed.time, result.db, result.combined <|> world.combined, result.whitelist <|> world.whitelist⟩

def Timely (world : World) (timed : Timed) : Prop := world.clock ≤ timed.time

/-! ## The update job on its inputs -/

/-- The list makes the job fail: its due time overflows, or a downloaded domain fits no entry. -/
def breaksJob (fetch : Fetch) (now : DateTime) (bl : Blocklist) : Bool :=
  match isDue bl now with
  | none => true
  | some false => false
  | some true => match fetch bl.url bl.format with
      | .ok domains => decide (¬ ∀ domain ∈ domains, fitsText 255 domain)
      | .error _ => false

def refreshes (fetch : Fetch) (now : DateTime) (bl : Blocklist) : Bool :=
  isDue bl now = some true ∧ (fetch bl.url bl.format).isOk

def refreshedEntries (fetch : Fetch) (now : DateTime) (bl : Blocklist) : Finset String :=
  if isDue bl now = some true then
    match fetch bl.url bl.format with
    | .ok domains => domains
    | .error _ => bl.entries
  else bl.entries

theorem updateBlocklist_eq_none {fetch : Fetch} {now : DateTime} {bl : Blocklist} :
    updateBlocklist fetch now bl = none ↔ breaksJob fetch now bl = true := by
  unfold updateBlocklist breaksJob
  cases due : isDue bl now with
  | none => simp
  | some now? =>
      cases now? with
      | false => simp
      | true =>
          cases result : fetch bl.url bl.format with
          | error error => simp
          | ok domains => by_cases fits : ∀ domain ∈ domains, fitsText 255 domain <;> simp [fits]

theorem updateBlocklist_some {fetch : Fetch} {now : DateTime} {bl : Blocklist} {left : Blocklist × Bool}
    (updated : updateBlocklist fetch now bl = some left) :
    left.1.enabled = bl.enabled ∧ left.1.listType = bl.listType ∧
      left.1.entries = refreshedEntries fetch now bl ∧ left.2 = refreshes fetch now bl := by
  unfold updateBlocklist at updated
  unfold refreshedEntries refreshes
  cases due : isDue bl now with
  | none => simp [due] at updated
  | some now? =>
      cases now? with
      | false => simp_all only [Option.bind_eq_bind, Option.bind_some, Bool.false_eq_true, if_false,
          Option.some.injEq]; subst updated; simp
      | true =>
          cases result : fetch bl.url bl.format with
          | error error =>
              simp only [due, result, Option.bind_eq_bind, Option.bind_some, if_true,
                Option.some.injEq] at updated
              subst updated
              simp [markFailed, Except.isOk, Except.toBool]
          | ok domains =>
              simp only [due, result, Option.bind_eq_bind, Option.bind_some, if_true] at updated
              split at updated
              · cases updated
                simp [markSuccess, Except.isOk, Except.toBool]
              · contradiction

theorem listSources_eq_filterMap (contents : Blocklist → Finset String) (lists : List Blocklist) :
    listSources contents lists =
      lists.filterMap fun bl => if bl.enabled then some (bl.source (contents bl)) else none := by
  induction lists with
  | nil => rfl
  | cons bl rest ih =>
      simp only [listSources] at ih ⊢
      cases enabled : bl.enabled <;> simp [enabled, ih]

theorem listSources_map (f : Blocklist → Blocklist) (contents contents' : Blocklist → Finset String)
    (lists : List Blocklist) (enabled : ∀ bl ∈ lists, (f bl).enabled = bl.enabled)
    (listType : ∀ bl ∈ lists, (f bl).listType = bl.listType)
    (names : ∀ bl ∈ lists, bl.enabled = true → contents (f bl) = contents' bl) :
    listSources contents (lists.map f) = listSources contents' lists := by
  simp only [listSources_eq_filterMap, List.filterMap_map]
  apply List.filterMap_congr
  intro bl member
  cases on : bl.enabled with
  | false => simp [enabled bl member, on]
  | true => simp [Blocklist.source, enabled bl member, listType bl member, names bl member on, on]

/-! ## What an operation publishes -/

def publishes (now : DateTime) (db : Database) : Op → Option (List (Source String))
  | .updateBlocklists fetch =>
      if db.blocklists.any (breaksJob fetch now) then none
      else if db.blocklists.any (refreshes fetch now) then
        some (manualSources db.manualEntries ++ listSources (refreshedEntries fetch now) db.blocklists)
      else none
  | .scheduleCheck =>
      let localTime := localNow zoneInfo db.settings now
      if db.blocklists.any fun bl => scheduledState bl localTime != bl.enabled then
        some (manualSources db.manualEntries ++ listSources (·.entries)
          (db.blocklists.map fun bl => { bl with enabled := scheduledState bl localTime }))
      else none
  | .apply fetch =>
      some (manualSources db.manualEntries ++ listSources (fetchedDomains fetch) db.blocklists)
  | .disable | .pause _ | .enable | .edit .. => none

def Op.overrides : Op → Bool
  | .disable | .pause _ | .enable => true
  | _ => false

theorem updateBlocklistsJob_spec (fetch : Fetch) (now : DateTime) (db : Database) :
    (db.blocklists.any (breaksJob fetch now) = true ∧ updateBlocklistsJob fetch now db = .refused db) ∨
    (db.blocklists.any (breaksJob fetch now) = false ∧ ∃ updated : Database,
      updated.settings = db.settings ∧
      updated.sources =
        manualSources db.manualEntries ++ listSources (refreshedEntries fetch now) db.blocklists ∧
      (updateBlocklistsJob fetch now db).combined =
        (if db.blocklists.any (refreshes fetch now) then some (regenerateRpz updated now).1 else none) ∧
      (updateBlocklistsJob fetch now db).db =
        (if (updateBlocklistsJob fetch now db).completed then updated else db)) := by
  cases looped : db.blocklists.mapM (updateBlocklist fetch now) with
  | none =>
      obtain ⟨bl, member, breaks⟩ := mapM_eq_none.1 looped
      refine Or.inl ⟨List.any_eq_true.2 ⟨bl, member, updateBlocklist_eq_none.1 breaks⟩, ?_⟩
      simp [updateBlocklistsJob, looped]
  | some results =>
      refine Or.inr ⟨?_, { db with blocklists := results.map (·.1) }, rfl, ?_, ?_, ?_⟩
      · apply Bool.eq_false_iff.2
        intro breaks
        obtain ⟨bl, member, breaks⟩ := List.any_eq_true.1 breaks
        have failed := mapM_eq_none.2 ⟨bl, member, updateBlocklist_eq_none.2 breaks⟩
        simp [failed] at looped
      · simp only [Database.sources, listSources_eq_filterMap, List.filterMap_map]
        congr 1
        apply filterMap_of_mapM _ looped
        intro bl left updated
        obtain ⟨enabled, listType, entries, -⟩ := updateBlocklist_some updated
        simp [Blocklist.source, enabled, listType, entries]
      · have counted := any_of_mapM (g := (·.2)) (h := refreshes fetch now)
          (fun bl left updated => (updateBlocklist_some updated).2.2.2) looped
        simp only [updateBlocklistsJob, looped, counted]
        split <;> rfl
      · simp only [updateBlocklistsJob, looped]
        split <;> rfl

theorem outcome_blocks (now : DateTime) (db : Database) (op : Op) (other : op.overrides = false) :
    (outcome zoneInfo now db op).combined.map Zone.blocks =
      (publishes zoneInfo now db op).map Source.effective := by
  cases op with
  | disable | pause | enable => contradiction
  | edit => rfl
  | apply fetch => simp [outcome, publishes, blocklistsApply, blocks_compileZones]
  | scheduleCheck =>
      simp only [outcome, publishes, runScheduleCheck]
      split
      · simp [blocks_regenerateRpz, Database.effectiveBlockSet, Database.sources]
      · rfl
  | updateBlocklists fetch =>
      rcases updateBlocklistsJob_spec fetch now db with ⟨breaks, refused⟩ | ⟨sound, updated, -, sources, zone, -⟩
      · simp [outcome, publishes, breaks, refused, Outcome.refused]
      · simp only [outcome, publishes, sound, zone, Bool.false_eq_true, if_false]
        split
        · simp [blocks_regenerateRpz, Database.effectiveBlockSet, sources]
        · rfl

theorem outcome_settings (now : DateTime) (db : Database) (op : Op) (other : op.overrides = false) :
    (outcome zoneInfo now db op).db.settings = db.settings := by
  cases op with
  | disable | pause | enable => contradiction
  | edit => rfl
  | apply fetch => simp only [outcome, blocklistsApply]; split <;> rfl
  | scheduleCheck => simp only [outcome, runScheduleCheck]; split <;> rfl
  | updateBlocklists fetch =>
      rcases updateBlocklistsJob_spec fetch now db with ⟨-, refused⟩ | ⟨-, updated, settings, -, -, left⟩
      · simp [outcome, refused, Outcome.refused]
      · simp only [outcome, left]
        split
        · exact settings
        · rfl

end PowerBlockade.Blocking
