import PowerBlockade.Blocking.Override

/-!
# The two compilers of the zones

The Apply button compiles what it has just fetched; every other writer compiles what is stored.
-/

namespace PowerBlockade.Blocking
open Lib Lib.Source

def sameRecords (zones zones' : Zone × Zone) : Prop :=
  zones.1.records = zones'.1.records ∧ zones.2.records = zones'.2.records

/-- The published pair holds the records that the stored database gives, whenever it is compiled. -/
def Outcome.Agrees (outcome : Outcome) : Prop :=
  ∃ zones : Zone × Zone, outcome.combined = some zones.1 ∧ outcome.whitelist = some zones.2 ∧
    ∀ later, sameRecords zones (regenerateRpz outcome.db later)

def freshSources (fetch : Fetch) (db : Database) : List (Source String) :=
  manualSources db.manualEntries ++ listSources (fetchedDomains fetch) db.blocklists

def fetchFails (fetch : Fetch) (bl : Blocklist) : Bool := !(fetch bl.url bl.format).isOk

/-- The stored names that a failed list keeps in the database. -/
def keptDomains (fetch : Fetch) (bl : Blocklist) : Finset String :=
  if fetchFails fetch bl then bl.entries else ∅

theorem zoneRecords_injective (target : String) :
    Function.Injective fun domains => zoneRecords domains target := by
  intro domains domains' same
  have owners := congrArg (fun records : List Record => records.map (·.owner)) same
  simp only [zoneRecords, List.map_map, Function.comp_def, List.map_id'] at owners
  ext domain
  rw [← Finset.mem_sort (· ≤ ·), owners, Finset.mem_sort]

theorem sameRecords_compileZones (sources stored : List (Source String)) (now later : DateTime) :
    sameRecords (compileZones sources now) (compileZones stored later) ↔
      effective sources = effective stored ∧
        (collect sources (∅, ∅)).2 = (collect stored (∅, ∅)).2 :=
  and_congr (zoneRecords_injective ".").eq_iff (zoneRecords_injective "rpz-passthru.").eq_iff

/-! ## The sources of the lists -/

theorem names_listSources {contents : Blocklist → Finset String} {lists : List Blocklist}
    {allows : Bool} {domain : String} :
    (∃ source ∈ listSources contents lists, source.allows = allows ∧ domain ∈ source.names) ↔
      ∃ bl ∈ lists, bl.enabled ∧ decide (bl.listType = "allow") = allows ∧ domain ∈ contents bl := by
  simp only [listSources, List.mem_map, List.mem_filter, Blocklist.source]
  constructor
  · rintro ⟨_, ⟨bl, ⟨listed, enabled⟩, rfl⟩, kind, named⟩
    exact ⟨bl, listed, enabled, kind, named⟩
  · rintro ⟨bl, listed, enabled, kind, named⟩
    exact ⟨_, ⟨bl, ⟨listed, enabled⟩, rfl⟩, kind, named⟩

theorem mem_entries_applyBlocklist {fetch : Fetch} {now : DateTime} {bl : Blocklist}
    {domain : String} (enabled : bl.enabled = true) :
    domain ∈ (applyBlocklist fetch now bl).entries ↔
      domain ∈ fetchedDomains fetch bl ∨ domain ∈ keptDomains fetch bl := by
  cases got : fetch bl.url bl.format <;>
    simp [applyBlocklist, enabled, fetchedDomains, keptDomains, fetchFails, got, markSuccess,
      markFailed, Except.isOk, Except.toBool]

theorem applyBlocklist_kind (fetch : Fetch) (now : DateTime) (bl : Blocklist) :
    (applyBlocklist fetch now bl).enabled = bl.enabled ∧
      (applyBlocklist fetch now bl).listType = bl.listType := by
  unfold applyBlocklist
  split
  · cases fetch bl.url bl.format <;> exact ⟨rfl, rfl⟩
  · exact ⟨rfl, rfl⟩

theorem names_applied {fetch : Fetch} {now : DateTime} {lists : List Blocklist} {allows : Bool}
    {domain : String} :
    (∃ source ∈ listSources (·.entries) (lists.map (applyBlocklist fetch now)),
        source.allows = allows ∧ domain ∈ source.names) ↔
      ∃ source ∈ listSources (fetchedDomains fetch) lists ++ listSources (keptDomains fetch) lists,
        source.allows = allows ∧ domain ∈ source.names := by
  simp only [List.mem_append, or_and_right, exists_or, names_listSources, List.mem_map,
    exists_exists_and_eq_and, applyBlocklist_kind]
  constructor
  · rintro ⟨bl, listed, enabled, kind, stored⟩
    cases (mem_entries_applyBlocklist enabled).mp stored with
    | inl fetched => exact .inl ⟨bl, listed, enabled, kind, fetched⟩
    | inr kept => exact .inr ⟨bl, listed, enabled, kind, kept⟩
  · intro either
    cases either with
    | inl found =>
        obtain ⟨bl, listed, enabled, kind, fetched⟩ := found
        exact ⟨bl, listed, enabled, kind, (mem_entries_applyBlocklist enabled).mpr (.inl fetched)⟩
    | inr found =>
        obtain ⟨bl, listed, enabled, kind, kept⟩ := found
        exact ⟨bl, listed, enabled, kind, (mem_entries_applyBlocklist enabled).mpr (.inr kept)⟩

/-! ## When they agree -/

theorem sameRecords_applied_iff (fetch : Fetch) (now later : DateTime) (db : Database) :
    sameRecords (compileZones (freshSources fetch db) now)
        (compileZones (manualSources db.manualEntries ++
          listSources (·.entries) (db.blocklists.map (applyBlocklist fetch now))) later) ↔
      (∀ domain, Allows (listSources (keptDomains fetch) db.blocklists) domain →
          Allows (freshSources fetch db) domain) ∧
        ∀ domain, Denies (listSources (keptDomains fetch) db.blocklists) domain →
          Denies (freshSources fetch db) domain ∨ Allows (freshSources fetch db) domain := by
  rw [sameRecords_compileZones]
  apply extend_eq_iff <;> intro domain
  · rw [freshSources, List.append_assoc]
    exact (denies_append.trans (or_congr_right names_applied)).trans denies_append.symm
  · rw [freshSources, List.append_assoc]
    exact (allows_append.trans (or_congr_right names_applied)).trans allows_append.symm

theorem agrees_iff_sameRecords {fetch : Fetch} {now : DateTime} {db : Database}
    (commits : (blocklistsApply fetch now db).completed = true) :
    (blocklistsApply fetch now db).Agrees ↔
      ∀ later, sameRecords (compileZones (freshSources fetch db) now)
        (compileZones (manualSources db.manualEntries ++
          listSources (·.entries) (db.blocklists.map (applyBlocklist fetch now))) later) := by
  have stored : (blocklistsApply fetch now db).db =
      { db with blocklists := db.blocklists.map (applyBlocklist fetch now) } := if_pos commits
  constructor
  · rintro ⟨zones, combined, whitelist, same⟩ later
    have compiled : compileZones (freshSources fetch db) now = zones :=
      Prod.ext (Option.some.inj combined) (Option.some.inj whitelist)
    have same := same later
    rw [stored] at same
    rw [compiled]
    exact same
  · intro same
    refine ⟨compileZones (freshSources fetch db) now, rfl, rfl, fun later => ?_⟩
    rw [stored]
    exact same later

/-- Every stored name of an enabled list whose fetch fails is allowed anyway, or denied anyway where
the list denies it. -/
def KeptIsCovered (fetch : Fetch) (db : Database) : Prop :=
  ∀ bl ∈ db.blocklists, bl.enabled = true → fetchFails fetch bl = true → ∀ domain ∈ bl.entries,
    Allows (freshSources fetch db) domain ∨
      bl.listType ≠ "allow" ∧ Denies (freshSources fetch db) domain

theorem keptIsCovered_iff {fetch : Fetch} {db : Database} :
    KeptIsCovered fetch db ↔
      (∀ domain, Allows (listSources (keptDomains fetch) db.blocklists) domain →
          Allows (freshSources fetch db) domain) ∧
        ∀ domain, Denies (listSources (keptDomains fetch) db.blocklists) domain →
          Denies (freshSources fetch db) domain ∨ Allows (freshSources fetch db) domain := by
  have kept {bl : Blocklist} {domain : String} :
      domain ∈ keptDomains fetch bl ↔ fetchFails fetch bl = true ∧ domain ∈ bl.entries := by
    cases fails : fetchFails fetch bl <;> simp [keptDomains, fails]
  constructor
  · intro covered
    constructor
    · intro domain allowed
      obtain ⟨bl, listed, enabled, kind, names⟩ := names_listSources.mp allowed
      have cover := covered bl listed enabled (kept.mp names).1 domain (kept.mp names).2
      exact cover.resolve_right fun denied => denied.1 (of_decide_eq_true kind)
    · intro domain denied
      obtain ⟨bl, listed, enabled, kind, names⟩ := names_listSources.mp denied
      have cover := covered bl listed enabled (kept.mp names).1 domain (kept.mp names).2
      exact cover.symm.imp_left And.right
  · rintro ⟨allowed, denied⟩ bl listed enabled fails domain stored
    by_cases kind : bl.listType = "allow"
    · apply Or.inl
      apply allowed
      exact names_listSources.mpr ⟨bl, listed, enabled, decide_eq_true kind, kept.mpr ⟨fails, stored⟩⟩
    · have cover := denied domain
        (names_listSources.mpr ⟨bl, listed, enabled, decide_eq_false kind, kept.mpr ⟨fails, stored⟩⟩)
      exact cover.symm.imp_right fun denied => ⟨kind, denied⟩

/-- The button publishes what the next regeneration would exactly when no failed fetch takes a
stored name out of what it compiles. -/
theorem blocklistsApply_agrees_iff (fetch : Fetch) (now : DateTime) (db : Database)
    (commits : (blocklistsApply fetch now db).completed = true) :
    (blocklistsApply fetch now db).Agrees ↔ KeptIsCovered fetch db := by
  rw [agrees_iff_sameRecords commits, keptIsCovered_iff]
  constructor
  · intro same
    exact (sameRecords_applied_iff fetch now now db).mp (same now)
  · intro covered later
    exact (sameRecords_applied_iff fetch now later db).mpr covered

/-! ## A failed fetch that empties the zone -/

def storedList : Blocklist := { adsList with entries := {"ads.example"} }

def failedFetch : Fetch := fun _ _ => .error "Connection refused"

theorem apply_after_failed_fetch_differs :
    ¬ ∀ (fetch : Fetch) (now : DateTime) (db : Database),
      (blocklistsApply fetch now db).completed = true → (blocklistsApply fetch now db).Agrees := by
  intro agrees
  have commits : (blocklistsApply failedFetch noon ⟨[], [storedList], []⟩).completed = true := rfl
  have same := (agrees_iff_sameRecords commits).mp (agrees failedFetch noon _ commits) noon
  have lost := (sameRecords_compileZones _ _ _ _).mp same
  revert lost
  decide

theorem apply_agrees_iff_one_failed_list :
    (blocklistsApply failedFetch noon ⟨[], [storedList], []⟩).completed = true ∧
      ((blocklistsApply failedFetch noon ⟨[], [storedList], []⟩).Agrees ↔
        KeptIsCovered failedFetch ⟨[], [storedList], []⟩) :=
  ⟨rfl, blocklistsApply_agrees_iff failedFetch noon ⟨[], [storedList], []⟩ rfl⟩

end PowerBlockade.Blocking
