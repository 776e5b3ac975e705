import PowerBlockade.Blocking.Override

/-!
# Blocking resumes

The published zone holds the block set in effect again once one of its writers has run.
-/

namespace PowerBlockade.Blocking
open Lib

variable {zoneInfo : ZoneInfo}

def downloads (fetch : Fetch) (db : Database) : Bool :=
  db.blocklists.all fun bl => !bl.enabled || (fetch bl.url bl.format).isOk

/-- A job or an Apply that runs to its end, or an enable: no operation that clears the zone, edits
the lists, or publishes what it does not commit. -/
def Quiet (zoneInfo : ZoneInfo) (world : World) (timed : Timed) : Prop :=
  match timed.op with
  | .updateBlocklists _ => (outcome zoneInfo timed.time world.db timed.op).completed = true
  | .scheduleCheck | .enable => True
  | .apply fetch =>
      (outcome zoneInfo timed.time world.db timed.op).completed = true ∧ downloads fetch world.db = true
  | .disable | .pause _ | .edit .. => False

instance (world : World) (timed : Timed) : Decidable (Quiet zoneInfo world timed) := by
  unfold Quiet
  split <;> infer_instance

/-- A quiet step that writes the zones: the update job with a list to refresh, the schedule check
with a flag to change, or Apply. -/
def Regenerates (zoneInfo : ZoneInfo) (world : World) (timed : Timed) : Prop :=
  Quiet zoneInfo world timed ∧ (publishes zoneInfo timed.time world.db timed.op).isSome = true

def Published (world : World) : Prop := world.publishedBlocks = world.db.effectiveBlockSet

theorem refreshedEntries_eq_entries {fetch : Fetch} {now : DateTime} {bl : Blocklist}
    (idle : refreshes fetch now bl = false) : refreshedEntries fetch now bl = bl.entries := by
  unfold refreshes at idle
  unfold refreshedEntries
  split
  · rename_i due
    cases result : fetch bl.url bl.format with
    | error error => rfl
    | ok domains => simp [due, result, Except.isOk, Except.toBool] at idle
  · rfl

theorem updateBlocklistsJob_sources {fetch : Fetch} {now : DateTime} {db : Database}
    (completed : (updateBlocklistsJob fetch now db).completed = true) :
    (updateBlocklistsJob fetch now db).db.sources =
      (publishes zoneInfo now db (.updateBlocklists fetch)).getD db.sources := by
  rcases updateBlocklistsJob_spec fetch now db with ⟨-, refused⟩ | ⟨sound, updated, -, sources, -, left⟩
  · simp [refused, Outcome.refused] at completed
  · rw [left, if_pos completed, sources]
    simp only [publishes, sound, Bool.false_eq_true, if_false]
    split
    · rfl
    · rename_i idle
      simp only [Option.getD_none, Database.sources]
      rw [← listSources_map id (refreshedEntries fetch now) (·.entries),
        List.map_id]
      · exact fun _ _ => rfl
      · exact fun _ _ => rfl
      · intro bl member _
        apply refreshedEntries_eq_entries
        apply Bool.eq_false_iff.2
        intro refreshed
        exact idle (List.any_eq_true.2 ⟨bl, member, refreshed⟩)

theorem runScheduleCheck_sources {now : DateTime} {db : Database} :
    (runScheduleCheck zoneInfo now db).db.sources =
      (publishes zoneInfo now db .scheduleCheck).getD db.sources := by
  simp only [runScheduleCheck, publishes]
  split <;> rfl

theorem applyBlocklist_enabled (fetch : Fetch) (now : DateTime) (bl : Blocklist) :
    (applyBlocklist fetch now bl).enabled = bl.enabled := by
  unfold applyBlocklist
  split
  · cases fetch bl.url bl.format <;> rfl
  · rfl

theorem applyBlocklist_listType (fetch : Fetch) (now : DateTime) (bl : Blocklist) :
    (applyBlocklist fetch now bl).listType = bl.listType := by
  unfold applyBlocklist
  split
  · cases fetch bl.url bl.format <;> rfl
  · rfl

theorem blocklistsApply_sources {fetch : Fetch} {now : DateTime} {db : Database}
    (completed : (blocklistsApply fetch now db).completed = true)
    (downloaded : downloads fetch db = true) :
    (blocklistsApply fetch now db).db.sources =
      (publishes zoneInfo now db (.apply fetch)).getD db.sources := by
  have left : (blocklistsApply fetch now db).db =
      { db with blocklists := db.blocklists.map (applyBlocklist fetch now) } := if_pos completed
  simp only [left, publishes, Option.getD_some, Database.sources]
  congr 1
  apply listSources_map
  · exact fun bl _ => applyBlocklist_enabled fetch now bl
  · exact fun bl _ => applyBlocklist_listType fetch now bl
  · intro bl member on
    have sound := List.all_eq_true.1 downloaded bl member
    cases result : fetch bl.url bl.format with
    | error error => simp [on, result, Except.isOk, Except.toBool] at sound
    | ok domains => simp [applyBlocklist, on, result, markSuccess, fetchedDomains]

theorem quiet_sources {world : World} {timed : Timed} (quiet : Quiet zoneInfo world timed) :
    (step zoneInfo world timed).db.sources =
      (publishes zoneInfo timed.time world.db timed.op).getD world.db.sources := by
  obtain ⟨time, op⟩ := timed
  cases op with
  | updateBlocklists fetch => exact updateBlocklistsJob_sources quiet
  | scheduleCheck => exact runScheduleCheck_sources
  | enable => rfl
  | apply fetch => exact blocklistsApply_sources quiet.1 quiet.2
  | disable | pause | edit => exact quiet.elim

theorem quiet_publishedBlocks {world : World} {timed : Timed} (quiet : Quiet zoneInfo world timed) :
    (step zoneInfo world timed).publishedBlocks =
      ((publishes zoneInfo timed.time world.db timed.op).map Source.effective).getD
        world.publishedBlocks := by
  obtain ⟨time, op⟩ := timed
  cases op with
  | updateBlocklists | scheduleCheck | apply => exact step_publishedBlocks zoneInfo world rfl
  | enable => rfl
  | disable | pause | edit => exact quiet.elim

theorem regenerates_published {world : World} {timed : Timed}
    (regenerates : Regenerates zoneInfo world timed) : Published (step zoneInfo world timed) := by
  obtain ⟨sources, written⟩ := Option.isSome_iff_exists.1 regenerates.2
  rw [Published, quiet_publishedBlocks regenerates.1, Database.effectiveBlockSet,
    quiet_sources regenerates.1, written]
  rfl

theorem quiet_published {world : World} {timed : Timed} (published : Published world)
    (quiet : Quiet zoneInfo world timed) : Published (step zoneInfo world timed) := by
  rw [Published, quiet_publishedBlocks quiet, Database.effectiveBlockSet, quiet_sources quiet]
  cases publishes zoneInfo timed.time world.db timed.op with
  | none => exact published
  | some sources => rfl

/-- Whatever ran before, once a step has regenerated the zones and only quiet steps followed, the
published zone holds exactly the block set in effect. -/
theorem publishedBlocks_after_regeneration (world : World) (before after : List Timed) (timed : Timed)
    (regenerates : Regenerates zoneInfo (before.foldl (step zoneInfo) world) timed)
    (quiet : Along (step zoneInfo) (Quiet zoneInfo)
      (step zoneInfo (before.foldl (step zoneInfo) world) timed) after) :
    ((before ++ timed :: after).foldl (step zoneInfo) world).publishedBlocks =
      ((before ++ timed :: after).foldl (step zoneInfo) world).db.effectiveBlockSet := by
  rw [List.foldl_append, List.foldl_cons]
  exact foldl_invariant (P := Published) (regenerates_published regenerates) quiet
    fun _ _ published calm => quiet_published published calm

/-! ## The jobs alone -/

def freshList : Blocklist := markSuccess adsList {"ads.example"} noon

def freshWorld : World := ⟨noon, ⟨[], [freshList], []⟩, none, none⟩

theorem enable_leaves_zone_empty :
    let run : List Timed := [⟨noon, .disable⟩, ⟨noon, .enable⟩]
    let jobs : List Timed := [⟨noon, .updateBlocklists adsFetch⟩, ⟨noon, .scheduleCheck⟩]
    let resumed := run.foldl (step fun _ => none) freshWorld
    isBlockingActive (step (fun _ => none) freshWorld ⟨noon, .disable⟩).db noon = false ∧
      isBlockingActive resumed.db noon = true ∧
      Along (step fun _ => none) (Quiet fun _ => none) resumed jobs ∧
      (jobs.foldl (step fun _ => none) resumed).publishedBlocks ≠
        (jobs.foldl (step fun _ => none) resumed).db.effectiveBlockSet := by
  decide

theorem zone_restored_by_apply :
    let run : List Timed := [⟨noon, .disable⟩, ⟨noon, .enable⟩, ⟨noon, .apply adsFetch⟩,
      ⟨noon, .updateBlocklists adsFetch⟩, ⟨noon, .scheduleCheck⟩]
    (run.foldl (step fun _ => none) freshWorld).publishedBlocks =
      (run.foldl (step fun _ => none) freshWorld).db.effectiveBlockSet :=
  publishedBlocks_after_regeneration freshWorld [⟨noon, .disable⟩, ⟨noon, .enable⟩]
    [⟨noon, .updateBlocklists adsFetch⟩, ⟨noon, .scheduleCheck⟩] ⟨noon, .apply adsFetch⟩
    ⟨⟨by decide, by decide⟩, by decide⟩ (by decide)

end PowerBlockade.Blocking
