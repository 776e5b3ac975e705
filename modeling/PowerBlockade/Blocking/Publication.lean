import PowerBlockade.Blocking.Interleaving

/-!
# What concurrent publications leave

Every published file is one computation's; a writer that runs alone leaves both of its own.
-/

namespace PowerBlockade.Blocking
open Lib

variable {zoneInfo : ZoneInfo} {now : DateTime} {db : Database}

/-! ## The rows of an uninterrupted writer -/

theorem storeFetched_self (fetch : Fetch) (shown : String → String) (bl : Blocklist) :
    storeFetched fetch now shown bl bl = match fetch bl.url bl.format with
      | .ok domains => markSuccess bl domains now
      | .error error => markFailed bl (shown error) now := by
  unfold storeFetched
  cases fetch bl.url bl.format with
  | error error => rfl
  | ok domains => simp [markSuccess]

theorem applyRow_self (fetch : Fetch) (bl : Blocklist) :
    applyRow fetch now bl bl = applyBlocklist fetch now bl := by
  rw [applyRow, applyBlocklist, storeFetched_self]
  rfl

theorem updateRow_self {fetch : Fetch} {bl : Blocklist} {left : Blocklist × Bool}
    (updated : updateBlocklist fetch now bl = some left) : left.1 = updateRow fetch now bl bl := by
  unfold updateBlocklist at updated
  rw [updateRow, storeFetched_self]
  cases due : isDue bl now with
  | none => simp [due] at updated
  | some isNow =>
      cases isNow with
      | false =>
          have same : (bl, false) = left := by simpa [due] using updated
          rw [← same]
          rfl
      | true =>
          cases got : fetch bl.url bl.format with
          | error error =>
              have same : (markFailed bl (Python.take 500 error) now, false) = left := by
                simpa [due, got] using updated
              rw [← same]
              rfl
          | ok domains =>
              have same : (if ∀ domain ∈ domains, fitsText 255 domain then
                  some (markSuccess bl domains now, true) else none) = some left := by
                simpa [due, got] using updated
              split at same
              · rw [← Option.some.inj same]
                rfl
              · exact nomatch same

theorem scheduleRow_self (localTime : LocalTime) (bl : Blocklist) :
    scheduleRow localTime bl bl = { bl with enabled := scheduledState bl localTime } := by
  unfold scheduleRow
  split
  · rename_i same
    rw [same]
  · rfl

theorem commit_self (job : Job) (changes : job.script zoneInfo now db ≠ []) :
    job.commit zoneInfo now db db = (job.outcome zoneInfo now db).db := by
  cases job with
  | apply fetch =>
      have rows : db.blocklists.zipWith (applyRow fetch now) db.blocklists =
          db.blocklists.map (applyBlocklist fetch now) := by
        rw [List.zipWith_self]
        exact List.map_congr_left fun bl _ => applyRow_self fetch bl
      unfold Job.commit Job.outcome
      dsimp only
      rw [rows]
      rfl
  | update fetch =>
      unfold Job.commit Job.outcome
      dsimp only
      cases looped : db.blocklists.mapM (updateBlocklist fetch now) with
      | none => simp [updateBlocklistsJob, looped, Outcome.refused]
      | some results =>
          have rows : db.blocklists.zipWith (updateRow fetch now) db.blocklists =
              results.map (·.1) := by
            rw [List.zipWith_self]
            exact (map_of_mapM (fun bl left updated => updateRow_self updated) looped).symm
          rw [rows]
          simp only [updateBlocklistsJob, looped]
          split <;> rfl
  | scheduleCheck =>
      have rows : db.blocklists.zipWith (scheduleRow (localNow zoneInfo db.settings now))
          db.blocklists = db.blocklists.map fun bl =>
            { bl with enabled := scheduledState bl (localNow zoneInfo db.settings now) } := by
        rw [List.zipWith_self]
        exact List.map_congr_left fun bl _ => scheduleRow_self _ bl
      unfold Job.commit Job.outcome
      dsimp only
      rw [rows]
      have changed : (db.blocklists.any fun bl =>
          scheduledState bl (localNow zoneInfo db.settings now) != bl.enabled) = true := by
        by_contra same
        simp [Job.script, runScheduleCheck, same] at changes
      unfold runScheduleCheck
      rw [if_pos changed]
  | emergency state => rfl

/-! ## A writer that runs alone -/

namespace Shared

variable {s : Shared} {id : Nat} {job : Job}

theorem put_forall {P : Writer → Prop} {writer : Writer} (new : P writer)
    (others : ∀ id writer, s.writers id = some writer → P writer) :
    ∀ other found, (s.put id writer).writers other = some found → P found := by
  apply (Function.forall_update_iff s.writers fun _ found => ∀ writer, found = some writer → P writer).mpr
  refine ⟨?_, fun other _ => others other⟩
  rintro _ ⟨⟩
  exact new

theorem step_of_writer {base : Database} {instr : Instr} {rest : List Instr}
    (here : s.writers id = some ⟨job, now, base, instr :: rest⟩) :
    s.step zoneInfo (.step id) = (execute zoneInfo id job now (base, s) instr).2.put id
      ⟨job, now, (execute zoneInfo id job now (base, s) instr).1, rest⟩ := by
  unfold step
  dsimp only
  rw [here]

theorem step_put (base : Database) (instr : Instr) (rest : List Instr) :
    (s.put id ⟨job, now, base, instr :: rest⟩).step zoneInfo (.step id) =
      (execute zoneInfo id job now (base, s) instr).2.put id
        ⟨job, now, (execute zoneInfo id job now (base, s) instr).1, rest⟩ := by
  rw [step_of_writer (Function.update_self _ _ _)]
  cases instr <;> simp [execute, put, Function.update_idem]

theorem steps_put (base : Database) (todo : List Instr) :
    (List.replicate todo.length (.step id)).foldl (step zoneInfo) (s.put id ⟨job, now, base, todo⟩) =
      (todo.foldl (execute zoneInfo id job now) (base, s)).2.put id
        ⟨job, now, (todo.foldl (execute zoneInfo id job now) (base, s)).1, []⟩ := by
  induction todo generalizing s base with
  | nil => rfl
  | cons instr rest ih =>
      rw [List.length_cons, List.replicate_succ, List.foldl_cons, step_put, ih]
      rfl

theorem alone_eq (fresh : s.writers id = none) :
    s.alone zoneInfo id job now =
      ((job.script zoneInfo now s.db).foldl (execute zoneInfo id job now) (s.db, s)).2.put id
        ⟨job, now, ((job.script zoneInfo now s.db).foldl (execute zoneInfo id job now) (s.db, s)).1, []⟩ := by
  have begun : s.step zoneInfo (.begin id job now) =
      s.put id ⟨job, now, s.db, job.script zoneInfo now s.db⟩ := by
    unfold step
    dsimp only
    rw [fresh]
  rw [alone, begun, steps_put]

end Shared

theorem updateBlocklistsJob_whitelist {fetch : Fetch}
    (none : (updateBlocklistsJob fetch now db).combined = none) :
    (updateBlocklistsJob fetch now db).whitelist = .none := by
  unfold updateBlocklistsJob at none ⊢
  cases looped : db.blocklists.mapM (updateBlocklist fetch now) with
  | none => rfl
  | some results =>
      simp only [looped] at none ⊢
      split
      · rename_i some
        rw [if_pos some] at none
        exact nomatch none
      · rfl

theorem runScheduleCheck_cases (zoneInfo : ZoneInfo) (now : DateTime) (db : Database) :
    (∃ checked, runScheduleCheck zoneInfo now db =
        ⟨checked, some (regenerateRpz checked now).1, some (regenerateRpz checked now).2, true⟩) ∨
      runScheduleCheck zoneInfo now db = ⟨db, none, none, true⟩ := by
  unfold runScheduleCheck
  dsimp only
  split
  · exact .inl ⟨_, rfl⟩
  · exact .inr rfl

theorem alone_outcome (zoneInfo : ZoneInfo) (now : DateTime) {s : Shared} {id : Nat} (job : Job)
    (fresh : s.writers id = none) :
    (s.alone zoneInfo id job now).db = (job.outcome zoneInfo now s.db).db ∧
      (s.alone zoneInfo id job now).combined =
        Shared.publish id (job.outcome zoneInfo now s.db).combined s.combined ∧
      (s.alone zoneInfo id job now).whitelist =
        Shared.publish id (job.outcome zoneInfo now s.db).whitelist s.whitelist := by
  rw [Shared.alone_eq fresh]
  cases job with
  | apply fetch => exact ⟨commit_self (.apply fetch) nofun, rfl, rfl⟩
  | emergency state => exact ⟨rfl, rfl, rfl⟩
  | update fetch =>
      cases published : (updateBlocklistsJob fetch now s.db).combined with
      | some zone =>
          have script : (Job.update fetch).script zoneInfo now s.db =
              [.writeCombined, .writeWhitelist, .commit] := by simp [Job.script, published]
          have committed : (Job.update fetch).commit zoneInfo now s.db s.db =
              ((Job.update fetch).outcome zoneInfo now s.db).db :=
            commit_self _ (by rw [script]; exact nofun)
          rw [script]
          exact ⟨committed, rfl, rfl⟩
      | none =>
          have script : (Job.update fetch).script zoneInfo now s.db = [.commit] := by
            simp [Job.script, published]
          have committed : (Job.update fetch).commit zoneInfo now s.db s.db =
              ((Job.update fetch).outcome zoneInfo now s.db).db :=
            commit_self _ (by rw [script]; exact nofun)
          have combined : ((Job.update fetch).outcome zoneInfo now s.db).combined = none := published
          have whitelist : ((Job.update fetch).outcome zoneInfo now s.db).whitelist = none :=
            updateBlocklistsJob_whitelist published
          rw [script, combined, whitelist]
          exact ⟨committed, rfl, rfl⟩
  | scheduleCheck =>
      rcases runScheduleCheck_cases zoneInfo now s.db with ⟨checked, result⟩ | result
      · have script : Job.scheduleCheck.script zoneInfo now s.db =
            [.commit, .read, .writeCombined, .writeWhitelist] := by simp [Job.script, result]
        have outcome : Job.scheduleCheck.outcome zoneInfo now s.db = ⟨checked,
          some (regenerateRpz checked now).1, some (regenerateRpz checked now).2, true⟩ := result
        have committed : Job.scheduleCheck.commit zoneInfo now s.db s.db = checked := by
          rw [commit_self .scheduleCheck (by rw [script]; exact nofun), outcome]
        rw [script, outcome]
        simp only [List.foldl_cons, List.foldl_nil, Shared.execute, committed]
        exact ⟨rfl, rfl, rfl⟩
      · have script : Job.scheduleCheck.script zoneInfo now s.db = [] := by
          simp [Job.script, result]
        have outcome : Job.scheduleCheck.outcome zoneInfo now s.db = ⟨s.db, none, none, true⟩ := result
        rw [script, outcome]
        exact ⟨rfl, rfl, rfl⟩

/-! ## The files against each other and against the database -/

def Zone.allows (zone : Zone) : Finset String :=
  ((zone.records.filter (·.target = "rpz-passthru.")).map (·.owner)).toFinset

@[simp] theorem allows_renderRpzWhitelist (domains : Finset String) (now : DateTime) :
    (renderRpzWhitelist domains now).allows = domains := by
  ext domain
  simp [Zone.allows, renderRpzWhitelist, zoneRecords]

namespace Shared

/-- Both files come from one writer's computation. -/
def From (s : Shared) (id : Nat) : Prop :=
  ∃ zone zone', s.combined = some ⟨id, zone⟩ ∧ s.whitelist = some ⟨id, zone'⟩

/-- No domain is both a block record and an allow record. -/
def Separate (s : Shared) : Prop :=
  ∀ combined whitelist, s.combined = some combined → s.whitelist = some whitelist →
    Disjoint combined.zone.blocks whitelist.zone.allows

/-- The files hold the records that the committed database gives. -/
def Current (s : Shared) : Prop :=
  ∀ combined whitelist, s.combined = some combined → s.whitelist = some whitelist →
    ∀ later, sameRecords (combined.zone, whitelist.zone) (regenerateRpz s.db later)

/-- Each file is one computation's, over a database that was once committed. -/
structure Whole (zoneInfo : ZoneInfo) (s : Shared) : Prop where
  combined : ∀ published, s.combined = some published →
    ∃ job now, ∃ base ∈ s.history, (Job.zones zoneInfo now base job).1 = some published.zone
  whitelist : ∀ published, s.whitelist = some published →
    ∃ job now, ∃ base ∈ s.history, (Job.zones zoneInfo now base job).2 = some published.zone

end Shared

theorem compileZones_disjoint (sources : List (Source String)) (now : DateTime) :
    Disjoint (compileZones sources now).1.blocks (compileZones sources now).2.allows := by
  simp only [compileZones, blocks_renderRpzZone, allows_renderRpzWhitelist]
  exact Finset.sdiff_disjoint

/-- Nothing that Apply compiles is missing in what it stores: no fetch fails. -/
def Job.Refreshes (db : Database) : Job → Prop
  | .apply fetch => ∀ bl ∈ db.blocklists, bl.enabled = true → fetchFails fetch bl = false
  | _ => True

theorem outcome_compiled {job : Job} (compiles : job.compiles = true)
    (publishes : (job.outcome zoneInfo now db).combined.isSome = true) :
    ∃ sources, (job.outcome zoneInfo now db).combined = some (compileZones sources now).1 ∧
      (job.outcome zoneInfo now db).whitelist = some (compileZones sources now).2 ∧
      ((job.outcome zoneInfo now db).completed = true → job.Refreshes db →
        ∀ later, sameRecords (compileZones sources now)
          (regenerateRpz (job.outcome zoneInfo now db).db later)) := by
  have again (updated : Database) (later : DateTime) :
      sameRecords (regenerateRpz updated now) (regenerateRpz updated later) :=
    (sameRecords_compileZones _ _ _ _).mpr ⟨rfl, rfl⟩
  cases job with
  | emergency state => exact Bool.false_ne_true.elim compiles
  | apply fetch =>
      refine ⟨freshSources fetch db, rfl, rfl, fun commits refreshes later => ?_⟩
      have stored : (blocklistsApply fetch now db).db =
          { db with blocklists := db.blocklists.map (applyBlocklist fetch now) } := if_pos commits
      have covered : KeptIsCovered fetch db := fun bl listed enabled fails =>
        absurd ((refreshes bl listed enabled).symm.trans fails) (by decide)
      show sameRecords _ (regenerateRpz (blocklistsApply fetch now db).db later)
      rw [stored]
      exact (sameRecords_applied_iff fetch now later db).mpr (keptIsCovered_iff.mp covered)
  | update fetch =>
      unfold Job.outcome updateBlocklistsJob at publishes ⊢
      cases looped : db.blocklists.mapM (updateBlocklist fetch now) with
      | none => simp [looped, Outcome.refused] at publishes
      | some results =>
          simp only [looped] at publishes ⊢
          split at publishes
          · rename_i some
            simp only [some, if_true]
            refine ⟨_, rfl, rfl, fun commits _ later => ?_⟩
            rw [if_pos commits]
            exact again _ later
          · exact Bool.false_ne_true.elim publishes
  | scheduleCheck =>
      unfold Job.outcome at publishes ⊢
      rcases runScheduleCheck_cases zoneInfo now db with ⟨checked, result⟩ | result
      · simp only [result]
        exact ⟨_, rfl, rfl, fun _ _ later => again checked later⟩
      · rw [result] at publishes
        exact Bool.false_ne_true.elim publishes

/-! ## Over all interleavings -/

namespace Shared

variable {s : Shared}

/-- What a writer works on was committed, and so was what each file was computed from. -/
structure Sound (zoneInfo : ZoneInfo) (s : Shared) : Prop where
  committed : s.db ∈ s.history
  read : ∀ id writer, s.writers id = some writer → writer.base ∈ s.history
  whole : s.Whole zoneInfo

theorem start_sound (db : Database) : (start db).Sound zoneInfo where
  committed := List.mem_singleton_self db
  read := nofun
  whole := ⟨nofun, nofun⟩

theorem sound_put {id : Nat} {writer : Writer} (sound : s.Sound zoneInfo)
    (read : writer.base ∈ s.history) : (s.put id writer).Sound zoneInfo where
  committed := sound.committed
  read := put_forall read sound.read
  whole := ⟨sound.whole.combined, sound.whole.whitelist⟩

theorem publish_cases {id : Nat} {zone : Option Zone} {old : Option PublishedFile}
    {published : PublishedFile} (shown : publish id zone old = some published) :
    zone = some published.zone ∨ old = some published := by
  cases zone with
  | none => exact .inr shown
  | some zone =>
      cases shown
      exact .inl rfl

theorem Whole.grow {current : Database} (whole : s.Whole zoneInfo) :
    ({ s with db := current, history := current :: s.history }).Whole zoneInfo where
  combined published shown := by
    obtain ⟨job, now, base, was, computed⟩ := whole.combined published shown
    exact ⟨job, now, base, List.mem_cons_of_mem _ was, computed⟩
  whitelist published shown := by
    obtain ⟨job, now, base, was, computed⟩ := whole.whitelist published shown
    exact ⟨job, now, base, List.mem_cons_of_mem _ was, computed⟩

theorem sound_execute {id : Nat} {job : Job} {now : DateTime} {base : Database} (instr : Instr)
    (sound : s.Sound zoneInfo) (read : base ∈ s.history) :
    (execute zoneInfo id job now (base, s) instr).2.Sound zoneInfo ∧
      (execute zoneInfo id job now (base, s) instr).1 ∈
        (execute zoneInfo id job now (base, s) instr).2.history := by
  cases instr with
  | read => exact ⟨sound, sound.committed⟩
  | writeCombined =>
      refine ⟨⟨sound.committed, sound.read, fun published shown => ?_, sound.whole.whitelist⟩, read⟩
      cases publish_cases shown with
      | inl new => exact ⟨job, now, base, read, new⟩
      | inr old => exact sound.whole.combined published old
  | writeWhitelist =>
      refine ⟨⟨sound.committed, sound.read, sound.whole.combined, fun published shown => ?_⟩, read⟩
      cases publish_cases shown with
      | inl new => exact ⟨job, now, base, read, new⟩
      | inr old => exact sound.whole.whitelist published old
  | commit =>
      refine ⟨⟨List.mem_cons_self, ?_, sound.whole.grow⟩, List.mem_cons_of_mem _ read⟩
      intro other writer here
      exact List.mem_cons_of_mem _ (sound.read other writer here)

theorem sound_step (sound : s.Sound zoneInfo) (label : Label) : (s.step zoneInfo label).Sound zoneInfo := by
  cases label with
  | begin id job now =>
      unfold step
      dsimp only
      split
      · exact sound_put sound sound.committed
      · exact sound
  | step id =>
      unfold step
      dsimp only
      split
      · rename_i job now base instr rest here
        obtain ⟨executed, read⟩ := sound_execute instr sound (sound.read id _ here)
        exact sound_put executed read
      · exact sound
  | abort id =>
      unfold step
      dsimp only
      split
      · rename_i writer here
        exact sound_put sound (sound.read id writer here)
      · exact sound

theorem foldl_execute_writers (id : Nat) (job : Job) (now : DateTime) (todo : List Instr)
    (base : Database) :
    (todo.foldl (execute zoneInfo id job now) (base, s)).2.writers = s.writers := by
  induction todo generalizing s base with
  | nil => rfl
  | cons instr rest ih =>
      have kept : (execute zoneInfo id job now (base, s) instr).2.writers = s.writers := by
        cases instr <;> rfl
      rw [List.foldl_cons, ← kept]
      exact ih _

theorem alone_finished {id : Nat} {job : Job} (fresh : s.writers id = none) (finished : s.Finished) :
    (s.alone zoneInfo id job now).Finished := by
  rw [alone_eq fresh]
  apply put_forall (P := fun writer => writer.todo = []) rfl
  rw [foldl_execute_writers]
  exact finished

/-- What a writer leaves when it takes all its steps with no other's in between. -/
structure AloneLeaves (zoneInfo : ZoneInfo) (s : Shared) (id : Nat) (job : Job) (now : DateTime) :
    Prop where
  finished : s.Finished → (s.alone zoneInfo id job now).Finished
  separate : (s.alone zoneInfo id job now).Separate
  together : job.compiles = true → (s.alone zoneInfo id job now).From id
  current : job.compiles = true → (job.outcome zoneInfo now s.db).completed = true →
    job.Refreshes s.db → (s.alone zoneInfo id job now).Current

theorem emergency_leaves {id : Nat} (state : String) (fresh : s.writers id = none) :
    s.AloneLeaves zoneInfo id (.emergency state) now where
  finished := alone_finished fresh
  separate := by
    obtain ⟨-, shown, -⟩ := alone_outcome zoneInfo now (.emergency state) fresh
    intro combined whitelist first second
    rw [shown] at first
    cases first
    exact Finset.disjoint_empty_left _
  together := nofun
  current := nofun

theorem alone_leaves {id : Nat} {job : Job} (fresh : s.writers id = none)
    (publishes : (job.outcome zoneInfo now s.db).combined.isSome = true) :
    s.AloneLeaves zoneInfo id job now := by
  cases compiles : job.compiles with
  | false =>
      cases job with
      | emergency state => exact emergency_leaves state fresh
      | apply fetch => exact nomatch compiles
      | update fetch => exact nomatch compiles
      | scheduleCheck => exact nomatch compiles
  | true =>
      obtain ⟨sources, combined, whitelist, same⟩ := outcome_compiled compiles publishes
      obtain ⟨db, first, second⟩ := alone_outcome zoneInfo now job fresh
      rw [combined] at first
      rw [whitelist] at second
      refine ⟨alone_finished fresh, ?_, fun _ => ⟨_, _, first, second⟩, ?_⟩
      · intro left right shown shown'
        cases first.symm.trans shown
        cases second.symm.trans shown'
        exact compileZones_disjoint sources now
      · intro _ commits refreshes left right shown shown' later
        cases first.symm.trans shown
        cases second.symm.trans shown'
        rw [db]
        exact same commits refreshes later

end Shared

def allowList : Blocklist := { adsList with url := "https://lists.example/allow.txt", listType := "allow" }

/-- The allow list is still empty. -/
def earlierFetch : Fetch := fun url _ => if url = adsList.url then .ok {"ads.example"} else .ok ∅

def crossing : List Label :=
  [.begin 0 (.apply earlierFetch) noon, .begin 1 (.apply adsFetch) noon, .step 1, .step 0, .step 0,
    .step 1, .step 0, .step 1]

def listsDb : Database := ⟨[], [adsList, allowList], []⟩

def crossed : Shared := crossing.foldl (Shared.step fun _ => none) (.start listsDb)

theorem crossed_finished : crossed.Finished := by
  intro id writer here
  match id with
  | 0 =>
      have done : crossed.writers 0 = some ⟨.apply earlierFetch, noon, listsDb, []⟩ := rfl
      rw [← Option.some.inj (done.symm.trans here)]
  | 1 =>
      have done : crossed.writers 1 = some ⟨.apply adsFetch, noon, listsDb, []⟩ := rfl
      rw [← Option.some.inj (done.symm.trans here)]
  | other + 2 => exact nomatch here

theorem crossed_combined :
    crossed.combined = some ⟨0, (compileZones (freshSources earlierFetch listsDb) noon).1⟩ := rfl

theorem crossed_whitelist :
    crossed.whitelist = some ⟨1, (compileZones (freshSources adsFetch listsDb) noon).2⟩ := rfl

end PowerBlockade.Blocking
