import PowerBlockade.Verdict.Chain

/-!
# When the verdict is that of the policy in force

No event is marked against every policy that was published; once the files have settled, each is marked
by the one that they hold.
-/

namespace PowerBlockade.Verdict
open Lib Blocking Zones Sync Processor

/-! ## Files that have settled -/

/-- Both machines have the same two publications in their files. -/
structure Settled (combined whitelist : Publication) (chain : Chain) : Prop where
  primary : chain.primary.rpz .combined = some combined.bytes ∧ chain.primary.rpz .whitelist = some whitelist.bytes
  files : chain.files (.rpz RpzName.combined.filename) = some combined.bytes ∧
    chain.files (.rpz RpzName.whitelist.filename) = some whitelist.bytes

/-- Two different publications of one file never have the same checksum. -/
def NoCollision (published : List Publication) : Prop :=
  ∀ p ∈ published, ∀ q ∈ published, p.file = q.file →
    checksum p.zone.text = checksum q.zone.text → p.zone.text = q.zone.text

section
variable {deployment : Deployment} {chain : Chain} {combined whitelist : Publication}

theorem part_bundle {bundle : Bundle} {name : RpzName} {publication : Publication}
    (served : config chain.primary deployment.node = .ok bundle)
    (legible : publication.Legible deployment.letters)
    (there : chain.primary.rpz name = some publication.bytes) :
    part bundle (.rpz name.filename) = some publication.zone.text := by
  have read : (chain.primary.rpz name).bind readText = some publication.zone.text := by
    rw [there, Option.bind_some, legible.readText_bytes]
  have found : bundle.rpzFiles.find? (·.filename = name.filename) =
      some ⟨name.filename, publication.zone.text, checksum publication.zone.text⟩ := by
    rw [(config_ok served).2.1]
    cases name with
    | combined => simp [rpzFiles, rpzNames, read]
    | whitelist =>
        cases other : (chain.primary.rpz .combined).bind readText <;>
          simp [rpzFiles, rpzNames, read, other, RpzName.filename]
  simp [part, found, publication.text_ne_empty]

theorem file_of_completed {faults : Target → Fault} {name : RpzName} {publication : Publication}
    (sourced : Sourced deployment chain) (distinct : NoCollision chain.published)
    (listed : publication ∈ chain.published) (file : publication.file = name)
    (there : chain.primary.rpz name = some publication.bytes)
    (completed : (syncConfig (chain.response deployment true) faults chain.files).completed = true) :
    (chain.step deployment (.sync true faults)).files (.rpz name.filename) = some publication.bytes := by
  show (syncConfig (chain.response deployment true) faults chain.files).files _ = _
  unfold Chain.response at completed ⊢
  cases served : config chain.primary deployment.node with
  | error refused => exact absurd (served ▸ completed) (by simp [Except.mapError, syncConfig])
  | ok bundle =>
      rw [served] at completed
      show (syncConfig (some (.ok bundle)) faults chain.files).files _ = _
      replace completed : (syncConfig (some (.ok bundle)) faults chain.files).completed = true := completed
      have finished : (run faults chain.files bundle).raised = false := by
        cases raised : (run faults chain.files bundle).raised with
        | false => rfl
        | true => simp [syncConfig, raised] at completed
      have names : (bundle.rpzFiles.map (·.filename)).Nodup :=
        (config_ok served).2.1 ▸ rpzFiles_distinct chain.primary
      have left := run_files_rpz (by cases name <;> decide : name.filename ≠ "") names finished
      have same : (syncConfig (some (.ok bundle)) faults chain.files).files = (run faults chain.files bundle).files := by
        simp [syncConfig, finished]
      have legible := sourced.legible publication listed
      rw [same, left, part_bundle served legible there, follow, written]
      split
      · -- the old file passes for the new one, and only itself does
        rename_i current
        cases old : chain.files (.rpz name.filename) with
        | none => simp [old, upToDate] at current
        | some bytes =>
            obtain ⟨earlier, among, sameFile, rfl⟩ := sourced.files name bytes old
            rw [old, upToDate, (sourced.legible earlier among).readText_bytes, Option.map_some, Option.some.injEq,
              decide_eq_true_eq] at current
            have text := distinct earlier among publication listed (sameFile.trans file.symm) current
            rw [Publication.bytes, text, Publication.bytes]
      · rfl

theorem settled_of_completed {faults : Target → Fault} (sourced : Sourced deployment chain)
    (distinct : NoCollision chain.published) (listed : combined ∈ chain.published ∧ whitelist ∈ chain.published)
    (files : combined.file = .combined ∧ whitelist.file = .whitelist)
    (there : chain.primary.rpz .combined = some combined.bytes ∧ chain.primary.rpz .whitelist = some whitelist.bytes)
    (completed : (syncConfig (chain.response deployment true) faults chain.files).completed = true) :
    Settled combined whitelist (chain.step deployment (.sync true faults)) where
  primary := there
  files := ⟨file_of_completed sourced distinct listed.1 files.1 there.1 completed,
    file_of_completed sourced distinct listed.2 files.2 there.2 completed⟩

/-- A later sync has nothing else to write. -/
theorem file_of_sync {faults : Target → Fault} {name : RpzName} {publication : Publication}
    (whole : ∀ target kept, faults target ≠ .torn kept) (legible : publication.Legible deployment.letters)
    (there : chain.primary.rpz name = some publication.bytes)
    (here : chain.files (.rpz name.filename) = some publication.bytes) (reached : Bool) :
    (chain.step deployment (.sync reached faults)).files (.rpz name.filename) = some publication.bytes := by
  show (syncConfig (chain.response deployment reached) faults chain.files).files _ = _
  unfold Chain.response
  cases reached with
  | false => exact here
  | true =>
      cases served : config chain.primary deployment.node with
      | error refused => exact here
      | ok bundle =>
          show (syncConfig (some (.ok bundle)) faults chain.files).files _ = _
          have same : (syncConfig (some (.ok bundle)) faults chain.files).files = (run faults chain.files bundle).files := by
            unfold syncConfig
            dsimp only
            split <;> rfl
          rw [same, run]
          rcases foldl_act_file whole (actions bundle) (.begin chain.files) (.rpz name.filename) with
            kept | ⟨content, listed, written⟩
          · exact kept.trans here
          · have read := write_rpz_mem_actions served listed
            rw [there, Option.bind_some, legible.readText_bytes, Option.some.injEq] at read
            rw [written, Publication.bytes, read]

theorem Settled.step (settled : Settled combined whitelist chain)
    (legible : combined.Legible deployment.letters ∧ whitelist.Legible deployment.letters) {move : Move}
    (sound : move.Sound deployment.letters) (quiet : move.publication? = none) :
    Settled combined whitelist (chain.step deployment move) := by
  cases move with
  | publish => exact nomatch quiet
  | configure => exact ⟨settled.primary, settled.files⟩
  | sync reached faults =>
      exact ⟨settled.primary, file_of_sync sound legible.1 settled.primary.1 settled.files.1 reached,
        file_of_sync sound legible.2 settled.primary.2 settled.files.2 reached⟩
  | frame => exact ⟨settled.primary, settled.files⟩

/-- The processor holds the names of both files, or it has not read them since. -/
def Reloading (combined whitelist : Publication) (since : Option GoTime) (sets : ZoneSets) : Prop :=
  sets.lastLoad = since ∨
    (∀ domain, domain ∈ sets.blockedSet ↔ domain ∈ combined.names) ∧
      ∀ domain, domain ∈ sets.allowSet ↔ domain ∈ whitelist.names

theorem Settled.load (settled : Settled combined whitelist chain)
    (legible : combined.Legible deployment.letters ∧ whitelist.Legible deployment.letters)
    {since : Option GoTime} {sets : ZoneSets} (before : Reloading combined whitelist since sets) (now : GoTime) :
    Reloading combined whitelist since (sets.load now (zoneFiles deployment.letters chain.files)) ∧
      ((∀ loaded ∈ since, GoTime.secondNanos ≤ now - loaded) →
        (∀ domain, domain ∈ (sets.load now (zoneFiles deployment.letters chain.files)).blockedSet ↔
          domain ∈ combined.names) ∧
        ∀ domain, domain ∈ (sets.load now (zoneFiles deployment.letters chain.files)).allowSet ↔
          domain ∈ whitelist.names) := by
  unfold ZoneSets.load
  split
  · rename_i recent
    refine ⟨before, fun later => ?_⟩
    rcases before with untouched | current
    · obtain ⟨loaded, loadedAt, soon⟩ := (Option.any_eq_true _ _).mp recent
      have old := later loaded (untouched ▸ loadedAt)
      have young : now - loaded < GoTime.secondNanos := by simpa using soon
      exact absurd young (not_lt.mpr old)
    · exact current
  · have current : (∀ domain, domain ∈ ((zoneFiles deployment.letters chain.files).combined.getD sets.blockedSet) ↔
        domain ∈ combined.names) ∧
      ∀ domain, domain ∈ ((zoneFiles deployment.letters chain.files).whitelist.getD sets.allowSet) ↔
        domain ∈ whitelist.names := by
      rw [zoneFiles, settled.files.1, settled.files.2, readZone_bytes legible.1, readZone_bytes legible.2]
      simp
    exact ⟨.inr current, fun _ => current⟩

/-- Along quiet moves the files stay and the processor comes to them. -/
theorem Settled.foldl {chain : Chain} (settled : Settled combined whitelist chain)
    (legible : combined.Legible deployment.letters ∧ whitelist.Legible deployment.letters)
    {since : Option GoTime} (before : Reloading combined whitelist since chain.processor.sets) {moves : List Move}
    (sound : ∀ move ∈ moves, move.Sound deployment.letters ∧ move.publication? = none) :
    Settled combined whitelist (moves.foldl (Chain.step deployment) chain) ∧
      Reloading combined whitelist since (moves.foldl (Chain.step deployment) chain).processor.sets := by
  refine foldl_invariant (P := fun chain => Settled combined whitelist chain ∧
    Reloading combined whitelist since chain.processor.sets) ⟨settled, before⟩ (along_of_forall_mem sound) ?_
  rintro chain move ⟨settled, before⟩ ⟨sound, quiet⟩
  refine ⟨settled.step legible sound quiet, ?_⟩
  cases move with
  | publish => exact nomatch quiet
  | configure | sync => exact before
  | frame now msg =>
      rcases receive_cases deployment.env chain.processor ⟨now, zoneFiles deployment.letters chain.files, msg⟩ with
        ⟨same, -⟩ | ⟨ev, -, loaded, -⟩
      · exact (congrArg (Reloading combined whitelist since) same).mpr before
      · exact (congrArg (Reloading combined whitelist since) loaded).mpr (settled.load legible before now).1

end

/-- The publication that a file of the primary was last replaced by. -/
def current (moves : List Move) (name : RpzName) : Option Publication :=
  ((moves.filterMap Move.publication?).filter (·.file = name)).getLast?

theorem current_append {moves : List Move} {move : Move} (silent : move.publication? = none) (name : RpzName) :
    current (moves ++ [move]) name = current moves name := by
  rw [current, List.filterMap_append, List.filterMap_cons_none silent, List.filterMap_nil, List.append_nil, current]

theorem current_append_publish (moves : List Move) (publication : Publication) (name : RpzName) :
    current (moves ++ [.publish publication]) name =
      if publication.file = name then some publication else current moves name := by
  have one : [Move.publish publication].filterMap Move.publication? = [publication] := rfl
  rw [current, List.filterMap_append, one, List.filter_append]
  split
  · rename_i same
    rw [List.filter_cons_of_pos (by simpa using same), List.filter_nil, List.getLast?_append, List.getLast?_singleton]
    rfl
  · rename_i other
    rw [List.filter_cons_of_neg (by simpa using other), List.filter_nil, List.append_nil, current]

theorem rpz_run (deployment : Deployment) (primary : Primary) (mets : Metrics) (moves : List Move) (name : RpzName) :
    (Chain.run deployment primary mets moves).primary.rpz name = (current moves name).map Publication.bytes := by
  induction moves using List.reverseRecOn with
  | nil => rfl
  | append_singleton moves move ih =>
      rw [Chain.run, List.foldl_append, List.foldl_cons, List.foldl_nil, ← Chain.run]
      cases move with
      | configure | sync | frame =>
          rw [current_append rfl]
          exact ih
      | publish publication =>
          rw [current_append_publish, Chain.rpz_publish]
          split
          · rename_i same
            rw [same, Function.update_self]
            rfl
          · rename_i other
            rw [Function.update_of_ne (Ne.symm other), ih]

theorem mem_of_current {moves : List Move} {name : RpzName} {publication : Publication}
    (last : current moves name = some publication) :
    publication ∈ moves.filterMap Move.publication? ∧ publication.file = name := by
  have member := List.mem_filter.mp (List.mem_of_getLast? last)
  exact ⟨member.1, of_decide_eq_true member.2⟩

/-! ## The verdict of the files in force -/

/-- What stands in the two files of the primary, once a sync has brought it, marks every event from one
second after the processor's last reading before that sync, until the next publication. -/
theorem blocked_of_settled (deployment : Deployment) (primary : Primary) (mets : Metrics)
    {before after : List Move} {faults : Target → Fault}
    (sound : ∀ move ∈ before ++ Move.sync true faults :: after, move.Sound deployment.letters)
    (distinct : NoCollision (before.filterMap Move.publication?)) {combined whitelist : Publication}
    (last : current before .combined = some combined ∧ current before .whitelist = some whitelist)
    (completed : (syncConfig ((Chain.run deployment primary mets before).response deployment true) faults
      (Chain.run deployment primary mets before).files).completed = true)
    (quiet : ∀ move ∈ after, move.publication? = none)
    {now : GoTime} {msg : Option DnstapMessage}
    (later : ∀ loaded ∈ (Chain.run deployment primary mets before).processor.sets.lastLoad,
      GoTime.secondNanos ≤ now - loaded)
    {ev : Event}
    (returned : (Chain.run deployment primary mets
        (before ++ Move.sync true faults :: after ++ [Move.frame now msg])).processor.returned =
      (Chain.run deployment primary mets (before ++ Move.sync true faults :: after)).processor.returned ++ [ev]) :
    ev.blocked = decide (asked deployment.env ev.qname ∈ combined.names ∧
      asked deployment.env ev.qname ∉ whitelist.names) := by
  obtain ⟨soundBefore, soundRest⟩ := List.forall_mem_append.mp sound
  have soundAfter := (List.forall_mem_cons.mp soundRest).2
  have sourced := sourced_foldl deployment (Sourced.start primary mets) soundBefore
  have published := published_foldl deployment (.start primary mets) before
  have files := And.intro (rpz_run deployment primary mets before .combined)
    (rpz_run deployment primary mets before .whitelist)
  rw [last.1, last.2] at files
  simp only [Chain.run, List.foldl_append, List.foldl_cons, List.foldl_nil] at *
  generalize before.foldl (Chain.step deployment) (.start primary mets) = chain at *
  replace published : chain.published = before.filterMap Move.publication? := published
  rw [← published] at distinct
  have among : combined ∈ chain.published ∧ whitelist ∈ chain.published := by
    rw [published]
    exact ⟨(mem_of_current last.1).1, (mem_of_current last.2).1⟩
  have legible := And.intro (sourced.legible _ among.1) (sourced.legible _ among.2)
  have settled := settled_of_completed sourced distinct among
    ⟨(mem_of_current last.1).2, (mem_of_current last.2).2⟩ files completed
  obtain ⟨settled, reloading⟩ := settled.foldl legible (.inl rfl) fun move member =>
    ⟨soundAfter move member, quiet move member⟩
  generalize after.foldl (Chain.step deployment) (chain.step deployment (.sync true faults)) = final at *
  rcases receive_cases deployment.env final.processor ⟨now, zoneFiles deployment.letters final.files, msg⟩ with
    ⟨-, nothing⟩ | ⟨other, one, loaded, verdict⟩
  · exact absurd (returned.symm.trans nothing) (by simp)
  · obtain rfl : ev = other := by
      have same := returned.symm.trans one
      simpa using same
    have inForce := (settled.load legible reloading now).2 later
    rw [loaded] at verdict
    rw [verdict]
    simp only [inForce.1, inForce.2]

/-! ## One list, one sync, one lookup -/

def oneNode : Deployment where
  letters := asciiCase
  env := stack
  node := corpNode
  lowers := rfl

def adsSources : List (Source String) := [⟨false, {"ads.example"}⟩]

def adsMoves : List Move :=
  [.publish (.combined adsSources noon), .publish (.whitelist adsSources noon)]

def adsLookup : Move := .frame 0 (some (Processor.asked [192, 168, 1, 20]))

theorem adsLegible {publication : Publication} (few : publication.names ⊆ {"ads.example"}) :
    publication.Legible asciiCase := by
  intro domain member
  obtain rfl := Finset.mem_singleton.mp (few member)
  exact ⟨⟨by decide, by decide, by decide, by decide, by decide⟩, by decide⟩

theorem adsMoves_sound : ∀ move ∈ adsMoves ++ Move.sync true (fun _ => .none) :: [],
    move.Sound oneNode.letters := by
  simp only [adsMoves, List.cons_append, List.nil_append, List.forall_mem_cons]
  exact ⟨adsLegible (by decide), adsLegible (by decide), fun _ _ => nofun, fun _ => nofun⟩

theorem adsSync_completes : (syncConfig ((Chain.run oneNode noZones idle adsMoves).response oneNode true)
    (fun _ => .none) (Chain.run oneNode noZones idle adsMoves).files).completed = true := by
  have served : ∃ bundle, config (Chain.run oneNode noZones idle adsMoves).primary corpNode = .ok bundle :=
    ⟨_, rfl⟩
  obtain ⟨bundle, served⟩ := served
  unfold Chain.response
  rw [if_pos rfl, show oneNode.node = corpNode from rfl, served]
  exact syncConfig_completed served fun _ => nofun


theorem adsMoves_distinct : NoCollision (adsMoves.filterMap Move.publication?) := by
  have history : adsMoves.filterMap Move.publication? =
      [.combined adsSources noon, .whitelist adsSources noon] := rfl
  rw [history]
  intro p among q listed file _
  simp only [List.mem_cons, List.not_mem_nil, or_false] at among listed
  rcases among with rfl | rfl <;> rcases listed with rfl | rfl <;> first | rfl | exact nomatch file

/-- The lookup gives one event, and it is marked by what the sync has brought. -/
theorem adsLookup_returns : ∃ ev,
    (Chain.run oneNode noZones idle (adsMoves ++ Move.sync true (fun _ => .none) :: [] ++ [adsLookup])).processor.returned =
      (Chain.run oneNode noZones idle (adsMoves ++ Move.sync true (fun _ => .none) :: [])).processor.returned ++ [ev] ∧
    ev.qname = "ads.example." := ⟨_, rfl, rfl⟩

/-! ## No verdict without a policy -/

end PowerBlockade.Verdict
