import PowerBlockade.Files.Unchanged
import PowerBlockade.Lib.Run
import PowerBlockade.Sync.Convergence
import PowerBlockade.Sync.Reload
import PowerBlockade.Verdict.Reading

/-!
# From the operator's policy to the verdict on an event

The primary publishes, the agent of a secondary syncs, the processor there reads the files and marks
events, in any order.
-/

namespace PowerBlockade.Verdict
open Lib Blocking Zones Sync Processor

/-- A secondary, whose processor lowers letters as `strings.ToLower` does. -/
structure Deployment where
  letters : LetterCase
  env : Environment
  node : Secondary
  lowers : env.toLower = letters.toLower

/-- `published` is the history of both files. -/
structure Chain where
  published : List Publication
  primary : Primary
  files : Files
  processor : ResponseProcessor

inductive Move
  | publish (publication : Publication)
  /-- The operator changes what else the bundle is made of. -/
  | configure (pbVersion : Option String) (zones : List ForwardZone) (settings : Settings)
  | sync (reached : Bool) (faults : Target → Fault)
  | frame (now : GoTime) (msg : Option DnstapMessage)

def inOrder {α : Type} [LinearOrder α] (names : Finset α) : List α := names.sort (· ≤ ·)

/-- `loadFile` on a file of the agent; `none` is a file that is not there. -/
def readZone (letters : LetterCase) (file : Option Bytes) : Option (List String) := do
  let bytes ← file
  let text ← decode bytes
  return inOrder (loadFile letters text)

def zoneFiles (letters : LetterCase) (files : Files) : ZoneFiles :=
  ⟨readZone letters (files (.rpz RpzName.combined.filename)),
    readZone letters (files (.rpz RpzName.whitelist.filename))⟩

namespace Chain

def start (primary : Primary) (mets : Metrics) : Chain :=
  ⟨[], { primary with rpz := fun _ => none }, fun _ => none, Processor.start mets⟩

def response (deployment : Deployment) (chain : Chain) (reached : Bool) : Sync.Response :=
  if reached then some ((config chain.primary deployment.node).mapError (·.1)) else none

def step (deployment : Deployment) (chain : Chain) : Move → Chain
  | .publish publication =>
      { chain with
        published := chain.published ++ [publication]
        primary.rpz := Function.update chain.primary.rpz publication.file
          (some (encode publication.zone.text)) }
  | .configure pbVersion zones settings =>
      { chain with primary := ⟨pbVersion, chain.primary.rpz, zones, settings⟩ }
  | .sync reached faults =>
      { chain with files := (syncConfig (chain.response deployment reached) faults chain.files).files }
  | .frame now msg =>
      { chain with
        processor := chain.processor.receive deployment.env
          ⟨now, zoneFiles deployment.letters chain.files, msg⟩ }

def run (deployment : Deployment) (primary : Primary) (mets : Metrics) (moves : List Move) : Chain :=
  moves.foldl (step deployment) (start primary mets)

end Chain

@[simp] theorem Chain.rpz_publish (deployment : Deployment) (chain : Chain) (publication : Publication) :
    (chain.step deployment (.publish publication)).primary.rpz =
      Function.update chain.primary.rpz publication.file (some (encode publication.zone.text)) := rfl

/-- What is published is legible, and no write of the agent is torn. -/
def Move.Sound (letters : LetterCase) : Move → Prop
  | .publish publication => publication.Legible letters
  | .sync _ faults => ∀ target kept, faults target ≠ .torn kept
  | .configure .. | .frame .. => True

/-- The name that `makeEvent` looks up. -/
def asked (env : Environment) (qname : String) : String := trimDot (env.lower qname)

/-! ## Where the content of a file comes from -/

def FromHistory (published : List Publication) (name : RpzName) (file : Option Bytes) : Prop :=
  ∀ bytes ∈ file, ∃ publication ∈ published, publication.file = name ∧ bytes = publication.bytes

/-- The names that the processor holds: none yet, or those of a publication. -/
def Repeats (published : List Publication) (name : RpzName) (held : List String) : Prop :=
  held = [] ∨ ∃ publication ∈ published, publication.file = name ∧
    ∀ domain, domain ∈ held ↔ domain ∈ publication.names

section
variable {published : List Publication} {name : RpzName} {letters : LetterCase}

theorem FromHistory.mono {file : Option Bytes} (sourced : FromHistory published name file)
    (publication : Publication) : FromHistory (published ++ [publication]) name file := by
  intro bytes member
  obtain ⟨earlier, listed, same⟩ := sourced bytes member
  exact ⟨earlier, List.mem_append_left _ listed, same⟩

theorem Repeats.mono {held : List String} (repeats : Repeats published name held) (publication : Publication) :
    Repeats (published ++ [publication]) name held := by
  rcases repeats with nothing | ⟨earlier, listed, same⟩
  · exact .inl nothing
  · exact .inr ⟨earlier, List.mem_append_left _ listed, same⟩

theorem readZone_bytes {publication : Publication} (legible : publication.Legible letters) :
    readZone letters (some publication.bytes) = some (publication.names.sort (· ≤ ·)) := by
  simp [readZone, inOrder, Publication.bytes, decode_encode, legible.loadFile_text]

end

/-! ## One sync -/

section
variable {faults : Target → Fault} {primary : Primary} {node : Secondary} {bundle : Bundle}

theorem filename_injective : Function.Injective RpzName.filename := by
  intro name other same
  cases name <;> cases other <;> first | rfl | exact absurd same (by decide)

theorem mem_rpzFiles {file : RpzFile} :
    file ∈ rpzFiles primary ↔ ∃ name content, (primary.rpz name).bind readText = some content ∧
      file = ⟨name.filename, content, checksum content⟩ := by
  simp only [rpzFiles, List.mem_filterMap, Option.bind_eq_bind, Option.bind_eq_some_iff (x := (primary.rpz _).bind _),
    Option.pure_def, Option.some.injEq]
  constructor
  · rintro ⟨name, -, content, read, rfl⟩
    exact ⟨name, content, read, rfl⟩
  · rintro ⟨name, content, read, rfl⟩
    exact ⟨name, by cases name <;> simp [rpzNames], content, read, rfl⟩

theorem act_file (whole : ∀ target kept, faults target ≠ .torn kept) (p : Progress) (action : Action)
    (target : Target) : (act faults p action).files target = p.files target ∨
      ∃ content, action = .write target content ∧
        (act faults p action).files target = some (encode content) := by
  have step := acted faults p action
  generalize act faults p action = next at step
  cases step with
  | stopped | current | failed | badZone => exact .inl rfl
  | @replaced other content =>
      by_cases same : target = other
      · subst same
        exact .inr ⟨content, rfl, Function.update_self _ _ _⟩
      · exact .inl (Function.update_of_ne same _ _)
  | torn _ _ torn => exact absurd torn (whole _ _)

/-- However far a sync gets, a file keeps what it had or has what the bundle says, whole. -/
theorem foldl_act_file (whole : ∀ target kept, faults target ≠ .torn kept) (todo : List Action) (p : Progress)
    (target : Target) : (todo.foldl (act faults) p).files target = p.files target ∨
      ∃ content, .write target content ∈ todo ∧
        (todo.foldl (act faults) p).files target = some (encode content) := by
  induction todo generalizing p with
  | nil => exact .inl rfl
  | cons action todo ih =>
      rcases ih (act faults p action) with kept | ⟨content, listed, written⟩
      · rcases act_file whole p action target with same | ⟨content, rfl, written⟩
        · exact .inl (kept.trans same)
        · exact .inr ⟨content, List.mem_cons_self, kept.trans written⟩
      · exact .inr ⟨content, List.mem_cons_of_mem _ listed, written⟩

theorem write_rpz_mem_actions {name : RpzName} {content : String} (served : config primary node = .ok bundle)
    (listed : .write (.rpz name.filename) content ∈ actions bundle) :
    (primary.rpz name).bind readText = some content := by
  rcases List.mem_append.mp listed with inRpz | inZones
  · simp only [rpzActions, List.mem_map, List.mem_filter, (config_ok served).2.1] at inRpz
    obtain ⟨file, ⟨among, -⟩, same⟩ := inRpz
    obtain ⟨name', content', read, rfl⟩ := mem_rpzFiles.mp among
    obtain ⟨sameTarget, rfl⟩ := Action.write.inj same
    rw [← filename_injective (Target.rpz.inj sameTarget)]
    exact read
  · unfold zoneActions at inZones
    split at inZones
    · cases inZones
    · split at inZones
      · have sameTarget := (Action.write.inj (List.mem_singleton.mp inZones)).1
        cases sameTarget
      · have same := List.mem_singleton.mp inZones
        cases same

/-- A sync with no faults over files that are text completes. -/
theorem syncConfig_completed (served : config primary node = .ok bundle) {files : Files}
    (text : ∀ target, ∀ bytes ∈ files target, (decode bytes).isSome = true) :
    (syncConfig (some (.ok bundle)) (fun _ => .none) files).completed = true := by
  have wellFormed : .badZone ∉ actions bundle := by
    rw [actions, List.mem_append, not_or]
    constructor
    · intro listed
      obtain ⟨_, -, same⟩ := List.mem_map.mp listed
      cases same
    · have lines : bundle.forwardZones.mapM entryLine =
          some ((zoneMap primary node).rows.map fun z => zoneLine z.domain z.servers) := by
        rw [(config_ok served).2.2, List.mapM_map]
        exact mapM_eq_map fun z _ => rfl
      rw [zoneActions, lines]
      split
      · exact List.not_mem_nil
      · intro listed
        have same := List.mem_singleton.mp listed
        cases same
  have along (todo : List Action) (files : Files) (wellFormed : .badZone ∉ todo)
      (text : ∀ target, ∀ bytes ∈ files target, (decode bytes).isSome = true) :
      Along after (Succeeds fun _ => .none) files todo := by
    induction todo generalizing files with
    | nil => trivial
    | cons action todo ih =>
        rw [List.mem_cons, not_or] at wellFormed
        cases action with
        | badZone => exact absurd rfl wellFormed.1
        | write target content =>
            refine ⟨?_, ih _ wellFormed.2 fun other bytes member => ?_⟩
            · cases compared : upToDate (files target) content with
              | none =>
                  obtain ⟨bytes, present, broken⟩ := Files.upToDate_none_iff.mp compared
                  exact absurd (text target bytes present) (by simp [broken])
              | some same =>
                  cases same with
                  | true => exact .inl ⟨fun same => absurd same (by simp), compared⟩
                  | false => exact .inr ⟨compared, rfl⟩
            · by_cases here : other = target
              · subst here
                rw [after, Function.update_self, written] at member
                split at member
                · exact text other bytes member
                · obtain rfl := Option.some.inj member
                  rw [decode_encode, Option.isSome_some]
              · rw [after, Function.update_of_ne here] at member
                exact text other bytes member
  have finished : (run (fun _ => .none) files bundle).raised = false :=
    foldl_act_succeeds rfl (along (actions bundle) files wellFormed text)
  simp [syncConfig, finished]

variable {published : List Publication} {letters : LetterCase}

/-- Files of the history stay files of the history, wherever the sync stops. -/
theorem fromHistory_syncConfig (whole : ∀ target kept, faults target ≠ .torn kept) {name : RpzName}
    (legible : ∀ publication ∈ published, publication.Legible letters)
    (there : FromHistory published name (primary.rpz name)) {files : Files}
    (here : FromHistory published name (files (.rpz name.filename)))
    (served : config primary node = .ok bundle) :
    FromHistory published name ((syncConfig (some (.ok bundle)) faults files).files (.rpz name.filename)) := by
  have same : (syncConfig (some (.ok bundle)) faults files).files = (run faults files bundle).files := by
    unfold syncConfig
    dsimp only
    split <;> rfl
  rw [same]
  rcases foldl_act_file whole (actions bundle) (.begin files) (.rpz name.filename) with kept | ⟨content, listed, written⟩
  · rw [run, kept]
    exact here
  · intro bytes member
    rw [run, written, Option.mem_some_iff] at member
    subst member
    obtain ⟨old, present, read⟩ := Option.bind_eq_some_iff.mp (write_rpz_mem_actions served listed)
    obtain ⟨publication, among, file, rfl⟩ := there old present
    rw [(legible publication among).readText_bytes, Option.some.injEq] at read
    exact ⟨publication, among, file, by rw [Publication.bytes, read]⟩

end

/-! ## One frame -/

/-- A frame returns no event and reads no file, or it reloads the sets if they are old enough and
marks its event by them. -/
theorem receive_cases (env : Environment) (p : ResponseProcessor) (arrival : Arrival) :
    ((p.receive env arrival).sets = p.sets ∧ (p.receive env arrival).returned = p.returned) ∨
      ∃ ev, (p.receive env arrival).returned = p.returned ++ [ev] ∧
        (p.receive env arrival).sets = p.sets.load arrival.now arrival.files ∧
        ev.blocked = decide (asked env ev.qname ∈ (p.receive env arrival).sets.blockedSet ∧
          asked env ev.qname ∉ (p.receive env arrival).sets.allowSet) := by
  unfold ResponseProcessor.receive
  cases arrival.msg with
  | none => exact .inl ⟨rfl, rfl⟩
  | some msg =>
      simp only [ResponseProcessor.process_eq]
      cases Processor.response env.unpack msg with
      | none => exact .inl ⟨rfl, rfl⟩
      | some r =>
          simp only [Option.elim_some]
          split
          · exact .inl ⟨rfl, rfl⟩
          · exact .inr ⟨_, rfl, rfl, rfl⟩

theorem repeats_load {published : List Publication} {letters : LetterCase} {name : RpzName} {file : Option Bytes}
    (legible : ∀ publication ∈ published, publication.Legible letters)
    (here : FromHistory published name file) {held : List String} (holds : Repeats published name held) :
    Repeats published name ((readZone letters file).getD held) := by
  cases file with
  | none => exact holds
  | some bytes =>
      obtain ⟨publication, among, same, rfl⟩ := here bytes rfl
      rw [readZone_bytes (legible publication among)]
      exact .inr ⟨publication, among, same, fun domain => by simp⟩

/-! ## The chain -/

/-- Every file, set and verdict of the chain goes back to a publication. -/
structure Sourced (deployment : Deployment) (chain : Chain) : Prop where
  legible : ∀ publication ∈ chain.published, publication.Legible deployment.letters
  primary : ∀ name, FromHistory chain.published name (chain.primary.rpz name)
  files : ∀ name : RpzName, FromHistory chain.published name (chain.files (.rpz name.filename))
  blocked : Repeats chain.published .combined chain.processor.sets.blockedSet
  allowed : Repeats chain.published .whitelist chain.processor.sets.allowSet
  returned : ∀ ev ∈ chain.processor.returned, ∃ blocked allowed,
    Repeats chain.published .combined blocked ∧ Repeats chain.published .whitelist allowed ∧
      ev.blocked = decide (asked deployment.env ev.qname ∈ blocked ∧ asked deployment.env ev.qname ∉ allowed)

namespace Sourced
variable {deployment : Deployment} {chain : Chain}

theorem start (primary : Primary) (mets : Metrics) : Sourced deployment (.start primary mets) where
  legible _ := (absurd · List.not_mem_nil)
  primary _ _ := (absurd · (Option.not_mem_none _))
  files _ _ := (absurd · (Option.not_mem_none _))
  blocked := .inl rfl
  allowed := .inl rfl
  returned _ := (absurd · List.not_mem_nil)

theorem publish (sourced : Sourced deployment chain) {publication : Publication}
    (legible : publication.Legible deployment.letters) :
    Sourced deployment (chain.step deployment (.publish publication)) where
  legible := by
    intro other member
    rcases List.mem_append.mp member with earlier | new
    · exact sourced.legible other earlier
    · rwa [List.mem_singleton.mp new]
  primary name := by
    by_cases same : name = publication.file
    · subst same
      intro bytes member
      rw [Chain.rpz_publish, Function.update_self, Option.mem_some_iff] at member
      exact ⟨publication, List.mem_append_right _ (List.mem_singleton_self _), rfl, member.symm⟩
    · rw [Chain.rpz_publish, Function.update_of_ne same]
      exact (sourced.primary name).mono publication
  files name := (sourced.files name).mono publication
  blocked := sourced.blocked.mono publication
  allowed := sourced.allowed.mono publication
  returned ev member := by
    obtain ⟨blocked, allowed, left, right, verdict⟩ := sourced.returned ev member
    exact ⟨blocked, allowed, left.mono publication, right.mono publication, verdict⟩

theorem sync (sourced : Sourced deployment chain) {faults : Target → Fault}
    (whole : ∀ target kept, faults target ≠ .torn kept) (reached : Bool) :
    Sourced deployment (chain.step deployment (.sync reached faults)) where
  legible := sourced.legible
  primary := sourced.primary
  files name := by
    show FromHistory chain.published name
      ((syncConfig (chain.response deployment reached) faults chain.files).files (.rpz name.filename))
    unfold Chain.response
    cases reached with
    | false => exact sourced.files name
    | true =>
        cases served : config chain.primary deployment.node with
        | error refused => exact sourced.files name
        | ok bundle =>
            exact fromHistory_syncConfig whole sourced.legible (sourced.primary name) (sourced.files name) served
  blocked := sourced.blocked
  allowed := sourced.allowed
  returned := sourced.returned

theorem frame (sourced : Sourced deployment chain) (now : GoTime) (msg : Option DnstapMessage) :
    Sourced deployment (chain.step deployment (.frame now msg)) := by
  have sets : Repeats chain.published .combined
        (chain.processor.sets.load now (zoneFiles deployment.letters chain.files)).blockedSet ∧
      Repeats chain.published .whitelist
        (chain.processor.sets.load now (zoneFiles deployment.letters chain.files)).allowSet := by
    unfold ZoneSets.load
    split
    · exact ⟨sourced.blocked, sourced.allowed⟩
    · exact ⟨repeats_load sourced.legible (sourced.files .combined) sourced.blocked,
        repeats_load sourced.legible (sourced.files .whitelist) sourced.allowed⟩
  rcases receive_cases deployment.env chain.processor ⟨now, zoneFiles deployment.letters chain.files, msg⟩ with
    ⟨same, none⟩ | ⟨ev, one, loaded, verdict⟩
  · exact ⟨sourced.legible, sourced.primary, sourced.files, same ▸ sourced.blocked, same ▸ sourced.allowed,
      fun ev member => sourced.returned ev (none ▸ member)⟩
  · have after := loaded ▸ sets
    refine ⟨sourced.legible, sourced.primary, sourced.files, after.1, after.2, fun other member => ?_⟩
    rcases List.mem_append.mp (one ▸ member) with earlier | new
    · exact sourced.returned other earlier
    · rw [List.mem_singleton.mp new]
      exact ⟨_, _, after.1, after.2, verdict⟩

theorem step (sourced : Sourced deployment chain) {move : Move} (sound : move.Sound deployment.letters) :
    Sourced deployment (chain.step deployment move) := by
  cases move with
  | publish publication => exact sourced.publish sound
  | configure pbVersion zones settings =>
      exact ⟨sourced.legible, sourced.primary, sourced.files, sourced.blocked, sourced.allowed, sourced.returned⟩
  | sync reached faults => exact sourced.sync sound reached
  | frame now msg => exact sourced.frame now msg

end Sourced

/-! ## Runs -/

section
variable (deployment : Deployment)

def Move.publication? : Move → Option Publication
  | .publish publication => some publication
  | _ => none

theorem published_foldl (chain : Chain) (run : List Move) :
    (run.foldl (Chain.step deployment) chain).published = chain.published ++ run.filterMap Move.publication? := by
  induction run generalizing chain with
  | nil => simp
  | cons move run ih =>
      rw [List.foldl_cons, ih, List.filterMap_cons]
      cases move <;> simp [Chain.step, Move.publication?]

theorem sourced_foldl {chain : Chain} (sourced : Sourced deployment chain) {run : List Move}
    (sound : ∀ move ∈ run, move.Sound deployment.letters) :
    Sourced deployment (run.foldl (Chain.step deployment) chain) :=
  foldl_invariant sourced (along_of_forall_mem sound) fun _ _ sourced sound => sourced.step sound

end

end PowerBlockade.Verdict
