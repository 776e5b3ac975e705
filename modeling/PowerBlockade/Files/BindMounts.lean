import PowerBlockade.Files.SafeWrite
import PowerBlockade.Lib.Run

/-!
# A reader behind a file bind mount

The recursor's container has mounted the inode that the forward-zones file had when it started.
-/

namespace PowerBlockade.Files
open Lib Lib.FileM Sync

variable {Name : Type} [DecidableEq Name]

structure Host (Name : Type) where
  files : FileSystem Name
  /-- The inode that the container has mounted. -/
  mounted : Nat

namespace Host

def seen (host : Host Name) : Bytes := host.files.bytes host.mounted

def after {α : Type} (host : Host Name) (write : FileM Name α) : Host Name :=
  { host with files := stateAfter (write.run host.files) }

/-- If the update reports success, the container sees the content. -/
def Shows {α : Type} (host : Host Name) (write : FileM Name α) (content : String) : Prop :=
  returns (write.run host.files) = true → (host.after write).seen = encode content

end Host

/-- What `sync_config` writes for the forward zones, if there are any and each has its domain and its
servers. -/
def zonesContent (forwardZones : List ZoneEntry) : Option String :=
  if forwardZones = [] then none else (forwardZones.mapM entryLine).map renderForwardZones

theorem zoneActions_eq_write_iff {bundle : Bundle} {content : String} :
    zoneActions bundle = [.write .forwardZones content] ↔ zonesContent bundle.forwardZones = some content := by
  unfold zoneActions zonesContent
  by_cases empty : bundle.forwardZones = []
  · simp [empty]
  · cases bundle.forwardZones.mapM entryLine <;> simp [empty]

structure Hosts (Name : Type) where
  primary : Host Name
  secondary : Host Name

inductive Update
  | primary (calls : SafeCalls) (zones : List ForwardZone)
  | secondary (calls : ReplaceCalls) (forwardZones : List ZoneEntry)

def update (path : Name) (hosts : Hosts Name) : Update → Hosts Name
  | .primary calls zones =>
      { hosts with primary := hosts.primary.after (writeForwardZonesConfig calls zones path) }
  | .secondary calls forwardZones =>
      match zonesContent forwardZones with
      | some content => { hosts with secondary := hosts.secondary.after (writeIfChanged calls path content) }
      | none => hosts

def Visible (path : Name) (hosts : Hosts Name) : Update → Prop
  | .primary calls zones =>
      hosts.primary.Shows (writeForwardZonesConfig calls zones path) (generateForwardZonesConfig zones)
  | .secondary calls forwardZones =>
      ∀ content ∈ zonesContent forwardZones,
        hosts.secondary.Shows (writeIfChanged calls path content) content

/-- The containers have started with the files that are there. -/
structure Started (path : Name) (hosts : Hosts Name) : Prop where
  primary : hosts.primary.files.inode path = some hosts.primary.mounted
  secondary : hosts.secondary.files.inode path = some hosts.secondary.mounted

/-! ## When an update reaches the container -/

def ReplaceCalls.Returns (calls : ReplaceCalls) (old : Option Bytes) (content : String) : Prop :=
  (calls.mkdir = true ∧ (old.isNone || calls.read) = true) ∧
    match upToDate old content with
    | none => False
    | some true => True
    | some false => calls.mkstemp = true ∧ calls.write.isSome = true ∧ calls.close = true ∧
        (calls.replace = true ∨ calls.openFile = true ∧ calls.rewriteFails.isNone = true)

/-- The file is not up to date and cannot be replaced, so it is rewritten in place. -/
def ReplaceCalls.Falls (calls : ReplaceCalls) (old : Option Bytes) (content : String) : Prop :=
  upToDate old content = some false ∧ calls.replace = false

/-- On the primary all of a content without carriage returns has to be copied. On a secondary the
file has to be rewritten in place, under the mounted inode, unless that has the content already. -/
def Reaches (path : Name) (hosts : Hosts Name) : Update → Prop
  | .primary calls zones =>
      (calls.copied (generateForwardZonesConfig zones)).isSome = true → calls.rewriteFails.isNone = true →
        (encode (generateForwardZonesConfig zones)).length ≤ calls.write.getD 0 ∧
          '\r' ∉ (generateForwardZonesConfig zones).toList
  | .secondary calls forwardZones =>
      ∀ content ∈ zonesContent forwardZones,
        calls.Returns (hosts.secondary.files.read path) content →
          hosts.secondary.files.inode path = some hosts.secondary.mounted ∧
              calls.Falls (hosts.secondary.files.read path) content ∨
            hosts.secondary.seen = encode content

/-! ## What an update leaves -/

variable {path : Name} {content : String} {fs left : FileSystem Name} {i : Nat}

section

omit [DecidableEq Name]

theorem held_cleaned (held : left.Held i) (unlinkOk : Bool) (tmp : Nat) :
    (cleaned unlinkOk tmp left).Held i := by
  unfold cleaned
  split
  · exact held.removeTemporary tmp
  · exact held

theorem bytes_cleaned (unlinkOk : Bool) (tmp : Nat) : (cleaned unlinkOk tmp left).bytes = left.bytes := by
  unfold cleaned
  split <;> rfl

theorem held_prepared (held : fs.Held i) (n : Nat) (content : String) : (prepared fs n content).Held i :=
  held.makeTemporary.put fs.next _

theorem bytes_prepared (held : fs.Held i) (n : Nat) : (prepared fs n content).bytes i = fs.bytes i := by
  simp [prepared, FileSystem.put, FileSystem.makeTemporary, Function.update_of_ne held.ne_next]

end

theorem held_overwritten (held : fs.Held i) (bytes : Bytes) : (overwritten fs path bytes).Held i :=
  held.truncate.put _ bytes

theorem bytes_overwritten (held : fs.Held i) (path : Name) (bytes : Bytes) :
    (overwritten fs path bytes).bytes i = if fs.inode path = some i then bytes else fs.bytes i :=
  held.bytes_truncate_put

theorem run_rewriteInPlace (calls : ReplaceCalls) (tmp : Nat) (path : Name) (content : String) :
    (rewriteInPlace calls tmp path content).run left =
      if calls.openFile = true then
        if calls.rewriteFails.isNone = true then
          .ok () (overwritten (cleaned calls.unlink tmp left) path (encode content))
        else .error .os (overwritten (cleaned calls.unlink tmp left) path
          ((encode content).take (calls.rewriteFails.getD (encode content).length)))
      else .error .os (cleaned calls.unlink tmp left) := by
  have swept : (unlinkQuietly calls.unlink tmp).run left = .ok () (cleaned calls.unlink tmp left) :=
    run_unlinkQuietly _
  rw [rewriteInPlace, run_bind_ok swept, run_openWrite_writeAll]
  cases calls.rewriteFails <;> simp

/-- What `write_if_changed` leaves for a reader that holds an inode. -/
def Leaves {α : Type} (calls : ReplaceCalls) (path : Name) (content : String) (fs : FileSystem Name)
    (i : Nat) : EStateM.Result FileError (FileSystem Name) α → Prop
  | .ok _ after => calls.Returns (fs.read path) content ∧ after.Held i ∧
      (fs.inode path = some i → calls.Falls (fs.read path) content → after.bytes i = encode content) ∧
      (¬ (fs.inode path = some i ∧ calls.Falls (fs.read path) content) → after.bytes i = fs.bytes i)
  | .error _ after => ¬ calls.Returns (fs.read path) content ∧ after.Held i

omit [DecidableEq Name] in
theorem Leaves.held {α : Type} {calls : ReplaceCalls} {result : EStateM.Result FileError (FileSystem Name) α}
    (leaves : Leaves calls path content fs i result) : (stateAfter result).Held i := by
  cases result with
  | ok value after => exact leaves.2.1
  | error error after => exact leaves.2

theorem run_replaceOrRewrite_prepared (calls : ReplaceCalls) (path : Name) (content : String)
    (fs : FileSystem Name) (n : Nat) :
    (replaceOrRewrite calls fs.next path content).run (prepared fs n content) =
      if calls.replace = true then
        .ok () ((prepared fs n content).rename fs.next path (beside_prepared fs n content).there)
      else (rewriteInPlace calls fs.next path content).run (prepared fs n content) := by
  rw [replaceOrRewrite, run_tryCatch, run_replace_prepared]
  cases calls.replace <;> rfl

theorem replaceOrRewrite_leaves (calls : ReplaceCalls) (path : Name) (content : String)
    (held : fs.Held i) (n : Nat) (compared : upToDate (fs.read path) content = some false)
    (returned : calls.Returns (fs.read path) content ↔
      calls.replace = true ∨ calls.openFile = true ∧ calls.rewriteFails.isNone = true) :
    Leaves calls path content fs i
      ((replaceOrRewrite calls fs.next path content).run (prepared fs n content)) := by
  have ready := held_prepared held n content
  rw [run_replaceOrRewrite_prepared]
  cases replaces : calls.replace with
  | true =>
      have stays : ¬ calls.Falls (fs.read path) content := fun falls =>
        absurd (replaces.symm.trans falls.2) (by decide)
      exact ⟨returned.2 (Or.inl replaces), ready.rename _, fun _ falls => absurd falls stays,
        fun _ => bytes_prepared held n⟩
  | false =>
      have falls : calls.Falls (fs.read path) content := ⟨compared, replaces⟩
      have kept : ¬ calls.replace = true := by
        rw [replaces]
        decide
      rw [or_iff_right kept] at returned
      have swept := held_cleaned ready calls.unlink fs.next
      have rewritten := bytes_overwritten swept path (encode content)
      rw [inode_cleaned, bytes_cleaned, bytes_prepared held, (beside_prepared fs n content).inode] at rewritten
      simp only [Bool.false_eq_true, if_false, run_rewriteInPlace]
      by_cases opened : calls.openFile = true
      · rw [if_pos opened]
        by_cases whole : calls.rewriteFails.isNone = true
        · rw [if_pos whole]
          refine ⟨returned.2 ⟨opened, whole⟩, held_overwritten swept _, ?_, ?_⟩
          · intro named _
            rw [rewritten, if_pos named]
          · intro other
            rw [rewritten, if_neg fun named => other ⟨named, falls⟩]
        · rw [if_neg whole]
          exact ⟨fun done => whole (returned.1 done).2, held_overwritten swept _⟩
      · rw [if_neg opened]
        exact ⟨fun done => opened (returned.1 done).1, swept⟩

theorem writeIfChanged_leaves (calls : ReplaceCalls) (path : Name) (content : String)
    (held : fs.Held i) :
    Leaves calls path content fs i ((writeIfChanged calls path content).run fs) := by
  rw [run_writeIfChanged]
  by_cases begun : calls.mkdir = true ∧ ((fs.read path).isNone || calls.read) = true
  · rw [if_pos begun]
    cases compared : upToDate (fs.read path) content with
    | none => simp [Leaves, ReplaceCalls.Returns, compared, held]
    | some current =>
        cases current with
        | true => simp [Leaves, ReplaceCalls.Returns, ReplaceCalls.Falls, compared, held, begun]
        | false =>
            simp only
            rw [EStateM.run_bind, run_throughTemporary]
            cases temporary : calls.mkstemp with
            | false => simp [Leaves, ReplaceCalls.Returns, compared, held, temporary]
            | true =>
                cases taken : calls.write with
                | none =>
                    simp [Leaves, ReplaceCalls.Returns, compared, taken, held_cleaned held.makeTemporary]
                | some n =>
                    have ready := held_prepared held n content
                    cases closed : calls.close with
                    | false => simp [Leaves, ReplaceCalls.Returns, compared, closed, held_cleaned ready]
                    | true =>
                        have leaves := replaceOrRewrite_leaves calls path content held n compared
                          (by simp [ReplaceCalls.Returns, begun, compared, temporary, taken, closed])
                        simp only [if_true]
                        generalize (replaceOrRewrite calls fs.next path content).run
                          (prepared fs n content) = published at leaves
                        cases published with
                        | ok value after => exact leaves
                        | error error after => exact ⟨leaves.1, held_cleaned leaves.2 _ _⟩
  · rw [if_neg begun]
    exact ⟨fun returned => begun returned.1, held⟩

/-! ## Over all updates -/

variable {hosts : Hosts Name}

theorem safeWrite_named (calls : SafeCalls) (content : String) (named : fs.inode path = some i) :
    (stateAfter ((safeWrite calls path content).run fs)).inode path = some i := by
  cases copied : calls.copied content with
  | none =>
      obtain ⟨error, left, same, inode, -⟩ := run_safeWrite_untouched path fs copied
      rw [same]
      exact inode ▸ named
  | some validated =>
      obtain ⟨after, same, -, kept⟩ := run_safeWrite_copied path fs copied
      rw [same]
      cases calls.rewriteFails.isNone <;> exact kept i named

theorem safeWrite_shows_iff {host : Host Name} (calls : SafeCalls) (content : String)
    (named : host.files.inode path = some host.mounted) :
    host.Shows (safeWrite calls path content) content ↔
      ((calls.copied content).isSome = true → calls.rewriteFails.isNone = true →
        (encode content).length ≤ calls.write.getD 0 ∧ '\r' ∉ content.toList) := by
  unfold Host.Shows Host.seen Host.after
  cases copied : calls.copied content with
  | none =>
      obtain ⟨error, left, same, -⟩ := run_safeWrite_untouched path host.files copied
      simp [same, returns]
  | some validated =>
      obtain ⟨after, same, read, kept⟩ := run_safeWrite_copied path host.files copied
      rw [same]
      cases fails : calls.rewriteFails with
      | some k => simp [returns]
      | none =>
          have bytes : after.bytes host.mounted = encode validated := by
            simpa [FileSystem.read, kept _ named, SafeCalls.reached, fails] using read
          simp [returns, stateAfter, bytes, encode_eq_iff_whole copied]

theorem writeForwardZonesConfig_shows_iff {host : Host Name} (calls : SafeCalls)
    (zones : List ForwardZone) :
    host.Shows (writeForwardZonesConfig calls zones path) content ↔
      host.Shows (safeWrite calls path (generateForwardZonesConfig zones)) content := by
  unfold Host.Shows Host.after
  rw [run_writeForwardZonesConfig]
  cases (safeWrite calls path (generateForwardZonesConfig zones)).run host.files <;> exact Iff.rfl

theorem writeForwardZonesConfig_named (calls : SafeCalls) (zones : List ForwardZone)
    (named : fs.inode path = some i) :
    (stateAfter ((writeForwardZonesConfig calls zones path).run fs)).inode path = some i := by
  have kept := safeWrite_named calls (generateForwardZonesConfig zones) named
  rw [run_writeForwardZonesConfig]
  generalize (safeWrite calls path (generateForwardZonesConfig zones)).run fs = written at kept
  cases written <;> exact kept

theorem writeIfChanged_shows_iff {host : Host Name} (calls : ReplaceCalls) (content : String)
    (held : host.files.Held host.mounted) :
    host.Shows (writeIfChanged calls path content) content ↔
      (calls.Returns (host.files.read path) content →
        host.files.inode path = some host.mounted ∧ calls.Falls (host.files.read path) content ∨
          host.seen = encode content) := by
  have leaves := writeIfChanged_leaves calls path content held
  unfold Host.Shows Host.seen Host.after
  generalize (writeIfChanged calls path content).run host.files = written at leaves
  cases written with
  | error error after => simp [returns, leaves.1]
  | ok value after =>
      obtain ⟨returned, -, rewritten, same⟩ := leaves
      simp only [returns, stateAfter, returned, true_imp_iff]
      by_cases reached : host.files.inode path = some host.mounted ∧ calls.Falls (host.files.read path) content
      · exact iff_of_true (rewritten reached.1 reached.2) (Or.inl reached)
      · rw [same reached, or_iff_right reached]

theorem seen_of_renamed {host : Host Name} {calls : ReplaceCalls} (held : host.files.Held host.mounted)
    (replaces : calls.replace = true) (returned : calls.Returns (host.files.read path) content) :
    returns ((writeIfChanged calls path content).run host.files) = true ∧
      (host.after (writeIfChanged calls path content)).seen = host.seen := by
  have leaves := writeIfChanged_leaves calls path content held
  unfold Host.seen Host.after
  generalize (writeIfChanged calls path content).run host.files = written at leaves
  cases written with
  | error error after => exact absurd returned leaves.1
  | ok value after =>
      refine ⟨rfl, leaves.2.2.2 fun reached => ?_⟩
      exact absurd (replaces.symm.trans reached.2.2) (by decide)

structure Kept (path : Name) (hosts : Hosts Name) : Prop where
  primary : hosts.primary.files.inode path = some hosts.primary.mounted
  secondary : hosts.secondary.files.Held hosts.secondary.mounted

omit [DecidableEq Name] in
theorem Started.kept (started : Started path hosts) : Kept path hosts :=
  ⟨started.primary, .of_named started.secondary⟩

theorem Kept.update (kept : Kept path hosts) (change : Update) : Kept path (update path hosts change) := by
  cases change with
  | primary calls zones =>
      exact ⟨writeForwardZonesConfig_named calls zones kept.primary, kept.secondary⟩
  | secondary calls forwardZones =>
      cases rendered : zonesContent forwardZones with
      | none =>
          simp only [Files.update, rendered]
          exact kept
      | some content =>
          simp only [Files.update, rendered]
          exact ⟨kept.primary, (writeIfChanged_leaves calls path content kept.secondary).held⟩

theorem visible_iff (kept : Kept path hosts) (change : Update) :
    Visible path hosts change ↔ Reaches path hosts change := by
  cases change with
  | primary calls zones =>
      exact (writeForwardZonesConfig_shows_iff calls zones).trans
        (safeWrite_shows_iff calls (generateForwardZonesConfig zones) kept.primary)
  | secondary calls forwardZones =>
      exact forall₂_congr fun content _ => writeIfChanged_shows_iff calls content kept.secondary

/-- Any sequence of updates on the two hosts, from the start of their containers. -/
theorem visible_iff_reaches (path : Name) (hosts : Hosts Name) (started : Started path hosts)
    (updates : List Update) :
    Along (update path) (Visible path) hosts updates ↔
      Along (update path) (Reaches path) hosts updates :=
  along_congr_of_preserved updates started.kept (fun _ change kept => kept.update change)
    fun _ change kept => visible_iff kept change

/-! ## A directory mount beside a file mount -/

def bothOld : Hosts String := ⟨⟨oldZones, 0⟩, ⟨oldZones, 0⟩⟩

theorem bothOld_started : Started "zones" bothOld := ⟨rfl, rfl⟩

def lanZone : List ZoneEntry := [⟨some "lan", some "10.0.0.1"⟩]

/-- The agent has mounted the directory, so `os.replace` succeeds. -/
def directoryMounted : ReplaceCalls := ⟨true, true, true, some 100, true, true, true, true, none, true⟩

/-- The agent has mounted the file itself. -/
def fileMounted : ReplaceCalls := { directoryMounted with replace := false }

theorem lanZone_outdated :
    upToDate (oldZones.read "zones") (renderForwardZones ["lan=10.0.0.1"]) = some false := by
  have other : checksum "cd" ≠ checksum (renderForwardZones ["lan=10.0.0.1"]) := by decide +kernel
  have old : readText [99, 100] = some "cd" := by decide +kernel
  have read : oldZones.read "zones" = some [99, 100] := rfl
  simp [read, upToDate, old, other]

theorem fileMounted_visible :
    Along (update "zones") (Visible "zones") bothOld
      [.primary (.succeed 1000) [], .secondary fileMounted lanZone] := by
  apply (visible_iff_reaches "zones" bothOld bothOld_started _).2
  refine ⟨fun _ _ => ?_, ?_, trivial⟩
  · exact ⟨by decide +kernel, by decide⟩
  · intro content rendered _
    cases rendered
    exact Or.inl ⟨rfl, lanZone_outdated, rfl⟩

/-- The agent reports the new zones, and the recursor still reads the old ones. -/
theorem directoryMounted_hides :
    returns ((writeIfChanged directoryMounted "zones" (renderForwardZones ["lan=10.0.0.1"])).run oldZones) =
        true ∧
      (update "zones" bothOld (.secondary directoryMounted lanZone)).secondary.seen = [99, 100] ∧
      ¬ Along (update "zones") (Visible "zones") bothOld [.secondary directoryMounted lanZone] := by
  have rendered : zonesContent lanZone = some (renderForwardZones ["lan=10.0.0.1"]) := rfl
  have returned : directoryMounted.Returns (oldZones.read "zones") (renderForwardZones ["lan=10.0.0.1"]) := by
    rw [ReplaceCalls.Returns, lanZone_outdated]
    exact ⟨⟨rfl, Bool.or_true _⟩, rfl, rfl, rfl, Or.inl rfl⟩
  have kept := bothOld_started.kept
  obtain ⟨done, seen⟩ := seen_of_renamed kept.secondary rfl returned
  refine ⟨done, ?_, fun along => ?_⟩
  · simp only [update, rendered]
    exact seen
  · have shown := along.1 _ rendered done
    rw [seen] at shown
    exact absurd (congrArg List.length shown) (by decide +kernel)

end PowerBlockade.Files
