import PowerBlockade.Lib.FileSystem
import PowerBlockade.Sync.Agent

/-!
# Replacing a file by renaming

`atomic_write` of the primary and `write_if_changed` of the agent, call by call.
-/

namespace PowerBlockade.Files
open Lib Lib.FileM Sync

variable {Name : Type} [DecidableEq Name]

/-! ## The writers -/

/-- What the two writers share: the content goes to a temporary file, which is then put in place. -/
def throughTemporary (mkstempOk : Bool) (taken : Option Nat) (closeOk unlinkOk : Bool)
    (content : String) (publish : Nat → FileM Name Unit) : FileM Name Unit := do
  let tmp ← mkstemp mkstempOk
  tryCatch
    (do
      write taken tmp (encode content)
      attempt closeOk
      publish tmp)
    (fun error => do
      unlinkQuietly unlinkOk tmp
      throw error)

/-- The outcomes of the calls of one `atomic_write`; `write` is how many bytes `os.write` takes. -/
structure AtomicCalls where
  makedirs : Bool
  mkstemp : Bool
  write : Option Nat
  close : Bool
  replace : Bool
  unlink : Bool

def atomicWrite (calls : AtomicCalls) (path : Name) (content : String) : FileM Name Unit := do
  attempt calls.makedirs
  throughTemporary calls.mkstemp calls.write calls.close calls.unlink content fun tmp =>
    replace calls.replace tmp path

/-- The outcomes of the calls of one `write_if_changed`. `unlink`, `openFile` and `rewriteFails` belong
to the rewrite in place, `cleanup` to the outer `except`. -/
structure ReplaceCalls where
  mkdir : Bool
  read : Bool
  mkstemp : Bool
  write : Option Nat
  close : Bool
  replace : Bool
  unlink : Bool
  openFile : Bool
  rewriteFails : Option Nat
  cleanup : Bool

def rewriteInPlace (calls : ReplaceCalls) (tmp : Nat) (filepath : Name) (content : String) :
    FileM Name Unit := do
  unlinkQuietly calls.unlink tmp
  let i ← openWrite calls.openFile filepath
  writeAll calls.rewriteFails i (encode content)

def replaceOrRewrite (calls : ReplaceCalls) (tmp : Nat) (filepath : Name) (content : String) :
    FileM Name Unit :=
  tryCatch (replace calls.replace tmp filepath) fun error =>
    match error with
    | .os => rewriteInPlace calls tmp filepath content
    | .unicode => throw .unicode

def writeIfChanged (calls : ReplaceCalls) (filepath : Name) (content : String) : FileM Name Bool := do
  attempt calls.mkdir
  let old := (← get).read filepath
  attempt (old.isNone || calls.read)
  match upToDate old content with
  | none => throw .unicode
  | some true => return false
  | some false =>
      throughTemporary calls.mkstemp calls.write calls.close calls.cleanup content fun tmp =>
        replaceOrRewrite calls tmp filepath content
      return true

/-! ## Their results -/

variable {path : Name} {content : String} {fs left : FileSystem Name} {α : Type}

def cleaned (unlinkOk : Bool) (tmp : Nat) (left : FileSystem Name) : FileSystem Name :=
  if unlinkOk = true ∧ tmp ∈ left.temporary then left.removeTemporary tmp else left

/-- The state in which the content, as far as it was taken, is to be put in place. -/
def prepared (fs : FileSystem Name) (n : Nat) (content : String) : FileSystem Name :=
  fs.makeTemporary.put fs.next ((encode content).take n)

omit [DecidableEq Name] in
theorem beside_prepared (fs : FileSystem Name) (n : Nat) (content : String) :
    FileSystem.Beside fs (prepared fs n content) :=
  (FileSystem.beside_makeTemporary fs).put _

omit [DecidableEq Name] in
theorem run_throughTemporary (mkstempOk : Bool) (taken : Option Nat) (closeOk unlinkOk : Bool)
    (content : String) (publish : Nat → FileM Name Unit) (fs : FileSystem Name) :
    (throughTemporary mkstempOk taken closeOk unlinkOk content publish).run fs =
      if mkstempOk = true then
        match taken with
        | none => .error .os (cleaned unlinkOk fs.next fs.makeTemporary)
        | some n =>
            if closeOk = true then
              match (publish fs.next).run (prepared fs n content) with
              | .ok _ after => .ok () after
              | .error error after => .error error (cleaned unlinkOk fs.next after)
            else .error .os (cleaned unlinkOk fs.next (prepared fs n content))
      else .error .os fs := by
  unfold throughTemporary
  cases mkstempOk with
  | false => simp
  | true =>
      have made : (mkstemp true).run fs = .ok fs.next fs.makeTemporary := run_mkstemp true
      rw [run_bind_ok made, run_tryCatch]
      cases taken with
      | none => simp [cleaned]
      | some n =>
          have written : (write (some n) fs.next (encode content)).run fs.makeTemporary =
              .ok () (prepared fs n content) := by
            simp [prepared]
          rw [run_bind_ok written]
          cases closeOk with
          | false => simp [cleaned]
          | true =>
              cases published : (publish fs.next).run (prepared fs n content) with
              | ok value after => simp [published]
              | error error after => simp [published, cleaned]

/-! ## What they promise -/

/-- It returns with the whole content in the file, or raises and leaves everything as it was. -/
def Replaced (path : Name) (content : String) (before : FileSystem Name) :
    EStateM.Result FileError (FileSystem Name) α → Prop
  | .ok _ after => after.read path = some (encode content)
  | .error _ after => after.read path = before.read path ∧ after.inode path = before.inode path ∧
      after.temporary = before.temporary

omit [DecidableEq Name] in
theorem replaced_untouched (error : FileError) :
    Replaced (α := α) path content fs (.error error fs) := ⟨rfl, rfl, rfl⟩

omit [DecidableEq Name] in
theorem replaced_cleaned_iff (beside : FileSystem.Beside fs left) (error : FileError) (unlinkOk : Bool) :
    Replaced (α := α) path content fs (.error error (cleaned unlinkOk fs.next left)) ↔
      unlinkOk = true := by
  have there := beside.there
  cases unlinkOk with
  | true => simp [Replaced, cleaned, there, beside.removed, beside.read, beside.inode]
  | false => simp [Replaced, cleaned, beside.temporary_ne, beside.read, beside.inode]

theorem replaced_renamed_iff (n : Nat) (value : α) :
    Replaced path content fs
        (.ok value ((prepared fs n content).rename fs.next path (beside_prepared fs n content).there)) ↔
      (encode content).length ≤ n := by
  simp [Replaced, FileSystem.read_rename, prepared]

/-- No later call makes up for what `os.write` leaves out, nor for a clean-up that fails. -/
def WholeWritten (taken : Option Nat) (closeOk replaceOk unlinkOk : Bool) (size : Nat) : Prop :=
  match taken with
  | none => unlinkOk = true
  | some n => if closeOk = true ∧ replaceOk = true then size ≤ n else unlinkOk = true

def AtomicCalls.Whole (calls : AtomicCalls) (size : Nat) : Prop :=
  calls.makedirs = true → calls.mkstemp = true →
    WholeWritten calls.write calls.close calls.replace calls.unlink size

/-- Where `os.replace` succeeds. A file that is taken to be up to date has to be so. -/
def ReplaceCalls.Whole (calls : ReplaceCalls) (old : Option Bytes) (content : String) : Prop :=
  calls.mkdir = true → (old.isNone || calls.read) = true →
    match upToDate old content with
    | none => True
    | some true => old = some (encode content)
    | some false => calls.mkstemp = true →
        WholeWritten calls.write calls.close true calls.cleanup (encode content).length

theorem throughTemporary_replaced_iff (publish : Nat → FileM Name Unit) (replaceOk : Bool)
    (renames : ∀ n, (publish fs.next).run (prepared fs n content) =
      if replaceOk = true then
        .ok () ((prepared fs n content).rename fs.next path (beside_prepared fs n content).there)
      else .error .os (prepared fs n content))
    (mkstempOk : Bool) (taken : Option Nat) (closeOk unlinkOk : Bool) (value : α) :
    Replaced path content fs
        ((throughTemporary mkstempOk taken closeOk unlinkOk content publish >>= fun _ => pure value).run fs) ↔
      (mkstempOk = true → WholeWritten taken closeOk replaceOk unlinkOk (encode content).length) := by
  rw [EStateM.run_bind, run_throughTemporary]
  cases mkstempOk with
  | false => simp [replaced_untouched]
  | true =>
      cases taken with
      | none => simp [WholeWritten, replaced_cleaned_iff (FileSystem.beside_makeTemporary fs)]
      | some n =>
          cases closeOk with
          | false => simp [WholeWritten, replaced_cleaned_iff (beside_prepared fs n content)]
          | true =>
              cases replaceOk with
              | false => simp [WholeWritten, renames, replaced_cleaned_iff (beside_prepared fs n content)]
              | true => simp [WholeWritten, renames, replaced_renamed_iff]

theorem run_replace_prepared (path : Name) (content : String) (fs : FileSystem Name)
    (replaceOk : Bool) (n : Nat) :
    (replace replaceOk fs.next path).run (prepared fs n content) =
      if replaceOk = true then
        .ok () ((prepared fs n content).rename fs.next path (beside_prepared fs n content).there)
      else .error .os (prepared fs n content) := by
  have there := (beside_prepared fs n content).there
  cases replaceOk <;> simp [run_replace, there]

theorem atomicWrite_replaced_iff (calls : AtomicCalls) (path : Name) (content : String)
    (fs : FileSystem Name) :
    Replaced path content fs ((atomicWrite calls path content).run fs) ↔
      calls.Whole (encode content).length := by
  have written := throughTemporary_replaced_iff (replace calls.replace · path) calls.replace
    (run_replace_prepared path content fs calls.replace)
    calls.mkstemp calls.write calls.close calls.unlink ()
  rw [AtomicCalls.Whole, ← written, atomicWrite, EStateM.run_bind, run_attempt]
  cases calls.makedirs with
  | false => simp [replaced_untouched]
  | true => simp

theorem run_writeIfChanged (calls : ReplaceCalls) (path : Name) (content : String)
    (fs : FileSystem Name) :
    (writeIfChanged calls path content).run fs =
      if calls.mkdir = true ∧ ((fs.read path).isNone || calls.read) = true then
        match upToDate (fs.read path) content with
        | none => .error .unicode fs
        | some true => .ok false fs
        | some false =>
            (throughTemporary calls.mkstemp calls.write calls.close calls.cleanup content
              (fun tmp => replaceOrRewrite calls tmp path content) >>= fun _ => pure true).run fs
      else .error .os fs := by
  have got : (get : FileM Name (FileSystem Name)).run fs = .ok fs fs := rfl
  unfold writeIfChanged
  cases calls.mkdir with
  | false => simp
  | true =>
      rw [run_bind_ok (run_attempt true), run_bind_ok got]
      dsimp only
      cases readable : ((fs.read path).isNone || calls.read) with
      | false => rw [run_bind_error (run_attempt false), if_neg (by simp)]
      | true =>
          rw [run_bind_ok (run_attempt true), if_pos (by simp)]
          cases upToDate (fs.read path) content with
          | none => rfl
          | some current => cases current <;> rfl

theorem writeIfChanged_replaced_iff (calls : ReplaceCalls) (replaces : calls.replace = true)
    (path : Name) (content : String) (fs : FileSystem Name) :
    Replaced path content fs ((writeIfChanged calls path content).run fs) ↔
      calls.Whole (fs.read path) content := by
  have renames (n : Nat) : (replaceOrRewrite calls fs.next path content).run (prepared fs n content) =
      if true = true then
        .ok () ((prepared fs n content).rename fs.next path (beside_prepared fs n content).there)
      else .error .os (prepared fs n content) := by
    rw [replaceOrRewrite, replaces, run_tryCatch, run_replace_prepared, if_pos rfl]
  have written := throughTemporary_replaced_iff (replaceOrRewrite calls · path content) true renames
    calls.mkstemp calls.write calls.close calls.cleanup true
  rw [run_writeIfChanged, ReplaceCalls.Whole]
  by_cases begun : calls.mkdir = true ∧ ((fs.read path).isNone || calls.read) = true
  · rw [if_pos begun]
    simp only [begun, true_imp_iff]
    cases compared : upToDate (fs.read path) content with
    | none => simp [replaced_untouched]
    | some current =>
        cases current with
        | true => exact Iff.rfl
        | false => exact written
  · rw [if_neg begun]
    have never : ¬ (calls.mkdir = true ∧ ((fs.read path).isNone || calls.read) = true) := begun
    simp only [replaced_untouched, true_iff]
    intro made readable
    exact absurd ⟨made, readable⟩ never

/-- Both writers, whatever the outcomes of their calls: what `os.write` takes decides. -/
theorem replaced_iff_whole (path : Name) (content : String) (fs : FileSystem Name) :
    (∀ calls : AtomicCalls, Replaced path content fs ((atomicWrite calls path content).run fs) ↔
        calls.Whole (encode content).length) ∧
      ∀ calls : ReplaceCalls, calls.replace = true →
        (Replaced path content fs ((writeIfChanged calls path content).run fs) ↔
          calls.Whole (fs.read path) content) :=
  ⟨fun calls => atomicWrite_replaced_iff calls path content fs,
    fun calls replaces => writeIfChanged_replaced_iff calls replaces path content fs⟩

def allTaken : ReplaceCalls := ⟨true, true, true, some 2, true, true, true, true, none, true⟩

theorem allTaken_replaced :
    Replaced "zone" "ab" .empty ((writeIfChanged allTaken "zone" "ab").run .empty) := by
  apply ((replaced_iff_whole "zone" "ab" .empty).2 allTaken rfl).2
  intro _ _ _
  show "ab".toByteArray.data.toList.length ≤ 2
  decide

/-! ## A short write -/

def oneByteTaken : AtomicCalls := ⟨true, true, some 1, true, true, true⟩

theorem shortWrite_truncates :
    (stateAfter ((atomicWrite oneByteTaken "zone" "ab").run .empty)).read "zone" = some [97] ∧
      ¬ Replaced "zone" "ab" .empty ((atomicWrite oneByteTaken "zone" "ab").run .empty) := by
  refine ⟨rfl, fun replaced => ?_⟩
  have whole := (atomicWrite_replaced_iff oneByteTaken "zone" "ab" .empty).1 replaced rfl rfl
  have size : "ab".utf8ByteSize ≤ 1 := by simpa [WholeWritten, oneByteTaken, encode] using whole
  exact absurd size (by decide)

end PowerBlockade.Files
