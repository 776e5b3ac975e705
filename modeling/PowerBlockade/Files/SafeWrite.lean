import Mathlib.Data.String.Basic
import PowerBlockade.Files.AtomicWrite

/-!
# Rewriting a file in place

`safe_write` reads back what it has written to a temporary file and copies it over the target, whose
inode stays.
-/

namespace PowerBlockade.Files
open Lib Lib.FileM Sync

variable {Name : Type} [DecidableEq Name]

structure SafeCalls where
  makedirs : Bool
  mkstemp : Bool
  write : Option Nat
  close : Bool
  readBack : Bool
  openFile : Bool
  /-- After how many bytes the copy fails. -/
  rewriteFails : Option Nat
  unlink : Bool

def validate (tmp : Nat) : FileM Name String := do
  match readText ((← get).bytes tmp) with
  | some validated => return validated
  | none => throw .unicode

/-- The body of the `try`. -/
def copyOver (calls : SafeCalls) (tmp : Nat) (path : Name) (content : String) : FileM Name Unit := do
  write calls.write tmp (encode content)
  attempt calls.close
  attempt calls.readBack
  let validated ← validate tmp
  let i ← openWrite calls.openFile path
  writeAll calls.rewriteFails i (encode validated)

def safeWrite (calls : SafeCalls) (path : Name) (content : String) : FileM Name Unit := do
  attempt calls.makedirs
  let tmp ← mkstemp calls.mkstemp
  tryFinally (copyOver calls tmp path content) (unlinkQuietly calls.unlink tmp)

/-! ## What is read back -/

theorem encode_decode {bytes : Bytes} {text : String} (decoded : decode bytes = some text) :
    encode text = bytes := by
  unfold decode String.fromUTF8? at decoded
  split at decoded
  · cases decoded
    simp [encode, String.fromUTF8]
  · contradiction

theorem length_encode (text : List Char) : (encode (String.ofList text)).length = String.utf8Len text := by
  have size := String.utf8ByteSize_ofList text
  rw [← size]
  rfl

theorem utf8Len_universalNewlines (text : List Char) :
    String.utf8Len (Python.universalNewlines text) ≤ String.utf8Len text := by
  have newline : '\n'.utf8Size = 1 := rfl
  have carriageReturn : '\r'.utf8Size = 1 := rfl
  fun_induction Python.universalNewlines text with
  | case1 rest ih =>
      simp only [String.utf8Len_cons, newline, carriageReturn]
      omega
  | case2 rest _ ih =>
      simp only [String.utf8Len_cons, newline, carriageReturn]
      omega
  | case3 c rest _ _ ih =>
      simp only [String.utf8Len_cons]
      omega
  | case4 => exact le_refl _

/-- The bytes read back are the content exactly when all of it was taken and no line end changes. -/
theorem readText_take_eq_iff (n : Nat) (content : String) :
    readText ((encode content).take n) = some content ↔
      (encode content).length ≤ n ∧ '\r' ∉ content.toList := by
  constructor
  · intro same
    obtain ⟨text, decoded, newlines⟩ := Option.map_eq_some_iff.1 same
    have chars : Python.universalNewlines text.toList = content.toList := by
      rw [← newlines, String.toList_ofList]
    have taken : encode text = (encode content).take n := encode_decode decoded
    have shorter := utf8Len_universalNewlines text.toList
    have size := congrArg List.length taken
    rw [chars, ← length_encode, ← length_encode, String.ofList_toList, String.ofList_toList] at shorter
    rw [List.length_take] at size
    exact ⟨by omega, chars ▸ Python.carriageReturn_not_mem_universalNewlines _⟩
  · intro ⟨whole, plain⟩
    rw [List.take_of_length_le whole, readText, decode_encode, Option.map_some,
      Python.universalNewlines_eq_self plain, String.ofList_toList]

/-! ## What a call leaves -/

variable {calls : SafeCalls} {path : Name} {content validated : String} {fs left : FileSystem Name}

/-- The text that is copied over the target, if it comes to that. -/
def SafeCalls.copied (calls : SafeCalls) (content : String) : Option String :=
  if calls.makedirs ∧ calls.mkstemp ∧ calls.close ∧ calls.readBack ∧ calls.openFile then
    calls.write.bind fun n => readText ((encode content).take n)
  else none

/-- The bytes of it that reach the target. -/
def SafeCalls.reached (calls : SafeCalls) (validated : String) : Bytes :=
  (encode validated).take (calls.rewriteFails.getD (encode validated).length)

omit [DecidableEq Name] in
theorem inode_cleaned (unlinkOk : Bool) (tmp : Nat) : (cleaned unlinkOk tmp left).inode = left.inode := by
  unfold cleaned
  split <;> rfl

omit [DecidableEq Name] in
theorem read_cleaned (unlinkOk : Bool) (tmp : Nat) (name : Name) :
    (cleaned unlinkOk tmp left).read name = left.read name := by
  unfold cleaned
  split <;> rfl

def overwritten (fs : FileSystem Name) (path : Name) (bytes : Bytes) : FileSystem Name :=
  (fs.truncate path).2.put (fs.truncate path).1 bytes

/-- Both writers that keep the inode end so. -/
theorem run_openWrite_writeAll (opens : Bool) (fails : Option Nat) (path : Name) (bytes : Bytes)
    (fs : FileSystem Name) :
    (openWrite opens path >>= fun i => writeAll fails i bytes).run fs =
      if opens = true then
        if fails.isNone = true then
          .ok () (overwritten fs path (bytes.take (fails.getD bytes.length)))
        else .error .os (overwritten fs path (bytes.take (fails.getD bytes.length)))
      else .error .os fs := by
  cases opens with
  | false => simp [run_openWrite]
  | true => cases fails <;> simp [run_openWrite, writeAll, overwritten]

omit [DecidableEq Name] in
theorem run_validate (tmp : Nat) :
    (validate tmp).run left = match readText (left.bytes tmp) with
      | some validated => .ok validated left
      | none => .error .unicode left := by
  cases text : readText (left.bytes tmp) with
  | none =>
      simp [validate, text]
      rfl
  | some validated => simp [validate, text]

theorem run_copyOver (calls : SafeCalls) (path : Name) (content : String) (fs : FileSystem Name) :
    (copyOver calls fs.next path content).run fs.makeTemporary =
      match calls.write with
      | none => .error .os fs.makeTemporary
      | some n =>
          if calls.close = true ∧ calls.readBack = true then
            match readText ((encode content).take n) with
            | none => .error .unicode (prepared fs n content)
            | some validated =>
                if calls.openFile = true then
                  if calls.rewriteFails.isNone = true then
                    .ok () (overwritten (prepared fs n content) path (calls.reached validated))
                  else .error .os (overwritten (prepared fs n content) path (calls.reached validated))
                else .error .os (prepared fs n content)
          else .error .os (prepared fs n content) := by
  obtain ⟨makedirs, mkstemp', write', close, readBack, openFile, rewriteFails, unlink'⟩ := calls
  cases write' with
  | none => simp [copyOver]
  | some n =>
      have bytes : (prepared fs n content).bytes fs.next = (encode content).take n :=
        FileSystem.bytes_put_self
      have taken : (write (some n) fs.next (encode content)).run fs.makeTemporary =
          .ok () (prepared fs n content) := by
        simp [prepared]
      rw [copyOver, run_bind_ok taken]
      cases close with
      | false => simp
      | true =>
          cases readBack with
          | false => simp
          | true =>
              cases text : readText ((encode content).take n) with
              | none => simp [run_validate, bytes, text]
              | some validated =>
                  have passed : (attempt true).run (prepared fs n content) = .ok () (prepared fs n content) :=
                    run_attempt true
                  have valid : (validate fs.next).run (prepared fs n content) =
                      .ok validated (prepared fs n content) := by
                    rw [run_validate, bytes, text]
                  rw [run_bind_ok passed, run_bind_ok passed, run_bind_ok valid, run_openWrite_writeAll]
                  simp [text, SafeCalls.reached]

theorem run_safeWrite (calls : SafeCalls) (path : Name) (content : String) (fs : FileSystem Name) :
    (safeWrite calls path content).run fs =
      if calls.makedirs = true ∧ calls.mkstemp = true then
        match (copyOver calls fs.next path content).run fs.makeTemporary with
        | .ok _ after => .ok () (cleaned calls.unlink fs.next after)
        | .error error after => .error error (cleaned calls.unlink fs.next after)
      else .error .os fs := by
  unfold safeWrite
  cases calls.makedirs with
  | false => simp
  | true =>
      cases calls.mkstemp with
      | false => simp
      | true =>
          cases copied : (copyOver calls fs.next path content).run fs.makeTemporary with
          | ok value after => simp [run_tryFinally_ok copied, cleaned]
          | error error after => simp [run_tryFinally_error copied, cleaned]

theorem run_safeWrite_untouched (path : Name) (fs : FileSystem Name)
    (untouched : calls.copied content = none) :
    ∃ error left, (safeWrite calls path content).run fs = .error error left ∧
      left.inode = fs.inode ∧ ∀ name, left.read name = fs.read name := by
  rw [run_safeWrite]
  by_cases begun : calls.makedirs = true ∧ calls.mkstemp = true
  · have failed : ∃ error left, (copyOver calls fs.next path content).run fs.makeTemporary =
        .error error left ∧ FileSystem.Beside fs left := by
      rw [run_copyOver]
      cases taken : calls.write with
      | none => exact ⟨_, _, rfl, FileSystem.beside_makeTemporary fs⟩
      | some n =>
          have beside := beside_prepared fs n content
          by_cases read : calls.close = true ∧ calls.readBack = true
          · simp only [if_pos read]
            cases text : readText ((encode content).take n) with
            | none => exact ⟨_, _, rfl, beside⟩
            | some validated =>
                have unopened : calls.openFile ≠ true := by
                  intro opened
                  simp [SafeCalls.copied, begun, read, opened, taken, text] at untouched
                exact ⟨_, _, if_neg unopened, beside⟩
          · exact ⟨_, _, if_neg read, beside⟩
    obtain ⟨error, left, same, beside⟩ := failed
    rw [if_pos begun, same]
    refine ⟨error, _, rfl, ?_, fun name => ?_⟩
    · rw [inode_cleaned, beside.inode]
    · rw [read_cleaned, beside.read]
  · exact ⟨_, fs, if_neg begun, rfl, fun _ => rfl⟩

theorem run_safeWrite_copied (path : Name) (fs : FileSystem Name)
    (copied : calls.copied content = some validated) :
    ∃ after, (safeWrite calls path content).run fs =
        (if calls.rewriteFails.isNone = true then .ok () after else .error .os after) ∧
      after.read path = some (calls.reached validated) ∧
      ∀ i, fs.inode path = some i → after.inode path = some i := by
  have reached : (calls.makedirs = true ∧ calls.mkstemp = true ∧ calls.close = true ∧
      calls.readBack = true ∧ calls.openFile = true) ∧
      ∃ n, calls.write = some n ∧ readText ((encode content).take n) = some validated := by
    simpa [SafeCalls.copied, Option.bind_eq_some_iff] using copied
  obtain ⟨⟨made, temporary, closed, read, opened⟩, n, taken, text⟩ := reached
  have done := run_copyOver calls path content fs
  simp only [taken, closed, read, and_self, if_true, text, opened] at done
  refine ⟨cleaned calls.unlink fs.next (overwritten (prepared fs n content) path (calls.reached validated)), ?_, ?_, ?_⟩
  · rw [run_safeWrite, if_pos ⟨made, temporary⟩, done]
    cases calls.rewriteFails.isNone <;> rfl
  · rw [read_cleaned]
    exact FileSystem.read_truncate_put
  · intro i named
    rw [inode_cleaned]
    exact FileSystem.inode_truncate_put named

/-! ## What it promises -/

/-- It keeps the inode; it returns with the content in the file, or raises with the old or the new
content there. -/
def SafelyWritten {α : Type} (path : Name) (content : String) (before : FileSystem Name) :
    EStateM.Result FileError (FileSystem Name) α → Prop
  | .ok _ after => after.read path = some (encode content) ∧
      ∀ i, before.inode path = some i → after.inode path = some i
  | .error _ after =>
      (after.read path = before.read path ∨ after.read path = some (encode content)) ∧
        ∀ i, before.inode path = some i → after.inode path = some i

/-- If it comes to the copy: all of a content without carriage returns is copied, or the copy fails
where the old or the new content stands in the file. -/
def SafeCalls.Complete (calls : SafeCalls) (old : Option Bytes) (content : String) : Prop :=
  ∀ validated, calls.copied content = some validated →
    if calls.rewriteFails.isNone = true then
      (encode content).length ≤ calls.write.getD 0 ∧ '\r' ∉ content.toList
    else some (calls.reached validated) = old ∨ calls.reached validated = encode content

theorem encode_eq_iff_whole (copied : calls.copied content = some validated) :
    encode validated = encode content ↔
      (encode content).length ≤ calls.write.getD 0 ∧ '\r' ∉ content.toList := by
  have read : readText ((encode content).take (calls.write.getD 0)) = some validated := by
    simp only [SafeCalls.copied, Option.ite_none_right_eq_some, Option.bind_eq_some_iff] at copied
    obtain ⟨_, n, taken, text⟩ := copied
    rw [taken]
    exact text
  rw [← readText_take_eq_iff, read, Option.some.injEq]
  exact ⟨encode_inj, congrArg encode⟩

theorem safeWrite_safelyWritten_iff (calls : SafeCalls) (path : Name) (content : String)
    (fs : FileSystem Name) :
    SafelyWritten path content fs ((safeWrite calls path content).run fs) ↔
      calls.Complete (fs.read path) content := by
  cases copied : calls.copied content with
  | none =>
      obtain ⟨error, left, same, inode, read⟩ := run_safeWrite_untouched path fs copied
      rw [same]
      simp [SafelyWritten, SafeCalls.Complete, copied, inode, read]
  | some validated =>
      obtain ⟨after, same, read, kept⟩ := run_safeWrite_copied path fs copied
      rw [same]
      cases fails : calls.rewriteFails with
      | none =>
          have reached : calls.reached validated = encode validated := by simp [SafeCalls.reached, fails]
          simp only [SafeCalls.Complete, copied, fails, Option.some.injEq, forall_eq',
            Option.isNone_none, if_true, SafelyWritten, read, reached, encode_eq_iff_whole copied]
          exact and_iff_left kept
      | some k =>
          simp only [SafeCalls.Complete, copied, fails, Option.some.injEq, forall_eq',
            Option.isNone_some, Bool.false_eq_true, if_false, SafelyWritten, read]
          exact and_iff_left kept

/-! ## The forward zones -/

/-- The global zones that are enabled. -/
def generateForwardZonesConfig (zones : List ForwardZone) : String :=
  "\n".intercalate
    (["# Forward zones for PowerDNS Recursor", "# Generated automatically - do not edit manually\n"] ++
      (zones.filter fun zone => zone.enabled && zone.nodeId.isNone).map fun zone =>
        zoneLine zone.domain zone.servers)

def writeForwardZonesConfig (calls : SafeCalls) (zones : List ForwardZone) (outPath : Name) :
    FileM Name String := do
  let content := generateForwardZonesConfig zones
  safeWrite calls outPath content
  return content

theorem run_writeForwardZonesConfig (calls : SafeCalls) (zones : List ForwardZone) (path : Name)
    (fs : FileSystem Name) :
    (writeForwardZonesConfig calls zones path).run fs =
      match (safeWrite calls path (generateForwardZonesConfig zones)).run fs with
      | .ok _ after => .ok (generateForwardZonesConfig zones) after
      | .error error after => .error error after := by
  unfold writeForwardZonesConfig
  dsimp only
  cases written : (safeWrite calls path (generateForwardZonesConfig zones)).run fs with
  | ok value after => rw [run_bind_ok written]; rfl
  | error error after => rw [run_bind_error written]

theorem writeForwardZonesConfig_safelyWritten (calls : SafeCalls) (zones : List ForwardZone)
    (path : Name) (fs : FileSystem Name) :
    SafelyWritten path (generateForwardZonesConfig zones) fs
        ((writeForwardZonesConfig calls zones path).run fs) ↔
      SafelyWritten path (generateForwardZonesConfig zones) fs
        ((safeWrite calls path (generateForwardZonesConfig zones)).run fs) := by
  rw [run_writeForwardZonesConfig]
  cases (safeWrite calls path (generateForwardZonesConfig zones)).run fs <;> exact Iff.rfl

/-- Whatever the outcomes of the calls, for any content, and so for the forward zones. -/
theorem safelyWritten_iff_complete (path : Name) (fs : FileSystem Name) (calls : SafeCalls) :
    (∀ content, SafelyWritten path content fs ((safeWrite calls path content).run fs) ↔
        calls.Complete (fs.read path) content) ∧
      ∀ zones, SafelyWritten path (generateForwardZonesConfig zones) fs
          ((writeForwardZonesConfig calls zones path).run fs) ↔
        calls.Complete (fs.read path) (generateForwardZonesConfig zones) :=
  ⟨fun content => safeWrite_safelyWritten_iff calls path content fs, fun zones =>
    (writeForwardZonesConfig_safelyWritten calls zones path fs).trans
      (safeWrite_safelyWritten_iff calls path (generateForwardZonesConfig zones) fs)⟩

/-! ## A line end that changes, and a copy that fails -/

def SafeCalls.succeed (size : Nat) : SafeCalls := ⟨true, true, some size, true, true, true, none, true⟩

def SafeCalls.diskFull (size after : Nat) : SafeCalls :=
  { SafeCalls.succeed size with rewriteFails := some after }

def oldZones : FileSystem String := (FileSystem.empty.create "zones").put 0 [99, 100]

theorem copied_whole (content : String) (calls : SafeCalls)
    (succeeds : ∃ fails, calls = { SafeCalls.succeed (encode content).length with rewriteFails := fails }) :
    calls.copied content = some (String.ofList (Python.universalNewlines content.toList)) := by
  obtain ⟨fails, rfl⟩ := succeeds
  simp [SafeCalls.copied, SafeCalls.succeed, readText, decode_encode]

theorem safeWrite_not_safe :
    (stateAfter ((safeWrite (.succeed 2) "zones" "a\r").run oldZones)).read "zones" = some [97, 10] ∧
      ¬ SafelyWritten "zones" "a\r" oldZones ((safeWrite (.succeed 2) "zones" "a\r").run oldZones) ∧
      (stateAfter ((safeWrite (.diskFull 2 1) "zones" "ab").run oldZones)).read "zones" = some [97] ∧
      ¬ SafelyWritten "zones" "ab" oldZones ((safeWrite (.diskFull 2 1) "zones" "ab").run oldZones) := by
  have newline := copied_whole "a\r" (.succeed 2) ⟨none, rfl⟩
  have cut := copied_whole "ab" (.diskFull 2 1) ⟨some 1, rfl⟩
  obtain ⟨after, same, read, _⟩ := run_safeWrite_copied "zones" oldZones newline
  obtain ⟨after', same', read', _⟩ := run_safeWrite_copied "zones" oldZones cut
  refine ⟨?_, fun safe => ?_, ?_, fun safe => ?_⟩
  · rw [same]
    exact read
  · have complete := (safeWrite_safelyWritten_iff _ _ _ _).1 safe _ newline
    exact absurd complete.2 (by decide)
  · rw [same']
    exact read'
  · have complete := (safeWrite_safelyWritten_iff _ _ _ _).1 safe _ cut
    rcases complete with old | new
    · exact absurd old (by decide)
    · exact absurd new (by decide)

end PowerBlockade.Files
