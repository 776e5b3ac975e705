import PowerBlockade.Files.BindMounts
import PowerBlockade.Sync.Reload

/-!
# Files that have the content already

The agent compares the text that it reads, with its line ends translated, by a checksum of 16 digits.
-/

namespace PowerBlockade.Files
open Lib Lib.FileM Sync

variable {Name : Type} [DecidableEq Name]

/-- If the call returns, the file has the content, the answer is whether it had another one before, and
the call over again does nothing. It raises nothing but the errors of the system. -/
structure Exact (calls : ReplaceCalls) (path : Name) (content : String) (fs : FileSystem Name) : Prop where
  written : ∀ changed after, (writeIfChanged calls path content).run fs = .ok changed after →
    after.read path = some (encode content) ∧ (changed = true ↔ fs.read path ≠ some (encode content))
  repeated : ∀ changed after, (writeIfChanged calls path content).run fs = .ok changed after →
    ∀ again : ReplaceCalls, again.mkdir = true → again.read = true →
      (writeIfChanged again path content).run after = .ok false after
  legible : ∀ error after, (writeIfChanged calls path content).run fs = .error error after → error = .os

/-! ## When it is so -/

/-- What a reader sees of the content. -/
def translated (content : String) : String := String.ofList (Python.universalNewlines content.toList)

def ReplaceCalls.Begins (calls : ReplaceCalls) (old : Option Bytes) : Prop :=
  calls.mkdir = true ∧ (old.isNone || calls.read) = true

def ReplaceCalls.Completes (calls : ReplaceCalls) : Prop :=
  calls.mkstemp = true ∧ calls.write.isSome = true ∧ calls.close = true ∧
    (calls.replace = true ∨ calls.openFile = true ∧ calls.rewriteFails.isNone = true)

/-- No text of the old file passes for the content. -/
def Distinct (old : Option Bytes) (content : String) : Prop :=
  ∀ bytes ∈ old, ∀ text, readText bytes = some text → checksum text ≠ checksum content

/-- The old file is text, and passes for the content only if it has its bytes; the content, once it is
written, passes for itself. -/
structure Comparable (calls : ReplaceCalls) (old : Option Bytes) (content : String) : Prop where
  decodes : ∀ bytes ∈ old, (decode bytes).isSome = true
  agrees : ¬ Distinct old content → old = some (encode content)
  settles : Distinct old content → calls.Completes → checksum (translated content) = checksum content ∧
    (calls.replace = true → (encode content).length ≤ calls.write.getD 0)

/-! ## The comparison -/

section
variable {old : Option Bytes} {content : String}

theorem upToDate_none_iff : upToDate old content = none ↔ ∃ bytes ∈ old, decode bytes = none := by
  cases old <;> simp [upToDate, readText]

theorem upToDate_false_iff :
    upToDate old content = some false ↔ (∀ bytes ∈ old, (decode bytes).isSome = true) ∧ Distinct old content := by
  cases old with
  | none => simp [upToDate, Distinct]
  | some bytes => cases decoded : decode bytes <;> simp [upToDate, Distinct, readText, decoded]

theorem upToDate_true_iff :
    upToDate old content = some true ↔ (∀ bytes ∈ old, (decode bytes).isSome = true) ∧ ¬ Distinct old content := by
  cases old with
  | none => simp [upToDate, Distinct]
  | some bytes => cases decoded : decode bytes <;> simp [upToDate, Distinct, readText, decoded]

theorem upToDate_own (content : String) :
    upToDate (some (encode content)) content = some true ↔ checksum (translated content) = checksum content := by
  simp [upToDate, readText, decode_encode, translated]

end

/-! ## One call -/

variable {calls : ReplaceCalls} {path : Name} {content : String} {fs : FileSystem Name}

theorem run_begun (begun : calls.Begins (fs.read path)) : (writeIfChanged calls path content).run fs =
    match upToDate (fs.read path) content with
    | none => .error .unicode fs
    | some true => .ok false fs
    | some false =>
        (throughTemporary calls.mkstemp calls.write calls.close calls.cleanup content
          (fun tmp => replaceOrRewrite calls tmp path content) >>= fun _ => pure true).run fs :=
  (run_writeIfChanged calls path content fs).trans (if_pos begun)

theorem run_current (begun : calls.Begins (fs.read path)) (current : upToDate (fs.read path) content = some true) :
    (writeIfChanged calls path content).run fs = .ok false fs := by
  rw [run_begun begun, current]

theorem run_illegible (begun : calls.Begins (fs.read path)) (illegible : upToDate (fs.read path) content = none) :
    (writeIfChanged calls path content).run fs = .error .unicode fs := by
  rw [run_begun begun, illegible]

theorem run_failed (other : ¬ calls.Begins (fs.read path)) :
    (writeIfChanged calls path content).run fs = .error .os fs :=
  (run_writeIfChanged calls path content fs).trans (if_neg other)

/-- What an outdated file has after the call. -/
def ReplaceCalls.leaves (calls : ReplaceCalls) (content : String) : Bytes :=
  if calls.replace = true then (encode content).take (calls.write.getD 0) else encode content

theorem run_published (calls : ReplaceCalls) (path : Name) (content : String) (fs : FileSystem Name) {n : Nat}
    (taken : calls.write = some n) :
    (calls.replace = true ∨ calls.openFile = true ∧ calls.rewriteFails.isNone = true → ∃ after,
      (replaceOrRewrite calls fs.next path content).run (prepared fs n content) = .ok () after ∧
        after.read path = some (calls.leaves content)) ∧
    (¬ (calls.replace = true ∨ calls.openFile = true ∧ calls.rewriteFails.isNone = true) → ∃ after,
      (replaceOrRewrite calls fs.next path content).run (prepared fs n content) = .error .os after) := by
  rw [run_replaceOrRewrite_prepared]
  cases renamed : calls.replace with
  | true =>
      have read : ((prepared fs n content).rename fs.next path (beside_prepared fs n content).there).read path =
          some (calls.leaves content) := by
        rw [FileSystem.read_rename]
        simp [prepared, ReplaceCalls.leaves, renamed, taken]
      exact ⟨fun _ => ⟨_, rfl, read⟩, fun never => absurd (Or.inl rfl) never⟩
  | false =>
      simp only [Bool.false_eq_true, if_false, false_or, run_rewriteInPlace]
      by_cases opened : calls.openFile = true
      · by_cases whole : calls.rewriteFails.isNone = true
        · have read : (overwritten (cleaned calls.unlink fs.next (prepared fs n content)) path
              (encode content)).read path = some (calls.leaves content) := by
            rw [overwritten, FileSystem.read_truncate_put]
            simp [ReplaceCalls.leaves, renamed]
          rw [if_pos opened, if_pos whole]
          exact ⟨fun _ => ⟨_, rfl, read⟩, fun never => absurd ⟨opened, whole⟩ never⟩
        · rw [if_pos opened, if_neg whole]
          exact ⟨fun done => absurd done.2 whole, fun _ => ⟨_, rfl⟩⟩
      · rw [if_neg opened]
        exact ⟨fun done => absurd done.1 opened, fun _ => ⟨_, rfl⟩⟩

theorem run_outdated (begun : calls.Begins (fs.read path)) (outdated : upToDate (fs.read path) content = some false) :
    (calls.Completes → ∃ after, (writeIfChanged calls path content).run fs = .ok true after ∧
      after.read path = some (calls.leaves content)) ∧
    (¬ calls.Completes → ∃ after, (writeIfChanged calls path content).run fs = .error .os after) := by
  rw [run_begun begun, outdated]
  simp only
  rw [EStateM.run_bind, run_throughTemporary]
  cases temporary : calls.mkstemp with
  | false => simp [ReplaceCalls.Completes, temporary]
  | true =>
      cases taken : calls.write with
      | none => simp [ReplaceCalls.Completes, taken]
      | some n =>
          cases closed : calls.close with
          | false => simp [ReplaceCalls.Completes, closed]
          | true =>
              obtain ⟨published, failed⟩ := run_published calls path content fs taken
              have completes : calls.Completes ↔
                  calls.replace = true ∨ calls.openFile = true ∧ calls.rewriteFails.isNone = true := by
                simp [ReplaceCalls.Completes, temporary, taken, closed]
              rw [completes]
              constructor
              · intro done
                obtain ⟨after, same, read⟩ := published done
                exact ⟨after, by simp [same], read⟩
              · intro never
                obtain ⟨after, same⟩ := failed never
                exact ⟨cleaned calls.cleanup fs.next after, by simp [same]⟩

/-! ## Every call -/

theorem leaves_eq_iff (calls : ReplaceCalls) (content : String) : calls.leaves content = encode content ↔
    (calls.replace = true → (encode content).length ≤ calls.write.getD 0) := by
  unfold ReplaceCalls.leaves
  by_cases renamed : calls.replace = true
  · simp [renamed]
  · simp [renamed]

theorem exact_of_failed (failed : ∃ after, (writeIfChanged calls path content).run fs = .error .os after) :
    Exact calls path content fs := by
  obtain ⟨left, failed⟩ := failed
  refine ⟨fun changed after same => ?_, fun changed after same => ?_, fun error after same => ?_⟩
  · exact nomatch failed.symm.trans same
  · exact nomatch failed.symm.trans same
  · obtain ⟨rfl, -⟩ := EStateM.Result.error.inj (failed.symm.trans same)
    rfl

theorem not_exact_illegible (begun : calls.Begins (fs.read path))
    (illegible : upToDate (fs.read path) content = none) : ¬ Exact calls path content fs := fun exact =>
  nomatch exact.legible _ _ (run_illegible begun illegible)

theorem begins_again {again : ReplaceCalls} (made : again.mkdir = true) (readable : again.read = true)
    (old : Option Bytes) : again.Begins old := ⟨made, by rw [readable, Bool.or_true]⟩

theorem exact_current_iff (begun : calls.Begins (fs.read path))
    (current : upToDate (fs.read path) content = some true) :
    Exact calls path content fs ↔ fs.read path = some (encode content) := by
  have returned := run_current begun current
  constructor
  · exact fun exact => (exact.written _ _ returned).1
  · intro own
    refine ⟨fun changed after same => ?_, fun changed after same => ?_, fun error after same => ?_⟩
    · obtain ⟨rfl, rfl⟩ := EStateM.Result.ok.inj (returned.symm.trans same)
      simp [own]
    · obtain ⟨-, rfl⟩ := EStateM.Result.ok.inj (returned.symm.trans same)
      exact fun again made readable => run_current (begins_again made readable _) current
    · exact nomatch returned.symm.trans same

theorem exact_outdated_iff (begun : calls.Begins (fs.read path))
    (outdated : upToDate (fs.read path) content = some false) :
    Exact calls path content fs ↔ (calls.Completes → checksum (translated content) = checksum content ∧
      (calls.replace = true → (encode content).length ≤ calls.write.getD 0)) := by
  obtain ⟨returns, fails⟩ := run_outdated begun outdated
  by_cases completes : calls.Completes
  · obtain ⟨after, returned, read⟩ := returns completes
    rw [← leaves_eq_iff]
    constructor
    · intro exact _
      have own := (exact.written _ _ returned).1
      have whole : calls.leaves content = encode content := Option.some.inj (read.symm.trans own)
      -- the call over again finds the content in the file
      have again := exact.repeated _ _ returned { calls with mkdir := true, read := true } rfl rfl
      have ready : ReplaceCalls.Begins { calls with mkdir := true, read := true } (after.read path) :=
        begins_again rfl rfl _
      refine ⟨?_, whole⟩
      rw [← upToDate_own, ← own]
      cases compared : upToDate (after.read path) content with
      | none => exact nomatch (run_illegible ready compared).symm.trans again
      | some current =>
          cases current with
          | true => rfl
          | false =>
              obtain ⟨done, stopped⟩ := run_outdated ready compared
              obtain ⟨left, changed, -⟩ := done completes
              exact nomatch changed.symm.trans again
    · intro settles
      obtain ⟨settled, whole⟩ := settles completes
      rw [whole] at read
      have own := (upToDate_own content).mpr settled
      have differed : fs.read path ≠ some (encode content) := by
        intro same
        rw [same, own] at outdated
        contradiction
      refine ⟨fun changed left same => ?_, fun changed left same => ?_, fun error left same => ?_⟩
      · obtain ⟨rfl, rfl⟩ := EStateM.Result.ok.inj (returned.symm.trans same)
        exact ⟨read, iff_of_true rfl differed⟩
      · obtain ⟨-, rfl⟩ := EStateM.Result.ok.inj (returned.symm.trans same)
        exact fun again made readable => run_current (begins_again made readable _) (read ▸ own)
      · exact nomatch returned.symm.trans same
  · exact iff_of_true (exact_of_failed (fails completes)) fun done => absurd done completes

/-- A call is exact if and only if the comparison tells the contents apart, should it come to that. -/
theorem exact_iff (calls : ReplaceCalls) (path : Name) (content : String) (fs : FileSystem Name) :
    Exact calls path content fs ↔ (calls.Begins (fs.read path) → Comparable calls (fs.read path) content) := by
  by_cases begun : calls.Begins (fs.read path)
  · rw [imp_iff_right begun]
    cases compared : upToDate (fs.read path) content with
    | none =>
        obtain ⟨bytes, old, illegible⟩ := upToDate_none_iff.mp compared
        refine iff_of_false (not_exact_illegible begun compared) fun comparable => ?_
        have decodes := comparable.decodes bytes old
        simp [illegible] at decodes
    | some current =>
        cases current with
        | true =>
            obtain ⟨decodes, same⟩ := upToDate_true_iff.mp compared
            rw [exact_current_iff begun compared]
            exact ⟨fun own => ⟨decodes, fun _ => own, fun other => absurd other same⟩, fun comparable =>
              comparable.agrees same⟩
        | false =>
            obtain ⟨decodes, apart⟩ := upToDate_false_iff.mp compared
            rw [exact_outdated_iff begun compared]
            exact ⟨fun settles => ⟨decodes, fun same => absurd apart same, fun _ => settles⟩, fun comparable =>
              comparable.settles apart⟩
  · exact iff_of_true (exact_of_failed ⟨fs, run_failed begun⟩) fun now => absurd now begun

/-! ## A file that stops the sync, and one that is replaced every time -/

def holding (bytes : Bytes) : FileSystem String := ((FileSystem.empty.truncate "zone").2).put 0 bytes

theorem illegible_raises :
    (writeIfChanged allTaken "zone" "ab").run (holding [255]) = .error .unicode (holding [255]) ∧
      ¬ Exact allTaken "zone" "ab" (holding [255]) ∧ ¬ Exact allTaken "zone" "a\r" (holding (encode "a\r")) := by
  have illegible : upToDate ((holding [255]).read "zone") "ab" = none :=
    upToDate_none_iff.mpr ⟨[255], rfl, by decide +kernel⟩
  have other : checksum (translated "a\r") ≠ checksum "a\r" := by decide +kernel
  have outdated : upToDate ((holding (encode "a\r")).read "zone") "a\r" = some false := by
    have read : (holding (encode "a\r")).read "zone" = some (encode "a\r") := rfl
    rw [read, upToDate, readText, decode_encode]
    exact congrArg some (decide_eq_false other)
  refine ⟨run_illegible ⟨rfl, rfl⟩ illegible, not_exact_illegible ⟨rfl, rfl⟩ illegible, fun exact => ?_⟩
  have settles := (exact_outdated_iff ⟨rfl, rfl⟩ outdated).mp exact
  exact other (settles ⟨rfl, rfl, rfl, Or.inl rfl⟩).1

end PowerBlockade.Files
