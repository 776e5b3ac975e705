import Mathlib.Data.List.SplitBy
import PowerBlockade.Lib.Utf8

/-!
# Query strings

`urllib.parse.parse_qsl` with blank values kept, and the form encoding that it reads back.
-/

namespace PowerBlockade.Lib.QueryString

/-! ## Parsing -/

def isAscii (c : Char) : Bool := c.toNat < 128

def hexValue (c : Char) : Option Nat :=
  if '0' ≤ c ∧ c ≤ '9' then some (c.toNat - 48)
  else if 'A' ≤ c ∧ c ≤ 'F' then some (c.toNat - 55)
  else if 'a' ≤ c ∧ c ≤ 'f' then some (c.toNat - 87)
  else none

/-- A percent sign without two digits stands for itself. -/
def unquoteToBytes : List Char → List UInt8
  | [] => []
  | '%' :: a :: b :: rest =>
      match hexValue a, hexValue b with
      | some high, some low => UInt8.ofNat (16 * high + low) :: unquoteToBytes rest
      | _, _ => UInt8.ofNat '%'.toNat :: unquoteToBytes (a :: b :: rest)
  | c :: rest => UInt8.ofNat c.toNat :: unquoteToBytes rest

/-- The runs of ASCII characters are decoded one by one; other characters stay. -/
def unquote (text : List Char) : List Char :=
  (text.splitBy fun a b => isAscii a == isAscii b).flatMap fun run =>
    if run.all isAscii then Utf8.decodeReplace (unquoteToBytes run) else run

def plusToSpace (c : Char) : Char := if c = '+' then ' ' else c

def unquotePlus (text : List Char) : List Char := unquote (text.map plusToSpace)

/-- The part before the first `=` and the part after it. -/
def parsePair (piece : List Char) : List Char × List Char :=
  (unquotePlus (piece.takeWhile (· ≠ '=')), unquotePlus ((piece.dropWhile (· ≠ '=')).drop 1))

def parseQsl (text : List Char) : List (List Char × List Char) :=
  ((text.splitOn '&').filter (· ≠ [])).map parsePair

/-! ## The encoding of a form -/

def hexDigit (n : Nat) : Char := (Nat.digitChar n).toUpper

def quoteByte (b : UInt8) : List Char :=
  let c := Char.ofNat b.toNat
  if c = ' ' then ['+']
  else if c.isAlphanum || c ∈ ['*', '-', '.', '_'] then [c]
  else ['%', hexDigit (b.toNat / 16), hexDigit (b.toNat % 16)]

def quotePlus (text : List Char) : List Char := (Utf8.encode text).flatMap quoteByte

def urlencodePair (pair : List Char × List Char) : List Char := quotePlus pair.1 ++ '=' :: quotePlus pair.2

def urlencode (pairs : List (List Char × List Char)) : List Char :=
  ['&'].intercalate (pairs.map urlencodePair)

/-! ## One byte -/

theorem forall_byte {p : UInt8 → Prop} (each : ∀ high < 16, ∀ low < 16, p (UInt8.ofNat (16 * high + low)))
    (b : UInt8) : p b := by
  have small := b.toNat_lt
  have holds := each (b.toNat / 16) (by omega) (b.toNat % 16) (by omega)
  rwa [Nat.div_add_mod, UInt8.ofNat_toNat] at holds

theorem quoteByte_plain (b : UInt8) :
    ∀ c ∈ quoteByte b, isAscii (plusToSpace c) = true ∧ c ≠ '&' ∧ c ≠ '=' := by
  have plain : (quoteByte b).all (fun c => isAscii (plusToSpace c) ∧ c ≠ '&' ∧ c ≠ '=') = true := by
    refine forall_byte (p := fun b => (quoteByte b).all
      (fun c => isAscii (plusToSpace c) ∧ c ≠ '&' ∧ c ≠ '=') = true) ?_ b
    decide +kernel
  exact fun c member => of_decide_eq_true (List.all_eq_true.mp plain c member)

/-- A character for itself, or two digits that make up the byte. -/
def Reads (b : UInt8) : List Char → Prop
  | [c] => c ≠ '%' ∧ UInt8.ofNat c.toNat = b
  | ['%', high, low] =>
      (hexValue high).bind (fun high => (hexValue low).map fun low => UInt8.ofNat (16 * high + low)) = some b
  | _ => False

instance (b : UInt8) (text : List Char) : Decidable (Reads b text) := by
  unfold Reads
  split <;> infer_instance

theorem reads_quoteByte (b : UInt8) : Reads b ((quoteByte b).map plusToSpace) := by
  refine forall_byte (p := fun b => Reads b ((quoteByte b).map plusToSpace)) ?_ b
  decide +kernel

theorem unquoteToBytes_reads {b : UInt8} {text : List Char} (reads : Reads b text) (rest : List Char) :
    unquoteToBytes (text ++ rest) = b :: unquoteToBytes rest := by
  unfold Reads at reads
  split at reads
  · obtain ⟨plain, same⟩ := reads
    rw [List.singleton_append, unquoteToBytes, same]
    exact fun _ _ _ percent _ => plain percent
  · rename_i high low
    obtain ⟨h, first, both⟩ := Option.bind_eq_some_iff.mp reads
    obtain ⟨l, second, value⟩ := Option.map_eq_some_iff.mp both
    rw [List.cons_append, List.cons_append, List.singleton_append, unquoteToBytes, first, second]
    exact congrArg (· :: unquoteToBytes rest) value
  · exact reads.elim

/-! ## Reading back what was encoded -/

theorem unquoteToBytes_quote (bytes : List UInt8) :
    unquoteToBytes ((bytes.flatMap quoteByte).map plusToSpace) = bytes := by
  induction bytes with
  | nil => rfl
  | cons b rest ih =>
      rw [List.flatMap_cons, List.map_append, unquoteToBytes_reads (reads_quoteByte b), ih]

theorem unquote_of_ascii {text : List Char} (ascii : ∀ c ∈ text, isAscii c = true) :
    unquote text = Utf8.decodeReplace (unquoteToBytes text) := by
  by_cases empty : text = []
  · rw [empty]
    rfl
  · have one : text.splitBy (fun a b => isAscii a == isAscii b) = [text] := by
      refine List.splitBy_of_isChain empty (List.pairwise_of_forall_mem_list ?_).isChain
      intro a first b second
      rw [ascii a first, ascii b second]
      rfl
    rw [unquote, one, List.flatMap_singleton, if_pos (List.all_eq_true.mpr ascii)]

theorem quotePlus_plain (text : List Char) :
    ∀ c ∈ quotePlus text, isAscii (plusToSpace c) = true ∧ c ≠ '&' ∧ c ≠ '=' := by
  intro c member
  obtain ⟨b, -, written⟩ := List.mem_flatMap.mp member
  exact quoteByte_plain b c written

@[simp] theorem unquotePlus_quotePlus (text : List Char) : unquotePlus (quotePlus text) = text := by
  rw [unquotePlus, unquote_of_ascii, quotePlus, unquoteToBytes_quote, Utf8.decodeReplace_encode]
  intro c member
  obtain ⟨written, there, rfl⟩ := List.mem_map.mp member
  exact (quotePlus_plain text written there).1

theorem parsePair_urlencodePair (pair : List Char × List Char) : parsePair (urlencodePair pair) = pair := by
  have plain : ∀ c ∈ quotePlus pair.1, decide (c ≠ '=') = true := fun c member =>
    decide_eq_true (quotePlus_plain pair.1 c member).2.2
  rw [parsePair, urlencodePair, List.takeWhile_append_of_pos plain, List.dropWhile_append_of_pos plain]
  simp

theorem urlencodePair_whole (pair : List Char × List Char) : '&' ∉ urlencodePair pair := by
  intro member
  rcases List.mem_append.mp member with name | value
  · exact (quotePlus_plain pair.1 '&' name).2.1 rfl
  · rcases List.mem_cons.mp value with same | value
    · exact absurd same (by decide)
    · exact (quotePlus_plain pair.2 '&' value).2.1 rfl

theorem urlencodePair_ne_nil (pair : List Char × List Char) : urlencodePair pair ≠ [] :=
  List.append_ne_nil_of_right_ne_nil _ (List.cons_ne_nil _ _)

theorem parseQsl_urlencode (pairs : List (List Char × List Char)) : parseQsl (urlencode pairs) = pairs := by
  by_cases empty : pairs = []
  · rw [empty]
    rfl
  · have split := List.splitOn_intercalate '&' (List.forall_mem_map.mpr fun pair _ => urlencodePair_whole pair)
      (List.map_eq_nil_iff.not.mpr empty)
    have kept : (pairs.map urlencodePair).filter (· ≠ []) = pairs.map urlencodePair :=
      List.filter_eq_self.mpr (List.forall_mem_map.mpr fun pair _ => decide_eq_true (urlencodePair_ne_nil pair))
    rw [parseQsl, urlencode, split, kept, List.map_map]
    exact (List.map_congr_left fun pair _ => parsePair_urlencodePair pair).trans (List.map_id _)

end PowerBlockade.Lib.QueryString
