import Mathlib.Data.List.Basic

/-!
# UTF-8 with its errors

The characters of a list of bytes. Bytes that begin no character, or one that the next byte does not
continue, make up one error.
-/

namespace PowerBlockade.Lib.Utf8

/-- A character that wants more bytes: the range of each, and its bits so far. -/
structure Started where
  ranges : List (Nat × Nat)
  bits : Nat
deriving DecidableEq

abbrev trail : Nat × Nat := (0x80, 0xBF)

def lead (b : Nat) : Option Started :=
  if b < 0x80 then some ⟨[], b⟩
  else if b < 0xC2 then none
  else if b < 0xE0 then some ⟨[trail], b - 0xC0⟩
  else if b = 0xE0 then some ⟨[(0xA0, 0xBF), trail], 0⟩
  else if b = 0xED then some ⟨[(0x80, 0x9F), trail], 0xD⟩
  else if b < 0xF0 then some ⟨[trail, trail], b - 0xE0⟩
  else if b = 0xF0 then some ⟨[(0x90, 0xBF), trail, trail], 0⟩
  else if b < 0xF4 then some ⟨[trail, trail, trail], b - 0xF0⟩
  else if b = 0xF4 then some ⟨[(0x80, 0x8F), trail, trail], 4⟩
  else none

def Started.next (started : Started) (b : Nat) : Option Started :=
  match started.ranges with
  | (low, high) :: ranges =>
      if low ≤ b ∧ b ≤ high then some ⟨ranges, started.bits * 64 + (b - 0x80)⟩ else none
  | [] => none

def emit (started : Started) (continue' : Option Started → List (Option Char)) : List (Option Char) :=
  match started.ranges with
  | [] => some (Char.ofNat started.bits) :: continue' none
  | _ :: _ => continue' (some started)

def enter (b : Nat) (continue' : Option Started → List (Option Char)) : List (Option Char) :=
  match lead b with
  | some started => emit started continue'
  | none => none :: continue' none

def scan : Option Started → List UInt8 → List (Option Char)
  | none, [] => []
  | some _, [] => [none]
  | none, b :: rest => enter b.toNat fun started => scan started rest
  | some started, b :: rest =>
      match started.next b.toNat with
      | some started => emit started fun started => scan started rest
      | none => none :: enter b.toNat fun started => scan started rest

/-- `bytes.decode("utf-8")`; `none` is its `UnicodeDecodeError`. -/
def decode (bytes : List UInt8) : Option (List Char) := (scan none bytes).mapM id

/-- With `errors="replace"`. -/
def decodeReplace (bytes : List UInt8) : List Char := (scan none bytes).map (·.getD '\uFFFD')

def encode (text : List Char) : List UInt8 := text.flatMap String.utf8EncodeChar

/-! ## Decoding what was encoded -/

theorem toNat_ofNat_of_lt {n : Nat} (small : n < 256) : (UInt8.ofNat n).toNat = n :=
  Nat.mod_eq_of_lt small

theorem scan_lead {b : Nat} (small : b < 256) {started : Started} (begins : lead b = some started)
    (rest : List UInt8) :
    scan none (UInt8.ofNat b :: rest) = emit started fun started => scan started rest := by
  rw [scan, enter, toNat_ofNat_of_lt small, begins]

theorem scan_next {n bits : Nat} {range : Nat × Nat} {ranges : List (Nat × Nat)}
    (inside : range.1 ≤ n % 64 + 0x80 ∧ n % 64 + 0x80 ≤ range.2) (rest : List UInt8) :
    scan (some ⟨range :: ranges, bits⟩) (UInt8.ofNat (n % 64 + 0x80) :: rest) =
      emit ⟨ranges, bits * 64 + n % 64⟩ fun started => scan started rest := by
  have continues : Started.next ⟨range :: ranges, bits⟩ (n % 64 + 0x80) =
      some ⟨ranges, bits * 64 + (n % 64 + 0x80 - 0x80)⟩ := if_pos inside
  rw [scan, toNat_ofNat_of_lt (by omega), continues, Nat.add_sub_cancel]

theorem trail_inside (n : Nat) : trail.1 ≤ n % 64 + 0x80 ∧ n % 64 + 0x80 ≤ trail.2 := by
  change 0x80 ≤ n % 64 + 0x80 ∧ n % 64 + 0x80 ≤ 0xBF
  omega

/-- The range of the second byte of three. -/
def second3 (bits : Nat) : Nat × Nat :=
  if bits = 0 then (0xA0, 0xBF) else if bits = 0xD then (0x80, 0x9F) else trail

def second4 (bits : Nat) : Nat × Nat :=
  if bits = 0 then (0x90, 0xBF) else if bits = 4 then (0x80, 0x8F) else trail

theorem lead_one : ∀ bits < 0x80, lead bits = some ⟨[], bits⟩ := by decide

theorem lead_two : ∀ bits < 32, 2 ≤ bits → lead (bits + 0xC0) = some ⟨[trail], bits⟩ := by decide

theorem lead_three : ∀ bits < 16, lead (bits + 0xE0) = some ⟨[second3 bits, trail], bits⟩ := by decide

theorem lead_four : ∀ bits < 5, lead (bits + 0xF0) = some ⟨[second4 bits, trail, trail], bits⟩ := by
  decide

theorem second3_inside {v : Nat} (large : 0x800 ≤ v) (small : v < 0x10000)
    (valid : v < 0xD800 ∨ 0xDFFF < v) :
    (second3 (v / 4096 % 16)).1 ≤ v / 64 % 64 + 0x80 ∧ v / 64 % 64 + 0x80 ≤ (second3 (v / 4096 % 16)).2 := by
  unfold second3
  split
  · constructor <;> omega
  · split
    · constructor <;> omega
    · exact trail_inside _

theorem second4_inside {v : Nat} (large : 0x10000 ≤ v) (small : v < 0x110000) :
    (second4 (v / 262144 % 8)).1 ≤ v / 4096 % 64 + 0x80 ∧
      v / 4096 % 64 + 0x80 ≤ (second4 (v / 262144 % 8)).2 := by
  unfold second4
  split
  · constructor <;> omega
  · split
    · constructor <;> omega
    · exact trail_inside _

/-- Each byte of a character continues the one before; the cases are its number of bytes. -/
theorem scan_utf8EncodeChar (c : Char) (rest : List UInt8) :
    scan none (String.utf8EncodeChar c ++ rest) = some c :: scan none rest := by
  have valid : c.val.toNat < 0xD800 ∨ 0xDFFF < c.val.toNat ∧ c.val.toNat < 0x110000 := c.valid
  have same : Char.ofNat c.val.toNat = c := Char.ofNat_toNat c
  unfold String.utf8EncodeChar
  generalize c.val.toNat = v at valid same
  simp only
  split
  · rw [List.singleton_append, scan_lead (by omega) (lead_one v (by omega)), emit, same]
  · split
    · have whole : v / 64 % 32 * 64 + v % 64 = v := by omega
      rw [List.cons_append, List.singleton_append, scan_lead (by omega) (lead_two _ (by omega) (by omega)),
        emit, scan_next (trail_inside _), emit, whole, same]
    · split
      · have inside := second3_inside (v := v) (by omega) (by omega) (by omega)
        have whole : (v / 4096 % 16 * 64 + v / 64 % 64) * 64 + v % 64 = v := by omega
        rw [List.cons_append, List.cons_append, List.singleton_append,
          scan_lead (by omega) (lead_three _ (by omega)), emit, scan_next inside, emit,
          scan_next (trail_inside _), emit, whole, same]
      · have inside := second4_inside (v := v) (by omega) (by omega)
        have whole : ((v / 262144 % 8 * 64 + v / 4096 % 64) * 64 + v / 64 % 64) * 64 + v % 64 = v := by omega
        rw [List.cons_append, List.cons_append, List.cons_append, List.singleton_append,
          scan_lead (by omega) (lead_four _ (by omega)), emit, scan_next inside, emit,
          scan_next (trail_inside _), emit, scan_next (trail_inside _), emit, whole, same]

theorem scan_encode (text : List Char) : scan none (encode text) = text.map some := by
  induction text with
  | nil => rfl
  | cons c rest ih =>
      rw [encode, List.flatMap_cons, scan_utf8EncodeChar, ← encode, ih]
      rfl

@[simp] theorem decode_encode (text : List Char) : decode (encode text) = some text := by
  rw [decode, scan_encode]
  induction text with
  | nil => rfl
  | cons c rest ih => rw [List.map_cons, List.mapM_cons, ih]; rfl

@[simp] theorem decodeReplace_encode (text : List Char) : decodeReplace (encode text) = text := by
  rw [decodeReplace, scan_encode, List.map_map]
  exact List.map_id _

/-! ## Read as Latin-1 -/

def latin1 (bytes : List UInt8) : List Char := bytes.map fun b => Char.ofNat b.toNat

theorem length_le_length_encode (text : List Char) : text.length ≤ (encode text).length := by
  induction text with
  | nil => exact Nat.le_refl 0
  | cons c rest ih =>
      have one := c.utf8Size_pos
      rw [encode, List.flatMap_cons, ← encode, List.length_append, String.length_utf8EncodeChar,
        List.length_cons]
      omega

theorem latin1_encode_cons {c : Char} (ascii : c.toNat < 128) (rest : List Char) :
    latin1 (encode (c :: rest)) = c :: latin1 (encode rest) := by
  have single : String.utf8EncodeChar c = [UInt8.ofNat c.toNat] := by
    unfold String.utf8EncodeChar
    exact if_pos (Nat.le_of_lt_succ ascii)
  rw [encode, List.flatMap_cons, single, ← encode, List.singleton_append, latin1, List.map_cons,
    toNat_ofNat_of_lt (by omega), Char.ofNat_toNat]
  rfl

/-- Only ASCII survives: a longer character comes back as one character for each of its bytes. -/
theorem latin1_encode_eq_self_iff {text : List Char} :
    latin1 (encode text) = text ↔ ∀ c ∈ text, c.toNat < 128 := by
  induction text with
  | nil => simp [latin1, encode]
  | cons c rest ih =>
      rw [List.forall_mem_cons]
      by_cases ascii : c.toNat < 128
      · rw [latin1_encode_cons ascii, List.cons_inj_right, ih, and_iff_right ascii]
      · refine iff_of_false (fun same => ?_) fun all => ascii all.1
        have long : 1 < c.utf8Size := by
          have one := c.utf8Size_pos
          have other : c.utf8Size ≠ 1 := fun size => ascii (Nat.lt_succ_of_le (Char.utf8Size_eq_one_iff.mp size))
          omega
        have whole := congrArg List.length same
        have kept := length_le_length_encode rest
        rw [latin1, List.length_map, encode, List.flatMap_cons, ← encode, List.length_append,
          String.length_utf8EncodeChar, List.length_cons] at whole
        omega

/-! ## The bytes of a text -/

theorem toList_loop (bytes : ByteArray) (i : Nat) (read : List UInt8) :
    ByteArray.toList.loop bytes i read = read.reverse ++ bytes.data.toList.drop i := by
  fun_induction ByteArray.toList.loop bytes i read with
  | case1 i read more ih =>
      have bound : i < bytes.data.toList.length := by simpa using more
      rw [ih, List.drop_eq_getElem_cons bound]
      simp [ByteArray.get!, more]
  | case2 i read done =>
      have past : bytes.data.toList.length ≤ i := by simpa using done
      rw [List.drop_eq_nil_of_le past, List.append_nil]

theorem toList_eq_data_toList (bytes : ByteArray) : bytes.toList = bytes.data.toList := by
  rw [ByteArray.toList, toList_loop]
  rfl

theorem toUTF8_toList_injective : Function.Injective fun text : String => text.toUTF8.toList := by
  intro a b same
  simp only [toList_eq_data_toList, Array.toList_inj] at same
  exact String.toByteArray_inj.mp (ByteArray.ext same)

end PowerBlockade.Lib.Utf8
