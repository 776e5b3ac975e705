import Mathlib.Data.List.Basic
import Mathlib.Data.Nat.Basic

/-!
# JSON text of strings

Strings as ASCII text between quotes, with a reader of one character that shows the text to be
unambiguous.
-/

namespace PowerBlockade.Lib.JsonText

/-! ## Four hexadecimal digits -/

def hex4 (n : Nat) : List Char :=
  [Nat.digitChar (n / 4096 % 16), Nat.digitChar (n / 256 % 16), Nat.digitChar (n / 16 % 16),
    Nat.digitChar (n % 16)]

def digitValue (c : Char) : Nat := if c.isDigit then c.toNat - 48 else c.toNat - 87

def value4 (a b c d : Char) : Nat :=
  ((digitValue a * 16 + digitValue b) * 16 + digitValue c) * 16 + digitValue d

theorem digitValue_digitChar : ∀ n < 16, digitValue (Nat.digitChar n) = n := by decide

theorem value4_hex4 {n : Nat} (small : n < 65536) :
    value4 (Nat.digitChar (n / 4096 % 16)) (Nat.digitChar (n / 256 % 16))
      (Nat.digitChar (n / 16 % 16)) (Nat.digitChar (n % 16)) = n := by
  have digit (m : Nat) : digitValue (Nat.digitChar (m % 16)) = m % 16 :=
    digitValue_digitChar _ (Nat.mod_lt m (by decide))
  rw [value4, digit, digit, digit, digit]
  omega

/-! ## One character -/

def shortEscapes : List (Char × Char) :=
  [('"', '"'), ('\\', '\\'), ('\n', 'n'), ('\r', 'r'), ('\t', 't'), ('\x0c', 'f'), ('\x08', 'b')]

def unicodeEscape (n : Nat) : List Char := '\\' :: 'u' :: hex4 n

/-- Beyond four digits as a pair of surrogates. -/
def escape (c : Char) : List Char :=
  match shortEscapes.lookup c with
  | some short => ['\\', short]
  | none =>
      if 32 ≤ c.toNat ∧ c.toNat ≤ 126 then [c]
      else if c.toNat < 65536 then unicodeEscape c.toNat
      else unicodeEscape (55296 + (c.toNat - 65536) / 1024) ++
        unicodeEscape (56320 + (c.toNat - 65536) % 1024)

/-- After four digits: the character, or a high surrogate that needs its other half. -/
def unescapeUnit (n : Nat) (rest : List Char) : Option (Char × List Char) :=
  if 55296 ≤ n ∧ n < 56320 then
    match rest with
    | '\\' :: 'u' :: a :: b :: c :: d :: rest =>
        some (Char.ofNat (65536 + (n - 55296) * 1024 + (value4 a b c d - 56320)), rest)
    | _ => none
  else some (Char.ofNat n, rest)

def unescape : List Char → Option (Char × List Char)
  | '\\' :: 'u' :: a :: b :: c :: d :: rest => unescapeUnit (value4 a b c d) rest
  | '\\' :: short :: rest => ((shortEscapes.map Prod.swap).lookup short).map (·, rest)
  | c :: rest => some (c, rest)
  | [] => none

theorem unescape_plain {c : Char} (notEscape : c ≠ '\\') (rest : List Char) :
    unescape (c :: rest) = some (c, rest) := by
  unfold unescape
  split <;> simp_all

theorem unescape_unicode {n : Nat} (small : n < 65536) (rest : List Char) :
    unescape (unicodeEscape n ++ rest) = unescapeUnit n rest := by
  show unescapeUnit (value4 _ _ _ _) rest = _
  rw [value4_hex4 small]

theorem unescapeUnit_pair {n : Nat} (low : 65536 ≤ n) (high : n < 1114112) (rest : List Char) :
    unescapeUnit (55296 + (n - 65536) / 1024)
      (unicodeEscape (56320 + (n - 65536) % 1024) ++ rest) = some (Char.ofNat n, rest) := by
  have second : 56320 + (n - 65536) % 1024 < 65536 := by omega
  have whole : 65536 + (55296 + (n - 65536) / 1024 - 55296) * 1024 +
      (56320 + (n - 65536) % 1024 - 56320) = n := by omega
  unfold unescapeUnit
  rw [if_pos (by omega)]
  show some (Char.ofNat (_ + (value4 _ _ _ _ - 56320)), rest) = _
  rw [value4_hex4 second, whole]

theorem unescape_short {c short : Char} (listed : shortEscapes.lookup c = some short)
    (rest : List Char) : unescape ('\\' :: short :: rest) = some (c, rest) := by
  obtain ⟨before, after, split, -⟩ := List.lookup_eq_some_iff.mp listed
  have member : (c, short) ∈ shortEscapes := split ▸ List.mem_append_right _ List.mem_cons_self
  simp only [shortEscapes, List.mem_cons, Prod.mk.injEq, List.not_mem_nil, or_false] at member
  rcases member with ⟨rfl, rfl⟩ | ⟨rfl, rfl⟩ | ⟨rfl, rfl⟩ | ⟨rfl, rfl⟩ | ⟨rfl, rfl⟩ | ⟨rfl, rfl⟩ |
    ⟨rfl, rfl⟩ <;> rfl

theorem unescape_escape (c : Char) (rest : List Char) :
    unescape (escape c ++ rest) = some (c, rest) := by
  have valid : c.toNat < 55296 ∨ 57343 < c.toNat ∧ c.toNat < 1114112 := c.valid
  unfold escape
  cases listed : shortEscapes.lookup c with
  | some short => exact unescape_short listed rest
  | none =>
      dsimp only
      split
      · have notEscape : c ≠ '\\' := by
          rintro rfl
          exact absurd listed (by decide)
        exact unescape_plain notEscape rest
      · split
        · rename_i small
          have notHigh : ¬ (55296 ≤ c.toNat ∧ c.toNat < 56320) := by omega
          rw [unescape_unicode small]
          unfold unescapeUnit
          rw [if_neg notHigh, Char.ofNat_toNat]
        · rw [List.append_assoc, unescape_unicode (by omega), unescapeUnit_pair (by omega) (by omega),
            Char.ofNat_toNat]

/-! ## Strings and arrays of strings -/

def string (text : String) : List Char := '"' :: (text.toList.flatMap escape ++ ['"'])

def moreItems : List String → List Char
  | [] => [']']
  | item :: rest => ',' :: ' ' :: (string item ++ moreItems rest)

def array : List String → List Char
  | [] => ['[', ']']
  | item :: rest => '[' :: (string item ++ moreItems rest)

theorem escape_ne_quote (c : Char) (rest rest' : List Char) : escape c ++ rest ≠ '"' :: rest' := by
  intro same
  have read := unescape_escape c rest
  rw [same, unescape_plain (by decide)] at read
  have quote : '"' = c := (Prod.mk.inj (Option.some.inj read)).1
  subst quote
  exact absurd same (by simp [escape, shortEscapes])

theorem escapes_inj {xs ys rest rest' : List Char}
    (same : xs.flatMap escape ++ '"' :: rest = ys.flatMap escape ++ '"' :: rest') :
    xs = ys ∧ rest = rest' := by
  induction xs generalizing ys with
  | nil =>
      cases ys with
      | nil => exact ⟨rfl, (List.cons.inj same).2⟩
      | cons y ys =>
          rw [List.flatMap_cons, List.append_assoc] at same
          exact absurd same.symm (escape_ne_quote y _ _)
  | cons x xs ih =>
      rw [List.flatMap_cons, List.append_assoc] at same
      cases ys with
      | nil => exact absurd same (escape_ne_quote x _ _)
      | cons y ys =>
          rw [List.flatMap_cons, List.append_assoc] at same
          have read := unescape_escape x (xs.flatMap escape ++ '"' :: rest)
          rw [same, unescape_escape] at read
          obtain ⟨first, others⟩ := Prod.mk.inj (Option.some.inj read)
          obtain ⟨equal, tail⟩ := ih others.symm
          exact ⟨by rw [first, equal], tail⟩

theorem string_inj {text text' : String} {rest rest' : List Char}
    (same : string text ++ rest = string text' ++ rest') : text = text' ∧ rest = rest' := by
  have bodies : text.toList.flatMap escape ++ '"' :: rest =
      text'.toList.flatMap escape ++ '"' :: rest' := by
    simpa [string] using same
  obtain ⟨equal, tail⟩ := escapes_inj bodies
  exact ⟨String.toList_inj.mp equal, tail⟩

theorem moreItems_inj {xs ys : List String} {rest rest' : List Char}
    (same : moreItems xs ++ rest = moreItems ys ++ rest') : xs = ys ∧ rest = rest' := by
  induction xs generalizing ys with
  | nil =>
      cases ys with
      | nil => exact ⟨rfl, (List.cons.inj same).2⟩
      | cons y ys => exact absurd (List.cons.inj same).1 (by decide)
  | cons x xs ih =>
      cases ys with
      | nil => exact absurd (List.cons.inj same).1 (by decide)
      | cons y ys =>
          have after : string x ++ (moreItems xs ++ rest) = string y ++ (moreItems ys ++ rest') := by
            simpa [moreItems] using same
          obtain ⟨first, others⟩ := string_inj after
          obtain ⟨equal, tail⟩ := ih others
          exact ⟨by rw [first, equal], tail⟩

theorem array_inj {xs ys : List String} {rest rest' : List Char}
    (same : array xs ++ rest = array ys ++ rest') : xs = ys ∧ rest = rest' := by
  cases xs with
  | nil =>
      cases ys with
      | nil => exact ⟨rfl, (List.cons.inj (List.cons.inj same).2).2⟩
      | cons y ys =>
          have second := (List.cons.inj (List.cons.inj same).2).1
          exact absurd second (by decide)
  | cons x xs =>
      cases ys with
      | nil =>
          have second := (List.cons.inj (List.cons.inj same).2).1
          exact absurd second (by decide)
      | cons y ys =>
          have after : string x ++ (moreItems xs ++ rest) = string y ++ (moreItems ys ++ rest') := by
            simpa [array] using same
          obtain ⟨first, others⟩ := string_inj after
          obtain ⟨equal, tail⟩ := moreItems_inj others
          exact ⟨by rw [first, equal], tail⟩

end PowerBlockade.Lib.JsonText
