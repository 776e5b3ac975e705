import Mathlib.Algebra.Group.Nat.Defs
import Mathlib.Data.List.Forall2
import PowerBlockade.Lib.Decimal
import PowerBlockade.Lib.Fields
import PowerBlockade.Lib.Lists

/-!
# The text of an IP address

What `net.ParseIP` of Go reads: four decimal fields, or groups of sixteen bits with at most one gap for
zeros, the last two of which may be four decimal fields. Every address has sixteen bytes.
-/

namespace PowerBlockade.Lib.IpAddress

/-! ## The reader -/

def octet (field : List Char) : Option UInt8 :=
  if field ≠ [] ∧ (∀ c ∈ field, c.isDigit = true) ∧ (field.head? = some '0' → field.length = 1) ∧
      Nat.ofDigitChars 10 field 0 < 256 then some (UInt8.ofNat (Nat.ofDigitChars 10 field 0))
  else none

def parseIPv4Fields (text : List Char) : Option (List UInt8) :=
  if (text.splitOn '.').length = 4 then (text.splitOn '.').mapM octet else none

def hexDigit? (c : Char) : Option Nat :=
  if c.isDigit then some (c.toNat - '0'.toNat)
  else if 'a' ≤ c ∧ c ≤ 'f' then some (c.toNat - 'a'.toNat + 10)
  else if 'A' ≤ c ∧ c ≤ 'F' then some (c.toNat - 'A'.toNat + 10)
  else none

def isHexDigit (c : Char) : Bool := (hexDigit? c).isSome

def hexValue (digits : List Char) : Nat := digits.foldl (fun acc c => acc * 16 + (hexDigit? c).getD 0) 0

def groupBytes (g : Nat) : List UInt8 := [UInt8.ofNat (g / 256), UInt8.ofNat (g % 256)]

/-- The loop over the groups: the bytes so far, and where the gap was. -/
def readGroups : Nat → List UInt8 → Option Nat → List Char → Option (List UInt8 × Option Nat)
  | 0, _, _, _ => none
  | fuel + 1, ip, ellipsis, text =>
      let digits := text.takeWhile isHexDigit
      let here := ip ++ groupBytes (hexValue digits)
      if digits = [] ∨ 4 < digits.length then none
      else match text.dropWhile isHexDigit with
        | [] => some (here, ellipsis)
        | '.' :: _ =>
            if (ellipsis = none → ip.length = 12) ∧ ip.length ≤ 12 then
              (parseIPv4Fields text).map fun tail => (ip ++ tail, ellipsis)
            else none
        | [':'] => none
        | ':' :: ':' :: rest =>
            if ellipsis.isSome then none
            else if rest = [] then some (here, some here.length)
            else readGroups fuel here (some here.length) rest
        | ':' :: rest => readGroups fuel here ellipsis rest
        | _ => none

/-- Zeros fill the gap, which stands for at least one byte. -/
def expand (found : List UInt8 × Option Nat) : Option (List UInt8) :=
  if found.1.length < 16 then
    found.2.map fun gap => found.1.take gap ++ List.replicate (16 - found.1.length) 0 ++ found.1.drop gap
  else if found.2.isSome then none
  else some found.1

/-- An address with a zone is none to `ParseIP`. -/
def parseIPv6 (text : List Char) : Option (List UInt8) :=
  if '%' ∈ text then none
  else match text with
    | [':', ':'] => some (List.replicate 16 0)
    | ':' :: ':' :: rest => (readGroups 8 [] (some 0) rest).bind expand
    | _ => (readGroups 8 [] none text).bind expand

def mapped (ip : List UInt8) : List UInt8 := List.replicate 10 0 ++ [255, 255] ++ ip

def parseIP (text : List Char) : Option (List UInt8) :=
  match text.find? (· ∈ ['.', ':', '%']) with
  | some '.' => (parseIPv4Fields text).map mapped
  | some ':' => parseIPv6 text
  | _ => none

/-! ## Fields and groups that were written -/

theorem octet_toDigits (b : UInt8) : octet (Nat.toDigits 10 b.toNat) = some b := by
  have small : b.toNat < 256 := b.toNat_lt
  have lead : (Nat.toDigits 10 b.toNat).head? = some '0' → (Nat.toDigits 10 b.toNat).length = 1 := by
    intro zero
    rw [eq_zero_of_head_toDigits zero]
    rfl
  rw [octet, if_pos]
  · rw [Nat.ofDigitChars_ten_toDigits, UInt8.ofNat_toNat]
  · refine ⟨Nat.toDigits_ne_nil, fun c member => isDigit_of_mem_toDigits member, lead, ?_⟩
    rwa [Nat.ofDigitChars_ten_toDigits]

def dottedText (ip : List UInt8) : List Char := ['.'].intercalate (ip.map fun b => Nat.toDigits 10 b.toNat)

theorem parseIPv4Fields_dotted {ip : List UInt8} (four : ip.length = 4) :
    parseIPv4Fields (dottedText ip) = some ip := by
  have nonempty : ip.map (fun b => Nat.toDigits 10 b.toNat) ≠ [] := by
    apply List.ne_nil_of_length_pos
    rw [List.length_map, four]
    decide
  have whole : ∀ field ∈ ip.map (fun b => Nat.toDigits 10 b.toNat), '.' ∉ field := by
    rw [List.forall_mem_map]
    exact fun b _ dot => absurd (isDigit_of_mem_toDigits dot) (by decide)
  have fields := List.splitOn_intercalate '.' whole nonempty
  rw [parseIPv4Fields, dottedText, fields, if_pos (by rw [List.length_map, four]), List.mapM_map]
  have each : ip.mapM (octet ∘ fun b => Nat.toDigits 10 b.toNat) = some (ip.map id) :=
    mapM_eq_map fun b _ => octet_toDigits b
  rwa [List.map_id] at each

theorem hexDigit_digitChar : ∀ d < 16, hexDigit? (Nat.digitChar d) = some d := by decide

theorem isHexDigit_digitChar {d : Nat} (small : d < 16) : isHexDigit (Nat.digitChar d) = true := by
  rw [isHexDigit, hexDigit_digitChar d small]
  rfl

theorem isHexDigit_of_mem_toDigits {n : Nat} {c : Char} (member : c ∈ Nat.toDigits 16 n) : isHexDigit c = true := by
  obtain ⟨d, small, rfl⟩ := mem_toDigits (by decide) member
  exact isHexDigit_digitChar small

theorem hexValue_toDigits (n : Nat) : hexValue (Nat.toDigits 16 n) = n := by
  induction n using Nat.base_induction 16 (by decide) with
  | single n small =>
      rw [Nat.toDigits_of_lt_base small]
      simp [hexValue, hexDigit_digitChar n small]
  | digit n d small positive ih =>
      rw [hexValue] at ih
      rw [← Nat.toDigits_append_toDigits (by decide) positive small, Nat.toDigits_of_lt_base small, hexValue,
        List.foldl_append, ih]
      simp [hexDigit_digitChar d small, Nat.mul_comm]

theorem span_group (g : Nat) {rest : List Char} (stops : ∀ c ∈ rest.head?, isHexDigit c = false) :
    (Nat.toDigits 16 g ++ rest).takeWhile isHexDigit = Nat.toDigits 16 g ∧
      (Nat.toDigits 16 g ++ rest).dropWhile isHexDigit = rest :=
  have digits : ∀ c ∈ Nat.toDigits 16 g, isHexDigit c = true := fun _ member => isHexDigit_of_mem_toDigits member
  ⟨takeWhile_append_stop digits stops, dropWhile_append_stop digits stops⟩

section
variable {g fuel : Nat} (small : g < 2 ^ 16) (ip : List UInt8)
include small

theorem length_toDigits_group : ¬ 4 < (Nat.toDigits 16 g).length :=
  Nat.not_lt.mpr ((Nat.length_toDigits_le_iff (by decide) (by decide)).mpr small)

theorem readGroups_last (ellipsis : Option Nat) :
    readGroups (fuel + 1) ip ellipsis (Nat.toDigits 16 g) = some (ip ++ groupBytes g, ellipsis) := by
  have none : ∀ c ∈ ([] : List Char).head?, isHexDigit c = false := fun c member => nomatch member
  obtain ⟨taken, dropped⟩ := span_group g none
  rw [List.append_nil] at taken dropped
  rw [readGroups, taken, dropped, hexValue_toDigits]
  simp [Nat.toDigits_ne_nil, length_toDigits_group small]

theorem readGroups_next (ellipsis : Option Nat) {c : Char} (other : c ≠ ':') (rest : List Char) :
    readGroups (fuel + 1) ip ellipsis (Nat.toDigits 16 g ++ ':' :: c :: rest) =
      readGroups fuel (ip ++ groupBytes g) ellipsis (c :: rest) := by
  have stops : ∀ d ∈ (':' :: c :: rest).head?, isHexDigit d = false := by
    rintro _ ⟨⟩
    decide
  obtain ⟨taken, dropped⟩ := span_group g stops
  rw [readGroups, taken, dropped, hexValue_toDigits]
  simp [Nat.toDigits_ne_nil, length_toDigits_group small, other]

theorem readGroups_gap (rest : List Char) :
    readGroups (fuel + 1) ip none (Nat.toDigits 16 g ++ ':' :: ':' :: rest) =
      if rest = [] then some (ip ++ groupBytes g, some (ip ++ groupBytes g).length)
      else readGroups fuel (ip ++ groupBytes g) (some (ip ++ groupBytes g).length) rest := by
  have stops : ∀ d ∈ (':' :: ':' :: rest).head?, isHexDigit d = false := by
    rintro _ ⟨⟩
    decide
  obtain ⟨taken, dropped⟩ := span_group g stops
  rw [readGroups, taken, dropped, hexValue_toDigits]
  simp [Nat.toDigits_ne_nil, length_toDigits_group small]

end

def groupsText (gs : List Nat) : List Char := [':'].intercalate (gs.map (Nat.toDigits 16))

theorem groupsText_cons_cons (g h : Nat) (gs : List Nat) :
    groupsText (g :: h :: gs) = Nat.toDigits 16 g ++ ':' :: groupsText (h :: gs) := by
  simp [groupsText, List.intercalate_cons_cons]

theorem groupsText_singleton (g : Nat) : groupsText [g] = Nat.toDigits 16 g := List.intercalate_singleton

theorem head_groupsText (g : Nat) (gs : List Nat) (rest : List Char) :
    ∃ c later, groupsText (g :: gs) ++ rest = c :: later ∧ isHexDigit c = true := by
  obtain ⟨c, later, digits⟩ := List.exists_cons_of_ne_nil (Nat.toDigits_ne_nil (n := g) (b := 16))
  have hex : isHexDigit c = true := by
    apply isHexDigit_of_mem_toDigits (n := g)
    rw [digits]
    exact List.mem_cons_self
  cases gs with
  | nil => exact ⟨c, later ++ rest, by rw [groupsText_singleton, digits, List.cons_append], hex⟩
  | cons h gs => exact ⟨c, _, by rw [groupsText_cons_cons, digits, List.cons_append, List.cons_append], hex⟩

theorem groupsText_ne_nil (g : Nat) (gs : List Nat) : groupsText (g :: gs) ≠ [] := by
  obtain ⟨c, later, text, -⟩ := head_groupsText g gs []
  rw [List.append_nil] at text
  rw [text]
  exact List.cons_ne_nil _ _

theorem isHexDigit_ne {c d : Char} (hex : isHexDigit c = true) (other : isHexDigit d = false) : c ≠ d := by
  rintro rfl
  simp [hex] at other

theorem readGroups_groupsText {gs : List Nat} (nonempty : gs ≠ []) (small : ∀ g ∈ gs, g < 2 ^ 16) (fuel : Nat)
    (enough : gs.length ≤ fuel) (ip : List UInt8) (ellipsis : Option Nat) :
    readGroups fuel ip ellipsis (groupsText gs) = some (ip ++ gs.flatMap groupBytes, ellipsis) := by
  induction gs generalizing fuel ip with
  | nil => contradiction
  | cons g gs ih =>
      obtain ⟨first, others⟩ := List.forall_mem_cons.mp small
      obtain ⟨fuel, rfl⟩ := Nat.exists_eq_add_one.mpr (Nat.lt_of_lt_of_le (Nat.zero_lt_succ _) enough)
      cases gs with
      | nil =>
          rw [groupsText_singleton, readGroups_last first]
          simp
      | cons h gs =>
          obtain ⟨c, later, text, hex⟩ := head_groupsText h gs []
          rw [List.append_nil] at text
          have later_eq := ih (List.cons_ne_nil _ _) others fuel (Nat.le_of_succ_le_succ enough) (ip ++ groupBytes g)
          rw [groupsText_cons_cons, text, readGroups_next first ip ellipsis (isHexDigit_ne hex (by decide)), ← text,
            later_eq]
          simp

theorem readGroups_groupsText_gap {gs : List Nat} (nonempty : gs ≠ []) (small : ∀ g ∈ gs, g < 2 ^ 16) (fuel : Nat)
    (enough : gs.length ≤ fuel) (ip : List UInt8) (rest : List Char) :
    readGroups fuel ip none (groupsText gs ++ ':' :: ':' :: rest) =
      if rest = [] then some (ip ++ gs.flatMap groupBytes, some (ip ++ gs.flatMap groupBytes).length)
      else readGroups (fuel - gs.length) (ip ++ gs.flatMap groupBytes)
        (some (ip ++ gs.flatMap groupBytes).length) rest := by
  induction gs generalizing fuel ip with
  | nil => contradiction
  | cons g gs ih =>
      obtain ⟨first, others⟩ := List.forall_mem_cons.mp small
      obtain ⟨fuel, rfl⟩ := Nat.exists_eq_add_one.mpr (Nat.lt_of_lt_of_le (Nat.zero_lt_succ _) enough)
      cases gs with
      | nil =>
          rw [groupsText_singleton, readGroups_gap first]
          simp
      | cons h gs =>
          obtain ⟨c, later, text, hex⟩ := head_groupsText h gs (':' :: ':' :: rest)
          have later_eq := ih (List.cons_ne_nil _ _) others fuel (Nat.le_of_succ_le_succ enough) (ip ++ groupBytes g)
          rw [groupsText_cons_cons, List.append_assoc, List.cons_append, text,
            readGroups_next first ip none (isHexDigit_ne hex (by decide)), ← text, later_eq]
          simp

/-! ## Addresses that were written -/

theorem length_flatMap_groupBytes (gs : List Nat) : (gs.flatMap groupBytes).length = 2 * gs.length := by
  induction gs with
  | nil => rfl
  | cons g gs ih =>
      rw [List.flatMap_cons, List.length_append, ih, List.length_cons]
      simp only [groupBytes, List.length_cons, List.length_nil]
      omega

theorem flatMap_groupBytes_zeros (n : Nat) :
    (List.replicate n 0).flatMap groupBytes = List.replicate (2 * n) (0 : UInt8) := by
  induction n with
  | zero => rfl
  | succ n ih =>
      rw [List.replicate_succ, List.flatMap_cons, ih, Nat.mul_succ]
      rfl

theorem percent_not_mem_groupsText (gs : List Nat) : '%' ∉ groupsText gs := by
  have plain : ∀ c ∈ groupsText gs, c ≠ '%' := by
    apply forall_mem_intercalate
    · intro c member
      obtain rfl := List.mem_singleton.mp member
      decide
    · rw [List.forall_mem_map]
      exact fun g _ c member => isHexDigit_ne (isHexDigit_of_mem_toDigits member) (by decide)
  exact fun member => plain _ member rfl

theorem parseIPv6_cons {c : Char} {rest : List Char} (plain : '%' ∉ c :: rest) (solid : c ≠ ':') :
    parseIPv6 (c :: rest) = (readGroups 8 [] none (c :: rest)).bind expand := by
  unfold parseIPv6
  rw [if_neg plain]
  split
  · rename_i same
    exact absurd (List.head_eq_of_cons_eq same) solid
  · rename_i same
    exact absurd (List.head_eq_of_cons_eq same) solid
  · rfl

theorem parseIPv6_colons {rest : List Char} (plain : '%' ∉ ':' :: ':' :: rest) (nonempty : rest ≠ []) :
    parseIPv6 (':' :: ':' :: rest) = (readGroups 8 [] (some 0) rest).bind expand := by
  unfold parseIPv6
  rw [if_neg plain]
  split
  · rename_i same
    exact absurd (List.tail_eq_of_cons_eq (List.tail_eq_of_cons_eq same)) nonempty
  · rename_i same
    rw [List.tail_eq_of_cons_eq (List.tail_eq_of_cons_eq same)]
  · rename_i other
    exact absurd rfl (other rest)

theorem parseIPv6_groupsText {gs : List Nat} (eight : gs.length = 8) (small : ∀ g ∈ gs, g < 2 ^ 16) :
    parseIPv6 (groupsText gs) = some (gs.flatMap groupBytes) := by
  have nonempty : gs ≠ [] := by
    rintro rfl
    contradiction
  have bytes := length_flatMap_groupBytes gs
  have read := readGroups_groupsText nonempty small 8 eight.le [] none
  have plain := percent_not_mem_groupsText gs
  obtain ⟨g, rest, rfl⟩ := List.exists_cons_of_ne_nil nonempty
  obtain ⟨c, later, text, hex⟩ := head_groupsText g rest []
  rw [List.append_nil] at text
  rw [text] at read plain ⊢
  rw [parseIPv6_cons plain (isHexDigit_ne hex (by decide)), read]
  simp only [List.nil_append, Option.bind_some, expand, bytes, eight]
  rfl

theorem expand_gap {left right : List UInt8} (room : left.length + right.length < 16) :
    expand (left ++ right, some left.length) =
      some (left ++ List.replicate (16 - (left.length + right.length)) 0 ++ right) := by
  rw [expand, if_pos (by rwa [List.length_append])]
  simp

theorem parseIPv6_gap {left right : List Nat} (room : left.length + right.length < 8)
    (leftSmall : ∀ g ∈ left, g < 2 ^ 16) (rightSmall : ∀ g ∈ right, g < 2 ^ 16) :
    parseIPv6 (groupsText left ++ ':' :: ':' :: groupsText right) =
      some ((left ++ List.replicate (8 - (left.length + right.length)) 0 ++ right).flatMap groupBytes) := by
  have plain : '%' ∉ groupsText left ++ ':' :: ':' :: groupsText right := by
    simp [percent_not_mem_groupsText]
  have leftBytes := length_flatMap_groupBytes left
  have rightBytes := length_flatMap_groupBytes right
  have zeros : 16 - ((left.flatMap groupBytes).length + (right.flatMap groupBytes).length) =
      2 * (8 - (left.length + right.length)) := by omega
  have filled : expand (left.flatMap groupBytes ++ right.flatMap groupBytes,
      some (left.flatMap groupBytes).length) =
        some ((left ++ List.replicate (8 - (left.length + right.length)) 0 ++ right).flatMap groupBytes) := by
    rw [expand_gap (by omega), zeros, ← flatMap_groupBytes_zeros, List.flatMap_append, List.flatMap_append]
  cases left with
  | nil =>
      cases right with
      | nil => rfl
      | cons g right =>
          have read := readGroups_groupsText (List.cons_ne_nil g right) rightSmall 8 (by omega) [] (some 0)
          calc
            parseIPv6 (':' :: ':' :: groupsText (g :: right)) =
                (readGroups 8 [] (some 0) (groupsText (g :: right))).bind expand :=
              parseIPv6_colons plain (groupsText_ne_nil g right)
            _ = expand ([] ++ (g :: right).flatMap groupBytes, some 0) := by rw [read, Option.bind_some]
            _ = _ := filled
  | cons g left =>
      have read := readGroups_groupsText_gap (List.cons_ne_nil g left) leftSmall 8 (by omega) []
        (groupsText right)
      obtain ⟨c, later, text, hex⟩ := head_groupsText g left (':' :: ':' :: groupsText right)
      rw [text] at read plain ⊢
      rw [parseIPv6_cons plain (isHexDigit_ne hex (by decide)), read, ← filled]
      cases right with
      | nil => simp [groupsText]
      | cons h right =>
          have rest := readGroups_groupsText (List.cons_ne_nil h right) rightSmall (8 - (g :: left).length) (by omega)
            ([] ++ (g :: left).flatMap groupBytes) (some ([] ++ (g :: left).flatMap groupBytes).length)
          rw [if_neg (groupsText_ne_nil h right), rest]
          rfl

/-- The first mark of a text that has no other. -/
theorem find_mark {p : Char → Bool} {marks text : List Char} {mark : Char} (listed : mark ∈ marks)
    (plain : ∀ c ∈ text, p c = true ∨ c = mark) (unmarked : ∀ c ∈ marks, p c = false) (inside : mark ∈ text) :
    text.find? (· ∈ marks) = some mark := by
  cases found : text.find? (· ∈ marks) with
  | none => exact absurd (decide_eq_true listed) (List.find?_eq_none.mp found mark inside)
  | some c =>
      have marked := unmarked c (of_decide_eq_true (List.find?_some (p := fun c => decide (c ∈ marks)) found))
      rcases plain c (List.mem_of_find?_eq_some found) with digit | rfl
      · simp [digit] at marked
      · rfl

theorem parseIP_groups {text : List Char} (plain : ∀ c ∈ text, isHexDigit c = true ∨ c = ':') (colon : ':' ∈ text) :
    parseIP text = parseIPv6 text := by
  rw [parseIP, find_mark (by decide) plain (by decide) colon]
  rfl

theorem parseIP_dottedText {ip : List UInt8} (four : ip.length = 4) : parseIP (dottedText ip) = some (mapped ip) := by
  have plain : ∀ c ∈ dottedText ip, c.isDigit = true ∨ c = '.' := by
    apply forall_mem_intercalate
    · exact fun c member => Or.inr (List.mem_singleton.mp member)
    · rw [List.forall_mem_map]
      exact fun b _ c member => Or.inl (isDigit_of_mem_toDigits member)
  have dot : '.' ∈ dottedText ip := by
    obtain ⟨a, b, rest, rfl⟩ : ∃ a b rest, ip = a :: b :: rest := by
      match ip, four with
      | a :: b :: rest, _ => exact ⟨a, b, rest, rfl⟩
    simp [dottedText, List.intercalate_cons_cons]
  rw [parseIP, find_mark (by decide) plain (by decide) dot]
  simp only [parseIPv4Fields_dotted four, Option.map_some]

/-! ## Sixteen bytes -/

theorem length_parseIPv4Fields {text : List Char} {ip : List UInt8} (read : parseIPv4Fields text = some ip) :
    ip.length = 4 := by
  unfold parseIPv4Fields at read
  split at read
  · rename_i four
    have same := forall₂_of_mapM (R := fun _ _ => True) (fun _ _ _ _ => trivial) read
    rw [← same.length_eq, four]
  · contradiction

theorem length_readGroups {fuel : Nat} {ip : List UInt8} {ellipsis : Option Nat} {text : List Char}
    {found : List UInt8 × Option Nat} (bound : 2 * fuel + ip.length ≤ 16)
    (read : readGroups fuel ip ellipsis text = some found) : found.1.length ≤ 16 := by
  induction fuel generalizing ip ellipsis text with
  | zero => contradiction
  | succ fuel ih =>
      have here : (ip ++ groupBytes (hexValue (text.takeWhile isHexDigit))).length = ip.length + 2 := by
        rw [List.length_append]
        rfl
      rw [readGroups] at read
      split at read
      · contradiction
      · split at read
        · obtain rfl := Option.some.inj read
          exact here.trans_le (by omega)
        · split at read
          · rename_i place
            obtain ⟨tail, fields, rfl⟩ := Option.map_eq_some_iff.mp read
            rw [List.length_append, length_parseIPv4Fields fields]
            omega
          · contradiction
        · contradiction
        · split at read
          · contradiction
          · split at read
            · obtain rfl := Option.some.inj read
              exact here.trans_le (by omega)
            · exact ih (by omega) read
        · exact ih (by omega) read
        · contradiction

theorem length_expand {found : List UInt8 × Option Nat} {ip : List UInt8} (bound : found.1.length ≤ 16)
    (whole : expand found = some ip) : ip.length = 16 := by
  unfold expand at whole
  split at whole
  · obtain ⟨gap, -, rfl⟩ := Option.map_eq_some_iff.mp whole
    simp only [List.length_append, List.length_take, List.length_replicate, List.length_drop]
    omega
  · split at whole
    · contradiction
    · obtain rfl := Option.some.inj whole
      omega

theorem length_parseIPv6 {text : List Char} {ip : List UInt8} (read : parseIPv6 text = some ip) :
    ip.length = 16 := by
  unfold parseIPv6 at read
  split at read
  · contradiction
  · split at read
    · obtain rfl := Option.some.inj read
      rfl
    · obtain ⟨found, groups, whole⟩ := Option.bind_eq_some_iff.mp read
      exact length_expand (length_readGroups (by decide) groups) whole
    · obtain ⟨found, groups, whole⟩ := Option.bind_eq_some_iff.mp read
      exact length_expand (length_readGroups (by decide) groups) whole

theorem length_mapped {ip : List UInt8} (four : ip.length = 4) : (mapped ip).length = 16 := by
  simp [mapped, four]

theorem length_parseIP {text : List Char} {ip : List UInt8} (read : parseIP text = some ip) : ip.length = 16 := by
  unfold parseIP at read
  split at read
  · obtain ⟨four, fields, rfl⟩ := Option.map_eq_some_iff.mp read
    exact length_mapped (length_parseIPv4Fields fields)
  · exact length_parseIPv6 read
  · contradiction

end PowerBlockade.Lib.IpAddress
