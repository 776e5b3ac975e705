import Mathlib.Tactic.Linarith
import Mathlib.Tactic.Ring
import PowerBlockade.Lib.IpNetwork

/-!
# Strings of bytes under a mask of leading ones

Two strings of one length agree under such a mask exactly when the numbers they stand for do, up to the
bits that it clears.
-/

namespace PowerBlockade.Lib.ByteMask

/-- The number that the bytes stand for, the first the most significant. -/
def value (bytes : List UInt8) : Nat := bytes.foldl (fun n b => n * 256 + b.toNat) 0

/-- `^byte(0xff >> n)` -/
def firstBits (ones : Nat) : UInt8 := ~~~(255 >>> UInt8.ofNat ones)

/-- `net.CIDRMask`, for a number of bytes. -/
def cidrMask : Nat → Nat → List UInt8
  | _, 0 => []
  | ones, length + 1 =>
      if 8 ≤ ones then 255 :: cidrMask (ones - 8) length
      else firstBits ones :: cidrMask 0 length

def masked (bytes mask : List UInt8) : List UInt8 := bytes.zipWith (· &&& ·) mask

theorem foldl_value (bytes : List UInt8) (n : Nat) :
    bytes.foldl (fun n b => n * 256 + b.toNat) n = n * 256 ^ bytes.length + value bytes := by
  induction bytes generalizing n with
  | nil => simp [value]
  | cons b bytes ih =>
      rw [value, List.foldl_cons, List.foldl_cons, ih (n * 256 + b.toNat), ih (0 * 256 + b.toNat),
        List.length_cons, pow_succ]
      ring

theorem value_cons (b : UInt8) (bytes : List UInt8) :
    value (b :: bytes) = b.toNat * 256 ^ bytes.length + value bytes := by
  rw [value, List.foldl_cons, foldl_value]
  simp

theorem value_lt (bytes : List UInt8) : value bytes < 256 ^ bytes.length := by
  induction bytes with
  | nil => simp [value]
  | cons b bytes ih =>
      have small : b.toNat + 1 ≤ 256 := b.toNat_lt
      calc
        value (b :: bytes) = b.toNat * 256 ^ bytes.length + value bytes := value_cons b bytes
        _ < (b.toNat + 1) * 256 ^ bytes.length := by linarith
        _ ≤ 256 * 256 ^ bytes.length := Nat.mul_le_mul_right _ small
        _ = 256 ^ (b :: bytes).length := by rw [List.length_cons, pow_succ, Nat.mul_comm]

@[simp] theorem length_cidrMask (ones length : Nat) : (cidrMask ones length).length = length := by
  induction length generalizing ones with
  | zero => rfl
  | succ length ih =>
      rw [cidrMask]
      split <;> simp [ih]

theorem length_masked {bytes mask : List UInt8} (same : bytes.length = mask.length) :
    (masked bytes mask).length = bytes.length := by
  rw [masked, List.length_zipWith, same, Nat.min_self]

theorem firstBits_toBitVec : ∀ ones < 8, (firstBits ones).toBitVec = IpNetwork.netmask 8 ones := by decide

theorem and_firstBits {ones : Nat} (few : ones < 8) (a b : UInt8) :
    a &&& firstBits ones = b &&& firstBits ones ↔ a.toNat / 2 ^ (8 - ones) = b.toNat / 2 ^ (8 - ones) := by
  have number (c : UInt8) : (c &&& firstBits ones).toNat = c.toNat / 2 ^ (8 - ones) * 2 ^ (8 - ones) := by
    have cleared := IpNetwork.and_netmask few.le c.toBitVec
    rwa [← firstBits_toBitVec ones few] at cleared
  rw [← UInt8.toNat_inj, number, number]
  exact Nat.mul_left_inj (Nat.two_pow_pos _).ne'

theorem digit_eq_iff {size x y v w : Nat} (left : v < size) (right : w < size) :
    x * size + v = y * size + w ↔ x = y ∧ v = w := by
  constructor
  · intro same
    have leading := congrArg (· / size) same
    have positive : 0 < size := Nat.zero_lt_of_lt left
    simp only [Nat.mul_comm x, Nat.mul_comm y, Nat.mul_add_div positive, Nat.div_eq_of_lt left,
      Nat.div_eq_of_lt right, Nat.add_zero] at leading
    subst leading
    exact ⟨rfl, Nat.add_left_cancel same⟩
  · rintro ⟨rfl, rfl⟩
    rfl

theorem masked_cidrMask_zero (bytes : List UInt8) :
    masked bytes (cidrMask 0 bytes.length) = List.replicate bytes.length 0 := by
  induction bytes with
  | nil => rfl
  | cons b bytes ih =>
      have none : b &&& firstBits 0 = 0 := by
        rw [show firstBits 0 = 0 by decide, UInt8.and_zero]
      rw [List.length_cons, List.replicate_succ, ← ih, cidrMask, if_neg (by decide), masked, List.zipWith_cons_cons,
        none, masked]

/-- The bits that the mask keeps are the number without its last digits. -/
theorem masked_eq_iff {ones : Nat} {a b : List UInt8} (same : a.length = b.length) (bounded : ones ≤ 8 * a.length) :
    masked a (cidrMask ones a.length) = masked b (cidrMask ones a.length) ↔
      value a / 2 ^ (8 * a.length - ones) = value b / 2 ^ (8 * a.length - ones) := by
  induction a generalizing b ones with
  | nil =>
      obtain rfl := List.eq_nil_of_length_eq_zero same.symm
      simp
  | cons x a ih =>
      obtain ⟨y, b, rfl⟩ := List.exists_cons_of_length_eq_add_one same.symm
      rw [List.length_cons, List.length_cons, Nat.succ_inj] at same
      rw [List.length_cons] at bounded
      have size : 256 ^ a.length = 2 ^ (8 * a.length) := by rw [pow_mul]; rfl
      have left := value_lt a
      have right := value_lt b
      rw [← same] at right
      rw [value_cons, value_cons, ← same, List.length_cons, cidrMask]
      split
      · rename_i whole
        have rest := ih same (by omega : ones - 8 ≤ 8 * a.length)
        have exponent : 8 * (a.length + 1) - ones = 8 * a.length - (ones - 8) := by omega
        have split : 256 ^ a.length = 2 ^ (8 * a.length - (ones - 8)) * 2 ^ (ones - 8) := by
          rw [size, ← Nat.pow_add]
          congr 1
          omega
        rw [exponent]
        generalize 2 ^ (8 * a.length - (ones - 8)) = low at *
        have positive : 0 < low := by
          have whole : 0 < low * 2 ^ (ones - 8) := split ▸ Nat.zero_lt_of_lt left
          exact Nat.pos_of_mul_pos_right whole
        have carry (z : UInt8) (v : Nat) : (z.toNat * 256 ^ a.length + v) / low =
            z.toNat * 2 ^ (ones - 8) + v / low := by
          rw [split, Nat.mul_left_comm, Nat.mul_add_div positive]
        rw [split] at left right
        rw [carry, carry, digit_eq_iff (Nat.div_lt_of_lt_mul left) (Nat.div_lt_of_lt_mul right), ← rest, masked,
          masked, List.zipWith_cons_cons, List.zipWith_cons_cons, List.cons.injEq, UInt8.toNat_inj]
        have all (z : UInt8) : z &&& 255 = z := UInt8.and_neg_one
        rw [all, all, masked, masked]
      · rename_i part
        have tails : masked a (cidrMask 0 a.length) = masked b (cidrMask 0 a.length) := by
          rw [masked_cidrMask_zero, same, masked_cidrMask_zero]
        have exponent : 8 * (a.length + 1) - ones = 8 * a.length + (8 - ones) := by omega
        rw [masked, masked, List.zipWith_cons_cons, List.zipWith_cons_cons, List.cons.injEq]
        rw [masked, masked] at tails
        rw [and_iff_left tails, and_firstBits (by omega), exponent, Nat.pow_add, ← size, ← Nat.div_div_eq_div_mul,
          ← Nat.div_div_eq_div_mul]
        have positive : 0 < 256 ^ a.length := Nat.pow_pos (by decide)
        rw [Nat.mul_comm x.toNat, Nat.mul_comm y.toNat, Nat.mul_add_div positive, Nat.mul_add_div positive,
          Nat.div_eq_of_lt left, Nat.div_eq_of_lt right, Nat.add_zero, Nat.add_zero]

/-! ## Parts of a mask -/

theorem cidrMask_add {ones : Nat} (k : Nat) (whole : 8 * k ≤ ones) (length : Nat) :
    cidrMask ones (k + length) = List.replicate k 255 ++ cidrMask (ones - 8 * k) length := by
  induction k generalizing ones with
  | zero => simp
  | succ k ih =>
      have rest := ih (by omega : 8 * k ≤ ones - 8)
      have left : ones - 8 - 8 * k = ones - 8 * (k + 1) := by omega
      rw [Nat.succ_add, cidrMask, if_pos (by omega), rest, left, List.replicate_succ, List.cons_append]

theorem masked_append {a b mask more : List UInt8} (same : a.length = mask.length) :
    masked (a ++ b) (mask ++ more) = masked a mask ++ masked b more :=
  List.zipWith_append same

theorem masked_all (bytes : List UInt8) : masked bytes (List.replicate bytes.length 255) = bytes := by
  induction bytes with
  | nil => rfl
  | cons b bytes ih =>
      have all : b &&& 255 = b := UInt8.and_neg_one
      rw [masked] at ih
      rw [List.length_cons, List.replicate_succ, masked, List.zipWith_cons_cons, all, ih]

theorem masked_masked (bytes mask : List UInt8) : masked (masked bytes mask) mask = masked bytes mask := by
  induction bytes generalizing mask with
  | nil => rfl
  | cons b bytes ih =>
      cases mask with
      | nil => rfl
      | cons m mask =>
          have rest := ih mask
          simp only [masked] at rest
          simp only [masked, List.zipWith_cons_cons, rest, UInt8.and_assoc, UInt8.and_self]

/-- A byte that is kept whole, all of it ones, is within the mask. -/
theorem ones_of_masked {ones k length : Nat} {bytes : List UInt8}
    (full : (masked bytes (cidrMask ones length))[k]? = some 255) : 8 * (k + 1) ≤ ones := by
  induction length generalizing ones k bytes with
  | zero => simp [masked, cidrMask] at full
  | succ length ih =>
      cases bytes with
      | nil => simp [masked] at full
      | cons b bytes =>
          rw [cidrMask] at full
          have byte {m : UInt8} (kept : b &&& m = 255) : m = 255 := by
            have bits := congrArg UInt8.toBitVec kept
            rw [UInt8.toBitVec_and] at bits
            have both := BitVec.and_eq_allOnes_iff.mp bits
            exact UInt8.toBitVec_inj.mp both.2
          split at full
          · cases k with
            | zero => omega
            | succ k =>
                have rest := ih (k := k) (by simpa [masked] using full)
                omega
          · rename_i few
            cases k with
            | zero =>
                have none : ∀ n < 8, firstBits n ≠ 255 := by decide
                exact absurd (byte (by simpa [masked] using full)) (none ones (by omega))
            | succ k =>
                have kept : (masked bytes (cidrMask 0 length))[k]? = some 255 := by simpa [masked] using full
                have rest := ih kept
                omega

end PowerBlockade.Lib.ByteMask
