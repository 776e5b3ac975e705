import Mathlib.Algebra.Group.Nat.Defs
import Mathlib.Data.List.Basic

/-!
# SHA-256

The digest of a list of bytes, as 64 hexadecimal digits.
-/

namespace PowerBlockade.Lib.Sha256

def roundConstants : List UInt32 :=
  [0x428a2f98, 0x71374491, 0xb5c0fbcf, 0xe9b5dba5, 0x3956c25b, 0x59f111f1, 0x923f82a4, 0xab1c5ed5,
    0xd807aa98, 0x12835b01, 0x243185be, 0x550c7dc3, 0x72be5d74, 0x80deb1fe, 0x9bdc06a7, 0xc19bf174,
    0xe49b69c1, 0xefbe4786, 0x0fc19dc6, 0x240ca1cc, 0x2de92c6f, 0x4a7484aa, 0x5cb0a9dc, 0x76f988da,
    0x983e5152, 0xa831c66d, 0xb00327c8, 0xbf597fc7, 0xc6e00bf3, 0xd5a79147, 0x06ca6351, 0x14292967,
    0x27b70a85, 0x2e1b2138, 0x4d2c6dfc, 0x53380d13, 0x650a7354, 0x766a0abb, 0x81c2c92e, 0x92722c85,
    0xa2bfe8a1, 0xa81a664b, 0xc24b8b70, 0xc76c51a3, 0xd192e819, 0xd6990624, 0xf40e3585, 0x106aa070,
    0x19a4c116, 0x1e376c08, 0x2748774c, 0x34b0bcb5, 0x391c0cb3, 0x4ed8aa4a, 0x5b9cca4f, 0x682e6ff3,
    0x748f82ee, 0x78a5636f, 0x84c87814, 0x8cc70208, 0x90befffa, 0xa4506ceb, 0xbef9a3f7, 0xc67178f2]

structure Words where
  a : UInt32
  b : UInt32
  c : UInt32
  d : UInt32
  e : UInt32
  f : UInt32
  g : UInt32
  h : UInt32

def initial : Words :=
  ⟨0x6a09e667, 0xbb67ae85, 0x3c6ef372, 0xa54ff53a,
    0x510e527f, 0x9b05688c, 0x1f83d9ab, 0x5be0cd19⟩

def rotr (x : UInt32) (n : UInt32) : UInt32 := x >>> n ||| x <<< (32 - n)

def round (w : Words) (kt wt : UInt32) : Words :=
  let s1 := rotr w.e 6 ^^^ rotr w.e 11 ^^^ rotr w.e 25
  let ch := w.e &&& w.f ^^^ ~~~w.e &&& w.g
  let t1 := w.h + s1 + ch + kt + wt
  let s0 := rotr w.a 2 ^^^ rotr w.a 13 ^^^ rotr w.a 22
  let maj := w.a &&& w.b ^^^ w.a &&& w.c ^^^ w.b &&& w.c
  ⟨t1 + (s0 + maj), w.a, w.b, w.c, w.d + t1, w.e, w.f, w.g⟩

def extend : Nat → List UInt32 → List UInt32
  | 0, schedule => schedule
  | n + 1, schedule =>
      let w2 := schedule.getD 1 0
      let w15 := schedule.getD 14 0
      let s0 := rotr w15 7 ^^^ rotr w15 18 ^^^ w15 >>> 3
      let s1 := rotr w2 17 ^^^ rotr w2 19 ^^^ w2 >>> 10
      extend n ((schedule.getD 15 0 + s0 + schedule.getD 6 0 + s1) :: schedule)

def wordsOf : List UInt8 → List UInt32
  | b0 :: b1 :: b2 :: b3 :: rest =>
      (b0.toUInt32 <<< 24 ||| b1.toUInt32 <<< 16 ||| b2.toUInt32 <<< 8 ||| b3.toUInt32) :: wordsOf rest
  | _ => []

def compress (h : Words) (block : List UInt32) : Words :=
  let schedule := (extend 48 block.reverse).reverse
  let w := (roundConstants.zip schedule).foldl (fun w kw => round w kw.1 kw.2) h
  ⟨h.a + w.a, h.b + w.b, h.c + w.c, h.d + w.d, h.e + w.e, h.f + w.f, h.g + w.g, h.h + w.h⟩

def padded (message : List UInt8) : List UInt8 :=
  message ++ 0x80 :: List.replicate ((119 - message.length % 64) % 64) 0 ++
    (List.range 8).reverse.map fun i => UInt8.ofNat (message.length * 8 / 256 ^ i)

def hexWord (w : UInt32) : List Char :=
  (List.range 8).reverse.map fun i => Nat.digitChar (w.toNat / 16 ^ i % 16)

/-- `hex.EncodeToString(sha256.Sum256(message))`. -/
def hexDigest (message : List UInt8) : String :=
  let w := ((wordsOf (padded message)).toChunks 16).foldl compress initial
  String.ofList ([w.a, w.b, w.c, w.d, w.e, w.f, w.g, w.h].flatMap hexWord)

theorem length_hexDigest (message : List UInt8) : (hexDigest message).length = 64 := by
  simp [hexDigest, hexWord]

/-- Only the digits and the letters from `a` to `f`. -/
theorem toNat_of_mem_hexDigest {message : List UInt8} {c : Char}
    (member : c ∈ (hexDigest message).toList) : 48 ≤ c.toNat ∧ c.toNat ≤ 102 := by
  have digit : ∀ n < 16, 48 ≤ (Nat.digitChar n).toNat ∧ (Nat.digitChar n).toNat ≤ 102 := by decide
  rw [hexDigest, String.toList_ofList, List.mem_flatMap] at member
  obtain ⟨w, -, shown⟩ := member
  obtain ⟨i, -, rfl⟩ := List.mem_map.mp shown
  exact digit _ (Nat.mod_lt _ (by decide))

end PowerBlockade.Lib.Sha256
