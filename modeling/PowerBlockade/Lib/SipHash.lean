import Mathlib.Data.List.Basic

/-!
# SipHash

The keyed hash of a list of bytes with `c` rounds for each word and `d` at the end.
-/

namespace PowerBlockade.Lib.SipHash

structure Key where
  k0 : UInt64
  k1 : UInt64
deriving DecidableEq

structure State where
  v0 : UInt64
  v1 : UInt64
  v2 : UInt64
  v3 : UInt64

def rotl (x b : UInt64) : UInt64 := x <<< b ||| x >>> (64 - b)

def round (s : State) : State :=
  let v0 := s.v0 + s.v1
  let v2 := s.v2 + s.v3
  let v1 := rotl s.v1 13 ^^^ v0
  let v3 := rotl s.v3 16 ^^^ v2
  let v0 := rotl v0 32 + v3
  let v2 := v2 + v1
  ⟨v0, rotl v1 17 ^^^ v2, rotl v2 32, rotl v3 21 ^^^ v0⟩

def rounds : Nat → State → State
  | 0, s => s
  | n + 1, s => rounds n (round s)

/-- Bytes as a number, the first the lowest. -/
def littleEndian (bytes : List UInt8) : UInt64 :=
  bytes.foldr (fun b word => word <<< 8 ||| b.toUInt64) 0

def absorb (c : Nat) (s : State) (word : UInt64) : State :=
  let s := rounds c { s with v3 := s.v3 ^^^ word }
  { s with v0 := s.v0 ^^^ word }

/-- The whole words, then the rest with the length in its highest byte. -/
def absorbAll (c : Nat) (length : UInt64) : State → List UInt8 → State
  | s, b0 :: b1 :: b2 :: b3 :: b4 :: b5 :: b6 :: b7 :: rest =>
      absorbAll c length (absorb c s (littleEndian [b0, b1, b2, b3, b4, b5, b6, b7])) rest
  | s, rest => absorb c s (length <<< 56 ||| littleEndian rest)

def hash (c d : Nat) (key : Key) (bytes : List UInt8) : UInt64 :=
  let s := absorbAll c (UInt64.ofNat bytes.length)
    ⟨key.k0 ^^^ 0x736f6d6570736575, key.k1 ^^^ 0x646f72616e646f6d,
      key.k0 ^^^ 0x6c7967656e657261, key.k1 ^^^ 0x7465646279746573⟩ bytes
  let s := rounds d { s with v2 := s.v2 ^^^ 0xff }
  s.v0 ^^^ s.v1 ^^^ s.v2 ^^^ s.v3

end PowerBlockade.Lib.SipHash
