import Mathlib.Data.Set.Image
import PowerBlockade.Lib.IpAddress

/-!
# Networks of IP addresses

What `ip_address` and `ip_network` of Python's `ipaddress` read, the latter with host bits allowed, and
which addresses are in a network.
-/

namespace PowerBlockade.Lib.IpNetwork
open IpAddress

/-! ## Blocks of addresses -/

variable {w : Nat}

/-- `_ip_int_from_prefix` -/
def netmask (w prefixlen : Nat) : BitVec w := BitVec.allOnes w ^^^ BitVec.allOnes w >>> prefixlen

theorem getLsbD_netmask (w prefixlen i : Nat) :
    (netmask w prefixlen).getLsbD i = decide (i < w ∧ w ≤ i + prefixlen) := by
  simp only [netmask, BitVec.getLsbD_xor, BitVec.getLsbD_ushiftRight, BitVec.getLsbD_allOnes]
  by_cases inside : i < w
  · by_cases high : w ≤ i + prefixlen
    · simp [inside, high, Nat.add_comm prefixlen i]
    · simp [inside, high, Nat.add_comm prefixlen i]
      omega
  · simp [inside]
    omega

theorem and_netmask {prefixlen : Nat} (bounded : prefixlen ≤ w) (a : BitVec w) :
    (a &&& netmask w prefixlen).toNat = a.toNat / 2 ^ (w - prefixlen) * 2 ^ (w - prefixlen) := by
  have shifted : a &&& netmask w prefixlen = a >>> (w - prefixlen) <<< (w - prefixlen) := by
    apply BitVec.eq_of_getLsbD_eq
    intro i inside
    rw [BitVec.getLsbD_and, getLsbD_netmask, BitVec.getLsbD_shiftLeft, BitVec.getLsbD_ushiftRight]
    by_cases high : w - prefixlen ≤ i
    · have same : w - prefixlen + (i - (w - prefixlen)) = i := by omega
      have masked : w ≤ i + prefixlen := by omega
      simp [inside, masked, same, high]
    · have unmasked : ¬ w ≤ i + prefixlen := by omega
      simp [unmasked, Nat.lt_of_not_le high]
  have small : a.toNat / 2 ^ (w - prefixlen) * 2 ^ (w - prefixlen) < 2 ^ w :=
    (Nat.div_mul_le_self _ _).trans_lt a.isLt
  rw [shifted, BitVec.toNat_shiftLeft, BitVec.toNat_ushiftRight, Nat.shiftLeft_eq, Nat.shiftRight_eq_div_pow,
    Nat.mod_eq_of_lt small]

/-- A network address, whose host bits are zeros, and the number of the other bits. -/
structure Block (w : Nat) where
  networkAddress : BitVec w
  prefixlen : Fin (w + 1)
  aligned : networkAddress &&& netmask w prefixlen = networkAddress

namespace Block

/-- The block of an address, which may have host bits. -/
def of (a : BitVec w) (prefixlen : Fin (w + 1)) : Block w where
  networkAddress := a &&& netmask w prefixlen
  prefixlen := prefixlen
  aligned := by rw [BitVec.and_assoc, BitVec.and_self]

def contains (block : Block w) (a : BitVec w) : Bool := a &&& netmask w block.prefixlen = block.networkAddress

/-- The addresses from the network address on. -/
def addresses (block : Block w) : Set (BitVec w) :=
  {a | block.networkAddress.toNat ≤ a.toNat ∧
    a.toNat < block.networkAddress.toNat + 2 ^ (w - block.prefixlen)}

theorem contains_iff (block : Block w) (a : BitVec w) : block.contains a = true ↔ a ∈ block.addresses := by
  have bounded : (block.prefixlen : Nat) ≤ w := Nat.lt_succ_iff.mp block.prefixlen.isLt
  have aligned := congrArg BitVec.toNat block.aligned
  have positive : 0 < 2 ^ (w - block.prefixlen) := Nat.two_pow_pos _
  rw [and_netmask bounded] at aligned
  rw [contains, decide_eq_true_eq, ← BitVec.toNat_inj, and_netmask bounded]
  change _ ↔ block.networkAddress.toNat ≤ a.toNat ∧
    a.toNat < block.networkAddress.toNat + 2 ^ (w - block.prefixlen)
  generalize 2 ^ (w - block.prefixlen) = size at *
  rw [← aligned]
  generalize block.networkAddress.toNat / size = number
  constructor
  · intro same
    rw [← same]
    exact ⟨Nat.div_mul_le_self _ _, Nat.lt_div_mul_add positive⟩
  · rintro ⟨first, last⟩
    rw [Nat.div_eq_of_lt_le first (by rwa [Nat.succ_mul])]

end Block

/-! ## Addresses and networks of both versions -/

inductive Address
  | v4 (ip : BitVec 32)
  | v6 (ip : BitVec 128)
deriving DecidableEq

inductive Network
  | v4 (block : Block 32)
  | v6 (block : Block 128)

/-- `address in network` -/
def Network.contains : Network → Address → Bool
  | .v4 block, .v4 ip => block.contains ip
  | .v6 block, .v6 ip => block.contains ip
  | _, _ => false

def Network.addresses : Network → Set Address
  | .v4 block => Address.v4 '' block.addresses
  | .v6 block => Address.v6 '' block.addresses

theorem Network.contains_iff (network : Network) (address : Address) :
    network.contains address = true ↔ address ∈ network.addresses := by
  cases network <;> cases address <;> simp [contains, addresses, Block.contains_iff]

/-! ## The readers -/

def join (w bits : Nat) (words : List Nat) : BitVec w :=
  words.foldl (fun ip word => ip <<< bits ||| BitVec.ofNat w word) 0

/-- `IPv4Address` -/
def ipv4 (text : List Char) : Option (BitVec 32) :=
  (parseIPv4Fields text).map fun octets => join 32 8 (octets.map (·.toNat))

/-- `_parse_hextet` -/
def hextet (text : List Char) : Option Nat :=
  if text ≠ [] ∧ text.length ≤ 4 ∧ ∀ c ∈ text, isHexDigit c = true then some (hexValue text) else none

/-- The last part may be an IPv4 address, which is two hextets. -/
def hextetParts (parts : List (List Char)) : Option (List (List Char)) :=
  match parts.getLast? with
  | some last =>
      if '.' ∈ last then
        (ipv4 last).map fun ip =>
          parts.dropLast ++ [Nat.toDigits 16 (ip.toNat / 65536), Nat.toDigits 16 (ip.toNat % 65536)]
      else some parts
  | none => some parts

/-- Where an empty part stands between others. -/
def skips (parts : List (List Char)) : List Nat :=
  (List.range parts.length).filter fun i => 0 < i ∧ i + 1 < parts.length ∧ parts[i]? = some []

/-- The hextets around the gap; an empty part at an end has to belong to the gap. -/
def aroundGap (high low : List (List Char)) : Option (List Nat) := do
  let high ← if high.head? = some [] then (if high.length = 1 then some [] else none) else some high
  let low ← if low.getLast? = some [] then (if low.length = 1 then some [] else none) else some low
  let high ← high.mapM hextet
  let low ← low.mapM hextet
  if high.length + low.length < 8 then
    some (high ++ List.replicate (8 - (high.length + low.length)) 0 ++ low)
  else none

def hextets (text : List Char) : Option (List Nat) :=
  if (text.splitOn ':').length < 3 then none
  else (hextetParts (text.splitOn ':')).bind fun parts =>
    if 9 < parts.length then none
    else match skips parts with
      | [] => if parts.length = 8 then parts.mapM hextet else none
      | [skip] => aroundGap (parts.take skip) (parts.drop (skip + 1))
      | _ => none

/-- `_split_scope_id`; the scope is left out. -/
def withoutScope (text : List Char) : Option (List Char) :=
  match text.splitOn '%' with
  | [address] => some address
  | [address, scope] => if scope ≠ [] then some address else none
  | _ => none

/-- `IPv6Address` -/
def ipv6 (text : List Char) : Option (BitVec 128) :=
  if '/' ∈ text then none
  else (withoutScope text).bind fun address => (hextets address).map (join 128 16)

def ipAddress (text : List Char) : Option Address := (ipv4 text).map .v4 <|> (ipv6 text).map .v6

/-- `_prefix_from_prefix_string` -/
def prefixFromPrefixString (w : Nat) (text : List Char) : Option (Fin (w + 1)) :=
  if Digits text ∧ text.length ≤ 4300 then
    if small : Nat.ofDigitChars 10 text 0 < w + 1 then some ⟨_, small⟩ else none
  else none

/-- `_prefix_from_ip_int` -/
def prefixFromIpInt (ip : BitVec 32) : Option (Fin 33) :=
  let trailingZeroes := ((List.range 32).takeWhile fun i => !ip.getLsbD i).length
  let prefixlen := 32 - trailingZeroes
  if ip.toNat / 2 ^ trailingZeroes = 2 ^ prefixlen - 1 then some ⟨prefixlen, by omega⟩ else none

/-- `_prefix_from_ip_string`: a netmask or a hostmask. -/
def prefixFromIpString (text : List Char) : Option (Fin 33) :=
  (ipv4 text).bind fun ip => prefixFromIpInt ip <|> prefixFromIpInt (ip ^^^ BitVec.allOnes 32)

/-- `ip_network(text, strict=False)` -/
def ipNetwork (text : List Char) : Option Network :=
  match text.splitOn '/' with
  | [address] =>
      (ipv4 address).map (fun ip => .v4 (.of ip 32)) <|> (ipv6 address).map (fun ip => .v6 (.of ip 128))
  | [address, mask] =>
      (do
        let ip ← ipv4 address
        let prefixlen ← prefixFromPrefixString 32 mask <|> prefixFromIpString mask
        return .v4 (.of ip prefixlen)) <|>
      (do
        let ip ← ipv6 address
        let prefixlen ← prefixFromPrefixString 128 mask
        return .v6 (.of ip prefixlen))
  | _ => none

end PowerBlockade.Lib.IpNetwork
