import PowerBlockade.Lib.IpNetwork
import PowerBlockade.Time

/-!
# The clients and their groups

The rows of `clients` and `client_groups`, and whether the address of a client is in a network.
-/

namespace PowerBlockade.Clients
open Lib

structure Client where
  ip : String
  displayName : Option String
  rdnsName : Option String
  rdnsLastResolvedAt : Option DateTime
  rdnsLastError : Option String
  groupId : Option Nat
deriving DecidableEq

structure ClientGroup where
  id : Nat
  cidr : Option String
deriving DecidableEq

/-- The table of the groups, whose primary key is the number. -/
structure ClientGroups where
  rows : List ClientGroup
  unique : (rows.map (·.id)).Nodup

/-- Whether an address is in a network; `false` also where one of the texts is a `ValueError`. -/
def inNetwork (ip network : String) : Bool :=
  ((IpNetwork.ipAddress ip.toList).bind fun address =>
    (IpNetwork.ipNetwork network.toList).map (·.contains address)).getD false

/-- The addresses of the network that a text denotes, if any. -/
def networkAddresses (network : String) : Set IpNetwork.Address :=
  {address | ∃ parsed, IpNetwork.ipNetwork network.toList = some parsed ∧ address ∈ parsed.addresses}

theorem inNetwork_iff {ip network : String} : inNetwork ip network = true ↔
    ∃ address, IpNetwork.ipAddress ip.toList = some address ∧ address ∈ networkAddresses network := by
  unfold inNetwork networkAddresses
  cases IpNetwork.ipAddress ip.toList with
  | none => simp
  | some address =>
      cases IpNetwork.ipNetwork network.toList with
      | none => simp
      | some parsed => simp [IpNetwork.Network.contains_iff]

theorem inNetwork_empty (ip : String) : inNetwork ip "" = false := by
  have unread : IpNetwork.ipNetwork "".toList = none := by decide
  unfold inNetwork
  rw [unread]
  cases IpNetwork.ipAddress ip.toList <;> rfl

end PowerBlockade.Clients
