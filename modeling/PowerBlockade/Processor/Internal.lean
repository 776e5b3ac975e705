import PowerBlockade.Lib.ByteMask
import PowerBlockade.Processor.ProberAddresses

/-!
# The internal subnets

`netutil` parses `INTERNAL_SUBNETS` and looks the text of a client's address up in the networks; the
addresses that an event is flagged for, as numbers.
-/

namespace PowerBlockade.Processor
open Lib IpAddress ByteMask

/-! ## Networks, as `net` has them -/

/-- `net.IPNet` -/
structure IPNet where
  ip : List UInt8
  mask : List UInt8
deriving DecidableEq

def v4InV6Prefix : List UInt8 := List.replicate 10 0 ++ [255, 255]

def to4 (ip : List UInt8) : Option (List UInt8) :=
  if ip.length = 4 then some ip
  else if ip.length = 16 ∧ ip.take 12 = v4InV6Prefix then some (ip.drop 12)
  else none

/-- `IP.Mask`, of an address of sixteen bytes. -/
def ipMask (ip mask : List UInt8) : List UInt8 :=
  if mask.length = 4 ∧ ip.take 12 = v4InV6Prefix then masked (ip.drop 12) mask else masked ip mask

/-- `dtoi` on the whole text; a number of 2 ^ 24 or more is longer than any address, too. -/
def dtoi (text : List Char) : Option Nat :=
  if Digits text then some (Nat.ofDigitChars 10 text 0) else none

/-- `netip.ParseAddr` of an address without a zone: how many bits it has, and its sixteen bytes. -/
def parseAddr (text : List Char) : Option (Nat × List UInt8) :=
  match text.find? (· ∈ ['.', ':', '%']) with
  | some '.' => (parseIPv4Fields text).map fun ip => (32, mapped ip)
  | some ':' => (parseIPv6 text).map fun ip => (128, ip)
  | _ => none

def parseCIDR (text : List Char) : Option IPNet :=
  match text.dropWhile (· ≠ '/') with
  | [] => none
  | _ :: mask => do
      let (bits, ip) ← parseAddr (text.takeWhile (· ≠ '/'))
      let n ← dtoi mask
      if n ≤ bits then some ⟨ipMask ip (cidrMask n (bits / 8)), cidrMask n (bits / 8)⟩ else none

def networkNumberAndMask (n : IPNet) : Option (List UInt8 × List UInt8) :=
  match to4 n.ip with
  | some ip =>
      if n.mask.length = 4 then some (ip, n.mask)
      else if n.mask.length = 16 then some (ip, n.mask.drop 12)
      else none
  | none =>
      if n.ip.length = 16 ∧ n.mask.length = 16 then some (n.ip, n.mask) else none

def IPNet.contains (n : IPNet) (ip : List UInt8) : Bool :=
  match networkNumberAndMask n with
  | none => false
  | some (nn, m) =>
      let ip := (to4 ip).getD ip
      ip.length = nn.length && masked nn m = masked ip m

/-! ## The package and its configuration -/

def isSubnetSeparator (c : Char) : Bool := c ∈ [',', ' ', '\t', '\n']

/-- The parts that `ParseSubnets` parses. -/
def subnetParts (raw : List Char) : List (List Char) :=
  ((fields isSubnetSeparator raw).map (trim Zones.isSpace)).filter (· ≠ [])

/-- `none` is the error, after which the processor does not start. -/
def parseSubnets (raw : String) : Option (List IPNet) := (subnetParts raw.toList).mapM parseCIDR

def containsIP (nets : List IPNet) (ipStr : String) : Bool :=
  match parseIP ipStr.toList with
  | none => false
  | some ip => nets.any (·.contains ip)

/-- `Load` reads the list as it reads the probers'; `configured` is that of the YAML file, or nothing. -/
def loadInternalSubnets (configured : List String) (value : Option String) : List String :=
  loadProberIPs configured value

def internalNets (configured : List String) (value : Option String) : Option (List IPNet) :=
  parseSubnets (",".intercalate (loadInternalSubnets configured value))

/-! ## Networks, as numbers -/

/-- A network of addresses of sixteen bytes: those that begin with its bits. One with less than 96 bits
is an IPv6 network, and has none of IPv4. -/
structure Subnet where
  address : List UInt8
  ones : Nat
  sixteen : address.length = 16
  bounded : ones ≤ 128

def Subnet.Covers (subnet : Subnet) (ip : List UInt8) : Prop :=
  value ip / 2 ^ (128 - subnet.ones) = value subnet.address / 2 ^ (128 - subnet.ones) ∧
    (ip.take 12 = v4InV6Prefix → 96 ≤ subnet.ones)

def Subnet.of (address : List UInt8) (ones : Nat) : Option Subnet :=
  if valid : address.length = 16 ∧ ones ≤ 128 then some ⟨address, ones, valid.1, valid.2⟩ else none

/-- What a text in CIDR form denotes. -/
def subnet (text : List Char) : Option Subnet :=
  match text.dropWhile (· ≠ '/') with
  | [] => none
  | _ :: mask => do
      let (bits, ip) ← parseAddr (text.takeWhile (· ≠ '/'))
      let n ← dtoi mask
      if n ≤ bits then Subnet.of ip (128 - bits + n) else none

/-! ## One network -/

theorem masked_split {x : List UInt8} (sixteen : x.length = 16) {ones : Nat} (old : 96 ≤ ones) :
    masked x (cidrMask ones 16) = x.take 12 ++ masked (x.drop 12) (cidrMask (ones - 96) 4) := by
  have first : (x.take 12).length = 12 := by rw [List.length_take, sixteen]; rfl
  have mask : cidrMask ones 16 = List.replicate (x.take 12).length 255 ++ cidrMask (ones - 96) 4 := by
    rw [first]
    exact cidrMask_add 12 old 4
  calc
    masked x (cidrMask ones 16) = masked (x.take 12 ++ x.drop 12) (cidrMask ones 16) := by rw [List.take_append_drop]
    _ = x.take 12 ++ masked (x.drop 12) (cidrMask (ones - 96) 4) := by
      rw [mask, masked_append (by rw [List.length_replicate]), masked_all]

theorem to4_sixteen {x : List UInt8} (sixteen : x.length = 16) :
    to4 x = if x.take 12 = v4InV6Prefix then some (x.drop 12) else none := by
  rw [to4, if_neg (by omega)]
  simp only [sixteen, true_and]

theorem Subnet.covers_iff (subnet : Subnet) {x : List UInt8} (sixteen : x.length = 16) :
    subnet.Covers x ↔ masked x (cidrMask subnet.ones 16) = masked subnet.address (cidrMask subnet.ones 16) ∧
      (x.take 12 = v4InV6Prefix → 96 ≤ subnet.ones) := by
  have bounded : subnet.ones ≤ 8 * x.length := by rw [sixteen]; exact subnet.bounded
  have bits := masked_eq_iff (sixteen.trans subnet.sixteen.symm) bounded
  rw [sixteen] at bits
  rw [Covers, bits]

/-- A network and an address of IPv4, compared by their last four bytes. -/
theorem contains_mapped {nn m a x : List UInt8} {ones : Nat} (a16 : a.length = 16) (x16 : x.length = 16)
    (old : 96 ≤ ones) (mapped : a.take 12 = v4InV6Prefix) (m_eq : m = cidrMask (ones - 96) 4)
    (nn_eq : nn = masked (a.drop 12) m) :
    (((to4 x).getD x).length = nn.length && masked nn m = masked ((to4 x).getD x) m) = true ↔
      masked x (cidrMask ones 16) = masked a (cidrMask ones 16) ∧ (x.take 12 = v4InV6Prefix → 96 ≤ ones) := by
  have four : nn.length = 4 := by
    rw [nn_eq, m_eq, length_masked] <;> simp [a16]
  have nn_kept : masked nn m = masked (a.drop 12) m := by rw [nn_eq, masked_masked]
  rw [masked_split a16 old, masked_split x16 old, mapped, four, nn_kept, ← m_eq, to4_sixteen x16,
    and_iff_left fun _ => old]
  by_cases same : x.take 12 = v4InV6Prefix
  · have back : (x.drop 12).length = 4 := by rw [List.length_drop, x16]
    rw [if_pos same, Option.getD_some, same, List.append_cancel_left_eq]
    simp [back, eq_comm]
  · rw [if_neg same, Option.getD_none]
    apply iff_of_false
    · simp [x16]
    · intro whole
      have lengths : (x.take 12).length = v4InV6Prefix.length := by rw [List.length_take, x16]; rfl
      exact same (List.append_inj whole lengths).1

theorem contains_iff_covers {net : IPNet} {subnet : Subnet} {x : List UInt8} (sixteen : x.length = 16)
    (form : subnet.address.take 12 = v4InV6Prefix ∧ 96 ≤ subnet.ones ∧
        net = ⟨ipMask subnet.address (cidrMask (subnet.ones - 96) 4), cidrMask (subnet.ones - 96) 4⟩ ∨
      net = ⟨ipMask subnet.address (cidrMask subnet.ones 16), cidrMask subnet.ones 16⟩) :
    net.contains x = true ↔ subnet.Covers x := by
  rw [subnet.covers_iff sixteen]
  rcases form with ⟨mapped, old, rfl⟩ | rfl
  · have network : ipMask subnet.address (cidrMask (subnet.ones - 96) 4) =
        masked (subnet.address.drop 12) (cidrMask (subnet.ones - 96) 4) := by
      rw [ipMask, if_pos ⟨length_cidrMask _ _, mapped⟩]
    have four : (masked (subnet.address.drop 12) (cidrMask (subnet.ones - 96) 4)).length = 4 := by
      rw [length_masked] <;> simp [subnet.sixteen]
    rw [network, IPNet.contains, networkNumberAndMask, to4, if_pos four]
    simp only [length_cidrMask, if_true]
    exact contains_mapped subnet.sixteen sixteen old mapped rfl rfl
  · have network : ipMask subnet.address (cidrMask subnet.ones 16) =
        masked subnet.address (cidrMask subnet.ones 16) := by
      rw [ipMask, if_neg (by simp)]
    have whole : (masked subnet.address (cidrMask subnet.ones 16)).length = 16 := by
      rw [length_masked] <;> simp [subnet.sixteen]
    rw [network, IPNet.contains, networkNumberAndMask, to4_sixteen whole]
    by_cases mapped : (masked subnet.address (cidrMask subnet.ones 16)).take 12 = v4InV6Prefix
    · -- the last byte of the IPv4 form is kept whole, so the mask reaches beyond it
      have byte : (masked subnet.address (cidrMask subnet.ones 16))[11]? = some 255 := by
        have taken := congrArg (·[11]?) mapped
        simpa [v4InV6Prefix] using taken
      have old : 96 ≤ subnet.ones := ones_of_masked byte
      have split := masked_split subnet.sixteen old
      have first : (subnet.address.take 12).length = 12 := by rw [List.length_take, subnet.sixteen]; rfl
      have start : subnet.address.take 12 = v4InV6Prefix := by
        rw [split, List.take_left' first] at mapped
        exact mapped
      have back : (cidrMask subnet.ones 16).drop 12 = cidrMask (subnet.ones - 96) 4 := by
        rw [show cidrMask subnet.ones 16 = List.replicate 12 255 ++ cidrMask (subnet.ones - 96) 4 from
          cidrMask_add 12 old 4]
        exact List.drop_left' (List.length_replicate ..)
      rw [if_pos mapped]
      simp only [length_cidrMask, back, if_true]
      exact contains_mapped subnet.sixteen sixteen old start rfl (by rw [split, List.drop_left' first])
    · rw [if_neg mapped]
      simp only [whole, length_cidrMask, and_self, if_true, masked_masked]
      by_cases old : x.take 12 = v4InV6Prefix
      · rw [to4_sixteen sixteen, if_pos old, Option.getD_some]
        apply iff_of_false
        · simp [sixteen]
        · rintro ⟨same, wide⟩
          have first : (x.take 12).length = 12 := by rw [List.length_take, sixteen]; rfl
          rw [← same, masked_split sixteen (wide old), List.take_left' first] at mapped
          exact mapped old
      · rw [to4_sixteen sixteen, if_neg old, Option.getD_none]
        simp [sixteen, old, eq_comm]

/-! ## The list -/

theorem length_parseAddr {text : List Char} {bits : Nat} {ip : List UInt8}
    (read : parseAddr text = some (bits, ip)) :
    ip.length = 16 ∧ (bits = 32 ∧ ip.take 12 = v4InV6Prefix ∨ bits = 128) := by
  unfold parseAddr at read
  split at read
  · obtain ⟨four, fields, same⟩ := Option.map_eq_some_iff.mp read
    obtain ⟨rfl, rfl⟩ := Prod.mk.inj same
    exact ⟨length_mapped (length_parseIPv4Fields fields), .inl ⟨rfl, List.take_left' rfl⟩⟩
  · obtain ⟨ip', groups, same⟩ := Option.map_eq_some_iff.mp read
    obtain ⟨rfl, rfl⟩ := Prod.mk.inj same
    exact ⟨length_parseIPv6 groups, .inr rfl⟩
  · contradiction

/-- The network that is parsed has the addresses that the text denotes. -/
theorem parseCIDR_spec (text : List Char) : Option.Rel (fun (net : IPNet) (subnet : Subnet) =>
    ∀ x : List UInt8, x.length = 16 → (net.contains x = true ↔ subnet.Covers x)) (parseCIDR text) (subnet text) := by
  unfold parseCIDR subnet
  split
  · exact .none
  · rename_i mask _
    cases read : parseAddr (text.takeWhile (· ≠ '/')) with
    | none => exact .none
    | some found =>
        obtain ⟨bits, ip⟩ := found
        cases dtoi mask with
        | none => exact .none
        | some n =>
            obtain ⟨sixteen, form⟩ := length_parseAddr read
            simp only [Option.bind_eq_bind, Option.bind_some]
            split
            · rename_i small
              have bounded : 128 - bits + n ≤ 128 := by omega
              rw [Subnet.of, dif_pos ⟨sixteen, bounded⟩]
              refine .some fun x x16 => contains_iff_covers x16 ?_
              rcases form with ⟨rfl, mapped⟩ | rfl
              · exact .inl ⟨mapped, Nat.le_add_right 96 n, by simp⟩
              · exact .inr (by simp)
            · exact .none

/-- A part of the list that is in CIDR form covers the address. -/
def Listed (configured : List String) (value : Option String) (ip : List UInt8) : Prop :=
  ∃ entry ∈ loadInternalSubnets configured value, ∃ part ∈ subnetParts entry.toList,
    ∃ s, subnet part = some s ∧ s.Covers ip

theorem subnetParts_append {sep : Char} (separates : isSubnetSeparator sep = true) (text more : List Char) :
    subnetParts (text ++ sep :: more) = subnetParts text ++ subnetParts more := by
  simp only [subnetParts, fields, List.splitOnP_append_cons text more separates, List.filter_append, List.map_append]

theorem mem_subnetParts_intercalate (words : List String) {part : List Char} :
    part ∈ subnetParts (",".intercalate words).toList ↔ ∃ word ∈ words, part ∈ subnetParts word.toList := by
  rw [String.toList_intercalate]
  show part ∈ subnetParts ([','].intercalate (words.map String.toList)) ↔ _
  induction words with
  | nil => simp [subnetParts, fields]
  | cons word words ih =>
      cases words with
      | nil => simp
      | cons next words =>
          have cut := subnetParts_append (by decide : isSubnetSeparator ',' = true) word.toList
            ([','].intercalate ((next :: words).map String.toList))
          rw [List.map_cons, List.map_cons, List.intercalate_cons_cons, List.append_assoc, List.singleton_append,
            ← List.map_cons, cut, List.mem_append, ih, List.exists_mem_cons_iff (a := word)]

/-- Bytes that are no address print as no address. -/
theorem parseIP_ipString_none {ip : List UInt8} (length : ¬ (ip.length = 4 ∨ ip.length = 16)) :
    parseIP (ipString ip).toList = none := by
  have hex : ∀ c ∈ ip.flatMap hexByte, c ∉ ['.', ':', '%'] := by
    intro c member
    obtain ⟨b, -, inside⟩ := List.mem_flatMap.mp member
    have digit : ∀ d < 16, Nat.digitChar d ∉ ['.', ':', '%'] := by decide
    have small := b.toNat_lt
    rcases List.mem_cons.mp inside with rfl | low
    · exact digit _ (by omega)
    · rw [List.mem_singleton.mp low]
      exact digit _ (by omega)
  have plain : ∀ c ∈ (ipString ip).toList, c ∉ ['.', ':', '%'] := by
    rw [not_or] at length
    rw [ipString]
    split
    · decide
    · rw [if_neg length.1, if_neg length.2, String.toList_append]
      refine List.forall_mem_append.mpr ⟨by decide, ?_⟩
      rwa [String.toList_ofList]
  have none : (ipString ip).toList.find? (· ∈ ['.', ':', '%']) = none :=
    List.find?_eq_none.mpr fun c member => by simpa using plain c member
  rw [parseIP, none]

theorem containsIP_iff {configured : List String} {value : Option String} {nets : List IPNet}
    (started : internalNets configured value = some nets) (ip : List UInt8) :
    containsIP nets (ipString ip) = true ↔
      (ip.length = 4 ∨ ip.length = 16) ∧ Listed configured value (to16 ip) := by
  by_cases length : ip.length = 4 ∨ ip.length = 16
  · have read := parseIP_ipString length
    have sixteen : (to16 ip).length = 16 := length_parseIP read
    rw [containsIP, read, and_iff_right length]
    simp only [List.any_eq_true]
    constructor
    · rintro ⟨net, member, contains⟩
      obtain ⟨part, listed, parsed⟩ := forall_of_mapM (P := fun net => ∃ part ∈ subnetParts
        (",".intercalate (loadInternalSubnets configured value)).toList, parseCIDR part = some net)
        (fun part listed net parsed => ⟨part, listed, parsed⟩) started net member
      obtain ⟨entry, inList, inEntry⟩ := (mem_subnetParts_intercalate _).mp listed
      have spec := parseCIDR_spec part
      rw [parsed] at spec
      cases denoted : subnet part with
      | none =>
          rw [denoted] at spec
          exact nomatch spec
      | some s =>
          rw [denoted] at spec
          cases spec with
          | some same => exact ⟨entry, inList, part, inEntry, s, denoted, (same _ sixteen).mp contains⟩
    · rintro ⟨entry, inList, part, inEntry, s, denoted, covers⟩
      obtain ⟨net, member, parsed⟩ := exists_of_mapM started
        ((mem_subnetParts_intercalate _).mpr ⟨entry, inList, inEntry⟩)
      have spec := parseCIDR_spec part
      rw [parsed, denoted] at spec
      cases spec with
      | some same => exact ⟨net, member, (same _ sixteen).mpr covers⟩
  · rw [containsIP, parseIP_ipString_none length]
    simp [length]

theorem isInternal_event (env : Environment) (now : GoTime) (msg : DnstapMessage) (r : Response) :
    (r.event env now msg).isInternal = env.containsIP r.clientIP := rfl

theorem clientIP_response {unpack : List UInt8 → Option DnsMsg} {msg : DnstapMessage} {r : Response}
    {ip : List UInt8} (read : response unpack msg = some r) (address : msg.queryAddress = some ip) :
    r.clientIP = ipString ip := by
  unfold response at read
  split at read
  · rw [address] at read
    simp only [Option.bind_eq_bind, Option.bind_some, Option.bind_eq_some_iff] at read
    obtain ⟨_, -, _, -, same⟩ := read
    rw [← Option.some.inj same]
  · exact nomatch read

/-- Once the processor has started, an event is flagged as internal exactly when its address, as a
number, is in one of the networks that the configuration lists. -/
theorem isInternal_iff (env : Environment) (configured : List String) (value : Option String) (nets : List IPNet)
    (started : internalNets configured value = some nets) (now : GoTime) (msg : DnstapMessage) (ip : List UInt8)
    (address : msg.queryAddress = some ip) (ev : Event)
    (accepted : process { env with containsIP := containsIP nets } now msg = some ev) :
    ev.isInternal = true ↔ (ip.length = 4 ∨ ip.length = 16) ∧ Listed configured value (to16 ip) := by
  rw [← containsIP_iff started ip]
  rw [process_eq] at accepted
  obtain ⟨r, read, accepted⟩ := Option.bind_eq_some_iff.mp accepted
  obtain ⟨-, same⟩ := Option.ite_none_left_eq_some.mp accepted
  rw [← Option.some.inj same, isInternal_event, clientIP_response read address]

def dockerSubnets : List String := ["172.30.0.0/24", "10.0.0.0/8 fd00::/8"]

theorem isInternal_iff_docker : ∃ nets ev,
    internalNets dockerSubnets none = some nets ∧
      process { stack with containsIP := containsIP nets } 0 (asked [10, 1, 2, 3]) = some ev ∧
      (ev.isInternal = true ↔ ([10, 1, 2, 3].length = 4 ∨ [10, 1, 2, 3].length = 16) ∧
        Listed dockerSubnets none (to16 [10, 1, 2, 3])) := by
  have started : ∃ nets, internalNets dockerSubnets none = some nets :=
    Option.isSome_iff_exists.mp (by decide +kernel)
  obtain ⟨nets, started⟩ := started
  exact ⟨nets, _, started, rfl, isInternal_iff stack dockerSubnets none nets started 0 (asked [10, 1, 2, 3])
    [10, 1, 2, 3] rfl _ rfl⟩

end PowerBlockade.Processor
