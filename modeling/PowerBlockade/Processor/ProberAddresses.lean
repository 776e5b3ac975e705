import PowerBlockade.Lib.IpAddress
import PowerBlockade.Nodes.LocalKey
import PowerBlockade.Processor.Address
import PowerBlockade.Processor.Prober

/-!
# The probers' addresses

`PROBER_IPS` lists texts, and `process` looks up the text of the client's address among them.
-/

namespace PowerBlockade.Processor
open Lib IpAddress
open Nodes (trimSpace trimmedEnv)

/-! ## The configuration -/

/-- `Load`; `configured` is the default list, or that of the YAML file. -/
def loadProberIPs (configured : List String) (value : Option String) : List String :=
  if trimmedEnv value ≠ "" then (((trimmedEnv value).splitOn ",").map trimSpace).filter (· ≠ "") else configured

/-- The keys of the map. -/
def parseProberIPs (commaList : String) : List String := ((commaList.splitOn ",").map trimSpace).filter (· ≠ "")

def proberIPs (configured : List String) (value : Option String) : List String :=
  parseProberIPs (",".intercalate (loadProberIPs configured value))

/-! ## Classification by value -/

/-- The list that counts. -/
def listText (configured : List String) (value : Option String) : String :=
  if trimmedEnv value ≠ "" then value.getD "" else ",".intercalate configured

def spellings (text : String) : List (List Char) := (text.toList.splitOn ',').map (trim Zones.isSpace)

/-- Some spelling in the list is one of the address. -/
def lists (text : String) (a : List UInt8) : Bool := (spellings text).any fun spelling => parseIP spelling = some a

/-- The address that the bytes of a frame denote. -/
def to16 (ip : List UInt8) : List UInt8 := if ip.length = 4 then mapped ip else ip

/-- What `process` does with a frame that it takes for a prober's, or for another client's. -/
def ResponseProcessor.treat (prober : Bool) (env : Environment) (p : ResponseProcessor) (now : GoTime)
    (files : ZoneFiles) (msg : DnstapMessage) : ResponseProcessor :=
  (response env.unpack msg).elim p fun r =>
    let mets := p.mets.observe prober msg
    let sets := p.sets.load now files
    if prober && env.dropProberEvents then { p with mets := mets }
    else ⟨mets, sets, p.returned ++ [r.event (env.reading sets) now msg]⟩

/-- The frames of an address are a prober's if and only if the list has some spelling of it. -/
def ByValue (configured : List String) (value : Option String) : Prop :=
  ∀ env : Environment, env.probers = proberIPs configured value → ∀ (p : ResponseProcessor) (now : GoTime)
    (files : ZoneFiles) (msg : DnstapMessage) (ip : List UInt8), msg.queryAddress = some ip →
      ip.length = 4 ∨ ip.length = 16 →
        p.process env now files msg = p.treat (lists (listText configured value) (to16 ip)) env now files msg

/-- Every address in the list is spelled there, at least once, as `net.IP` prints it. -/
def Printed (text : String) : Prop :=
  ∀ spelling ∈ spellings text, ∀ a, parseIP spelling = some a → (ipString a).toList ∈ spellings text

/-! ## What is printed is read again -/

theorem groups_spec (ip : List UInt8) (even : ip.length % 2 = 0) : 2 * (groups ip).length = ip.length ∧
    (∀ g ∈ groups ip, g < 2 ^ 16) ∧ (groups ip).flatMap groupBytes = ip := by
  induction ip using groups.induct with
  | case1 hi lo rest ih =>
      obtain ⟨length, small, bytes⟩ := ih (by simp only [List.length_cons] at even; omega)
      have high := hi.toNat_lt
      have low := lo.toNat_lt
      have pair : groupBytes (hi.toNat * 256 + lo.toNat) = [hi, lo] := by
        have first : (hi.toNat * 256 + lo.toNat) / 256 = hi.toNat := by omega
        have second : (hi.toNat * 256 + lo.toNat) % 256 = lo.toNat := by omega
        rw [groupBytes, first, second, UInt8.ofNat_toNat, UInt8.ofNat_toNat]
      rw [groups]
      refine ⟨by simp only [List.length_cons]; omega, List.forall_mem_cons.mpr ⟨by omega, small⟩, ?_⟩
      rw [List.flatMap_cons, pair, bytes]
      rfl
  | case2 ip short =>
      cases ip with
      | nil => simp [groups]
      | cons a rest =>
          cases rest with
          | nil => contradiction
          | cons b rest => exact absurd rfl (short a b rest)

theorem zeroRun_spec {gs : List Nat} {start n : Nat} (found : zeroRun gs = some (start, n)) :
    n = zerosFrom gs start ∧ 2 ≤ n := by
  have each : ∀ run ∈ zeroRun gs, run.2 = zerosFrom gs run.1 ∧ 2 ≤ run.2 := by
    unfold zeroRun
    apply List.foldlRecOn (motive := fun best : Option (Nat × Nat) =>
      ∀ run ∈ best, run.2 = zerosFrom gs run.1 ∧ 2 ≤ run.2)
    · exact fun run none => nomatch none
    · intro best known i _
      dsimp only
      split
      · rename_i longer
        rintro _ ⟨⟩
        exact ⟨rfl, longer.1⟩
      · exact known
  exact each _ found

theorem take_zerosFrom (gs : List Nat) (i : Nat) :
    (gs.drop i).take (zerosFrom gs i) = List.replicate (zerosFrom gs i) 0 := by
  have front : (gs.drop i).take (zerosFrom gs i) = (gs.drop i).takeWhile (· = 0) :=
    (List.prefix_iff_eq_take.mp (List.takeWhile_prefix _)).symm
  rw [front, List.eq_replicate_iff]
  exact ⟨rfl, fun g member => by simpa using List.mem_takeWhile_imp member⟩

theorem split_zeros {gs : List Nat} {start n : Nat} (run : n = zerosFrom gs start) :
    gs.take start ++ List.replicate n 0 ++ gs.drop (start + n) = gs := by
  rw [run, ← take_zerosFrom, List.append_assoc, ← List.drop_drop, List.take_append_drop, List.take_append_drop]

theorem toList_dotted_eq (ip : List UInt8) : (dotted ip).toList = dottedText ip := toList_dotted ip

theorem toList_ipv6_run {gs : List Nat} {start n : Nat} (run : zeroRun gs = some (start, n)) :
    (ipv6 gs).toList = groupsText (gs.take start) ++ ':' :: ':' :: groupsText (gs.drop (start + n)) := by
  have left := toList_groups (gs.take start)
  have right := toList_groups (gs.drop (start + n))
  simp only [ipv6, run, String.toList_append, left, right, groupsText, List.append_assoc]
  rfl

theorem toList_ipv6_none {gs : List Nat} (run : zeroRun gs = none) : (ipv6 gs).toList = groupsText gs := by
  rw [ipv6, run]
  exact toList_groups gs

theorem hex_or_colon (gs : List Nat) : ∀ c ∈ groupsText gs, isHexDigit c = true ∨ c = ':' := by
  apply forall_mem_intercalate
  · exact fun c member => Or.inr (List.mem_singleton.mp member)
  · rw [List.forall_mem_map]
    exact fun g _ c member => Or.inl (isHexDigit_of_mem_toDigits member)

theorem parseIP_ipv6 {gs : List Nat} (eight : gs.length = 8) (small : ∀ g ∈ gs, g < 2 ^ 16) :
    parseIP (ipv6 gs).toList = some (gs.flatMap groupBytes) := by
  cases run : zeroRun gs with
  | none =>
      have colon : ':' ∈ groupsText gs := by
        obtain ⟨g, h, rest, rfl⟩ : ∃ g h rest, gs = g :: h :: rest := by
          match gs, eight with
          | g :: h :: rest, _ => exact ⟨g, h, rest, rfl⟩
        simp [groupsText_cons_cons]
      rw [toList_ipv6_none run, parseIP_groups (hex_or_colon gs) colon, parseIPv6_groupsText eight small]
  | some found =>
      obtain ⟨start, n⟩ := found
      obtain ⟨zeros, two⟩ := zeroRun_spec run
      have whole : gs.take start ++ List.replicate n 0 ++ gs.drop (start + n) = gs := split_zeros zeros
      have size := congrArg List.length whole
      simp only [List.length_append, List.length_replicate, eight] at size
      have plain : ∀ c ∈ groupsText (gs.take start) ++ ':' :: ':' :: groupsText (gs.drop (start + n)),
          isHexDigit c = true ∨ c = ':' := by
        rw [List.forall_mem_append, List.forall_mem_cons, List.forall_mem_cons]
        exact ⟨hex_or_colon _, Or.inr rfl, Or.inr rfl, hex_or_colon _⟩
      have missing : 8 - ((gs.take start).length + (gs.drop (start + n)).length) = n := by omega
      rw [toList_ipv6_run run, parseIP_groups plain (by simp), parseIPv6_gap (by omega)
        (fun g member => small g (List.mem_of_mem_take member))
        (fun g member => small g (List.mem_of_mem_drop member)), missing, whole]

theorem ipString_four {ip : List UInt8} (four : ip.length = 4) : ipString ip = dotted ip := by
  simp [ipString, four]

theorem ipString_mapped {ip : List UInt8} (four : ip.length = 4) : ipString (mapped ip) = dotted ip := by
  have length := length_mapped four
  have front : (mapped ip).take 12 = List.replicate 10 0 ++ [255, 255] := List.take_left' rfl
  have back : (mapped ip).drop 12 = ip := List.drop_left' rfl
  simp only [ipString, length, front, back]
  rfl

theorem ipString_to16 (ip : List UInt8) : ipString (to16 ip) = ipString ip := by
  unfold to16
  split
  · rename_i four
    rw [ipString_mapped four, ipString_four four]
  · rfl

theorem parseIP_ipString {ip : List UInt8} (length : ip.length = 4 ∨ ip.length = 16) :
    parseIP (ipString ip).toList = some (to16 ip) := by
  rcases length with four | sixteen
  · rw [ipString_four four, toList_dotted_eq, parseIP_dottedText four, to16, if_pos four]
  · have same : to16 ip = ip := if_neg (by omega)
    rw [same]
    by_cases old : ip.take 12 = List.replicate 10 0 ++ [255, 255]
    · have back : (ip.drop 12).length = 4 := by rw [List.length_drop, sixteen]
      have whole : ip = mapped (ip.drop 12) := by rw [mapped, ← old, List.take_append_drop]
      rw [whole, ipString_mapped back, toList_dotted_eq, parseIP_dottedText back, ← whole]
    · obtain ⟨double, small, bytes⟩ := groups_spec ip (by omega)
      have text : ipString ip = ipv6 (groups ip) := by
        rw [ipString, if_neg (by omega), if_neg (by omega), if_pos sixteen, if_neg old]
      rw [text, parseIP_ipv6 (by omega) small, bytes]

/-! ## What is looked up -/

theorem mem_parseProberIPs {s commaList : String} :
    s ∈ parseProberIPs commaList ↔ s ≠ "" ∧ s.toList ∈ spellings commaList := by
  have pieces := splitOn_separator ',' commaList.toList
  rw [String.ofList_toList] at pieces
  have comma : (String.ofList [',']) = "," := rfl
  rw [comma] at pieces
  rw [parseProberIPs, pieces, List.map_map, List.mem_filter, decide_eq_true_iff, and_comm, spellings]
  apply and_congr_right
  intro _
  simp only [List.mem_map, Function.comp_apply, trimSpace, String.toList_ofList]
  apply exists_congr
  intro piece
  rw [← String.toList_inj, String.toList_ofList]

theorem comma_not_space : Zones.isSpace ',' = false := by decide

theorem mem_intercalate_proberIPs {s : String} {words : List String} (solid : ∀ word ∈ words,
    word ≠ "" ∧ ',' ∉ word.toList ∧ trim Zones.isSpace word.toList = word.toList) :
    s ∈ parseProberIPs (",".intercalate words) ↔ s ∈ words := by
  rw [mem_parseProberIPs]
  by_cases nothing : words = []
  · subst nothing
    have none : spellings (",".intercalate []) = [[]] := by decide
    rw [none, List.mem_singleton, String.toList_eq_nil_iff]
    simp
  · have cut : spellings (",".intercalate words) = words.map String.toList := by
      have whole : ∀ word ∈ words.map String.toList, ',' ∉ word := by
        rw [List.forall_mem_map]
        exact fun word listed => (solid word listed).2.1
      have pieces := List.splitOn_intercalate ',' whole (by simpa using nothing)
      rw [spellings, String.toList_intercalate]
      show (([','].intercalate (words.map String.toList)).splitOn ',').map _ = _
      rw [pieces, List.map_map]
      exact List.map_congr_left fun word listed => (solid word listed).2.2
    rw [cut, List.mem_map]
    constructor
    · rintro ⟨-, word, listed, same⟩
      exact String.toList_inj.mp same ▸ listed
    · exact fun listed => ⟨(solid s listed).1, s, listed, rfl⟩

theorem mem_proberIPs {configured : List String} {value : Option String} {s : String} (nonempty : s ≠ "") :
    s ∈ proberIPs configured value ↔ s.toList ∈ spellings (listText configured value) := by
  have parsed : s ∈ parseProberIPs (trimmedEnv value) ↔ s ≠ "" ∧ s.toList ∈ spellings (trimmedEnv value) :=
    mem_parseProberIPs
  by_cases set : trimmedEnv value ≠ ""
  · have load : loadProberIPs configured value = parseProberIPs (trimmedEnv value) := if_pos set
    have solid : ∀ word ∈ parseProberIPs (trimmedEnv value),
        word ≠ "" ∧ ',' ∉ word.toList ∧ trim Zones.isSpace word.toList = word.toList := by
      intro word listed
      obtain ⟨present, spelled⟩ := mem_parseProberIPs.mp listed
      obtain ⟨piece, cut, same⟩ := List.mem_map.mp spelled
      rw [← same]
      exact ⟨present, fun comma => not_mem_of_mem_splitOn cut (mem_of_mem_trim comma), trim_trim _ _⟩
    have same : spellings (trimmedEnv value) = spellings (value.getD "") := by
      rw [trimmedEnv, trimSpace, spellings, String.toList_ofList]
      exact map_trim_splitOn_trim comma_not_space _
    rw [proberIPs, load, mem_intercalate_proberIPs solid, parsed, same, listText, if_pos set]
    exact and_iff_right nonempty
  · have load : loadProberIPs configured value = configured := if_neg set
    rw [proberIPs, load, mem_parseProberIPs, listText, if_neg set]
    exact and_iff_right nonempty

/-! ## Every frame -/

theorem process_eq_treat (env : Environment) (p : ResponseProcessor) (now : GoTime) (files : ZoneFiles)
    {msg : DnstapMessage} {ip : List UInt8} (address : msg.queryAddress = some ip) :
    p.process env now files msg = p.treat (decide (ipString ip ∈ env.probers)) env now files msg := by
  rw [ResponseProcessor.process_eq, ResponseProcessor.treat]
  cases read : response env.unpack msg with
  | none => rfl
  | some r =>
      have prober : r.isProber env = msg.queryAddress.any fun ip => ipString ip ∈ env.probers := isProber_response read
      rw [address, Option.any_some] at prober
      simp only [Option.elim_some, prober]

theorem ipString_ne_empty {ip : List UInt8} (length : ip.length = 4 ∨ ip.length = 16) : ipString ip ≠ "" := by
  intro empty
  have read := parseIP_ipString length
  rw [empty] at read
  contradiction

/-- A frame by which the two treatments are told apart. -/
def deciding (a : List UInt8) : DnstapMessage := ⟨.clientResponse, some a, [0], 0, 0, 0, 0⟩

def answering (probers : List String) : Environment :=
  ⟨"edge", probers, true, fun _ => false, [], [], fun _ => some ⟨[⟨"q", 1⟩], GoInt.zero⟩, Char.toLower⟩

theorem treat_injective {probers : List String} {a : List UInt8} {mets : Metrics} {now : GoTime} {files : ZoneFiles}
    {prober other : Bool} (same : (start mets).treat prober (answering probers) now files (deciding a) =
      (start mets).treat other (answering probers) now files (deciding a)) : prober = other := by
  have returned := congrArg (fun p => p.returned.length) same
  cases prober <;> cases other <;> simp_all [ResponseProcessor.treat, answering, deciding, response, start]

theorem lists_iff (text : String) (a : List UInt8) :
    lists text a = true ↔ ∃ spelling ∈ spellings text, parseIP spelling = some a := by
  simp [lists]

theorem printed_of_byValue {configured : List String} {value : Option String} (byValue : ByValue configured value) :
    Printed (listText configured value) := by
  intro spelling listed a read
  have sixteen := length_parseIP read
  have nonempty := ipString_ne_empty (Or.inr sixteen)
  have known : lists (listText configured value) a = true := (lists_iff _ _).mpr ⟨spelling, listed, read⟩
  have whole : to16 a = a := if_neg (by omega)
  have address : (deciding a).queryAddress = some a := rfl
  have treated := process_eq_treat (answering (proberIPs configured value)) (start ⟨[], [], 0, 0, 0, 0, 0⟩) 0
    ⟨none, none⟩ address
  have frame := byValue (answering (proberIPs configured value)) rfl (start ⟨[], [], 0, 0, 0, 0, 0⟩) 0 ⟨none, none⟩
    (deciding a) a address (Or.inr sixteen)
  have prober := treat_injective (treated.symm.trans frame)
  rw [whole, known] at prober
  exact (mem_proberIPs nonempty).mp (of_decide_eq_true prober)

theorem byValue_of_printed {configured : List String} {value : Option String}
    (printed : Printed (listText configured value)) : ByValue configured value := by
  intro env probers p now files msg ip address length
  have same : decide (ipString ip ∈ proberIPs configured value) =
      lists (listText configured value) (to16 ip) := by
    rw [Bool.eq_iff_iff, decide_eq_true_iff, mem_proberIPs (ipString_ne_empty length), lists_iff]
    constructor
    · exact fun spelled => ⟨_, spelled, parseIP_ipString length⟩
    · rintro ⟨spelling, listed, read⟩
      rw [← ipString_to16]
      exact printed spelling listed _ read
  rw [process_eq_treat env p now files address, probers, same]

/-- Frames are classified by value exactly when every address in the list is there as it is printed. -/
theorem byValue_iff_printed (configured : List String) (value : Option String) :
    ByValue configured value ↔ Printed (listText configured value) :=
  ⟨printed_of_byValue, byValue_of_printed⟩

/-! ## A spelling in capitals -/

theorem capitals_unlisted :
    lists (listText ["172.30.0.30"] (some " 2001:DB8::1")) [32, 1, 13, 184, 0, 0, 0, 0, 0, 0, 0, 0, 0, 0, 0, 1] = true ∧
      ipString [32, 1, 13, 184, 0, 0, 0, 0, 0, 0, 0, 0, 0, 0, 0, 1] ∉ proberIPs ["172.30.0.30"] (some " 2001:DB8::1") ∧
      ¬ ByValue ["172.30.0.30"] (some " 2001:DB8::1") := by
  have listed : "2001:DB8::1".toList ∈ spellings (listText ["172.30.0.30"] (some " 2001:DB8::1")) := by decide +kernel
  have read : parseIP "2001:DB8::1".toList = some [32, 1, 13, 184, 0, 0, 0, 0, 0, 0, 0, 0, 0, 0, 0, 1] := by
    decide +kernel
  have other : (ipString [32, 1, 13, 184, 0, 0, 0, 0, 0, 0, 0, 0, 0, 0, 0, 1]).toList ∉
      spellings (listText ["172.30.0.30"] (some " 2001:DB8::1")) := by decide +kernel
  refine ⟨(lists_iff _ _).mpr ⟨_, listed, read⟩, fun found => ?_, fun byValue => ?_⟩
  · exact other ((mem_proberIPs (ipString_ne_empty (Or.inr rfl))).mp found)
  · exact other (printed_of_byValue byValue _ listed _ read)

end PowerBlockade.Processor
