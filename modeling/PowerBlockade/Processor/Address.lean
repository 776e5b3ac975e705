import PowerBlockade.Lib.Decimal
import PowerBlockade.Lib.Lists
import PowerBlockade.Processor.Dnstap

/-!
# The text of an address

The characters that `net.IP.String` writes.
-/

namespace PowerBlockade.Processor
open Lib

@[simp] theorem toList_hexGroup (g : Nat) : (hexGroup g).toList = Nat.toDigits 16 g :=
  String.toList_ofList

theorem toList_dotted (ip : List UInt8) :
    (dotted ip).toList = ['.'].intercalate (ip.map fun b => Nat.toDigits 10 b.toNat) := by
  rw [dotted, String.toList_intercalate, List.map_map]
  congr 1
  apply List.map_congr_left
  intro b _
  rw [Function.comp_apply, Nat.toString_eq_ofList_toDigits, String.toList_ofList]

theorem toList_groups (gs : List Nat) :
    (":".intercalate (gs.map hexGroup)).toList = [':'].intercalate (gs.map (Nat.toDigits 16)) := by
  rw [String.toList_intercalate, List.map_map]
  congr 1
  exact List.map_congr_left fun g _ => toList_hexGroup g

/-! ## What occurs in it -/

/-- A digit or a lower-case letter of sixteen, or one of the marks between and around them. -/
def AddressChar (c : Char) : Prop :=
  (∃ d < 16, c = Nat.digitChar d) ∨ c ∈ ['.', ':', '<', 'n', 'i', 'l', '>', '?']

theorem addressChar_of_mem_toDigits {b n : Nat} (base : 1 < b) (bound : b ≤ 16) {c : Char}
    (member : c ∈ Nat.toDigits b n) : AddressChar c := by
  obtain ⟨d, small, rfl⟩ := mem_toDigits base member
  exact Or.inl ⟨d, by omega, rfl⟩

theorem addressChar_dotted (ip : List UInt8) : ∀ c ∈ (dotted ip).toList, AddressChar c := by
  rw [toList_dotted]
  apply forall_mem_intercalate
  · intro c member
    obtain rfl := List.mem_singleton.mp member
    exact Or.inr (by decide)
  · intro word listed c member
    obtain ⟨b, -, rfl⟩ := List.mem_map.mp listed
    exact addressChar_of_mem_toDigits (by decide) (by decide) member

theorem addressChar_groups (gs : List Nat) :
    ∀ c ∈ (":".intercalate (gs.map hexGroup)).toList, AddressChar c := by
  rw [toList_groups]
  apply forall_mem_intercalate
  · intro c member
    obtain rfl := List.mem_singleton.mp member
    exact Or.inr (by decide)
  · intro word listed c member
    obtain ⟨g, -, rfl⟩ := List.mem_map.mp listed
    exact addressChar_of_mem_toDigits (by decide) (by decide) member

theorem addressChar_ipv6 (gs : List Nat) : ∀ c ∈ (ipv6 gs).toList, AddressChar c := by
  unfold ipv6
  split
  · exact addressChar_groups gs
  · intro c member
    simp only [String.toList_append, List.mem_append] at member
    rcases member with (left | gap) | right
    · exact addressChar_groups _ c left
    · obtain rfl : c = ':' := by simpa using gap
      exact Or.inr (by decide)
    · exact addressChar_groups _ c right

theorem addressChar_hexByte (b : UInt8) : ∀ c ∈ hexByte b, AddressChar c := by
  have fits := b.toNat_lt
  intro c member
  rcases List.mem_cons.mp member with rfl | low
  · exact Or.inl ⟨b.toNat / 16, by omega, rfl⟩
  · exact Or.inl ⟨b.toNat % 16, by omega, List.mem_singleton.mp low⟩

theorem addressChar_ipString (ip : List UInt8) : ∀ c ∈ (ipString ip).toList, AddressChar c := by
  unfold ipString
  split_ifs
  · intro c member
    have listed : c ∈ ['<', 'n', 'i', 'l', '>'] := member
    exact Or.inr (by simp at listed ⊢; tauto)
  · exact addressChar_dotted ip
  · exact addressChar_dotted _
  · exact addressChar_ipv6 _
  · intro c member
    rw [String.toList_append, List.mem_append] at member
    rcases member with mark | digits
    · obtain rfl : c = '?' := by simpa using mark
      exact Or.inr (by decide)
    · rw [String.toList_ofList] at digits
      obtain ⟨b, -, inside⟩ := List.mem_flatMap.mp digits
      exact addressChar_hexByte b c inside

theorem bar_not_mem_ipString (ip : List UInt8) : '|' ∉ (ipString ip).toList := by
  intro member
  have none : ∀ d < 16, '|' ≠ Nat.digitChar d := by decide
  rcases addressChar_ipString ip _ member with ⟨d, small, same⟩ | mark
  · exact none d small same
  · exact absurd mark (by decide)

end PowerBlockade.Processor
