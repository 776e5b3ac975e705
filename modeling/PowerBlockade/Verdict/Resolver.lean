import PowerBlockade.Verdict.Settling
import PowerBlockade.Zones.Meaning

/-!
# The processor's verdict and the resolver's

`rpz.lua` loads the combined file before the whitelist, so a name that the combined file has a record
for is refused; the processor compares whole names.
-/

namespace PowerBlockade.Verdict
open Lib Blocking Zones

/-- `Policy.NXDOMAIN`, of the first of the two zones. -/
def Refuses (combined : Zone) (name : String) : Prop :=
  ∃ record ∈ combined.records, Matches record name.toList

/-- The processor marks exactly the names that the resolver refuses. -/
def Agree (combined whitelist : Publication) : Prop :=
  ∀ name : String, name ∈ combined.names ∧ name ∉ whitelist.names ↔ Refuses combined.zone name

theorem refuses_combined (sources : List (Source String)) (now : DateTime) (name : String) :
    Refuses (Publication.combined sources now).zone name ↔ name ∈ Source.effective sources ∨
      ∃ domain ∈ Source.effective sources, ∃ sub zone, sub ≠ [] ∧
        domain.toList = '*' :: '.' :: zone ∧ name.toList = sub ++ '.' :: zone := by
  have records : ∀ record, record ∈ (Publication.combined sources now).zone.records ↔
      ∃ domain ∈ Source.effective sources, record = ⟨domain, "."⟩ := by
    intro record
    simp [Publication.zone, compileZones, renderRpzZone, zoneRecords, Source.effective, eq_comm]
  simp only [Refuses, records, Matches]
  constructor
  · rintro ⟨_, ⟨domain, listed, rfl⟩, same | wildcard⟩
    · exact .inl (String.toList_inj.mp same ▸ listed)
    · exact .inr ⟨domain, listed, wildcard⟩
  · rintro (listed | ⟨domain, listed, wildcard⟩)
    · exact ⟨⟨name, "."⟩, ⟨name, listed, rfl⟩, .inl rfl⟩
    · exact ⟨⟨domain, "."⟩, ⟨domain, listed, rfl⟩, .inr wildcard⟩

/-- A wildcard refuses more names than a finite set can hold. -/
theorem exists_below (names : Finset String) (zone : List Char) :
    ∃ sub : List Char, sub ≠ [] ∧ String.ofList (sub ++ '.' :: zone) ∉ names := by
  let below (n : Nat) : String := String.ofList (List.replicate (n + 1) 'x' ++ '.' :: zone)
  have injective : Function.Injective below := by
    intro n m same
    have lengths := congrArg List.length (String.ofList_injective same)
    simpa using lengths
  obtain ⟨name, ⟨n, rfl⟩, other⟩ := (Set.infinite_range_of_injective injective).exists_notMem_finset names
  exact ⟨List.replicate (n + 1) 'x', by simp, other⟩

end PowerBlockade.Verdict
