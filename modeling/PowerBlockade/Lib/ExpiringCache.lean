import Mathlib.Algebra.Order.Group.Defs
import Mathlib.Logic.Function.Basic

/-!
# A cache whose entries expire

An entry is the instant from which it no longer serves. It stays until it is replaced, which only a
miss does.
-/

namespace PowerBlockade.Lib

abbrev ExpiringCache (κ τ : Type*) := κ → Option τ

namespace ExpiringCache

variable {κ τ : Type*} [DecidableEq κ] [AddCommGroup τ] [LinearOrder τ]

def fresh (cache : ExpiringCache κ τ) (k : κ) (now : τ) : Bool := (cache k).any (now < ·)

/-- A lookup that on a miss fetches an answer for `life`. -/
def ask (cache : ExpiringCache κ τ) (k : κ) (now life : τ) : ExpiringCache κ τ :=
  if cache.fresh k now then cache else Function.update cache k (some (now + life))

/-- The entry serves at least until just before `until'`. -/
def Reaches (cache : ExpiringCache κ τ) (k : κ) (until' : τ) : Prop :=
  ∃ expiry, cache k = some expiry ∧ until' ≤ expiry

variable {cache : ExpiringCache κ τ} {k other : κ} {now life until' : τ}

omit [DecidableEq κ] [AddCommGroup τ] in
theorem fresh_iff : cache.fresh k now = true ↔ ∃ expiry, cache k = some expiry ∧ now < expiry := by
  cases found : cache k <;> simp [fresh, found]

theorem ask_of_fresh (hit : cache.fresh k now = true) : cache.ask k now life = cache := if_pos hit

theorem ask_of_not_fresh (miss : cache.fresh k now = false) :
    cache.ask k now life = Function.update cache k (some (now + life)) := by simp [ask, miss]

theorem ask_other (different : other ≠ k) : cache.ask k now life other = cache other := by
  unfold ask
  split
  · rfl
  · exact Function.update_of_ne different _ _

omit [DecidableEq κ] [AddCommGroup τ] in
theorem Reaches.fresh (reaches : cache.Reaches k until') (before : now < until') :
    cache.fresh k now = true := by
  obtain ⟨expiry, found, le⟩ := reaches
  exact fresh_iff.mpr ⟨expiry, found, before.trans_le le⟩

omit [DecidableEq κ] [AddCommGroup τ] in
theorem Reaches.mono {sooner : τ} (reaches : cache.Reaches k until') (le : sooner ≤ until') :
    cache.Reaches k sooner := by
  obtain ⟨expiry, found, covered⟩ := reaches
  exact ⟨expiry, found, le.trans covered⟩

/-- An answer covers no more than what is left of the entry it came from, or of the one it made. -/
theorem reaches_ask (aged : ∀ expiry, cache k = some expiry → now < expiry → now + life ≤ expiry) :
    (cache.ask k now life).Reaches k (now + life) := by
  cases hit : cache.fresh k now with
  | true =>
      obtain ⟨expiry, found, before⟩ := fresh_iff.mp hit
      exact ⟨expiry, by rw [ask_of_fresh hit, found], aged expiry found before⟩
  | false => exact ⟨now + life, by rw [ask_of_not_fresh hit, Function.update_self], le_rfl⟩

/-- No lookup of any key shortens an entry. -/
theorem Reaches.ask [IsOrderedAddMonoid τ] (reaches : cache.Reaches k until') (nonneg : 0 ≤ life) :
    (cache.ask other now life).Reaches k until' := by
  obtain ⟨expiry, found, le⟩ := reaches
  by_cases same : k = other
  · subst same
    cases hit : cache.fresh k now with
    | true => exact ⟨expiry, by rw [ask_of_fresh hit, found], le⟩
    | false =>
        have expired : expiry ≤ now := by
          simpa [ExpiringCache.fresh, found] using hit
        refine ⟨now + life, by rw [ask_of_not_fresh hit, Function.update_self], ?_⟩
        calc until' ≤ expiry := le
          _ ≤ now := expired
          _ ≤ now + life := le_add_of_nonneg_right nonneg
  · exact ⟨expiry, by rw [ask_other same, found], le⟩

end ExpiringCache

end PowerBlockade.Lib
