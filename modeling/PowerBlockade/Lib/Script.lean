import PowerBlockade.Lib.Raising

/-!
# Scripts that a failing command ends

A script under `set -e` is an `EStateM` whose exception is its exit status. `Keeps view x`: however
`x` ends, what `view` sees is as it was.
-/

namespace PowerBlockade.Lib

variable {ε σ τ α β : Type}

/-- The script goes on where the command before it has succeeded. -/
def orExit (succeeded : Bool) : EStateM Nat σ Unit := if succeeded then pure () else throw 1

theorem run_orExit_eq_ok {succeeded : Bool} {s s' : σ} {u : Unit} :
    (orExit succeeded).run s = .ok u s' ↔ succeeded = true ∧ s' = s := by
  cases succeeded with
  | true =>
      rw [orExit, if_pos rfl, EStateM.run_pure]
      simp [eq_comm]
  | false => simp [orExit]

theorem run_bind_eq_ok {x : EStateM ε σ α} {f : α → EStateM ε σ β} {s s'' : σ} {b : β} :
    (x >>= f).run s = .ok b s'' ↔ ∃ a s', x.run s = .ok a s' ∧ (f a).run s' = .ok b s'' := by
  rw [EStateM.run_bind]
  cases x.run s with
  | ok a s' =>
      constructor
      · exact fun done => ⟨a, s', rfl, done⟩
      · rintro ⟨_, _, ⟨⟩, done⟩
        exact done
  | error e s' => simp

def Keeps (view : σ → τ) (x : EStateM ε σ α) : Prop := ∀ s, view (stateAfter (x.run s)) = view s

variable {view : σ → τ}

theorem Keeps.of_ok {x : EStateM ε σ α} (keeps : Keeps view x) {s s' : σ} {a : α} (done : x.run s = .ok a s') :
    view s' = view s := by
  have same := keeps s
  rwa [done] at same

theorem keeps_pure (a : α) : Keeps view (pure a : EStateM ε σ α) := fun _ => rfl

theorem keeps_throw (e : ε) : Keeps view (throw e : EStateM ε σ α) := fun _ => rfl

theorem keeps_get : Keeps view (get : EStateM ε σ σ) := fun _ => rfl

theorem keeps_modify {change : σ → σ} (same : ∀ s, view (change s) = view s) :
    Keeps view (modify change : EStateM ε σ Unit) := same

theorem Keeps.bind {x : EStateM ε σ α} {f : α → EStateM ε σ β} (first : Keeps view x)
    (next : ∀ a, Keeps view (f a)) : Keeps view (x >>= f) := by
  intro s
  rw [EStateM.run_bind]
  have same := first s
  cases ran : x.run s with
  | ok a s' =>
      rw [ran] at same
      exact (next a s').trans same
  | error e s' =>
      rw [ran] at same
      exact same

theorem keeps_orExit (succeeded : Bool) : Keeps view (orExit succeeded) := by
  cases succeeded with
  | true => exact keeps_pure ()
  | false => exact keeps_throw 1

/-- Where `x` raises, what `view` sees is as it was. -/
def KeepsOnExit (view : σ → τ) (x : EStateM ε σ α) : Prop :=
  ∀ s e s', x.run s = .error e s' → view s' = view s

theorem Keeps.onExit {x : EStateM ε σ α} (keeps : Keeps view x) : KeepsOnExit view x := by
  intro s e s' ran
  have same := keeps s
  rwa [ran] at same

theorem keepsOnExit_pure (a : α) : KeepsOnExit view (pure a : EStateM ε σ α) := nofun

theorem keepsOnExit_modify (change : σ → σ) : KeepsOnExit view (modify change : EStateM ε σ Unit) := nofun

theorem KeepsOnExit.bind {x : EStateM ε σ α} {f : α → EStateM ε σ β} (first : Keeps view x)
    (next : ∀ a, KeepsOnExit view (f a)) : KeepsOnExit view (x >>= f) := by
  intro s e s'' ran
  have same := first s
  rw [EStateM.run_bind] at ran
  cases ranFirst : x.run s with
  | ok a s' =>
      rw [ranFirst] at same ran
      exact (next a s' e s'' ran).trans same
  | error e' s' =>
      rw [ranFirst] at same ran
      cases ran
      exact same

end PowerBlockade.Lib
