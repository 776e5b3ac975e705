import Mathlib.Init

/-!
# Steps that may raise

`EStateM` keeps what was done before an exception; `except` and `finally` by their results.
-/

namespace PowerBlockade.Lib

variable {ε σ α β : Type} {x : EStateM ε σ α} {s s' s'' : σ} {a : α} {e e' : ε}

def stateAfter : EStateM.Result ε σ α → σ
  | .ok _ s => s
  | .error _ s => s

def returns : EStateM.Result ε σ α → Bool
  | .ok _ _ => true
  | .error _ _ => false

theorem run_tryFinally_ok {final : EStateM ε σ β} (body : x.run s = .ok a s') :
    (tryFinally x final).run s = match final.run s' with
      | .ok _ s'' => .ok a s''
      | .error e s'' => .error e s'' := by
  simp only [EStateM.run] at body ⊢
  simp only [tryFinally, tryFinally', Functor.map, EStateM.map, body]
  cases final s' <;> rfl

theorem run_tryFinally_error {final : EStateM ε σ β} (body : x.run s = .error e s') :
    (tryFinally x final).run s = match final.run s' with
      | .ok _ s'' => .error e s''
      | .error e' s'' => .error e' s'' := by
  simp only [EStateM.run] at body ⊢
  simp only [tryFinally, tryFinally', Functor.map, EStateM.map, body]
  cases final s' <;> rfl

theorem run_tryCatch (x : EStateM ε σ α) (handler : ε → EStateM ε σ α) (s : σ) :
    (tryCatch x handler).run s = match x.run s with
      | .ok a s' => .ok a s'
      | .error e s' => (handler e).run s' := by
  show EStateM.tryCatch x handler s = _
  delta EStateM.tryCatch EStateM.run
  cases x s with
  | ok a s' => rfl
  | error e s' => rfl

theorem run_tryCatch_ok {handler : ε → EStateM ε σ α} (body : x.run s = .ok a s') :
    (tryCatch x handler).run s = .ok a s' := by rw [run_tryCatch, body]

theorem run_tryCatch_error {handler : ε → EStateM ε σ α} (body : x.run s = .error e s') :
    (tryCatch x handler).run s = (handler e).run s' := by rw [run_tryCatch, body]

theorem run_bind_ok {f : α → EStateM ε σ β} (first : x.run s = .ok a s') :
    (x >>= f).run s = (f a).run s' := by rw [EStateM.run_bind, first]

theorem run_bind_error {f : α → EStateM ε σ β} (first : x.run s = .error e s') :
    (x >>= f).run s = .error e s' := by rw [EStateM.run_bind, first]

theorem run_map_ok {f : α → β} (body : x.run s = .ok a s') : (f <$> x).run s = .ok (f a) s' := by
  rw [map_eq_pure_bind, run_bind_ok body, EStateM.run_pure]

theorem run_map_error {f : α → β} (body : x.run s = .error e s') : (f <$> x).run s = .error e s' := by
  rw [map_eq_pure_bind, run_bind_error body]

end PowerBlockade.Lib
