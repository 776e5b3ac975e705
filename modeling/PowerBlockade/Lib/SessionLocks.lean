import Mathlib.Data.List.Basic

/-!
# Locks that belong to a session

A number is held by one session at a time; the session that holds it may take it again, and must
give it back as often. What a session holds goes with it.
-/

namespace PowerBlockade.Lib.SessionLocks

variable {Session Number : Type*} [DecidableEq Session] [DecidableEq Number]

def grantable (held : List (Session × Number)) (s : Session) (n : Number) : Bool :=
  held.all fun h => h.2 ≠ n ∨ h.1 = s

def unlock (held : List (Session × Number)) (s : Session) (n : Number) : List (Session × Number) :=
  held.erase (s, n)

def endSession (held : List (Session × Number)) (s : Session) : List (Session × Number) :=
  held.filter (·.1 ≠ s)

def Exclusive (held : List (Session × Number)) : Prop :=
  ∀ s t n, (s, n) ∈ held → (t, n) ∈ held → s = t

variable {held : List (Session × Number)} {s : Session} {n : Number}

omit [DecidableEq Session] [DecidableEq Number] in
theorem Exclusive.mono {fewer : List (Session × Number)} (exclusive : Exclusive held)
    (subset : fewer ⊆ held) : Exclusive fewer :=
  fun s t n left right => exclusive s t n (subset left) (subset right)

theorem Exclusive.lock (exclusive : Exclusive held) (grant : grantable held s n = true) :
    Exclusive ((s, n) :: held) := by
  have free : ∀ t, (t, n) ∈ held → t = s := by
    intro t other
    have either := of_decide_eq_true (List.all_eq_true.mp grant _ other)
    exact either.resolve_left (· rfl)
  intro t u m left right
  cases List.mem_cons.mp left with
  | inl first =>
      cases first
      cases List.mem_cons.mp right with
      | inl second => cases second; rfl
      | inr second => exact (free u second).symm
  | inr first =>
      cases List.mem_cons.mp right with
      | inl second => cases second; exact free t first
      | inr second => exact exclusive t u m first second

theorem Exclusive.unlock (exclusive : Exclusive held) : Exclusive (unlock held s n) :=
  exclusive.mono List.erase_subset

omit [DecidableEq Number] in
theorem Exclusive.endSession (exclusive : Exclusive held) : Exclusive (endSession held s) :=
  exclusive.mono (List.filter_subset_self _)

theorem mem_unlock {t : Session} {m : Number} (other : t ≠ s) (kept : (t, m) ∈ held) :
    (t, m) ∈ unlock held s n :=
  (List.mem_erase_of_ne fun same => other (congrArg Prod.fst same)).mpr kept

omit [DecidableEq Number] in
theorem mem_endSession {t : Session} {m : Number} (other : t ≠ s) (kept : (t, m) ∈ held) :
    (t, m) ∈ endSession held s :=
  List.mem_filter.mpr ⟨kept, decide_eq_true other⟩

end PowerBlockade.Lib.SessionLocks
