import Mathlib.Tactic.Ring

/-!
# The proleptic Gregorian calendar

Days are counted from 0001-01-01, which is day 0. The conversion to a date goes through the cycles
of 400, 100, 4 and 1 years.
-/

namespace PowerBlockade.Lib

structure Date where
  year : Int
  month : Nat
  day : Nat
deriving DecidableEq, Repr

namespace Date

def isLeap (year : Int) : Bool :=
  year % 4 = 0 ∧ (year % 100 ≠ 0 ∨ year % 400 = 0)

def daysBeforeYear (year : Int) : Int :=
  (year - 1) * 365 + (year - 1) / 4 - (year - 1) / 100 + (year - 1) / 400

def daysInMonth (leap : Bool) : Nat → Nat
  | 2 => if leap then 29 else 28
  | 4 | 6 | 9 | 11 => 30
  | _ => 31

def daysBeforeMonth (leap : Bool) : Nat → Nat
  | 0 | 1 => 0
  | month + 1 => daysBeforeMonth leap month + daysInMonth leap month

def Valid (date : Date) : Prop :=
  1 ≤ date.month ∧ date.month ≤ 12 ∧
    1 ≤ date.day ∧ date.day ≤ daysInMonth (isLeap date.year) date.month

instance (date : Date) : Decidable date.Valid := by
  unfold Valid
  infer_instance

/-- Days since 0001-01-01. -/
def toDays (date : Date) : Int :=
  daysBeforeYear date.year + daysBeforeMonth (isLeap date.year) date.month + date.day - 1

/-- The month of a day of the year, searched downwards from `month`. -/
def monthOfDay (leap : Bool) (day : Nat) : Nat → Nat
  | 0 => 1
  | month + 1 => if daysBeforeMonth leap (month + 1) ≤ day then month + 1 else monthOfDay leap day month

def ofYearDay (year : Int) (day : Nat) : Date :=
  let leap := isLeap year
  let month := monthOfDay leap day 12
  ⟨year, month, day - daysBeforeMonth leap month + 1⟩

def yearDay (days : Int) : Int × Nat :=
  let in400 := days % 146097
  let in100 := in400 % 36524
  let in4 := in100 % 1461
  let year := days / 146097 * 400 + in400 / 36524 * 100 + in100 / 1461 * 4 + in4 / 365 + 1
  -- the last day of a leap cycle falls out of the division by whole years
  if in4 / 365 = 4 ∨ in400 / 36524 = 4 then (year - 1, 365) else (year, (in4 % 365).toNat)

def ofDays (days : Int) : Date :=
  ofYearDay (yearDay days).1 (yearDay days).2

theorem daysInMonth_le (leap : Bool) (month : Nat) : daysInMonth leap month ≤ 31 := by
  unfold daysInMonth
  split
  · split <;> omega
  all_goals omega

theorem daysBeforeMonth_succ (leap : Bool) {month : Nat} (positive : 1 ≤ month) :
    daysBeforeMonth leap (month + 1) = daysBeforeMonth leap month + daysInMonth leap month := by
  obtain ⟨m, rfl⟩ := Nat.exists_eq_succ_of_ne_zero (Nat.one_le_iff_ne_zero.1 positive)
  rfl

theorem monthOfDay_spec (leap : Bool) (day month : Nat) (positive : 1 ≤ month)
    (inside : day < daysBeforeMonth leap (month + 1)) :
    1 ≤ monthOfDay leap day month ∧ monthOfDay leap day month ≤ month ∧
      daysBeforeMonth leap (monthOfDay leap day month) ≤ day ∧
      day < daysBeforeMonth leap (monthOfDay leap day month + 1) := by
  induction month with
  | zero => omega
  | succ month ih =>
      unfold monthOfDay
      split
      · rename_i found
        exact ⟨positive, le_rfl, found, inside⟩
      · rename_i later
        have before : day < daysBeforeMonth leap (month + 1) := not_le.1 later
        have positive' : 1 ≤ month := by
          rcases Nat.eq_zero_or_pos month with rfl | h
          · simp [daysBeforeMonth] at before
          · exact h
        obtain ⟨low, high, start, stop⟩ := ih positive' before
        exact ⟨low, by omega, start, stop⟩

theorem ofYearDay_valid (year : Int) (day : Nat) (bound : day < if isLeap year then 366 else 365) :
    (ofYearDay year day).Valid ∧
      daysBeforeMonth (isLeap year) (ofYearDay year day).month + (ofYearDay year day).day = day + 1 := by
  have inside : day < daysBeforeMonth (isLeap year) 13 := by
    refine bound.trans_le (le_of_eq ?_)
    cases isLeap year <;> rfl
  obtain ⟨low, high, start, stop⟩ := monthOfDay_spec (isLeap year) day 12 (by omega) inside
  rw [daysBeforeMonth_succ _ low] at stop
  refine ⟨⟨low, high, ?_, ?_⟩, ?_⟩ <;> simp only [ofYearDay] <;> omega

theorem daysBeforeYear_cycles (q c f o : Int) (hc : 0 ≤ c ∧ c ≤ 3) (hf : 0 ≤ f ∧ f ≤ 24)
    (ho : 0 ≤ o ∧ o ≤ 3) :
    daysBeforeYear (q * 400 + c * 100 + f * 4 + o + 1) =
      q * 146097 + c * 36524 + f * 1461 + o * 365 := by
  have fours : (q * 400 + c * 100 + f * 4 + o + 1 - 1) / 4 = q * 100 + c * 25 + f := by omega
  have hundreds : (q * 400 + c * 100 + f * 4 + o + 1 - 1) / 100 = q * 4 + c := by omega
  have cycles : (q * 400 + c * 100 + f * 4 + o + 1 - 1) / 400 = q := by omega
  unfold daysBeforeYear
  rw [fours, hundreds, cycles]
  ring

theorem isLeap_cycles (q c f o : Int) (hc : 0 ≤ c ∧ c ≤ 3) (hf : 0 ≤ f ∧ f ≤ 24)
    (ho : 0 ≤ o ∧ o ≤ 3) :
    isLeap (q * 400 + c * 100 + f * 4 + o + 1) = true ↔ o = 3 ∧ (f ≠ 24 ∨ c = 3) := by
  simp only [isLeap, decide_eq_true_eq]
  omega

theorem yearDay_spec (days : Int) :
    daysBeforeYear (yearDay days).1 + (yearDay days).2 = days ∧
      (yearDay days).2 < if isLeap (yearDay days).1 then 366 else 365 := by
  obtain ⟨q, c, f, o, r, hq, hc, hf, ho, hr⟩ : ∃ q c f o r : Int, days / 146097 = q ∧
      days % 146097 / 36524 = c ∧ days % 146097 % 36524 / 1461 = f ∧
      days % 146097 % 36524 % 1461 / 365 = o ∧ days % 146097 % 36524 % 1461 % 365 = r :=
    ⟨_, _, _, _, _, rfl, rfl, rfl, rfl, rfl⟩
  have whole : days = q * 146097 + c * 36524 + f * 1461 + o * 365 + r := by omega
  have bf : 0 ≤ f ∧ f ≤ 24 := by omega
  -- the cycles of 400 and of 4 years end with an extra day, every other one does not
  have lastDay : (c = 4 → f = 0 ∧ o = 0 ∧ r = 0) ∧ (o = 4 → r = 0 ∧ (f = 24 → c = 3)) := by omega
  simp only [yearDay, hq, hc, hf, ho, hr]
  split
  · rename_i last
    dsimp only
    rcases last with rfl | rfl
    · have bc : 0 ≤ c ∧ c ≤ 3 := by omega
      have year : q * 400 + c * 100 + f * 4 + 4 + 1 - 1 = q * 400 + c * 100 + f * 4 + 3 + 1 := by ring
      have leap := (isLeap_cycles q c f 3 bc bf (by omega)).2 (by omega)
      rw [year, daysBeforeYear_cycles q c f 3 bc bf (by omega), if_pos leap]
      omega
    · have year : q * 400 + 4 * 100 + f * 4 + o + 1 - 1 = q * 400 + 3 * 100 + 24 * 4 + 3 + 1 := by omega
      have leap := (isLeap_cycles q 3 24 3 (by omega) (by omega) (by omega)).2 (by omega)
      rw [year, daysBeforeYear_cycles q 3 24 3 (by omega) (by omega) (by omega), if_pos leap]
      omega
  · have bc : 0 ≤ c ∧ c ≤ 3 := by omega
    have bo : 0 ≤ o ∧ o ≤ 3 := by omega
    dsimp only
    rw [daysBeforeYear_cycles q c f o bc bf bo]
    constructor
    · omega
    · split <;> omega

theorem ofDays_valid (days : Int) : (ofDays days).Valid :=
  (ofYearDay_valid _ _ (yearDay_spec days).2).1

@[simp] theorem toDays_ofDays (days : Int) : (ofDays days).toDays = days := by
  have year := (yearDay_spec days).1
  have month := (ofYearDay_valid _ _ (yearDay_spec days).2).2
  have same : (ofDays days).year = (yearDay days).1 := rfl
  rw [toDays, same]
  simp only [ofDays] at month ⊢
  omega

theorem ofDays_year (days : Int) :
    (1 ≤ (ofDays days).year ∧ (ofDays days).year ≤ 9999) ↔ 0 ≤ days ∧ days < 3652059 := by
  obtain ⟨year, bound⟩ := yearDay_spec days
  have same : (ofDays days).year = (yearDay days).1 := rfl
  rw [same]
  have small : (yearDay days).2 < 366 := by split at bound <;> omega
  unfold daysBeforeYear at year
  constructor
  · intro range
    constructor
    · omega
    · by_cases final : (yearDay days).1 = 9999
      · have common : isLeap 9999 = false := by decide
        rw [final, common] at bound
        simp only [Bool.false_eq_true, ↓reduceIte] at bound
        omega
      · omega
  · intro range
    have negative : (yearDay days).1 ≤ 0 →
        ((yearDay days).1 - 1) / 4 ≤ ((yearDay days).1 - 1) / 100 := by omega
    omega

end Date

end PowerBlockade.Lib
