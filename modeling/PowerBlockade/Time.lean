import Mathlib.Order.Lattice
import PowerBlockade.Lib.IsoText
import PowerBlockade.Python

/-!
# The clocks of the two programs

Python's `datetime` covers the years 1 to 9999 in microseconds and raises `OverflowError` outside
them; Go's `time.Time` counts nanoseconds without that bound. Both are counted from
0001-01-01T00:00:00 here.
-/

namespace PowerBlockade
open Lib

def secondMicros : Nat := 10 ^ 6
def minuteMicros : Nat := 60 * secondMicros
def hourMicros : Nat := 60 * minuteMicros
def dayMicros : Nat := 24 * hourMicros
def maxMicros : Nat := 3652059 * dayMicros

/-! ## Python's datetime -/

/-- `timedelta`, in microseconds; `none` is Python's `OverflowError` beyond 999999999 days. -/
def timedelta (micros : Int) : Option Int :=
  if -999999999 ≤ micros / dayMicros ∧ micros / dayMicros ≤ 999999999 then some micros else none

theorem timedelta_eq_some {micros delta : Int} (found : timedelta micros = some delta) :
    delta = micros := by
  unfold timedelta at found
  split at found
  · exact (Option.some.inj found).symm
  · contradiction

/-- A wall time of Python's `datetime`, in microseconds since 0001-01-01T00:00:00. -/
@[ext] structure DateTime where
  micros : Nat
  inRange : micros < maxMicros
deriving DecidableEq

namespace DateTime

theorem micros_injective : Function.Injective micros := fun _ _ => DateTime.ext

instance : LinearOrder DateTime := LinearOrder.lift' micros micros_injective

theorem le_iff {s t : DateTime} : s ≤ t ↔ s.micros ≤ t.micros := Iff.rfl

theorem lt_iff {s t : DateTime} : s < t ↔ s.micros < t.micros := Iff.rfl

def ofMicros? (micros : Int) : Option DateTime :=
  if inRange : 0 ≤ micros ∧ micros < maxMicros then some ⟨micros.toNat, by omega⟩ else none

@[simp] theorem ofMicros?_micros (t : DateTime) : ofMicros? t.micros = some t := by
  have := t.inRange
  rw [ofMicros?, dif_pos (by omega)]
  congr 1

theorem ofMicros?_eq_some {micros : Int} {t : DateTime} :
    ofMicros? micros = some t ↔ (t.micros : Int) = micros := by
  constructor
  · intro found
    unfold ofMicros? at found
    split at found
    · rw [← Option.some.inj found]
      dsimp only
      omega
    · contradiction
  · rintro rfl
    exact ofMicros?_micros t

/-- `datetime + timedelta`; `none` is Python's `OverflowError`. -/
def add (t : DateTime) (micros : Int) : Option DateTime := ofMicros? (t.micros + micros)

theorem add_eq_some {t u : DateTime} {micros : Int} :
    t.add micros = some u ↔ (u.micros : Int) = t.micros + micros := ofMicros?_eq_some

theorem before_eq_some {now t : DateTime} {micros : Int}
    (moved : (timedelta micros).bind (fun delta => now.add (-delta)) = some t) :
    (t.micros : Int) = now.micros - micros := by
  obtain ⟨delta, exact, moved⟩ := Option.bind_eq_some_iff.1 moved
  rw [add_eq_some.1 moved, timedelta_eq_some exact]
  rfl

def startOfHour (t : DateTime) : DateTime :=
  ⟨t.micros - t.micros % hourMicros, (Nat.sub_le _ _).trans_lt t.inRange⟩

def startOfDay (t : DateTime) : DateTime :=
  ⟨t.micros - t.micros % dayMicros, (Nat.sub_le _ _).trans_lt t.inRange⟩

def hour (t : DateTime) : Nat := t.micros % dayMicros / hourMicros

def minute (t : DateTime) : Nat := t.micros % hourMicros / minuteMicros

def weekday (t : DateTime) : Nat := t.micros / dayMicros % 7

end DateTime

instance weekMinutes_neZero : NeZero 10080 := ⟨by decide⟩

def minute (n : Fin 10080) : DateTime where
  micros := 738000 * dayMicros + n * minuteMicros
  inRange := by
    have := n.isLt
    simp only [maxMicros, dayMicros, hourMicros, minuteMicros, secondMicros]
    omega

/-- A `datetime` object: a wall time, and its offset from UTC in seconds when it is aware. -/
structure PyDateTime where
  wall : DateTime
  utcoffset : Option Int
deriving DecidableEq

namespace PyDateTime

def aware (t : DateTime) : PyDateTime := ⟨t, some 0⟩

def naive (t : DateTime) : PyDateTime := ⟨t, none⟩

/-- The instant of an aware time; a naive one is read as UTC. -/
def utcMicros (t : PyDateTime) : Int := t.wall.micros - t.utcoffset.getD 0 * secondMicros

/-- `a - b` in microseconds; `none` is the `TypeError` of mixing naive and aware times. -/
def sub (a b : PyDateTime) : Option Int :=
  if a.utcoffset.isSome = b.utcoffset.isSome then some (a.utcMicros - b.utcMicros) else none

def isoformat (t : DateTime) : String :=
  String.ofList (dateChars (Date.ofDays (t.micros / dayMicros)) ++ 'T' ::
    (clockChars (t.micros % dayMicros / secondMicros) ++
      ((if t.micros % secondMicros = 0 then [] else '.' :: padded 6 (t.micros % secondMicros)) ++
        ['+', '0', '0', ':', '0', '0'])))

/-- `datetime.fromisoformat` on the extended forms; `none` is its `ValueError`. -/
def fromisoformat (text : String) : Option PyDateTime := do
  let (date, rest) ← readDate text.toList
  match rest with
  | [] => return ⟨← DateTime.ofMicros? (date.toDays * dayMicros), none⟩
  | _ :: rest =>
      let (seconds, rest) ← readClock rest
      let (fraction, rest) ← readFraction rest
      let offset ← readOffset rest
      return ⟨← DateTime.ofMicros? (date.toDays * dayMicros + seconds * secondMicros +
        fractionValue 6 fraction), offset⟩

theorem fromisoformat_parts {days : Int} {seconds : Nat} {fraction tail : List Char}
    {digits : List Nat} {offset : Option Int} (years : 0 ≤ days ∧ days < 3652059)
    (clock : seconds < 86400) (read : readFraction (fraction ++ tail) = some (digits, tail))
    (readTail : readOffset tail = some offset) :
    fromisoformat (String.ofList (dateChars (Date.ofDays days) ++ 'T' ::
        (clockChars seconds ++ (fraction ++ tail)))) =
      (DateTime.ofMicros? (days * dayMicros + seconds * secondMicros + fractionValue 6 digits)).map
        (⟨·, offset⟩) := by
  obtain ⟨first, last⟩ := (Date.ofDays_year days).2 years
  simp only [fromisoformat, String.toList_ofList, Option.bind_eq_bind, Option.bind_some,
    readDate_dateChars _ (Date.ofDays_valid days) first last, readClock_clockChars seconds clock, read,
    readTail, Date.toDays_ofDays, Option.map_eq_bind]
  rfl

@[simp] theorem fromisoformat_isoformat (t : DateTime) :
    fromisoformat (isoformat t) = some (aware t) := by
  have range := t.inRange
  simp only [maxMicros, dayMicros, hourMicros, minuteMicros, secondMicros] at range
  have whole : (↑(t.micros / dayMicros) : Int) * dayMicros +
      ↑(t.micros % dayMicros / secondMicros) * secondMicros + ↑(t.micros % secondMicros) = t.micros := by
    simp only [dayMicros, hourMicros, minuteMicros, secondMicros]
    omega
  have years : 0 ≤ ((t.micros / dayMicros : Nat) : Int) ∧ ((t.micros / dayMicros : Nat) : Int) < 3652059 := by
    simp only [dayMicros, hourMicros, minuteMicros, secondMicros]
    omega
  have clock : t.micros % dayMicros / secondMicros < 86400 := by
    simp only [dayMicros, hourMicros, minuteMicros, secondMicros]
    omega
  have offset : readOffset ['+', '0', '0', ':', '0', '0'] = some (some 0) := by decide
  unfold isoformat
  rw [← Int.natCast_ediv]
  by_cases none : t.micros % secondMicros = 0
  · have read : readFraction ([] ++ ['+', '0', '0', ':', '0', '0']) =
        some ([], ['+', '0', '0', ':', '0', '0']) := by decide
    rw [if_pos none, fromisoformat_parts years clock read offset]
    rw [none, Nat.cast_zero] at whole
    have zero : fractionValue 6 [] = 0 := by decide
    rw [zero, Nat.cast_zero, whole, DateTime.ofMicros?_micros]
    rfl
  · have fits : t.micros % secondMicros < 10 ^ 6 := Nat.mod_lt _ (by decide)
    rw [if_neg none, fromisoformat_parts years clock
      (readFraction_padded 5 _ fits _ (by rintro _ ⟨⟩; decide)) offset,
      fractionValue_fixedDigits 6 0 _ fits, pow_zero, Nat.div_one, whole, DateTime.ofMicros?_micros]
    rfl

end PyDateTime

/-! ## Go's time.Time -/

abbrev GoTime := Int

namespace GoTime

def secondNanos : Nat := 10 ^ 9
def dayNanos : Nat := 86400 * secondNanos

/-- `time.Unix`, whose seconds wrap in 64 bits. -/
def unix (sec nsec : Int) : Int :=
  Int.bmod (sec + nsec / secondNanos + 719162 * 86400) (2 ^ 64) * secondNanos + nsec % secondNanos

/-- `t.Add(d)`; the seconds stop at the ends of 64 bits. -/
def add (t d : Int) : Int :=
  let sec := (t + d) / secondNanos
  (if -2 ^ 63 ≤ sec ∧ sec < 2 ^ 63 then sec else if 0 < d then 2 ^ 63 - 1 else -(2 ^ 63 - 1)) * secondNanos +
    (t + d) % secondNanos

/-- `t.Sub(u)`: the difference in nanoseconds wraps in 64 bits, and is good if it leads back to `t`. -/
def sub (t u : Int) : Int :=
  let d := Int.bmod (t - u) (2 ^ 64)
  if add u d = t then d else if t < u then -2 ^ 63 else 2 ^ 63 - 1

def formatRFC3339Nano (t : Int) : String :=
  String.ofList (dateChars (Date.ofDays (t / dayNanos)) ++ 'T' ::
    (clockChars (t % dayNanos / secondNanos).toNat ++
      (fractionChars (fixedDigits 9 (t % secondNanos).toNat) ++ ['Z'])))

def parseRFC3339Nano (text : String) : Option Int := do
  let (date, rest) ← readDate text.toList
  let rest ← expect 'T' rest
  let (seconds, rest) ← readClock rest
  let (fraction, rest) ← readFraction rest
  let offset ← (← readOffset rest)
  return date.toDays * dayNanos + (seconds - offset) * secondNanos + fractionValue 9 fraction

theorem cast_secondNanos : (secondNanos : Int) = 1000000000 := rfl

theorem cast_dayNanos : (dayNanos : Int) = 86400000000000 := rfl

/-- 64 bits hold the seconds. -/
def InRange (t : Int) : Prop := -2 ^ 63 ≤ t / secondNanos ∧ t / secondNanos < 2 ^ 63

theorem unix_inRange (sec nsec : Int) : InRange (unix sec nsec) := by
  have low := Int.le_bmod (x := sec + nsec / secondNanos + 719162 * 86400) (m := 2 ^ 64) (by decide)
  have high := Int.bmod_lt (x := sec + nsec / secondNanos + 719162 * 86400) (m := 2 ^ 64) (by decide)
  simp only [InRange, unix, cast_secondNanos] at low high ⊢
  omega

/-- A sum that has to stop is less than 64 bits of nanoseconds away from where it starts. -/
theorem add_eq_iff {t u d : Int} (left : InRange t) (right : InRange u) (small : -2 ^ 63 ≤ d ∧ d < 2 ^ 63)
    (far : t - u < -2 ^ 63 ∨ 2 ^ 63 ≤ t - u ∨ t - u = d) : add u d = t ↔ t - u = d := by
  simp only [add, InRange, cast_secondNanos] at left right ⊢
  split_ifs <;> omega

theorem sub_eq {t u : Int} (left : InRange t) (right : InRange u) :
    sub t u = max (-2 ^ 63) (min (t - u) (2 ^ 63 - 1)) := by
  have low := Int.le_bmod (x := t - u) (m := 2 ^ 64) (by decide)
  have high := Int.bmod_lt (x := t - u) (m := 2 ^ 64) (by decide)
  have small : -2 ^ 63 ≤ Int.bmod (t - u) (2 ^ 64) ∧ Int.bmod (t - u) (2 ^ 64) < 2 ^ 63 := by omega
  unfold sub
  by_cases fits : -2 ^ 63 ≤ t - u ∧ t - u < 2 ^ 63
  · have same : Int.bmod (t - u) (2 ^ 64) = t - u := Int.bmod_eq_of_le (by omega) (by omega)
    rw [if_pos ((add_eq_iff left right small (by omega)).mpr same.symm), same]
    omega
  · have other : ¬ add u (Int.bmod (t - u) (2 ^ 64)) = t := by
      rw [add_eq_iff left right small (by omega)]
      omega
    rw [if_neg other]
    split <;> omega

def localChars (t : Int) : List Char :=
  dateChars (Date.ofDays (t / dayNanos)) ++ 'T' :: (clockChars (t % dayNanos / secondNanos).toNat ++
    fractionChars (fixedDigits 9 (t % secondNanos).toNat))

theorem mem_localChars {t : Int} {c : Char} (member : c ∈ localChars t) :
    c.isDigit = true ∨ c ∈ ['-', 'T', ':', '.'] := by
  simp only [localChars, List.mem_append, List.mem_cons] at member
  rcases member with date | letter | clock | fraction
  · exact (mem_dateChars date).imp_right fun dash => by simp [dash]
  · exact Or.inr (by simp [letter])
  · exact (mem_clockChars clock).imp_right fun colon => by simp [colon]
  · exact (mem_fractionChars (fixedDigits_lt _ _) fraction).imp_right fun point => by simp [point]

theorem zulu_not_mem_localChars (t : Int) : 'Z' ∉ localChars t := by
  intro member
  rcases mem_localChars member with digit | mark
  · contradiction
  · exact absurd mark (by decide)

theorem toList_formatRFC3339Nano (t : Int) : (formatRFC3339Nano t).toList = localChars t ++ ['Z'] := by
  simp [formatRFC3339Nano, localChars]

theorem replace_formatRFC3339Nano (t : Int) :
    Python.replace 'Z' "+00:00" (formatRFC3339Nano t) =
      String.ofList (localChars t ++ ['+', '0', '0', ':', '0', '0']) := by
  rw [Python.replace, toList_formatRFC3339Nano, List.flatMap_append, Python.flatMap_of_not_mem (zulu_not_mem_localChars t)]
  rfl

theorem formatRFC3339Nano_injective : Function.Injective formatRFC3339Nano := by
  intro t u same
  have letter : ∀ date, 'T' ∉ dateChars date := by
    intro date member
    rcases mem_dateChars member with digit | dash <;> contradiction
  have clock : ∀ t : Int, (t % dayNanos / secondNanos).toNat < 86400 := by
    intro t
    rw [cast_secondNanos, cast_dayNanos]
    omega
  have digits : ∀ t : Int, (t % secondNanos).toNat < 10 ^ 9 := by
    intro t
    rw [cast_secondNanos]
    omega
  have ended : ∀ c ∈ ['Z'].head?, c ≠ '.' ∧ digitValue? c = none := by
    rintro _ ⟨⟩
    decide
  obtain ⟨date, same⟩ := append_cons_inj_left (letter _) (letter _) (String.ofList_injective same)
  have days : t / dayNanos = u / dayNanos := by
    rw [← Date.toDays_ofDays (t / dayNanos), dateChars_injective date, Date.toDays_ofDays]
  have seconds := readClock_clockChars _ (clock t)
    (fractionChars (fixedDigits 9 (t % secondNanos).toNat) ++ ['Z'])
  rw [same, readClock_clockChars _ (clock u)] at seconds
  obtain ⟨second, rest⟩ := Prod.mk.inj (Option.some.inj seconds)
  have fraction := readFraction_fractionChars (fixedDigits 9 (t % secondNanos).toNat) (fixedDigits_lt _ _)
    ['Z'] ended
  rw [← rest, readFraction_fractionChars _ (fixedDigits_lt _ _) ['Z'] ended] at fraction
  have kept := congrArg (fractionValue 9) (Prod.mk.inj (Option.some.inj fraction)).1
  rw [fractionValue_rdropWhile, fractionValue_rdropWhile, fractionValue_fixedDigits 9 0 _ (digits u),
    fractionValue_fixedDigits 9 0 _ (digits t)] at kept
  rw [cast_secondNanos, cast_dayNanos] at *
  omega

theorem fromisoformat_formatRFC3339Nano (t : Int) :
    PyDateTime.fromisoformat (Python.replace 'Z' "+00:00" (formatRFC3339Nano t)) =
      (DateTime.ofMicros? (t / 1000)).map PyDateTime.aware := by
  have digits : (t % secondNanos).toNat < 10 ^ 9 := by rw [cast_secondNanos]; omega
  have clock : (t % dayNanos / secondNanos).toNat < 86400 := by
    rw [cast_secondNanos, cast_dayNanos]
    omega
  have offset : readOffset ['+', '0', '0', ':', '0', '0'] = some (some 0) := by decide
  rw [replace_formatRFC3339Nano]
  by_cases years : 0 ≤ t / dayNanos ∧ t / dayNanos < 3652059
  · have read := readFraction_fractionChars (fixedDigits 9 (t % secondNanos).toNat) (fixedDigits_lt _ _)
      ['+', '0', '0', ':', '0', '0'] (by rintro _ ⟨⟩; decide)
    have parsed := PyDateTime.fromisoformat_parts years clock read offset
    rw [fractionValue_rdropWhile, fractionValue_fixedDigits 6 3 _ digits] at parsed
    simp only [localChars, List.append_assoc, List.cons_append]
    rw [parsed]
    have whole : t / dayNanos * dayMicros + ((t % dayNanos / secondNanos).toNat : Int) * secondMicros +
        (((t % secondNanos).toNat / 10 ^ 3 : Nat) : Int) = t / 1000 := by
      have day : (dayMicros : Int) = 86400000000 := rfl
      have second : (secondMicros : Int) = 1000000 := rfl
      rw [cast_secondNanos, cast_dayNanos, day, second]
      omega
    rw [whole]
    rfl
  · have outside : DateTime.ofMicros? (t / 1000) = none := by
      have last : (maxMicros : Int) = 315537897600000000 := rfl
      apply dif_neg
      rw [cast_dayNanos] at years
      rw [last]
      omega
    have year : (Date.ofDays (t / dayNanos)).year < 1 ∨ 9999 < (Date.ofDays (t / dayNanos)).year := by
      rw [← Date.ofDays_year] at years
      omega
    have unread := readDate_dateChars_none (Date.ofDays (t / dayNanos)) year
    simp [PyDateTime.fromisoformat, localChars, unread, outside]

end GoTime

end PowerBlockade
