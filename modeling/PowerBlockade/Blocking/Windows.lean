import Mathlib.Data.Fintype.Basic
import PowerBlockade.Config.Routes
import PowerBlockade.Lib.DailyWindow
import PowerBlockade.Lib.IsoText
import PowerBlockade.Lib.Separated

/-!
# The hours at which a schedule is active

A schedule names days and two clock times. It is meant as windows that begin on its days; the check
tests the day and the time of the present on their own.
-/

namespace PowerBlockade.Blocking
open Lib

/-! ## What the form sends -/

structure Clock where
  hour : Nat
  minute : Nat
  hour_lt : hour < 24
  minute_lt : minute < 60

def Clock.text (clock : Clock) : String :=
  String.ofList (padded 2 clock.hour ++ ':' :: padded 2 clock.minute)

def Clock.minutes (clock : Clock) : ℤ := clock.hour * 60 + clock.minute

abbrev Weekday := Fin 7

def Weekday.text (day : Weekday) : String := dayName day

/-- The schedule as the form leaves it on a list. -/
def Blocklist.scheduled (bl : Blocklist) (start stop : Clock) (days : List Weekday) : Blocklist :=
  { bl with
    scheduleEnabled := true
    scheduleStart := some start.text
    scheduleEnd := some stop.text
    scheduleDays := if days = [] then none else some (",".intercalate (days.map Weekday.text)) }

/-! ## What the check reads -/

theorem foldl_digitChars {digits : List Nat} (small : ∀ d ∈ digits, d < 10) :
    (digitChars digits).foldl (fun (n : ℤ) c => n * 10 + (c.toNat - 48 : Nat)) 0 =
      digitsValue digits := by
  have value : ∀ d < 10, (Nat.digitChar d).toNat - 48 = d := by decide
  induction digits using List.reverseRecOn with
  | nil => rfl
  | append_singleton digits d ih =>
      have smaller : ∀ e ∈ digits, e < 10 := fun e member => small e (List.mem_append_left _ member)
      have last : d < 10 := small d (List.mem_append_right _ (List.mem_singleton_self d))
      have earlier := ih smaller
      simp only [digitChars] at earlier
      simp [digitChars, earlier, value d last]

theorem int_padded (width n : Nat) (wide : 0 < width) (narrow : width ≤ Python.maxStrDigits)
    (fits : n < 10 ^ width) : Python.int (String.ofList (padded width n)) = some (n : ℤ) := by
  have chars : padded width n = digitChars (fixedDigits width n) := by simp [padded, fits]
  have length : (padded width n).length ≤ Python.maxStrDigits := by
    rw [chars]
    simpa [digitChars] using narrow
  have nonempty : padded width n ≠ [] := by
    rw [chars]
    exact List.ne_nil_of_length_pos (by simpa [digitChars] using wide)
  rw [Python.int_digits nonempty (isDigit_of_mem_padded width n), if_pos length, chars,
    foldl_digitChars (fixedDigits_lt width n), digitsValue_fixedDigits width n fits]

theorem colon_not_mem_padded (width n : Nat) : ':' ∉ padded width n := by
  intro member
  exact absurd (isDigit_of_mem_padded width n _ member) (by decide)

theorem parseTime_text (clock : Clock) :
    parseTime clock.text = some ((clock.hour : ℤ), (clock.minute : ℤ)) := by
  have pieces := splitOn_separator ':' (padded 2 clock.hour ++ ':' :: padded 2 clock.minute)
  rw [List.splitOn_append_cons_self, List.splitOn_eq_singleton (colon_not_mem_padded 2 _),
    List.splitOn_eq_singleton (colon_not_mem_padded 2 _)] at pieces
  have hour := int_padded 2 clock.hour (by simp) (by decide) (clock.hour_lt.trans (by simp))
  have minute := int_padded 2 clock.minute (by simp) (by decide) (clock.minute_lt.trans (by simp))
  have split : clock.text.splitOn ":" =
      [String.ofList (padded 2 clock.hour), String.ofList (padded 2 clock.minute)] := pieces
  simp [parseTime, split, hour, minute]

theorem lower_text (days : List Weekday) :
    Python.lower (",".intercalate (days.map Weekday.text)) =
      ",".intercalate (days.map Weekday.text) := by
  have small : ∀ day : Weekday, day.text.toList.map Char.toLower = day.text.toList := by decide
  apply String.toList_injective
  rw [Python.lower, String.toList_ofList, String.toList_intercalate, List.map_map]
  induction days with
  | nil => rfl
  | cons day days ih =>
      cases days with
      | nil => simpa using small day
      | cons next days => simpa [List.intercalate_cons_cons, small day] using ih

theorem isIn_text (day : Weekday) (days : List Weekday) :
    Python.isIn day.text (",".intercalate (days.map Weekday.text)) = true ↔ day ∈ days := by
  have lengths : ∀ day : Weekday, day.text.toList.length = 3 := by decide
  have whole : ∀ day : Weekday, ',' ∉ day.text.toList := by decide
  have separate : ∀ day other : Weekday, other.text.toList = day.text.toList → other = day := by decide
  have parts : ∀ part ∈ (days.map Weekday.text).map String.toList, part.length = 3 := by
    simp [lengths]
  rw [Python.isIn, decide_eq_true_iff, String.toList_intercalate]
  rw [show ",".toList = [','] from rfl,
    infix_intercalate_iff_mem (by simp) (lengths day) parts (whole day), List.map_map]
  constructor
  · intro member
    obtain ⟨other, member, same⟩ := List.mem_map.1 member
    exact separate day other same ▸ member
  · intro member
    exact List.mem_map.2 ⟨day, member, rfl⟩

/-- The wall clock so many minutes after the start of a Monday. -/
def LocalTime.ofMinutes (t : ℤ) : LocalTime :=
  ⟨(t / 1440 % 7).toNat, (t % 1440 / 60).toNat, (t % 60).toNat⟩

theorem exists_ofMinutes (now : LocalTime) (weekday : now.weekday < 7) (hour : now.hour < 24)
    (minute : now.minute < 60) : ∃ t, LocalTime.ofMinutes t = now := by
  refine ⟨now.weekday * 1440 + now.hour * 60 + now.minute, ?_⟩
  cases now
  simp only [LocalTime.ofMinutes, LocalTime.mk.injEq] at *
  omega

/-- Whether the schedule names the day; a schedule that names none is for every day. -/
def Listed (days : List Weekday) (day : ℤ) : Prop := days = [] ∨ ∃ listed ∈ days, day % 7 = listed

/-- What a schedule is for: the windows that begin on its days. -/
def InSchedule (start stop : Clock) (days : List Weekday) (t : ℤ) : Prop :=
  InWindow 1440 (Listed days) start.minutes stop.minutes t

theorem listed_iff (days : List Weekday) (day : ℤ) (weekday : (day % 7).toNat < 7) :
    Listed days day ↔ days = [] ∨ (⟨(day % 7).toNat, weekday⟩ : Weekday) ∈ days := by
  have reached : ((day % 7).toNat : ℤ) = day % 7 := Int.toNat_of_nonneg (Int.emod_nonneg day (by simp))
  refine or_congr Iff.rfl ⟨?_, ?_⟩
  · intro ⟨listed, member, same⟩
    have eq : (⟨(day % 7).toNat, weekday⟩ : Weekday) = listed := Fin.ext (by simp; omega)
    exact eq ▸ member
  · intro member
    exact ⟨_, member, reached.symm⟩

theorem isTimeInRange_iff (start stop : Clock) (t : ℤ) :
    isTimeInRange (.ofMinutes t) (start.hour, start.minute) (stop.hour, stop.minute) = true ↔
      if start.minutes ≤ stop.minutes then start.minutes ≤ t % 1440 ∧ t % 1440 < stop.minutes
      else start.minutes ≤ t % 1440 ∨ t % 1440 < stop.minutes := by
  have current : ((LocalTime.ofMinutes t).hour : ℤ) * 60 + (LocalTime.ofMinutes t).minute = t % 1440 := by
    simp only [LocalTime.ofMinutes]
    omega
  unfold isTimeInRange Clock.minutes
  split <;> simp_all

theorem text_ne_empty (days : List Weekday) (listed : days ≠ []) :
    ",".intercalate (days.map Weekday.text) ≠ "" := by
  intro blank
  obtain ⟨day, member⟩ := List.exists_mem_of_ne_nil days listed
  have found := (isIn_text day days).2 member
  have named : ∀ day : Weekday, Python.isIn day.text "" = false := by decide
  rw [blank, named day] at found
  exact absurd found Bool.false_ne_true

theorem isBlocklistActive_scheduled (bl : Blocklist) (start stop : Clock) (days : List Weekday) (t : ℤ) :
    isBlocklistActive (bl.scheduled start stop days) (.ofMinutes t) = true ↔
      Listed days (t / 1440) ∧
        if start.minutes ≤ stop.minutes then start.minutes ≤ t % 1440 ∧ t % 1440 < stop.minutes
        else start.minutes ≤ t % 1440 ∨ t % 1440 < stop.minutes := by
  have weekday : (t / 1440 % 7).toNat < 7 := by omega
  have named : dayName (LocalTime.ofMinutes t).weekday = Weekday.text ⟨_, weekday⟩ := rfl
  have nonempty : ∀ day : Weekday, day.text ≠ "" := by decide
  rw [← isTimeInRange_iff, listed_iff days (t / 1440) weekday]
  by_cases every : days = []
  · simp [isBlocklistActive, Blocklist.scheduled, parseTime_text, every, Python.lower]
  · have listed : Python.lower (",".intercalate (days.map Weekday.text)) ≠ "" := by
      rw [lower_text]
      exact text_ne_empty days every
    by_cases member : (⟨_, weekday⟩ : Weekday) ∈ days
    · have found := (isIn_text _ days).2 member
      simp [isBlocklistActive, Blocklist.scheduled, parseTime_text, every, lower_text, named, found, member]
    · have missed := mt (isIn_text _ days).1 member
      simp [isBlocklistActive, Blocklist.scheduled, parseTime_text, every, lower_text, named, missed, member, nonempty, text_ne_empty]

theorem Clock.minutes_range (clock : Clock) : 0 ≤ clock.minutes ∧ clock.minutes < 1440 := by
  have hour := clock.hour_lt
  have minute := clock.minute_lt
  unfold Clock.minutes
  omega

/-- The check is right except in the part after midnight of an overnight window, when one of the
two days is named and the other is not. -/
theorem isBlocklistActive_iff_inSchedule_iff (bl : Blocklist) (start stop : Clock)
    (days : List Weekday) (t : ℤ) :
    (isBlocklistActive (bl.scheduled start stop days) (.ofMinutes t) = true ↔
        InSchedule start stop days t) ↔
      start.minutes ≤ stop.minutes ∨ stop.minutes ≤ t % 1440 ∨
        (Listed days (t / 1440) ↔ Listed days (t / 1440 - 1)) := by
  obtain ⟨startLow, startHigh⟩ := start.minutes_range
  obtain ⟨stopLow, stopHigh⟩ := stop.minutes_range
  rw [isBlocklistActive_scheduled]
  by_cases ordered : start.minutes ≤ stop.minutes
  · rw [InSchedule, inWindow_sameDay startLow stopHigh ordered, if_pos ordered]
    simp [ordered]
  · have crosses : stop.minutes < start.minutes := by omega
    rw [InSchedule, inWindow_overnight stopLow startHigh crosses, if_neg ordered]
    by_cases late : stop.minutes ≤ t % 1440
    · have past : ¬ t % 1440 < stop.minutes := by omega
      simp [late, past]
    · have early : t % 1440 < stop.minutes := by omega
      have unopened : ¬ start.minutes ≤ t % 1440 := by omega
      simp [ordered, late, early, unopened]

def tenInTheEvening : Clock := ⟨22, 0, by decide, by decide⟩
def sixInTheMorning : Clock := ⟨6, 0, by decide, by decide⟩

def fridayNights : Blocklist :=
  (Config.newBlocklist "social" "https://example.org/social" "hosts" "block" 24).scheduled
    tenInTheEvening sixInTheMorning [4]

/-- At one o'clock on Saturday morning the window of Friday night is over for the check, and at one
o'clock on Friday morning it has begun. -/
theorem fridayNights_after_midnight :
    isBlocklistActive fridayNights (.ofMinutes 7260) = false ∧
      InSchedule tenInTheEvening sixInTheMorning [4] 7260 ∧
      isBlocklistActive fridayNights (.ofMinutes 5820) = true ∧
      ¬ InSchedule tenInTheEvening sixInTheMorning [4] 5820 := by
  have nights (t : ℤ) : InSchedule tenInTheEvening sixInTheMorning [4] t ↔
      Listed [4] (t / 1440) ∧ 1320 ≤ t % 1440 ∨ Listed [4] (t / 1440 - 1) ∧ t % 1440 < 360 :=
    inWindow_overnight (by decide) (by decide) (by decide)
  refine ⟨Bool.eq_false_iff.2 fun active => ?_, ?_, ?_, fun inside => ?_⟩
  · exact absurd ((isBlocklistActive_scheduled _ _ _ _ _).1 active).1 (by simp [Listed])
  · exact (nights 7260).2 (by simp [Listed])
  · exact (isBlocklistActive_scheduled _ _ _ _ _).2
      (by simp [Listed, Clock.minutes, tenInTheEvening, sixInTheMorning])
  · exact absurd ((nights 5820).1 inside) (by simp [Listed])

/-! ## The form -/

theorem given_text (clock : Clock) : Config.given clock.text = some clock.text := by
  have solid : ∀ c ∈ padded 2 clock.hour ++ ':' :: padded 2 clock.minute, Python.isSpace c = false := by
    intro c member
    rw [List.mem_append, List.mem_cons] at member
    rcases member with inHour | rfl | inMinute
    · exact Python.isSpace_digit (isDigit_of_mem_padded 2 _ c inHour)
    · rfl
    · exact Python.isSpace_digit (isDigit_of_mem_padded 2 _ c inMinute)
  have stripped : Python.strip clock.text = clock.text := by
    rw [Clock.text, Python.strip, String.toList_ofList, Python.stripChars_of_not_isSpace solid]
  have filled : clock.text ≠ "" := by
    intro blank
    have chars := congrArg String.toList blank
    simp [Clock.text] at chars
  rw [Config.given, if_neg filled, stripped]

theorem blocklistsUpdateSchedule_scheduled (tables : Config.Tables) (id : Nat) (start stop : Clock)
    (days : List Weekday) :
    Config.blocklistsUpdateSchedule tables id true start.text stop.text (days.map Weekday.text) =
      Config.editBlocklist tables id .updateSchedule (·.scheduled start stop days) := by
  simp [Config.blocklistsUpdateSchedule, given_text, Blocklist.scheduled]

end PowerBlockade.Blocking
