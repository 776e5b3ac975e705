import PowerBlockade.Blocking.Tables

/-!
# Blocklist schedules
-/

namespace PowerBlockade.Blocking

structure LocalTime where
  weekday : Nat
  hour : Nat
  minute : Nat
deriving DecidableEq

def utcLocalTime (now : DateTime) : LocalTime := ⟨now.weekday, now.hour, now.minute⟩

/-- The time zone database: the local time of an instant in a named zone, when the zone exists. -/
abbrev ZoneInfo := String → Option (DateTime → LocalTime)

def localNow (zoneInfo : ZoneInfo) (settings : Settings) (now : DateTime) : LocalTime :=
  match zoneInfo (settings.getOr "timezone" "UTC") with
  | some localTime => localTime now
  | none => utcLocalTime now

def parseTime (text : String) : Option (Int × Int) :=
  match text.splitOn ":" with
  | hour :: minute :: _ => do return (← Python.int hour, ← Python.int minute)
  | _ => none

def isTimeInRange (now : LocalTime) (start stop : Int × Int) : Bool :=
  let current : Int := now.hour * 60 + now.minute
  let start := start.1 * 60 + start.2
  let stop := stop.1 * 60 + stop.2
  if start ≤ stop then start ≤ current ∧ current < stop else start ≤ current ∨ current < stop

def dayName (weekday : Nat) : String :=
  ["mon", "tue", "wed", "thu", "fri", "sat", "sun"].getD weekday ""

def isBlocklistActive (bl : Blocklist) (now : LocalTime) : Bool :=
  if bl.scheduleEnabled then
    match parseTime (bl.scheduleStart.getD ""), parseTime (bl.scheduleEnd.getD "") with
    | some start, some stop =>
        let scheduleDays := Python.lower (bl.scheduleDays.getD "")
        if scheduleDays ≠ "" ∧ dayName now.weekday ≠ "" ∧
            ¬ Python.isIn (dayName now.weekday) scheduleDays then false
        else isTimeInRange now start stop
    -- an invalid schedule leaves the list active
    | _, _ => true
  else true

end PowerBlockade.Blocking
