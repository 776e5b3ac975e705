import PowerBlockade.Blocking.Compilers

/-!
# The switch of blocking, where it fails

The three routes commit the setting, replace the zone, and commit the entry of the log, in this
order.
-/

namespace PowerBlockade.Blocking.Switch
open Lib

structure ConfigChange where
  entityType : String
  entityId : Nat
  action : String
  actorUserId : Nat
  beforeData : Settings
  afterData : Settings
deriving DecidableEq

structure State where
  db : Database
  combined : Zone
  changes : List ConfigChange
deriving DecidableEq

/-- The one call that raises, if the route gets to it. -/
inductive Failure
  | settings
  | zone
  | audit
  | commit
deriving DecidableEq

variable (failure : Option Failure) (now : DateTime)

/-- The body of the routes; the Boolean says whether the route answers with success. -/
def switchBlocking (action state : String) (zone : Option Zone) (user : Nat) (s : State) :
    State × Bool :=
  let oldState := s.db.settings.getBlockingState
  if failure = some .settings then (s, false)
  else
    let set := { s with db := setBlockingState s.db state }
    if failure = some .zone ∧ zone.isSome then (set, false)
    else
      let written := { set with combined := zone.getD s.combined }
      if failure = some .audit ∨ failure = some .commit then (written, false)
      else
        let change : ConfigChange :=
          { entityType := "settings"
            entityId := 0
            action := action
            actorUserId := user
            beforeData := [("blocking_state", oldState)]
            afterData := [("blocking_state", state)] }
        ({ written with changes := s.changes ++ [change] }, true)

/-- A request without a user gets 401. -/
def blockingDisable (user : Option Nat) (s : State) : State × Bool :=
  match user with
  | none => (s, false)
  | some user =>
      switchBlocking failure "blocking_disable" "disabled" (some (emergencyRpz now)) user s

def blockingEnable (user : Option Nat) (s : State) : State × Bool :=
  match user with
  | none => (s, false)
  | some user => switchBlocking failure "blocking_enable" "enabled" none user s

def blockingPause (minutes : Int) (user : Option Nat) (s : State) : State × Bool :=
  match user with
  | none => (s, false)
  | some user =>
      if minutes < 1 ∨ minutes > 1440 then (s, false)
      else match now.add (minutes * minuteMicros) with
        | some pauseUntil =>
            switchBlocking failure "blocking_pause" (PyDateTime.isoformat pauseUntil)
              (some (emergencyRpz now)) user s
        | none => (s, false)

inductive Request
  | disable
  | enable
  | pause (minutes : Int)

def handle (request : Request) (user : Option Nat) (s : State) : State × Bool :=
  match request with
  | .disable => blockingDisable failure now user s
  | .enable => blockingEnable failure user s
  | .pause minutes => blockingPause failure now minutes user s

/-! ## What a request asks for -/

/-- The state of blocking that a request stands for; `none` if it stands for none. -/
def Request.state (now : DateTime) : Request → Option String
  | .disable => some "disabled"
  | .enable => some "enabled"
  | .pause minutes =>
      if minutes < 1 ∨ minutes > 1440 then none
      else (now.add (minutes * minuteMicros)).map PyDateTime.isoformat

def Request.action : Request → String
  | .disable => "blocking_disable"
  | .enable => "blocking_enable"
  | .pause _ => "blocking_pause"

/-- Switching blocking off empties the zone; switching it on leaves the zone to the Apply button. -/
def Request.zone (now : DateTime) : Request → Option Zone
  | .disable | .pause _ => some (emergencyRpz now)
  | .enable => none

structure Switched (now : DateTime) (request : Request) (user : Nat) (before after : State) : Prop where
  setting : request.state now = some (after.db.settings.get "blocking_state")
  zone : after.combined = (request.zone now).getD before.combined
  logged : after.changes = before.changes ++
    [⟨"settings", 0, request.action, user, [("blocking_state", before.db.settings.getBlockingState)],
      [("blocking_state", after.db.settings.get "blocking_state")]⟩]

/-- All requests are one: they are answered at once, or carry out the switch that they stand for. -/
theorem handle_cases (request : Request) (user : Option Nat) (s : State) :
    handle failure now request user s = (s, false) ∨
      ∃ id state, user = some id ∧ request.state now = some state ∧
        handle failure now request user s =
          switchBlocking failure request.action state (request.zone now) id s := by
  cases user with
  | none => exact Or.inl (by cases request <;> rfl)
  | some id =>
      cases request with
      | disable => exact Or.inr ⟨id, _, rfl, rfl, rfl⟩
      | enable => exact Or.inr ⟨id, _, rfl, rfl, rfl⟩
      | pause minutes =>
          simp only [handle, blockingPause, Request.state]
          split
          · exact Or.inl rfl
          · cases reached : now.add (minutes * minuteMicros) with
            | none => exact Or.inl rfl
            | some pauseUntil => exact Or.inr ⟨id, _, rfl, rfl, rfl⟩

/-- What is as before when a request is not answered with success. -/
structure Untouched (zone : Option Zone) (before after : State) : Prop where
  log : after.changes = before.changes
  zone : zone = none ∨ failure ≠ some .audit ∧ failure ≠ some .commit →
    after.combined = before.combined
  setting : failure = none ∨ failure = some .settings →
    after.db.settings.get "blocking_state" = before.db.settings.get "blocking_state"

theorem untouched_self (zone : Option Zone) (s : State) : Untouched failure zone s s :=
  ⟨rfl, fun _ => rfl, fun _ => rfl⟩

theorem switchBlocking_cases (action state : String) (zone : Option Zone) (user : Nat) (s : State) :
    ((switchBlocking failure action state zone user s).2 = false ∧
        Untouched failure zone s (switchBlocking failure action state zone user s).1) ∨
      switchBlocking failure action state zone user s =
        (⟨setBlockingState s.db state, zone.getD s.combined, s.changes ++
          [⟨"settings", 0, action, user, [("blocking_state", s.db.settings.getBlockingState)],
            [("blocking_state", state)]⟩]⟩, true) := by
  cases failure with
  | none => exact Or.inr rfl
  | some failure =>
      cases failure with
      | settings => exact Or.inl ⟨rfl, untouched_self _ _ _⟩
      | zone =>
          cases zone with
          | none => exact Or.inr rfl
          | some zone => exact Or.inl ⟨rfl, rfl, fun _ => rfl, fun early => by simp at early⟩
      | audit | commit =>
          refine Or.inl ⟨rfl, rfl, fun early => ?_, fun early => by simp at early⟩
          have unwritten : zone = none := by simpa using early
          rw [unwritten]
          rfl

/-- A request that succeeds shows in the setting, the zone and the log. One that does not leaves
the log alone, the zone unless it fails after writing it, and the setting if that is what fails. -/
theorem handle_switched_or_untouched (failure : Option Failure) (now : DateTime) (request : Request)
    (user : Option Nat) (s : State) :
    ((handle failure now request user s).2 = true →
        ∃ id, user = some id ∧ Switched now request id s (handle failure now request user s).1) ∧
      ((handle failure now request user s).2 = false →
        Untouched failure (request.zone now) s (handle failure now request user s).1) := by
  cases handle_cases failure now request user s with
  | inl refused =>
      rw [refused]
      exact ⟨(nomatch ·), fun _ => untouched_self _ _ _⟩
  | inr switched =>
      obtain ⟨id, state, known, asked, same⟩ := switched
      rw [same]
      cases switchBlocking_cases failure request.action state (request.zone now) id s with
      | inl failed =>
          exact ⟨fun succeeded => (nomatch failed.1.symm.trans succeeded), fun _ => failed.2⟩
      | inr done =>
          have stored : (setBlockingState s.db state).settings.get "blocking_state" = state :=
            Settings.get_set_self _ _ _
          rw [done]
          refine ⟨fun _ => ⟨id, known, ?_, rfl, ?_⟩, (nomatch ·)⟩
          · rw [asked, stored]
          · rw [stored]

def Request.op : Request → Op
  | .disable => .disable
  | .enable => .enable
  | .pause minutes => .pause minutes

/-- Without a failure a route does to the settings and the zone what the model of the zone writers
says. -/
theorem handle_outcome (zoneInfo : ZoneInfo) (request : Request) (user : Nat) (s : State) :
    (handle none now request (some user) s).1.db = (outcome zoneInfo now s.db request.op).db ∧
      (handle none now request (some user) s).1.combined =
        (outcome zoneInfo now s.db request.op).combined.getD s.combined := by
  cases request with
  | disable => exact ⟨rfl, rfl⟩
  | enable => exact ⟨rfl, rfl⟩
  | pause minutes =>
      simp only [handle, Switch.blockingPause, Request.op, outcome, Blocking.blockingPause]
      split
      · exact ⟨rfl, rfl⟩
      · cases now.add (minutes * minuteMicros) <;> exact ⟨rfl, rfl⟩

/-! ## A switch that stops half-way, and one that leaves the zone -/

def blockingOn : State :=
  ⟨⟨[], [storedList], []⟩, renderRpzZone {"ads.example"} "blocklist-combined" noon, []⟩

def blockingOff : State := ⟨⟨[("blocking_state", "disabled")], [storedList], []⟩, emergencyRpz noon, []⟩

theorem switch_not_atomic :
    (handle (some .zone) noon .disable (some 1) blockingOn).2 = false ∧
      (handle (some .zone) noon .disable (some 1) blockingOn).1.db.settings.getBlockingState =
        "disabled" ∧
      (handle (some .zone) noon .disable (some 1) blockingOn).1.combined.blocks = {"ads.example"} ∧
      (handle none noon .enable (some 1) blockingOff).2 = true ∧
      (handle none noon .enable (some 1) blockingOff).1.combined.blocks = ∅ ∧
      (handle none noon .enable (some 1) blockingOff).1.db.effectiveBlockSet = {"ads.example"} := by
  refine ⟨rfl, by decide, blocks_renderRpzZone _ _ _, rfl, rfl, by decide⟩

theorem disable_empties_zone :
    (handle none noon .disable (some 1) blockingOn).1.combined = emergencyRpz noon := by
  obtain ⟨_, _, switched⟩ := (handle_switched_or_untouched none noon .disable (some 1) blockingOn).1 rfl
  exact switched.zone

end PowerBlockade.Blocking.Switch
