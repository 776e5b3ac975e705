import Mathlib.Data.List.Infix
import Mathlib.Logic.Function.Basic
import PowerBlockade.Sync.Bundle

/-!
# The recursor's reloader

`reloader.sh` beside any number of writers: each `inotifywait` sees the events that come while it
runs, and returns with the first.
-/

namespace PowerBlockade.Reloader
open Sync (RpzName)

/-! ## Events -/

/-- What the watches are on: `%w` of an event. -/
inductive Place
  | rpzDir
  | forwardZones
  | forwardZonesDir
deriving DecidableEq

structure Event where
  place : Place
  name : String
deriving DecidableEq

/-- `${filename##*/}`. -/
def baseName (filename : String) : List Char := (filename.toList.splitOn '/').getLastD []

/-- `IGNORE_PATTERN`. -/
def ignorePattern (base : List Char) : Bool :=
  ".pb-tmp-".toList <:+: base || ".gitkeep".toList <:+: base || base.head? = some '.' ||
    base.head? = some '#' || base.getLast? = some '~'

def shouldIgnore (filename : String) : Bool :=
  baseName filename = [] || ignorePattern (baseName filename)

def isRelevant (filename : String) : Bool := !shouldIgnore filename

def forwardZonesBase : String := "forward-zones.conf"

/-- The check of the first event, and of each one while draining. -/
def Event.relevant (event : Event) : Bool :=
  match event.place with
  | .forwardZones => true
  | .forwardZonesDir => event.name = forwardZonesBase && isRelevant event.name
  | .rpzDir => isRelevant event.name

/-! ## Writers -/

inductive Zone
  | rpz (name : RpzName)
  | forwardZones
deriving DecidableEq

namespace Zone

def dir : Zone → Place
  | rpz _ => .rpzDir
  | forwardZones => .forwardZonesDir

def name : Zone → String
  | rpz name => name.filename
  | forwardZones => forwardZonesBase

def movedTo (zone : Zone) : List Event := [⟨zone.dir, zone.name⟩]

/-- The forward zones are watched as a file too. -/
def closeWrite : Zone → List Event
  | rpz name => [⟨.rpzDir, name.filename⟩]
  | forwardZones => [⟨.forwardZones, ""⟩, ⟨.forwardZonesDir, forwardZonesBase⟩]

end Zone

/-- How far `atomic_write`, `safe_write` or the agent's `write_if_changed` has come: with a temporary
file that is open or closed, or with the zone file itself open. -/
inductive Stage
  | writing
  | staged
  | opened
deriving DecidableEq

structure Writer where
  zone : Zone
  suffix : String
  stage : Stage

def Writer.temp (writer : Writer) : Event := ⟨writer.zone.dir, ".pb-tmp-" ++ writer.suffix⟩

/-! ## The watcher -/

/-- Where `watch` is: before its `inotifywait` or in it, before or in the one that drains, after the
draining, or in `do_reload`. -/
inductive Phase
  | starting
  | waiting
  | settling
  | draining
  | ready
  | reloading
deriving DecidableEq

def Phase.receive (phase : Phase) (event : Event) : Phase :=
  match phase with
  | waiting => if event.relevant then settling else starting
  | draining => if event.relevant then settling else ready
  | other => other

/-- `changed` are the zone files that were changed since the last successful reload started, `since`
those since any did, and `triggered` is a `trigger_reload` that no reload has followed. -/
structure System where
  writers : Nat → Option Writer
  sentinel : Bool
  watcher : Phase
  changed : List Zone
  since : List Zone
  triggered : Bool

namespace System

def start : System := ⟨fun _ => none, false, .starting, [], [], false⟩

def emit (s : System) (events : List Event) : System :=
  match events.head? with
  | some event => { s with watcher := s.watcher.receive event }
  | none => s

def move (s : System) (id : Nat) (writer : Option Writer) : System :=
  { s with writers := Function.update s.writers id writer }

def change (s : System) (zone : Zone) : System :=
  { s with changed := zone :: s.changed, since := zone :: s.since }

end System

inductive Label
  | begin (id : Nat) (zone : Zone) (suffix : String)
  | closeTemp (id : Nat)
  | replace (id : Nat)
  | openTarget (id : Nat)
  | closeTarget (id : Nat)
  | fail (id : Nat)
  | triggerReload
  | listen
  | timeout
  | startReload
  | endReload (succeeded : Bool)
deriving DecidableEq

namespace System

def step (s : System) : Label → System
  | .begin id zone suffix =>
      match s.writers id with
      | none => s.move id (some ⟨zone, suffix, .writing⟩)
      | some _ => s
  | .closeTemp id =>
      match s.writers id with
      | some ⟨zone, suffix, .writing⟩ =>
          (s.move id (some ⟨zone, suffix, .staged⟩)).emit [Writer.temp ⟨zone, suffix, .writing⟩]
      | _ => s
  | .replace id =>
      match s.writers id with
      | some ⟨zone, _, .staged⟩ => ((s.move id none).change zone).emit zone.movedTo
      | _ => s
  | .openTarget id =>
      match s.writers id with
      | some ⟨zone, suffix, .staged⟩ => s.move id (some ⟨zone, suffix, .opened⟩)
      | _ => s
  | .closeTarget id =>
      match s.writers id with
      | some ⟨zone, _, .opened⟩ => ((s.move id none).change zone).emit zone.closeWrite
      | _ => s
  | .fail id =>
      match s.writers id with
      | some ⟨_, _, .writing⟩ | some ⟨_, _, .staged⟩ => s.move id none
      | _ => s
  -- only the first `touch` opens the file
  | .triggerReload =>
      { s with sentinel := true, triggered := true }.emit
        (if s.sentinel then [] else [⟨.rpzDir, ".reload-trigger"⟩])
  | .listen =>
      match s.watcher with
      | .starting => { s with watcher := .waiting }
      | .settling => { s with watcher := .draining }
      | _ => s
  -- also when `inotifywait` cannot start
  | .timeout =>
      match s.watcher with
      | .settling | .draining => { s with watcher := .ready }
      | _ => s
  | .startReload =>
      match s.watcher with
      | .ready => { s with watcher := .reloading, since := [], triggered := false }
      | _ => s
  | .endReload succeeded =>
      match s.watcher with
      | .reloading =>
          { s with watcher := .starting, changed := if succeeded then s.since else s.changed }
      | _ => s

def Quiet (s : System) : Prop := s.watcher = .waiting ∧ ∀ id, s.writers id = none

/-- While it waits and nobody writes, every change has been loaded and every trigger obeyed. -/
def Caught (s : System) : Prop := s.Quiet → s.changed = [] ∧ s.triggered = false

end System

end PowerBlockade.Reloader
