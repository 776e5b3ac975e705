import PowerBlockade.Lib.Raising
import PowerBlockade.Precache.Burst

/-!
# The status of the boot burst

`_boot_burst_entry` down to the release of the lock. Each call that may raise is asked of the world;
what was recorded before an exception stays recorded.
-/

namespace PowerBlockade.Precache
open Lib

inductive Call
  | settingsSession
  | readEnabled
  | loadConfig
  | settingsClose
  | readiness
  | lockSession
  | lockQuery
  | burstSession
  | selectPairs
  | pairsNeeding
  | engine
  | burstClose
  | unlock
  | commit
  | lockClose
deriving DecidableEq

/-- The calls up to the end of the burst. -/
def Call.early : Call → Bool
  | .burstClose | .unlock | .commit | .lockClose => false
  | _ => true

/-- `stats` is what `run_burst` returns, and `sentBefore` how many it has sent when it raises. -/
structure World where
  raises : Call → Bool
  text : Call → String
  enabled : Bool
  config : BootBurstConfig
  ready : Bool
  acquired : Bool
  selected : List Pair
  ttls : PairTtlCache
  now : ℚ
  stats : List Pair → BurstStats
  sentBefore : Nat

structure Attempt where
  results : List BootBurstResult
  raised : List Call
  heldByOther : Bool
  queriesSent : Nat

def Attempt.start : Attempt := ⟨[], [], false, 0⟩

def Attempt.last (a : Attempt) : Option BootBurstStatus := a.results.getLast?.map (·.status)

abbrev Boot := EStateM Call Attempt

def recordResult (result : BootBurstResult) : Boot Unit :=
  modify fun a => { a with results := a.results ++ [result] }

namespace World

def call (w : World) (c : Call) : Boot Unit := fun a =>
  if w.raises c then .error c { a with raised := a.raised ++ [c] } else .ok () a

def due (w : World) : List Pair := duePairs w.config w.ttls w.now w.selected

def burst (w : World) : BootBurstResult :=
  bootBurst w.config w.ttls w.now w.selected fun due =>
    if w.raises .engine then .error (w.text .engine) else .ok (w.stats due)

/-- What `run_burst` leaves behind; its exception is caught where it is called. -/
def runEngine (w : World) : Boot Unit := modify fun a =>
  if w.due = [] then a
  else if w.raises .engine then
    { a with raised := a.raised ++ [.engine], queriesSent := a.queriesSent + w.sentBefore }
  else { a with queriesSent := a.queriesSent + (w.stats w.due).queriesSent }

/-- The `try` of `_boot_burst_locked`. -/
def burstBody (w : World) : Boot BootBurstResult := do
  w.call .selectPairs
  if fromkeys w.selected ≠ [] then w.call .pairsNeeding
  w.runEngine
  recordResult w.burst
  return w.burst

def bootBurstLocked (w : World) : Boot BootBurstResult := do
  w.call .burstSession
  tryFinally w.burstBody (w.call .burstClose)

def release (w : World) : Boot Unit := do
  w.call .unlock
  w.call .commit

/-- The `try` of the wrapper with its `except`. -/
def tryLock {α : Type} (w : World) (func : Boot α) : Boot (Option α) :=
  tryCatch
    (do
      w.call .lockQuery
      if w.acquired then
        tryFinally (some <$> func) w.release
      else
        modify fun a => { a with heldByOther := true }
        return none)
    (fun _ => return none)

def runWithAdvisoryLock {α : Type} (w : World) (func : Boot α) : Boot (Option α) := do
  w.call .lockSession
  tryFinally (w.tryLock func) (w.call .lockClose)

def disabledResult : BootBurstResult :=
  .ofStatus .disabled "precache or boot burst disabled in settings" 0 0

def readSettings (w : World) : Boot (Option BootBurstConfig) := do
  w.call .readEnabled
  if w.enabled then
    w.call .loadConfig
    return some w.config
  else
    recordResult disabledResult
    return none

def loadSettings (w : World) : Boot (Option BootBurstConfig) := do
  w.call .settingsSession
  tryFinally w.readSettings (w.call .settingsClose)

/-- The config to run with, unless a result has been recorded already. -/
def settings (w : World) : Boot (Option BootBurstConfig) :=
  tryCatch w.loadSettings fun e => do
    recordResult (.ofStatus .error s!"settings load failed: {w.text e}" 0 0)
    return none

def skippedResult (config : BootBurstConfig) : BootBurstResult :=
  .ofStatus .skippedLock "advisory lock held by the periodic warming job or another instance" config.qps
    config.concurrency

def unreadyResult (config : BootBurstConfig) : BootBurstResult :=
  .ofStatus .unready "dnsdist/recursor not reachable within the bounded wait" config.qps config.concurrency

/-- `_boot_burst_entry` past the settings. -/
def burstWhenReady (w : World) (config : BootBurstConfig) : Boot Unit := do
  w.call .readiness
  if w.ready then
    let result ← w.runWithAdvisoryLock w.bootBurstLocked
    if result.isNone then recordResult (skippedResult config)
  else
    recordResult (unreadyResult config)

def bootBurstEntry (w : World) : Boot Unit := do
  match ← w.settings with
  | none => return
  | some config => w.burstWhenReady config

def attempt (w : World) : Attempt :=
  match w.bootBurstEntry.run .start with
  | .ok _ a => a
  | .error _ a => a

end World

def BootBurstStatus.ran (status : BootBurstStatus) : Bool :=
  status ∈ [.completed, .partialSuccess, .failed, .noPairs]

structure Attempt.Truthful (a : Attempt) : Prop where
  skipped : a.last = some .skippedLock ↔ a.heldByOther = true ∧ a.queriesSent = 0
  raised : a.raised.any Call.early = true → a.last = some .error
  kept : ∀ result ∈ a.results, result.status.ran = true → a.results.getLast? = some result

/-- What is known of an attempt: what it recorded, whether a call up to the end of the burst raised,
and whether the lock was found held. -/
structure Attempt.Shows (a : Attempt) (results : List BootBurstResult) (early held : Bool) : Prop where
  recorded : a.results = results
  raisedEarly : a.raised.any Call.early = early
  lockHeld : a.heldByOther = held
  unsent : held = true → a.queriesSent = 0

namespace World

/-- Some call on the way to the settings, or in closing their session, raises. -/
def SettingsRaise (w : World) : Prop :=
  w.raises .settingsSession ∨ (w.raises .readEnabled ∨ w.enabled ∧ w.raises .loadConfig) ∨
    w.raises .settingsClose

/-- The burst raises before it records anything. -/
def BurstRaises (w : World) : Prop :=
  w.raises .burstSession ∨ w.raises .selectPairs ∨ (fromkeys w.selected ≠ [] ∧ w.raises .pairsNeeding)

def ReleaseRaises (w : World) : Prop := w.raises .burstClose ∨ w.raises .unlock ∨ w.raises .commit

/-- After the settings nothing raises but the engine, or what follows a burst and, for the lock,
the close of its session as well. -/
def Accounted (w : World) : Prop :=
  w.SettingsRaise ∨ w.enabled = false ∨ w.raises .readiness = false ∧ (w.ready = false ∨
    w.raises .lockSession = false ∧ w.raises .lockQuery = false ∧
      if w.acquired then ¬ w.BurstRaises ∧ (w.ReleaseRaises → w.raises .lockClose)
      else w.raises .lockClose = false)

variable {w : World} {a b : Attempt} {c : Call} {results : List BootBurstResult} {early held : Bool}

@[simp] theorem call_ok (returns : w.raises c = false) : (w.call c).run a = .ok () a := by
  simp [call, EStateM.run, returns]

@[simp] theorem call_raises (raises : w.raises c = true) :
    (w.call c).run a = .error c { a with raised := a.raised ++ [c] } := by
  simp [call, EStateM.run, raises]

@[simp] theorem run_recordResult (result : BootBurstResult) :
    (recordResult result).run a = .ok () { a with results := a.results ++ [result] } := rfl

/-! ## The burst under the lock -/

theorem burst_status_ne (w : World) : w.burst.status ≠ .skippedLock := by
  unfold burst bootBurst statusFor
  dsimp only
  grind [BootBurstResult.ofStatus]

theorem burst_status_of_engine (started : w.due ≠ []) (raises : w.raises .engine = true) :
    w.burst.status = .error := by
  have candidates : fromkeys w.selected ≠ [] := fun none => started (duePairs_nil none)
  have started : duePairs w.config w.ttls w.now w.selected ≠ [] := started
  simp [burst, bootBurst, candidates, started, raises]

def engineRaises (w : World) : Bool := !(w.due = []) && w.raises .engine

theorem shows_raised (shows : a.Shows results early held) (isEarly : c.early = true) :
    Attempt.Shows { a with raised := a.raised ++ [c] } results true held :=
  ⟨shows.recorded, by simp [isEarly], shows.lockHeld, shows.unsent⟩

theorem shows_raised_late (shows : a.Shows results early held) (isLate : c.early = false) :
    Attempt.Shows { a with raised := a.raised ++ [c] } results early held :=
  ⟨shows.recorded, by simp [shows.raisedEarly, isLate], shows.lockHeld, shows.unsent⟩

theorem shows_recorded (shows : a.Shows results early held) (result : BootBurstResult) :
    Attempt.Shows { a with results := a.results ++ [result] } (results ++ [result]) early held :=
  ⟨by simp [shows.recorded], shows.raisedEarly, shows.lockHeld, shows.unsent⟩

theorem run_call_late (isLate : c.early = false) (shows : a.Shows results early held) :
    (w.call c).run a = .ok () a ∨ ∃ c' a', (w.call c).run a = .error c' a' ∧ a'.Shows results early held := by
  cases raises : w.raises c with
  | true => exact Or.inr ⟨_, _, call_raises raises, shows_raised_late shows isLate⟩
  | false => exact Or.inl (call_ok raises)

/-- What failed stays failed, whether or not the finalizer raises as well. -/
theorem run_tryFinally_fails {α : Type} {x : Boot α} {finalizer : Boot Unit}
    (failed : x.run a = .error c b) (shows : b.Shows results early held)
    (closes : finalizer.run b = .ok () b ∨
      ∃ c' b', finalizer.run b = .error c' b' ∧ b'.Shows results early held) :
    ∃ c' b', (tryFinally x finalizer).run a = .error c' b' ∧ b'.Shows results early held := by
  rw [run_tryFinally_error failed]
  rcases closes with closed | ⟨c', b', raised, later⟩
  · rw [closed]
    exact ⟨c, b, rfl, shows⟩
  · rw [raised]
    exact ⟨c', b', rfl, later⟩

theorem run_runEngine (shows : a.Shows results early false) :
    ∃ a', w.runEngine.run a = .ok () a' ∧ a'.Shows results (early || w.engineRaises) false := by
  refine ⟨_, rfl, ?_⟩
  by_cases none : w.due = []
  · simpa [none, engineRaises] using shows
  · cases raises : w.raises .engine with
    | false =>
        simp only [none, if_false, engineRaises, raises, Bool.and_false, Bool.or_false, Bool.false_eq_true]
        exact ⟨shows.recorded, shows.raisedEarly, shows.lockHeld, nofun⟩
    | true =>
        simp only [none, if_false, if_true, engineRaises, raises]
        exact ⟨shows.recorded, by simp [shows.raisedEarly, Call.early], shows.lockHeld, nofun⟩

theorem run_burstBody_raises (raises : w.raises .selectPairs ∨
      (fromkeys w.selected ≠ [] ∧ w.raises .pairsNeeding)) (shows : a.Shows results early held) :
    ∃ c a', w.burstBody.run a = .error c a' ∧ a'.Shows results true held := by
  unfold burstBody
  cases select : w.raises .selectPairs with
  | true =>
      exact ⟨_, _, run_bind_error (call_raises select), shows_raised shows rfl⟩
  | false =>
      obtain ⟨candidates, needing⟩ := raises.resolve_left (by simp [select])
      rw [run_bind_ok (call_ok select), if_pos candidates]
      exact ⟨_, _, run_bind_error (call_raises needing), shows_raised shows rfl⟩

theorem run_burstBody (select : w.raises .selectPairs = false)
    (needing : ¬ (fromkeys w.selected ≠ [] ∧ w.raises .pairsNeeding)) (shows : a.Shows results early false) :
    ∃ a', w.burstBody.run a = .ok w.burst a' ∧
      a'.Shows (results ++ [w.burst]) (early || w.engineRaises) false := by
  obtain ⟨a', ran, later⟩ := run_runEngine (w := w) shows
  refine ⟨_, ?_, shows_recorded later w.burst⟩
  unfold burstBody
  rw [run_bind_ok (call_ok select)]
  by_cases candidates : fromkeys w.selected = []
  · rw [if_neg (not_not.mpr candidates)]
    beta_reduce
    rw [run_bind_ok ran, run_bind_ok (run_recordResult _)]
    rfl
  · have needing : w.raises .pairsNeeding = false := by simpa [candidates] using needing
    rw [if_pos candidates, run_bind_ok (call_ok needing), run_bind_ok ran,
      run_bind_ok (run_recordResult _)]
    rfl

theorem run_bootBurstLocked_raises (raises : w.BurstRaises) (shows : a.Shows results early held) :
    ∃ c a', w.bootBurstLocked.run a = .error c a' ∧ a'.Shows results true held := by
  unfold bootBurstLocked
  cases session : w.raises .burstSession with
  | true =>
      exact ⟨_, _, run_bind_error (call_raises session), shows_raised shows rfl⟩
  | false =>
      obtain ⟨c, a', body, later⟩ :=
        run_burstBody_raises (raises.resolve_left (by simp [session])) shows
      rw [run_bind_ok (call_ok session)]
      exact run_tryFinally_fails body later (run_call_late rfl later)

theorem run_bootBurstLocked (quiet : ¬ w.BurstRaises) (shows : a.Shows results early false) :
    (w.raises .burstClose = false ∧ ∃ a', w.bootBurstLocked.run a = .ok w.burst a' ∧
      a'.Shows (results ++ [w.burst]) (early || w.engineRaises) false) ∨
    (w.raises .burstClose = true ∧ ∃ c a', w.bootBurstLocked.run a = .error c a' ∧
      a'.Shows (results ++ [w.burst]) (early || w.engineRaises) false) := by
  simp only [BurstRaises, not_or, Bool.not_eq_true] at quiet
  obtain ⟨session, select, needing⟩ := quiet
  obtain ⟨a', body, later⟩ := run_burstBody select needing shows
  unfold bootBurstLocked
  rw [run_bind_ok (call_ok session), run_tryFinally_ok body]
  cases close : w.raises .burstClose with
  | true =>
      rw [call_raises close]
      exact Or.inr ⟨rfl, _, _, rfl, shows_raised_late later rfl⟩
  | false =>
      rw [call_ok close]
      exact Or.inl ⟨rfl, a', rfl, later⟩

/-! ## The lock -/

theorem run_runWithAdvisoryLock_session (session : w.raises .lockSession = true)
    (shows : a.Shows results early held) :
    ∃ c a', (w.runWithAdvisoryLock w.bootBurstLocked).run a = .error c a' ∧ a'.Shows results true held := by
  unfold runWithAdvisoryLock
  exact ⟨_, _, run_bind_error (call_raises session), shows_raised shows rfl⟩

theorem run_tryLock_query (query : w.raises .lockQuery = true) (shows : a.Shows results early held) :
    ∃ a', (w.tryLock w.bootBurstLocked).run a = .ok none a' ∧ a'.Shows results true held := by
  unfold tryLock
  rw [run_tryCatch_error (run_bind_error (call_raises query))]
  exact ⟨_, rfl, shows_raised shows rfl⟩

theorem run_tryLock_held (query : w.raises .lockQuery = false) (acquired : w.acquired = false)
    (unsent : a.queriesSent = 0) (shows : a.Shows results early held) :
    ∃ a', (w.tryLock w.bootBurstLocked).run a = .ok none a' ∧ a'.Shows results early true := by
  unfold tryLock
  refine ⟨{ a with heldByOther := true }, run_tryCatch_ok ?_, shows.recorded, shows.raisedEarly, rfl,
    fun _ => unsent⟩
  rw [run_bind_ok (call_ok query), acquired]
  rfl

theorem run_release (shows : a.Shows results early held) :
    ((w.raises .unlock = false ∧ w.raises .commit = false) ∧ w.release.run a = .ok () a) ∨
    ((w.raises .unlock = true ∨ w.raises .commit = true) ∧
      ∃ c a', w.release.run a = .error c a' ∧ a'.Shows results early held) := by
  unfold release
  cases unlock : w.raises .unlock with
  | true =>
      exact Or.inr ⟨Or.inl rfl, _, _, run_bind_error (call_raises unlock), shows_raised_late shows rfl⟩
  | false =>
      rw [run_bind_ok (call_ok unlock)]
      cases commit : w.raises .commit with
      | true =>
          exact Or.inr ⟨Or.inr rfl, _, _, call_raises commit, shows_raised_late shows rfl⟩
      | false => exact Or.inl ⟨⟨rfl, rfl⟩, call_ok commit⟩

theorem run_tryLock_raises (query : w.raises .lockQuery = false) (acquired : w.acquired = true)
    (raises : w.BurstRaises) (shows : a.Shows results early held) :
    ∃ a', (w.tryLock w.bootBurstLocked).run a = .ok none a' ∧ a'.Shows results true held := by
  obtain ⟨c, a₁, burst, after⟩ := run_bootBurstLocked_raises raises shows
  obtain ⟨c', a₂, failed, later⟩ := run_tryFinally_fails (run_map_error (f := some) burst) after
    ((run_release (w := w) after).imp And.right And.right)
  unfold tryLock
  refine ⟨a₂, (run_tryCatch_error (e := c') ?_).trans rfl, later⟩
  rw [run_bind_ok (call_ok query), if_pos acquired, failed]

theorem run_tryLock (query : w.raises .lockQuery = false) (acquired : w.acquired = true)
    (quiet : ¬ w.BurstRaises) (shows : a.Shows results early false) :
    ∃ returned a', (w.tryLock w.bootBurstLocked).run a = .ok returned a' ∧
      (returned.isNone = true ↔ w.ReleaseRaises) ∧
        a'.Shows (results ++ [w.burst]) (early || w.engineRaises) false := by
  unfold tryLock
  rcases run_bootBurstLocked quiet shows with ⟨open', a₁, burst, after⟩ | ⟨closed, c, a₁, burst, after⟩
  · have mapped := run_map_ok (f := some) burst
    rcases run_release (w := w) after with ⟨free, released⟩ | ⟨taken, c, a₂, released, later⟩
    · refine ⟨some w.burst, a₁, run_tryCatch_ok ?_, ?_, after⟩
      · rw [run_bind_ok (call_ok query), if_pos acquired, run_tryFinally_ok mapped, released]
      · simp [ReleaseRaises, open', free]
    · refine ⟨none, a₂, (run_tryCatch_error (e := c) ?_).trans rfl, ?_, later⟩
      · rw [run_bind_ok (call_ok query), if_pos acquired, run_tryFinally_ok mapped, released]
      · simp [ReleaseRaises, taken]
  · obtain ⟨c', a₂, failed, later⟩ := run_tryFinally_fails (run_map_error (f := some) burst) after
      ((run_release (w := w) after).imp And.right And.right)
    refine ⟨none, a₂, (run_tryCatch_error (e := c') ?_).trans rfl, ?_, later⟩
    · rw [run_bind_ok (call_ok query), if_pos acquired, failed]
    · simp [ReleaseRaises, closed]

theorem run_runWithAdvisoryLock {returned : Option BootBurstResult} (session : w.raises .lockSession = false)
    (tried : (w.tryLock w.bootBurstLocked).run a = .ok returned b) (shows : b.Shows results early held) :
    (w.raises .lockClose = false ∧
      (w.runWithAdvisoryLock w.bootBurstLocked).run a = .ok returned b) ∨
    (w.raises .lockClose = true ∧ ∃ b', b'.Shows results early held ∧
      (w.runWithAdvisoryLock w.bootBurstLocked).run a = .error .lockClose b') := by
  unfold runWithAdvisoryLock
  rw [run_bind_ok (call_ok session), run_tryFinally_ok tried]
  cases close : w.raises .lockClose with
  | true =>
      rw [call_raises close]
      exact Or.inr ⟨rfl, _, shows_raised_late shows rfl, rfl⟩
  | false =>
      rw [call_ok close]
      exact Or.inl ⟨rfl, rfl⟩

/-! ## The settings -/

theorem run_readSettings_raises (raises : w.raises .readEnabled ∨ w.enabled ∧ w.raises .loadConfig)
    (shows : a.Shows results early held) :
    ∃ c a', w.readSettings.run a = .error c a' ∧ a'.Shows results true held := by
  unfold readSettings
  cases read : w.raises .readEnabled with
  | true =>
      exact ⟨_, _, run_bind_error (call_raises read), shows_raised shows rfl⟩
  | false =>
      obtain ⟨enabled, load⟩ := raises.resolve_left (by simp [read])
      rw [run_bind_ok (call_ok read), if_pos enabled]
      exact ⟨_, _, run_bind_error (call_raises load), shows_raised shows rfl⟩

theorem run_readSettings (quiet : ¬ (w.raises .readEnabled ∨ w.enabled ∧ w.raises .loadConfig)) :
    w.readSettings.run a = if w.enabled then .ok (some w.config) a
      else .ok none { a with results := a.results ++ [disabledResult] } := by
  simp only [not_or, Bool.not_eq_true] at quiet
  obtain ⟨read, load⟩ := quiet
  unfold readSettings
  rw [run_bind_ok (call_ok read)]
  cases enabled : w.enabled with
  | true =>
      have load : w.raises .loadConfig = false := by simpa [enabled] using load
      rw [if_pos rfl, if_pos rfl, run_bind_ok (call_ok load)]
      rfl
  | false => rfl

theorem shows_start : Attempt.start.Shows [] false false := ⟨rfl, rfl, rfl, nofun⟩

theorem run_loadSettings_raises (raises : w.SettingsRaise) :
    ∃ c before a', w.loadSettings.run .start = .error c a' ∧
      (∀ result ∈ before, result = disabledResult) ∧ a'.Shows before true false := by
  unfold loadSettings
  cases session : w.raises .settingsSession with
  | true => exact ⟨_, [], _, run_bind_error (call_raises session), nofun, shows_raised shows_start rfl⟩
  | false =>
      rw [run_bind_ok (call_ok session)]
      have raises := raises.resolve_left (by simp [session])
      by_cases read : w.raises .readEnabled ∨ w.enabled ∧ w.raises .loadConfig
      · obtain ⟨c, a₁, body, after⟩ := run_readSettings_raises read shows_start
        rw [run_tryFinally_error body]
        cases close : w.raises .settingsClose with
        | true =>
            rw [call_raises close]
            exact ⟨_, [], _, rfl, nofun, shows_raised after rfl⟩
        | false =>
            rw [call_ok close]
            exact ⟨_, [], _, rfl, nofun, after⟩
      · have close := raises.resolve_left read
        have body := run_readSettings (a := .start) read
        cases enabled : w.enabled with
        | true =>
            rw [enabled, if_pos rfl] at body
            rw [run_tryFinally_ok body, call_raises close]
            exact ⟨_, [], _, rfl, nofun, shows_raised shows_start rfl⟩
        | false =>
            rw [enabled, if_neg Bool.false_ne_true] at body
            rw [run_tryFinally_ok body, call_raises close]
            exact ⟨_, [disabledResult], _, rfl, by simp, shows_raised (shows_recorded shows_start _) rfl⟩

theorem run_settings_raises (raises : w.SettingsRaise) :
    ∃ before reason a', w.settings.run .start = .ok none a' ∧
      (∀ result ∈ before, result = disabledResult) ∧
        a'.Shows (before ++ [.ofStatus .error reason 0 0]) true false := by
  obtain ⟨c, before, a₁, body, disabled, after⟩ := run_loadSettings_raises raises
  exact ⟨before, _, _, run_tryCatch_error body, disabled, shows_recorded after _⟩

theorem run_settings_enabled (quiet : ¬ w.SettingsRaise) (enabled : w.enabled = true) :
    w.settings.run .start = .ok (some w.config) .start := by
  simp only [SettingsRaise, not_or, Bool.not_eq_true] at quiet
  obtain ⟨session, read, close⟩ := quiet
  have body := run_readSettings (w := w) (a := .start) (by simpa using read)
  rw [if_pos enabled] at body
  apply run_tryCatch_ok
  rw [loadSettings, run_bind_ok (call_ok session), run_tryFinally_ok body, call_ok close]

theorem run_settings_disabled (quiet : ¬ w.SettingsRaise) (disabled : w.enabled = false) :
    ∃ a', w.settings.run .start = .ok none a' ∧ a'.Shows [disabledResult] false false := by
  simp only [SettingsRaise, not_or, Bool.not_eq_true] at quiet
  obtain ⟨session, read, close⟩ := quiet
  have body := run_readSettings (w := w) (a := .start) (by simpa using read)
  rw [if_neg (by simp [disabled])] at body
  refine ⟨_, run_tryCatch_ok ?_, shows_recorded shows_start disabledResult⟩
  rw [loadSettings, run_bind_ok (call_ok session), run_tryFinally_ok body, call_ok close]

/-! ## The whole attempt -/

theorem truthful_iff_of_shows (shows : a.Shows results early held) :
    a.Truthful ↔ (results.getLast?.map (·.status) = some .skippedLock ↔ held = true) ∧
      (early = true → results.getLast?.map (·.status) = some .error) ∧
        ∀ result ∈ results, result.status.ran = true → results.getLast? = some result := by
  have unsent : (a.heldByOther = true ∧ a.queriesSent = 0) ↔ held = true := by
    rw [shows.lockHeld]
    exact and_iff_left_of_imp shows.unsent
  constructor
  · rintro ⟨skipped, raised, kept⟩
    rw [unsent, Attempt.last, shows.recorded] at skipped
    rw [shows.raisedEarly, Attempt.last, shows.recorded] at raised
    rw [shows.recorded] at kept
    exact ⟨skipped, raised, kept⟩
  · rintro ⟨skipped, raised, kept⟩
    refine ⟨?_, ?_, ?_⟩
    · rwa [unsent, Attempt.last, shows.recorded]
    · rwa [shows.raisedEarly, Attempt.last, shows.recorded]
    · rwa [shows.recorded]

theorem not_truthful_of_raised (shows : a.Shows results true held)
    (other : results.getLast?.map (·.status) ≠ some .error) : ¬ a.Truthful := by
  rw [truthful_iff_of_shows shows]
  exact fun truthful => other (truthful.2.1 rfl)

theorem attempt_of_ok {x : Unit} (ran : w.bootBurstEntry.run .start = .ok x a) : w.attempt = a := by
  rw [attempt, ran]

theorem attempt_of_error (ran : w.bootBurstEntry.run .start = .error c a) : w.attempt = a := by
  rw [attempt, ran]

theorem truthful_of_settingsRaise (raises : w.SettingsRaise) : w.attempt.Truthful := by
  obtain ⟨before, reason, a, loaded, disabled, shows⟩ := run_settings_raises raises
  have entry : w.attempt = a := attempt_of_ok (x := ()) (by
    rw [bootBurstEntry, run_bind_ok loaded]
    rfl)
  rw [entry, truthful_iff_of_shows shows]
  refine ⟨by simp [BootBurstResult.ofStatus], by simp [BootBurstResult.ofStatus], fun result member ran => ?_⟩
  rcases List.mem_append.mp member with early | last
  · rw [disabled result early] at ran
    contradiction
  · rw [List.mem_singleton.mp last] at ran
    contradiction

theorem truthful_of_disabled (quiet : ¬ w.SettingsRaise) (disabled : w.enabled = false) :
    w.attempt.Truthful := by
  obtain ⟨a, loaded, shows⟩ := run_settings_disabled quiet disabled
  have entry : w.attempt = a := attempt_of_ok (x := ()) (by
    rw [bootBurstEntry, run_bind_ok loaded]
    rfl)
  rw [entry, truthful_iff_of_shows shows]
  simp [disabledResult, BootBurstResult.ofStatus]

theorem run_bootBurstEntry (quiet : ¬ w.SettingsRaise) (enabled : w.enabled = true) :
    w.bootBurstEntry.run .start = (w.burstWhenReady w.config).run .start := by
  rw [bootBurstEntry, run_bind_ok (run_settings_enabled quiet enabled)]

theorem run_burstWhenReady_unready (readiness : w.raises .readiness = false) (unready : w.ready = false)
    (config : BootBurstConfig) :
    ∃ a', (w.burstWhenReady config).run .start = .ok () a' ∧
      a'.Shows [unreadyResult config] false false := by
  unfold burstWhenReady
  rw [run_bind_ok (call_ok readiness), if_neg (by simp [unready])]
  exact ⟨_, rfl, shows_recorded shows_start _⟩

theorem run_burstWhenReady {returned : Option BootBurstResult} (readiness : w.raises .readiness = false)
    (ready : w.ready = true) (session : w.raises .lockSession = false)
    (tried : (w.tryLock w.bootBurstLocked).run .start = .ok returned a)
    (shows : a.Shows results early held) (config : BootBurstConfig) :
    (w.raises .lockClose = true ∧ ∃ b, (w.burstWhenReady config).run .start = .error .lockClose b ∧
      b.Shows results early held) ∨
    (w.raises .lockClose = false ∧ ∃ b, (w.burstWhenReady config).run .start = .ok () b ∧
      b.Shows (if returned.isNone then results ++ [skippedResult config] else results) early held) := by
  unfold burstWhenReady
  rw [run_bind_ok (call_ok readiness), if_pos ready]
  rcases run_runWithAdvisoryLock session tried shows with ⟨close, ran⟩ | ⟨close, b, later, ran⟩
  · refine Or.inr ⟨close, ?_⟩
    rw [run_bind_ok ran]
    cases returned with
    | none => exact ⟨_, rfl, shows_recorded shows _⟩
    | some result => exact ⟨_, rfl, shows⟩
  · exact Or.inl ⟨close, b, run_bind_error ran, later⟩

theorem truthful_of_burst (shows : a.Shows [w.burst] w.engineRaises false) : a.Truthful := by
  rw [truthful_iff_of_shows shows]
  refine ⟨by simp [burst_status_ne], fun raised => ?_, by simp⟩
  have started : w.due ≠ [] ∧ w.raises .engine = true := by simpa [engineRaises] using raised
  simp [burst_status_of_engine started.1 started.2]

theorem not_truthful_of_early (shows : a.Shows [] true held) : ¬ a.Truthful :=
  not_truthful_of_raised shows (by simp)

theorem not_truthful_of_skipped (shows : a.Shows [skippedResult w.config] true held) : ¬ a.Truthful :=
  not_truthful_of_raised shows (by simp [skippedResult, BootBurstResult.ofStatus])

theorem truthful_locked_iff (entry : w.bootBurstEntry.run .start = (w.burstWhenReady w.config).run .start)
    (readiness : w.raises .readiness = false) (ready : w.ready = true)
    (session : w.raises .lockSession = false) :
    w.attempt.Truthful ↔ w.raises .lockQuery = false ∧
      if w.acquired then ¬ w.BurstRaises ∧ (w.ReleaseRaises → w.raises .lockClose)
      else w.raises .lockClose = false := by
  have finish {returned : Option BootBurstResult} {results : List BootBurstResult} {early held : Bool}
      {a : Attempt} (tried : (w.tryLock w.bootBurstLocked).run .start = .ok returned a)
      (shows : a.Shows results early held) :
      (w.raises .lockClose = true ∧ w.attempt.Shows results early held) ∨
      (w.raises .lockClose = false ∧ w.attempt.Shows
        (if returned.isNone then results ++ [skippedResult w.config] else results) early held) := by
    rcases run_burstWhenReady readiness ready session tried shows w.config with
      ⟨close, b, ran, later⟩ | ⟨close, b, ran, later⟩
    · exact Or.inl ⟨close, attempt_of_error (entry.trans ran) ▸ later⟩
    · exact Or.inr ⟨close, attempt_of_ok (entry.trans ran) ▸ later⟩
  have lost {held : Bool} {a : Attempt} (tried : (w.tryLock w.bootBurstLocked).run .start = .ok none a)
      (shows : a.Shows [] true held) : ¬ w.attempt.Truthful := by
    rcases finish tried shows with ⟨-, later⟩ | ⟨-, later⟩
    · exact not_truthful_of_early later
    · exact not_truthful_of_skipped later
  cases query : w.raises .lockQuery with
  | true =>
      obtain ⟨a, tried, shows⟩ := run_tryLock_query query shows_start
      simp [lost tried shows]
  | false =>
      cases acquired : w.acquired with
      | false =>
          obtain ⟨a, tried, shows⟩ := run_tryLock_held query acquired rfl shows_start
          rcases finish tried shows with ⟨close, later⟩ | ⟨close, later⟩
          · rw [truthful_iff_of_shows later]
            simp [close]
          · rw [truthful_iff_of_shows later]
            simp [close, skippedResult, BootBurstResult.ofStatus, BootBurstStatus.ran]
      | true =>
          by_cases raises : w.BurstRaises
          · obtain ⟨a, tried, shows⟩ := run_tryLock_raises query acquired raises shows_start
            simp [lost tried shows, raises]
          · obtain ⟨returned, a, tried, none, shows⟩ := run_tryLock query acquired raises shows_start
            rcases finish tried shows with ⟨close, later⟩ | ⟨close, later⟩
            · simp [truthful_of_burst later, raises, close]
            · by_cases release : w.ReleaseRaises
              · rw [none.mpr release, if_pos rfl] at later
                rw [truthful_iff_of_shows later]
                simp [skippedResult, BootBurstResult.ofStatus, release, close]
              · rw [Bool.eq_false_iff.mpr (mt none.mp release), if_neg Bool.false_ne_true] at later
                simp [truthful_of_burst later, raises, release]

/-- The status of an attempt is truthful exactly when each exception of it is one that
`_boot_burst_entry` tells from a lock that is held. -/
theorem attempt_truthful_iff (w : World) : w.attempt.Truthful ↔ w.Accounted := by
  by_cases raises : w.SettingsRaise
  · exact iff_of_true (truthful_of_settingsRaise raises) (Or.inl raises)
  cases enabled : w.enabled with
  | false => exact iff_of_true (truthful_of_disabled raises enabled) (Or.inr (Or.inl enabled))
  | true =>
      have entry := run_bootBurstEntry raises enabled
      unfold Accounted
      cases readiness : w.raises .readiness with
      | true =>
          have ran : (w.burstWhenReady w.config).run .start = _ := run_bind_error (call_raises readiness)
          rw [attempt_of_error (entry.trans ran)]
          simpa [raises, enabled] using not_truthful_of_early (shows_raised shows_start rfl)
      | false =>
          cases ready : w.ready with
          | false =>
              obtain ⟨a, ran, shows⟩ := run_burstWhenReady_unready readiness ready w.config
              rw [attempt_of_ok (entry.trans ran), truthful_iff_of_shows shows]
              simp [unreadyResult, BootBurstResult.ofStatus]
          | true =>
              cases session : w.raises .lockSession with
              | true =>
                  obtain ⟨c, a, tried, shows⟩ := run_runWithAdvisoryLock_session session shows_start
                  have ran : (w.burstWhenReady w.config).run .start = .error c a := by
                    rw [burstWhenReady, run_bind_ok (call_ok readiness), if_pos ready, run_bind_error tried]
                  rw [attempt_of_error (entry.trans ran)]
                  simpa [raises, enabled] using not_truthful_of_early shows
              | false =>
                  rw [truthful_locked_iff entry readiness ready session]
                  simp [raises, enabled]

/-- The burst has completed when the lock cannot be given back. -/
def unlockFails : World where
  raises c := c = .unlock
  text _ := "server closed the connection unexpectedly"
  enabled := true
  config := ⟨2000, false, 60, 50, 8⟩
  ready := true
  acquired := true
  selected := [("example.com", 1)]
  ttls _ := none
  now := 0
  stats due := runBurst (fun _ _ => ⟨some 300, none⟩) due
  sentBefore := 0

theorem completed_burst_skipped : ¬ unlockFails.attempt.Truthful := by
  have last : unlockFails.attempt.last = some .skippedLock := by decide +kernel
  have free : unlockFails.attempt.heldByOther = false := by decide +kernel
  intro truthful
  have held := (truthful.skipped.mp last).1
  rw [free] at held
  contradiction

end World

end PowerBlockade.Precache
