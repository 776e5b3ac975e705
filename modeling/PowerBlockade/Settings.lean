import PowerBlockade.Python

/-!
# The settings table
-/

namespace PowerBlockade

abbrev Settings := List (String × String)

/-- `DEFAULTS`: what `get_setting` answers for a key without a row. -/
def defaults : Settings :=
  [("retention_events_days", "15"),
   ("retention_rollups_days", "365"),
   ("retention_node_metrics_days", "365"),
   ("rollup_enabled", "true"),
   ("ptr_resolution_enabled", "true"),
   ("precache_enabled", "true"),
   ("precache_domain_count", "5000"),
   ("precache_refresh_minutes", "30"),
   ("precache_ignore_ttl", "false"),
   ("precache_custom_refresh_minutes", "60"),
   ("precache_dns_server", "dnsdist"),
   ("precache_dns_port", "53"),
   ("precache_max_queries_per_pass", "2000"),
   ("precache_boot_burst_enabled", "true"),
   ("precache_boot_burst_concurrency", "8"),
   ("precache_boot_burst_qps", "50"),
   ("timezone", "UTC"),
   ("health_cache_hit_warning", "50"),
   ("health_cache_hit_critical", "20"),
   ("health_servfail_warning", "5"),
   ("health_timeout_warning", "2"),
   ("health_slow_warning", "10"),
   ("health_stale_minutes", "5"),
   ("health_offline_minutes", "30"),
   ("health_quarantine_threshold_minutes", "1440"),
   ("blocking_state", "enabled")]

namespace Settings

def get (db : Settings) (key : String) : String :=
  match db.lookup key with
  | some value => value
  | none => (defaults.lookup key).getD ""

def set : Settings → String → String → Settings
  | [], key, value => [(key, value)]
  | row :: rest, key, value => if row.1 = key then (key, value) :: rest else row :: set rest key value

def getOr (db : Settings) (key fallback : String) : String :=
  if db.get key = "" then fallback else db.get key

theorem lookup_set (db : Settings) (key value other : String) :
    (db.set key value).lookup other = if other = key then some value else db.lookup other := by
  induction db with
  | nil => simp [set, List.lookup_cons]; grind
  | cons row rest ih => unfold set; grind

@[simp] theorem get_set_self (db : Settings) (key value : String) :
    (db.set key value).get key = value := by
  simp [get, lookup_set]

def getBlockingState (db : Settings) : String := db.getOr "blocking_state" "enabled"

def setBlockingState (db : Settings) (state : String) : Settings := db.set "blocking_state" state

theorem getBlockingState_setBlockingState (db : Settings) {state : String} (nonempty : state ≠ "") :
    (db.setBlockingState state).getBlockingState = state := by
  simp [getBlockingState, getOr, setBlockingState, nonempty]

/-- `int(get_setting(db, key) or fallback)`; `none` is its `ValueError`. -/
def getInt (db : Settings) (key fallback : String) : Option Int := Python.int (db.getOr key fallback)

def getRetentionEventsDays (db : Settings) : Option Int := db.getInt "retention_events_days" "15"

def getRetentionRollupsDays (db : Settings) : Option Int := db.getInt "retention_rollups_days" "365"

def getHealthStaleMinutes (db : Settings) : Option Int := db.getInt "health_stale_minutes" "5"

def getHealthOfflineMinutes (db : Settings) : Option Int := db.getInt "health_offline_minutes" "30"

def getHealthQuarantineThresholdMinutes (db : Settings) : Option Int :=
  db.getInt "health_quarantine_threshold_minutes" "1440"

end Settings

end PowerBlockade
