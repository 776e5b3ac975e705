import PowerBlockade.Lib.Lists
import PowerBlockade.Rollups.Window

/-!
# The history chart

`analytics_history` for a user who is logged in and a database session in UTC. SQL and Python each
compute the starts of the buckets, and the chart joins them by equality.
-/

namespace PowerBlockade.Rollups
open Lib Primary

inductive TimeWindow
  | hour
  | sixHours
  | twelveHours
  | day
  | threeDays
  | week
deriving DecidableEq

namespace TimeWindow

def text : TimeWindow → String
  | hour => "1h"
  | sixHours => "6h"
  | twelveHours => "12h"
  | day => "24h"
  | threeDays => "3d"
  | week => "7d"

def hours : TimeWindow → Nat
  | hour => 1
  | sixHours => 6
  | twelveHours => 12
  | day => 24
  | threeDays => 72
  | week => 168

def bucketMinutes (window : TimeWindow) : Nat :=
  if window.hours ≤ 1 then 1
  else if window.hours ≤ 6 then 5
  else if window.hours ≤ 24 then 15
  else if window.hours ≤ 72 then 60
  else 120

def bucketMicros (window : TimeWindow) : Nat := window.bucketMinutes * minuteMicros

def labelFormat (window : TimeWindow) : String := if window.hours ≤ 24 then "%H:%M" else "%m/%d %H:%M"

end TimeWindow

/-! ## The query -/

@[ext] structure BucketStats where
  total : Nat
  blocked : Nat
  cached : Nat
deriving DecidableEq

def bucketStats (events : List DNSQueryEvent) : BucketStats where
  total := events.length
  blocked := events.countP (·.blocked)
  -- a NULL latency is not below anything
  cached := events.countP fun event => !event.blocked && event.latencyMs.any (· < 5)

/-- The `bucket` of the query; the minute of an hour modulo 120 is that minute. -/
def sqlBucket (bucketMin : Nat) (ts : Int) : Int :=
  ts - ts % minuteMicros - ts % hourMicros / minuteMicros % bucketMin * minuteMicros

def shown (includeInternal : Bool) (event : DNSQueryEvent) : Bool := includeInternal || !event.isInternal

def queried (includeInternal : Bool) (since : DateTime) (events : List DNSQueryEvent) : List DNSQueryEvent :=
  events.filter fun event => since.micros ≤ event.ts && shown includeInternal event

/-- The rows, unless one of their buckets is no `datetime`. -/
def historyRows (bucketMin : Nat) (events : List DNSQueryEvent) : Option (List (Int × BucketStats)) :=
  let groups := groupBy (fun event => sqlBucket bucketMin event.ts) events
  if ∀ group ∈ groups, (DateTime.ofMicros? group.1).isSome then
    some (groups.map fun group => (group.1, bucketStats group.2))
  else none

/-! ## The buckets of the chart -/

theorem firstBucket_inRange (bucketMin : Nat) (since : DateTime) :
    since.startOfHour.micros + since.minute / bucketMin * bucketMin * minuteMicros < maxMicros := by
  have inRange := since.inRange
  have whole := Nat.div_mul_le_self since.minute bucketMin
  have minutes := Nat.mul_le_mul_right minuteMicros whole
  have below : since.minute * minuteMicros ≤ since.micros % hourMicros := Nat.div_mul_le_self _ _
  simp only [DateTime.startOfHour]
  have hour := Nat.mod_le since.micros hourMicros
  omega

/-- `since` at the start of its minute, and then of its bucket in the hour. -/
def firstBucket (bucketMin : Nat) (since : DateTime) : DateTime where
  micros := since.startOfHour.micros + since.minute / bucketMin * bucketMin * minuteMicros
  inRange := firstBucket_inRange bucketMin since

/-- The loop of the chart; `none` is the `OverflowError` of a bucket that would start after the year
9999. -/
def stepBuckets (width : Nat) (now : DateTime) : Nat → DateTime → Option (List DateTime)
  | 0, _ => some []
  | fuel + 1, current =>
      if current ≤ now then do
        let next ← current.add width
        let later ← stepBuckets width now fuel next
        return current :: later
      else some []

def historyBuckets (window : TimeWindow) (since now : DateTime) : Option (List DateTime) :=
  let first := firstBucket window.bucketMinutes since
  stepBuckets window.bucketMicros now ((now.micros - first.micros) / window.bucketMicros + 1) first

/-- The user's time zone: its name, and `astimezone` and `strftime` with it, which may overflow. -/
structure UserZone where
  name : String
  strftime : String → DateTime → Option String

structure History where
  labels : List String
  total : List Nat
  blocked : List Nat
  cached : List Nat
  window : String
  timezone : String

def chart (zone : UserZone) (window : TimeWindow) (buckets : List DateTime)
    (rows : List (Int × BucketStats)) (labels : List String) : History :=
  let stats := buckets.map fun bucket => (rows.find? (·.1 = bucket.micros)).elim ⟨0, 0, 0⟩ (·.2)
  { labels
    total := stats.map (·.total)
    blocked := stats.map (·.blocked)
    cached := stats.map (·.cached)
    window := window.text
    timezone := zone.name }

/-- `none` is an exception, which the client gets as a 500. -/
def analyticsHistory (zone : UserZone) (events : List DNSQueryEvent) (window : TimeWindow)
    (includeInternal : Bool) (now : DateTime) : Option History := do
  let since ← windowStart now window.hours
  let buckets ← historyBuckets window since now
  let rows ← historyRows window.bucketMinutes (queried includeInternal since events)
  let labels ← buckets.mapM (zone.strftime window.labelFormat)
  return chart zone window buckets rows labels

/-! ## What the chart should say -/

def selected (includeInternal : Bool) (since now : DateTime) (events : List DNSQueryEvent) :
    List DNSQueryEvent :=
  events.filter fun event => since.micros ≤ event.ts && event.ts ≤ now.micros && shown includeInternal event

/-- The events whose timestamp lies in a bucket's interval. -/
def pointStats (width : Nat) (events : List DNSQueryEvent) (bucket : DateTime) : BucketStats :=
  bucketStats <| events.filter fun event => bucket.micros ≤ event.ts && event.ts < bucket.micros + width

/-- The three series of a chart with these points. -/
def series (points : List BucketStats) : List Nat × List Nat × List Nat :=
  (points.map (·.total), points.map (·.blocked), points.map (·.cached))

structure Conserved (events : List DNSQueryEvent) (window : TimeWindow) (includeInternal : Bool)
    (since now : DateTime) (buckets : List DateTime) (history : History) : Prop where
  total : history.total.sum = (bucketStats (selected includeInternal since now events)).total
  blocked : history.blocked.sum = (bucketStats (selected includeInternal since now events)).blocked
  cached : history.cached.sum = (bucketStats (selected includeInternal since now events)).cached
  points : (history.total, history.blocked, history.cached) =
    series (buckets.map (pointStats window.bucketMicros (selected includeInternal since now events)))
  starts : ∀ event ∈ queried includeInternal since events,
    ∃ bucket ∈ buckets, (bucket.micros : Int) = sqlBucket window.bucketMinutes event.ts

def Charts (zone : UserZone) (events : List DNSQueryEvent) (window : TimeWindow) (includeInternal : Bool)
    (now : DateTime) : Prop :=
  ∃ since buckets history, windowStart now window.hours = some since ∧
    historyBuckets window since now = some buckets ∧
    analyticsHistory zone events window includeInternal now = some history ∧
    Conserved events window includeInternal since now buckets history

/-- The times are within Python's years, no event shown is after now, and over a week all of them lie in
hours that are an even number of hours after the first. -/
def Chartable (zone : UserZone) (events : List DNSQueryEvent) (window : TimeWindow) (includeInternal : Bool)
    (now : DateTime) : Prop :=
  ∃ since, windowStart now window.hours = some since ∧
    now.micros - (now.micros - (firstBucket window.bucketMinutes since).micros) % window.bucketMicros +
      window.bucketMicros < maxMicros ∧
    (∀ bucket, firstBucket window.bucketMinutes since ≤ bucket → bucket ≤ now →
      (bucket.micros - (firstBucket window.bucketMinutes since).micros) % window.bucketMicros = 0 →
        (zone.strftime window.labelFormat bucket).isSome) ∧
    ∀ event ∈ events, shown includeInternal event → since.micros ≤ event.ts →
      event.ts ≤ now.micros ∧
        (window = .week → (event.ts / hourMicros - since.micros / hourMicros) % 2 = 0)

/-! ## The two grids -/

theorem minuteMicros_eq : minuteMicros = 60000000 := rfl

/-- What SQL cuts the time into: its buckets are never longer than an hour. -/
def TimeWindow.gridMicros (window : TimeWindow) : Nat := min window.bucketMicros hourMicros

variable {window : TimeWindow} {since now current : DateTime} {ts : Int}

theorem sqlBucket_eq (window : TimeWindow) (ts : Int) :
    sqlBucket window.bucketMinutes ts = ts - ts % window.gridMicros := by
  unfold sqlBucket TimeWindow.gridMicros TimeWindow.bucketMicros
  rw [hourMicros_eq, minuteMicros_eq]
  cases window with
  | hour =>
      change ts - ts % (60000000 : Nat) - ts % (3600000000 : Nat) / (60000000 : Nat) % (1 : Nat) * (60000000 : Nat) =
        ts - ts % (60000000 : Nat)
      omega
  | sixHours =>
      change ts - ts % (60000000 : Nat) - ts % (3600000000 : Nat) / (60000000 : Nat) % (5 : Nat) * (60000000 : Nat) =
        ts - ts % (300000000 : Nat)
      omega
  | twelveHours | day =>
      change ts - ts % (60000000 : Nat) - ts % (3600000000 : Nat) / (60000000 : Nat) % (15 : Nat) * (60000000 : Nat) =
        ts - ts % (900000000 : Nat)
      omega
  | threeDays =>
      change ts - ts % (60000000 : Nat) - ts % (3600000000 : Nat) / (60000000 : Nat) % (60 : Nat) * (60000000 : Nat) =
        ts - ts % (3600000000 : Nat)
      omega
  | week =>
      change ts - ts % (60000000 : Nat) - ts % (3600000000 : Nat) / (60000000 : Nat) % (120 : Nat) * (60000000 : Nat) =
        ts - ts % (3600000000 : Nat)
      omega

theorem firstBucket_eq (bucketMin : Nat) (since : DateTime) :
    ((firstBucket bucketMin since).micros : Int) = sqlBucket bucketMin since.micros := by
  have split := Nat.div_add_mod' since.minute bucketMin
  have rest : (since.micros : Int) % hourMicros / minuteMicros % bucketMin = (since.minute % bucketMin : Nat) := by
    rw [DateTime.minute]
    norm_cast
  have minute : since.minute = since.micros % hourMicros / minuteMicros := rfl
  rw [sqlBucket, rest]
  simp only [firstBucket, DateTime.startOfHour, hourMicros_eq, minuteMicros_eq] at minute ⊢
  omega

theorem firstBucket_micros (window : TimeWindow) (since : DateTime) :
    (firstBucket window.bucketMinutes since).micros = since.micros - since.micros % window.gridMicros := by
  have int := (firstBucket_eq window.bucketMinutes since).trans (sqlBucket_eq window since.micros)
  have less := Nat.mod_le since.micros window.gridMicros
  omega

theorem bucketMicros_pos (window : TimeWindow) : 0 < window.bucketMicros := by
  cases window <;> decide

theorem gridMicros_pos (window : TimeWindow) : 0 < window.gridMicros := by
  cases window <;> decide

/-! ## The loop of the chart -/

theorem stepBuckets_next {width fuel : Nat} {next : DateTime} (added : current.add width = some next)
    (enough : now.micros < current.micros + (fuel + 1) * width) :
    next.micros = current.micros + width ∧ now.micros < next.micros + fuel * width := by
  have moved := DateTime.add_eq_some.1 added
  have micros : next.micros = current.micros + width := by omega
  rw [Nat.add_mul] at enough
  exact ⟨micros, by omega⟩

theorem aligned_next {width start micros : Nat} (after : start + width ≤ micros) :
    (micros - start) % width = (micros - (start + width)) % width := by
  have shift : micros - start = micros - (start + width) + width := by omega
  rw [shift, Nat.add_mod_right]

theorem mem_stepBuckets {width fuel : Nat} {buckets : List DateTime} (positive : 0 < width)
    (enough : now.micros < current.micros + fuel * width)
    (stepped : stepBuckets width now fuel current = some buckets) :
    buckets.Pairwise (· < ·) ∧ ∀ bucket, bucket ∈ buckets ↔
      current ≤ bucket ∧ bucket ≤ now ∧ (bucket.micros - current.micros) % width = 0 := by
  induction fuel generalizing current buckets with
  | zero =>
      cases stepped
      refine ⟨.nil, fun bucket => ⟨(absurd · List.not_mem_nil), fun ⟨after, before, _⟩ => ?_⟩⟩
      rw [DateTime.le_iff] at after before
      omega
  | succ fuel ih =>
      unfold stepBuckets at stepped
      split at stepped
      · rename_i within
        obtain ⟨next, added, stepped⟩ := Option.bind_eq_some_iff.1 stepped
        obtain ⟨later, rest, same⟩ := Option.bind_eq_some_iff.1 stepped
        cases same
        obtain ⟨micros, less⟩ := stepBuckets_next added enough
        obtain ⟨sorted, members⟩ := ih less rest
        refine ⟨List.pairwise_cons.2 ⟨fun bucket member => ?_, sorted⟩, fun bucket => ?_⟩
        · have after := ((members bucket).1 member).1
          rw [DateTime.le_iff] at after
          rw [DateTime.lt_iff]
          omega
        · rw [List.mem_cons, members, DateTime.le_iff, DateTime.le_iff, DateTime.le_iff, micros]
          constructor
          · rintro (rfl | ⟨after, before, aligned⟩)
            · exact ⟨le_rfl, within, by rw [Nat.sub_self, Nat.zero_mod]⟩
            · exact ⟨by omega, before, (aligned_next after).trans aligned⟩
          · rintro ⟨after, before, aligned⟩
            by_cases here : bucket = current
            · exact Or.inl here
            · have apart : bucket.micros ≠ current.micros := fun same => here (DateTime.ext same)
              have far : width ≤ bucket.micros - current.micros :=
                Nat.le_of_dvd (by omega) (Nat.dvd_of_mod_eq_zero aligned)
              have next : current.micros + width ≤ bucket.micros := by omega
              exact Or.inr ⟨next, before, (aligned_next next).symm.trans aligned⟩
      · rename_i beyond
        cases stepped
        refine ⟨.nil, fun bucket => ⟨(absurd · List.not_mem_nil), fun ⟨after, before, _⟩ => ?_⟩⟩
        exact absurd (le_trans after before) beyond

theorem add_eq_none {width : Nat} (failed : current.add width = none) :
    maxMicros ≤ current.micros + width := by
  by_contra inside
  have moved : current.add width = some ⟨current.micros + width, not_le.1 inside⟩ :=
    DateTime.add_eq_some.2 (Nat.cast_add _ _)
  rw [moved] at failed
  contradiction

theorem isSome_stepBuckets {width fuel : Nat}
    (enough : now.micros < current.micros + fuel * width) (within : current ≤ now) :
    (stepBuckets width now fuel current).isSome ↔
      now.micros - (now.micros - current.micros) % width + width < maxMicros := by
  induction fuel generalizing current with
  | zero =>
      rw [DateTime.le_iff] at within
      omega
  | succ fuel ih =>
      rw [stepBuckets, if_pos within]
      rw [DateTime.le_iff] at within
      cases added : current.add width with
      | none =>
          have beyond := add_eq_none added
          have less := Nat.mod_le (now.micros - current.micros) width
          refine iff_of_false Bool.false_ne_true fun inside => ?_
          omega
      | some next =>
          obtain ⟨micros, less⟩ := stepBuckets_next added enough
          have same : ((some next).bind fun next => (stepBuckets width now fuel next).bind fun later =>
              some (current :: later)).isSome = (stepBuckets width now fuel next).isSome := by
            rw [Option.bind_some]
            cases stepBuckets width now fuel next <;> rfl
          refine (iff_of_eq (congrArg (· = true) same)).trans ?_
          by_cases again : next ≤ now
          · rw [ih less again]
            rw [DateTime.le_iff, micros] at again
            rw [aligned_next again, micros]
          · have stopped : (stepBuckets width now fuel next).isSome = true := by
              cases fuel with
              | zero => rfl
              | succ fuel => rw [stepBuckets, if_neg again]; rfl
            rw [DateTime.le_iff] at again
            have small : (now.micros - current.micros) % width = now.micros - current.micros :=
              Nat.mod_eq_of_lt (by omega)
            have range := next.inRange
            rw [small]
            exact iff_of_true stopped (by omega)

theorem firstBucket_le (window : TimeWindow) (since : DateTime) :
    firstBucket window.bucketMinutes since ≤ since := by
  rw [DateTime.le_iff, firstBucket_micros]
  exact Nat.sub_le _ _

theorem enough_fuel (window : TimeWindow) (first now : Nat) :
    now < first + ((now - first) / window.bucketMicros + 1) * window.bucketMicros := by
  have split := Nat.div_add_mod' (now - first) window.bucketMicros
  have less := Nat.mod_lt (now - first) (bucketMicros_pos window)
  rw [Nat.add_mul]
  omega

theorem mem_historyBuckets {buckets : List DateTime} (found : historyBuckets window since now = some buckets) :
    buckets.Pairwise (· < ·) ∧ ∀ bucket, bucket ∈ buckets ↔ firstBucket window.bucketMinutes since ≤ bucket ∧
      bucket ≤ now ∧
      (bucket.micros - (firstBucket window.bucketMinutes since).micros) % window.bucketMicros = 0 :=
  mem_stepBuckets (bucketMicros_pos window) (enough_fuel window _ _) found

theorem isSome_historyBuckets (before : since ≤ now) : (historyBuckets window since now).isSome ↔
    now.micros - (now.micros - (firstBucket window.bucketMinutes since).micros) % window.bucketMicros +
      window.bucketMicros < maxMicros :=
  isSome_stepBuckets (enough_fuel window _ _) ((firstBucket_le window since).trans before)

/-! ## The join -/

theorem historyRows_eq_some {bucketMin : Nat} {events : List DNSQueryEvent} {rows : List (Int × BucketStats)} :
    historyRows bucketMin events = some rows ↔
      (∀ event ∈ events, (DateTime.ofMicros? (sqlBucket bucketMin event.ts)).isSome) ∧
        rows = (groupBy (fun event => sqlBucket bucketMin event.ts) events).map
          fun group => (group.1, bucketStats group.2) := by
  have keys : (∀ group ∈ groupBy (fun event : DNSQueryEvent => sqlBucket bucketMin event.ts) events,
      (DateTime.ofMicros? group.1).isSome) ↔
        ∀ event ∈ events, (DateTime.ofMicros? (sqlBucket bucketMin event.ts)).isSome := by
    constructor
    · intro inRange event member
      have grouped : (sqlBucket bucketMin event.ts, events.filter fun other =>
          sqlBucket bucketMin other.ts = sqlBucket bucketMin event.ts) ∈
            groupBy (fun event : DNSQueryEvent => sqlBucket bucketMin event.ts) events :=
        mem_groupBy.2 ⟨List.mem_map_of_mem member, rfl⟩
      exact inRange _ grouped
    · intro inRange group member
      obtain ⟨event, there, same⟩ := List.mem_map.1 (mem_groupBy.1 member).1
      exact same ▸ inRange event there
  simp only [historyRows, keys]
  split
  · rename_i inRange
    rw [Option.some.injEq, and_iff_right inRange, eq_comm]
  · rename_i outside
    exact iff_of_false (Option.some_ne_none rows).symm fun found => outside found.1

theorem find_groupBy (bucketMin : Nat) (events : List DNSQueryEvent) (start : Int) :
    (((groupBy (fun event => sqlBucket bucketMin event.ts) events).map
        fun group => (group.1, bucketStats group.2)).find? (·.1 = start)).elim ⟨0, 0, 0⟩ (·.2) =
      bucketStats (events.filter fun event => sqlBucket bucketMin event.ts = start) := by
  have one := filter_groupBy (fun event : DNSQueryEvent => sqlBucket bucketMin event.ts) events start
  rw [List.find?_map, ← List.head?_filter]
  simp only [Function.comp_def, one]
  split
  · rfl
  · rename_i absent
    have none : events.filter (fun event => sqlBucket bucketMin event.ts = start) = [] := by
      refine List.filter_eq_nil_iff.2 fun event member same => absent ?_
      exact List.mem_map.2 ⟨event, member, of_decide_eq_true same⟩
    rw [none]
    rfl

/-- The point of a bucket, whatever the events: those that SQL puts into it. -/
def joined (window : TimeWindow) (events : List DNSQueryEvent) (bucket : DateTime) : BucketStats :=
  bucketStats (events.filter fun event => sqlBucket window.bucketMinutes event.ts = bucket.micros)

variable {zone : UserZone} {events : List DNSQueryEvent} {includeInternal : Bool} {buckets : List DateTime}
  {history : History}

theorem chart_series {rows : List (Int × BucketStats)} {events : List DNSQueryEvent}
    (fetched : historyRows window.bucketMinutes events = some rows) (labels : List String) :
    ((chart zone window buckets rows labels).total, (chart zone window buckets rows labels).blocked,
      (chart zone window buckets rows labels).cached) = series (buckets.map (joined window events)) := by
  have each (bucket : DateTime) : (rows.find? (·.1 = (bucket.micros : Int))).elim ⟨0, 0, 0⟩ (·.2) =
      joined window events bucket := by
    rw [(historyRows_eq_some.1 fetched).2]
    exact find_groupBy window.bucketMinutes events bucket.micros
  have points : (buckets.map fun bucket => (rows.find? (·.1 = bucket.micros)).elim ⟨0, 0, 0⟩ (·.2)) =
      buckets.map (joined window events) := List.map_congr_left fun bucket _ => each bucket
  rw [← points]
  rfl

theorem analyticsHistory_parts (start : windowStart now window.hours = some since)
    (found : historyBuckets window since now = some buckets)
    (answered : analyticsHistory zone events window includeInternal now = some history) :
    (∀ bucket ∈ buckets, (zone.strftime window.labelFormat bucket).isSome) ∧
      (history.total, history.blocked, history.cached) =
        series (buckets.map (joined window (queried includeInternal since events))) := by
  obtain ⟨since', start', answered⟩ := Option.bind_eq_some_iff.1 answered
  obtain rfl : since = since' := Option.some.inj (start.symm.trans start')
  obtain ⟨buckets', found', answered⟩ := Option.bind_eq_some_iff.1 answered
  obtain rfl : buckets = buckets' := Option.some.inj (found.symm.trans found')
  obtain ⟨rows, fetched, answered⟩ := Option.bind_eq_some_iff.1 answered
  obtain ⟨labels, labelled, same⟩ := Option.bind_eq_some_iff.1 answered
  rw [← Option.some.inj same]
  refine ⟨fun bucket member => ?_, chart_series fetched labels⟩
  obtain ⟨label, -, formed⟩ := exists_of_mapM labelled member
  rw [formed]
  rfl

theorem analyticsHistory_answers (start : windowStart now window.hours = some since)
    (found : historyBuckets window since now = some buckets)
    (inRange : ∀ event ∈ queried includeInternal since events,
      (DateTime.ofMicros? (sqlBucket window.bucketMinutes event.ts)).isSome)
    (labelled : ∀ bucket ∈ buckets, (zone.strftime window.labelFormat bucket).isSome) :
    ∃ history, analyticsHistory zone events window includeInternal now = some history := by
  obtain ⟨rows, fetched⟩ : ∃ rows,
      historyRows window.bucketMinutes (queried includeInternal since events) = some rows :=
    ⟨_, historyRows_eq_some.2 ⟨inRange, rfl⟩⟩
  cases formed : buckets.mapM (zone.strftime window.labelFormat) with
  | none =>
      obtain ⟨bucket, member, none⟩ := mapM_eq_none.1 formed
      have some := labelled bucket member
      rw [none] at some
      contradiction
  | some labels =>
      refine ⟨chart zone window buckets rows labels, ?_⟩
      refine Option.bind_eq_some_iff.2 ⟨since, start, ?_⟩
      refine Option.bind_eq_some_iff.2 ⟨buckets, found, ?_⟩
      refine Option.bind_eq_some_iff.2 ⟨rows, fetched, ?_⟩
      exact Option.bind_eq_some_iff.2 ⟨labels, formed, rfl⟩

/-! ## Which buckets meet -/

theorem sqlBucket_spec (window : TimeWindow) (ts : Int) :
    sqlBucket window.bucketMinutes ts ≤ ts ∧
      ts < sqlBucket window.bucketMinutes ts + window.bucketMicros := by
  have positive : (0 : Int) < window.gridMicros := Int.ofNat_lt.2 (gridMicros_pos window)
  have low := Int.emod_nonneg ts positive.ne'
  have high := Int.emod_lt_of_pos ts positive
  have fine : window.gridMicros ≤ window.bucketMicros := min_le_left _ _
  rw [sqlBucket_eq]
  omega

theorem sqlBucket_mono (window : TimeWindow) {s t : Int} (le : s ≤ t) :
    sqlBucket window.bucketMinutes s ≤ sqlBucket window.bucketMinutes t := by
  have positive : (0 : Int) < window.gridMicros := Int.ofNat_lt.2 (gridMicros_pos window)
  have quotients := Int.mul_le_mul_of_nonneg_left (Int.ediv_le_ediv positive le) positive.le
  have left := Int.mul_ediv_add_emod s window.gridMicros
  have right := Int.mul_ediv_add_emod t window.gridMicros
  rw [sqlBucket_eq, sqlBucket_eq]
  omega

/-- The two grids meet everywhere, but for a week at every other hour. -/
theorem aligned_iff (window : TimeWindow) (s t : Int) :
    (sqlBucket window.bucketMinutes t - sqlBucket window.bucketMinutes s) % window.bucketMicros = 0 ↔
      (window = .week → (t / hourMicros - s / hourMicros) % 2 = 0) := by
  rw [sqlBucket_eq, sqlBucket_eq, hourMicros_eq]
  cases window with
  | hour =>
      change (t - t % (60000000 : Nat) - (s - s % (60000000 : Nat))) % (60000000 : Nat) = 0 ↔ _
      exact iff_of_true (by omega) nofun
  | sixHours =>
      change (t - t % (300000000 : Nat) - (s - s % (300000000 : Nat))) % (300000000 : Nat) = 0 ↔ _
      exact iff_of_true (by omega) nofun
  | twelveHours | day =>
      change (t - t % (900000000 : Nat) - (s - s % (900000000 : Nat))) % (900000000 : Nat) = 0 ↔ _
      exact iff_of_true (by omega) nofun
  | threeDays =>
      change (t - t % (3600000000 : Nat) - (s - s % (3600000000 : Nat))) % (3600000000 : Nat) = 0 ↔ _
      exact iff_of_true (by omega) nofun
  | week =>
      change (t - t % (3600000000 : Nat) - (s - s % (3600000000 : Nat))) % (7200000000 : Nat) = 0 ↔ _
      rw [forall_prop_of_true rfl]
      omega

theorem meets_iff (found : historyBuckets window since now = some buckets) (after : since.micros ≤ ts) :
    (∃ bucket ∈ buckets, (bucket.micros : Int) = sqlBucket window.bucketMinutes ts) ↔
      sqlBucket window.bucketMinutes ts ≤ now.micros ∧
        (window = .week → (ts / hourMicros - since.micros / hourMicros) % 2 = 0) := by
  have first := firstBucket_eq window.bucketMinutes since
  have later := sqlBucket_mono window after
  have members := (mem_historyBuckets found).2
  rw [← aligned_iff window since.micros ts, ← first]
  constructor
  · rintro ⟨bucket, member, same⟩
    obtain ⟨_, before, aligned⟩ := (members bucket).1 member
    rw [DateTime.le_iff] at before
    rw [← same]
    refine ⟨Int.ofNat_le.2 before, ?_⟩
    rw [← Int.ofNat_sub (by omega)]
    exact congrArg Nat.cast aligned
  · rintro ⟨before, aligned⟩
    have inRange := now.inRange
    have nat : ((sqlBucket window.bucketMinutes ts).toNat : Int) = sqlBucket window.bucketMinutes ts :=
      Int.toNat_of_nonneg (by omega)
    refine ⟨⟨(sqlBucket window.bucketMinutes ts).toNat, by omega⟩, (members _).2 ⟨?_, ?_, ?_⟩, nat⟩
    · rw [DateTime.le_iff]
      dsimp only
      omega
    · rw [DateTime.le_iff]
      dsimp only
      omega
    · rw [← nat, ← Int.ofNat_sub (by omega)] at aligned
      exact Int.ofNat_inj.1 aligned

/-- Starts that lie on one grid are equal, or a bucket apart. -/
theorem sqlBucket_eq_iff (found : historyBuckets window since now = some buckets) {bucket other : DateTime}
    (member : bucket ∈ buckets) (there : other ∈ buckets)
    (same : (other.micros : Int) = sqlBucket window.bucketMinutes ts) :
    sqlBucket window.bucketMinutes ts = bucket.micros ↔
      bucket.micros ≤ ts ∧ ts < bucket.micros + window.bucketMicros := by
  have members := (mem_historyBuckets found).2
  obtain ⟨first, -, aligned⟩ := (members bucket).1 member
  obtain ⟨first', -, aligned'⟩ := (members other).1 there
  obtain ⟨low, high⟩ := sqlBucket_spec window ts
  constructor
  · intro here
    rw [← here]
    exact ⟨low, high⟩
  · rintro ⟨after, before⟩
    rw [DateTime.le_iff] at first first'
    have near : bucket.micros < other.micros + window.bucketMicros := by omega
    have near' : other.micros < bucket.micros + window.bucketMicros := by omega
    obtain ⟨i, steps⟩ := Nat.dvd_of_mod_eq_zero aligned
    obtain ⟨j, steps'⟩ := Nat.dvd_of_mod_eq_zero aligned'
    have index : i = j := by
      rcases lt_trichotomy i j with less | equal | more
      · have apart := Nat.mul_le_mul_left window.bucketMicros (Nat.succ_le_of_lt less)
        rw [Nat.mul_succ] at apart
        omega
      · exact equal
      · have apart := Nat.mul_le_mul_left window.bucketMicros (Nat.succ_le_of_lt more)
        rw [Nat.mul_succ] at apart
        omega
    rw [← same]
    subst index
    omega

/-! ## The sums -/

theorem sum_joined (found : historyBuckets window since now = some buckets)
    (covered : ∀ event ∈ events, ∃ bucket ∈ buckets,
      (bucket.micros : Int) = sqlBucket window.bucketMinutes event.ts)
    (count : List DNSQueryEvent → Nat) (nil : count [] = 0)
    (append : ∀ xs ys, count (xs ++ ys) = count xs + count ys)
    (perm : ∀ xs ys, xs.Perm ys → count xs = count ys) :
    (buckets.map fun bucket => count (events.filter fun event =>
      sqlBucket window.bucketMinutes event.ts = bucket.micros)).sum = count events := by
  have distinct : (buckets.map fun bucket => (bucket.micros : Int)).Nodup := by
    refine List.Nodup.map (fun s t same => DateTime.ext (Int.ofNat_inj.1 same)) ?_
    exact (mem_historyBuckets found).1.imp fun less => ne_of_lt less
  have placed : ∀ event ∈ events, sqlBucket window.bucketMinutes event.ts ∈
      buckets.map fun bucket => (bucket.micros : Int) := by
    intro event member
    obtain ⟨bucket, there, same⟩ := covered event member
    exact List.mem_map.2 ⟨bucket, there, same⟩
  have flat := flatten_groupsOn_perm distinct placed
  calc _ = ((groupsOn (fun event : DNSQueryEvent => sqlBucket window.bucketMinutes event.ts)
          (buckets.map fun bucket => (bucket.micros : Int)) events).map count).sum := by
        rw [groupsOn, List.map_map, List.map_map]
        rfl
    _ = count _ := sum_map_flatten count nil append _
    _ = count events := perm _ _ flat

theorem sums_joined (found : historyBuckets window since now = some buckets)
    (covered : ∀ event ∈ events, ∃ bucket ∈ buckets,
      (bucket.micros : Int) = sqlBucket window.bucketMinutes event.ts)
    (points : (history.total, history.blocked, history.cached) = series (buckets.map (joined window events))) :
    history.total.sum = (bucketStats events).total ∧ history.blocked.sum = (bucketStats events).blocked ∧
      history.cached.sum = (bucketStats events).cached := by
  rw [series, Prod.mk.injEq, Prod.mk.injEq] at points
  obtain ⟨total, blocked, cached⟩ := points
  rw [total, blocked, cached, List.map_map, List.map_map, List.map_map]
  refine ⟨?_, ?_, ?_⟩
  · exact sum_joined found covered List.length rfl (fun _ _ => List.length_append)
      fun _ _ same => same.length_eq
  · exact sum_joined found covered (List.countP _) rfl (fun _ _ => List.countP_append)
      fun _ _ same => same.countP_eq _
  · exact sum_joined found covered (List.countP _) rfl (fun _ _ => List.countP_append)
      fun _ _ same => same.countP_eq _

theorem mem_queried {event : DNSQueryEvent} : event ∈ queried includeInternal since events ↔
    event ∈ events ∧ since.micros ≤ event.ts ∧ shown includeInternal event = true := by
  rw [queried, List.mem_filter, Bool.and_eq_true, decide_eq_true_eq]

theorem selected_eq_filter (includeInternal : Bool) (since now : DateTime) (events : List DNSQueryEvent) :
    selected includeInternal since now events =
      (queried includeInternal since events).filter fun event => event.ts ≤ (now.micros : Int) := by
  rw [selected, queried, List.filter_filter]
  refine List.filter_congr fun event _ => ?_
  rw [Bool.and_right_comm, Bool.and_comm]

theorem since_le_now (start : windowStart now window.hours = some since) : since ≤ now := by
  have distance := DateTime.before_eq_some start
  rw [hourMicros_eq] at distance
  rw [DateTime.le_iff]
  omega

theorem chartable_of_charts (charts : Charts zone events window includeInternal now) :
    Chartable zone events window includeInternal now := by
  obtain ⟨since, buckets, history, start, found, answered, conserved⟩ := charts
  obtain ⟨labelled, points⟩ := analyticsHistory_parts start found answered
  have members := (mem_historyBuckets found).2
  have some : (historyBuckets window since now).isSome := by rw [found]; rfl
  refine ⟨since, start, (isSome_historyBuckets (since_le_now start)).1 some, ?_, ?_⟩
  · exact fun bucket first last aligned => labelled bucket ((members bucket).2 ⟨first, last, aligned⟩)
  · intro event member isShown after
    have asked : event ∈ queried includeInternal since events := mem_queried.2 ⟨member, after, isShown⟩
    refine ⟨?_, ((meets_iff found after).1 (conserved.starts event asked)).2⟩
    have all := (sums_joined found conserved.starts points).1.symm.trans conserved.total
    rw [selected_eq_filter] at all
    have every := List.length_filter_eq_length_iff.1 all.symm
    exact of_decide_eq_true (every event asked)

theorem charts_of_chartable (chartable : Chartable zone events window includeInternal now) :
    Charts zone events window includeInternal now := by
  obtain ⟨since, start, late, labelled, inside⟩ := chartable
  obtain ⟨buckets, found⟩ := Option.isSome_iff_exists.1 ((isSome_historyBuckets (since_le_now start)).2 late)
  have members := (mem_historyBuckets found).2
  have within : ∀ event ∈ queried includeInternal since events, event.ts ≤ now.micros := by
    intro event asked
    obtain ⟨member, after, isShown⟩ := mem_queried.1 asked
    exact (inside event member isShown after).1
  have covered : ∀ event ∈ queried includeInternal since events, ∃ bucket ∈ buckets,
      (bucket.micros : Int) = sqlBucket window.bucketMinutes event.ts := by
    intro event asked
    obtain ⟨member, after, isShown⟩ := mem_queried.1 asked
    refine (meets_iff found after).2 ⟨?_, (inside event member isShown after).2⟩
    exact (sqlBucket_spec window event.ts).1.trans (within event asked)
  have inRange : ∀ event ∈ queried includeInternal since events,
      (DateTime.ofMicros? (sqlBucket window.bucketMinutes event.ts)).isSome := by
    intro event asked
    obtain ⟨bucket, -, same⟩ := covered event asked
    rw [← same, DateTime.ofMicros?_micros]
    rfl
  have labels : ∀ bucket ∈ buckets, (zone.strftime window.labelFormat bucket).isSome := by
    intro bucket member
    obtain ⟨first, last, aligned⟩ := (members bucket).1 member
    exact labelled bucket first last aligned
  obtain ⟨history, answered⟩ := analyticsHistory_answers start found inRange labels
  obtain ⟨-, points⟩ := analyticsHistory_parts start found answered
  have whole : selected includeInternal since now events = queried includeInternal since events := by
    rw [selected_eq_filter]
    exact List.filter_eq_self.2 fun event asked => decide_eq_true (within event asked)
  obtain ⟨total, blocked, cached⟩ := sums_joined found covered points
  refine ⟨since, buckets, history, start, found, answered, ?_⟩
  rw [← whole] at total blocked cached points
  refine ⟨total, blocked, cached, points.trans (congrArg series ?_), covered⟩
  refine List.map_congr_left fun bucket member => congrArg bucketStats (List.filter_congr fun event asked => ?_)
  rw [whole] at asked
  obtain ⟨other, there, same⟩ := covered event asked
  rw [← Bool.decide_and]
  exact decide_eq_decide.2 (sqlBucket_eq_iff found member there same)

def utc : UserZone where
  name := "UTC"
  strftime format t :=
    let clock := padded 2 t.hour ++ ':' :: padded 2 t.minute
    let date := Date.ofDays (t.micros / dayMicros)
    some <| String.ofList <| if format = "%H:%M" then clock
      else padded 2 date.month ++ '/' :: (padded 2 date.day ++ ' ' :: clock)

/-- 2021-07-30 at 12:30, and an event of 11:15. -/
def halfPastTwelve : DateTime := ⟨738000 * dayMicros + 12 * hourMicros + 30 * minuteMicros, by decide⟩

def quarterPastEleven : DNSQueryEvent where
  eventId := none
  eventSeq := none
  ts := 738000 * dayMicros + 11 * hourMicros + 15 * minuteMicros
  nodeId := none
  clientIp := "192.168.1.20"
  clientId := none
  qname := "example.com"
  qtype := 1
  rcode := 0
  blocked := false
  blockReason := none
  blocklistName := none
  latencyMs := some 3
  isInternal := false

theorem odd_hour_dropped :
    ¬ ∀ (zone : UserZone) (events : List DNSQueryEvent) (window : TimeWindow) (includeInternal : Bool)
      (now : DateTime), Charts zone events window includeInternal now := by
  intro charts
  obtain ⟨since, start, -, -, inside⟩ :=
    chartable_of_charts (charts utc [quarterPastEleven] .week false halfPastTwelve)
  have micros := DateTime.before_eq_some start
  have hours : (TimeWindow.week.hours : Int) = 168 := rfl
  have now : (halfPastTwelve.micros : Int) = 738000 * 86400000000 + 12 * 3600000000 + 30 * 60000000 := rfl
  have ts : quarterPastEleven.ts = 738000 * 86400000000 + 11 * 3600000000 + 15 * 60000000 := rfl
  rw [hours, now, hourMicros_eq] at micros
  have even := (inside quarterPastEleven (List.mem_singleton_self _) rfl (by rw [ts]; omega)).2 rfl
  rw [ts, hourMicros_eq] at even
  omega

theorem charts_iff_chartable (zone : UserZone) (events : List DNSQueryEvent) (window : TimeWindow)
    (includeInternal : Bool) (now : DateTime) :
    Charts zone events window includeInternal now ↔ Chartable zone events window includeInternal now :=
  ⟨chartable_of_charts, charts_of_chartable⟩

end PowerBlockade.Rollups
