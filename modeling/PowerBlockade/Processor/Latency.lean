import PowerBlockade.Processor.Dnstap

/-!
# The measured latency

`dnstapLatency` against the instants of the two timestamps, and the milliseconds of the event.
-/

namespace PowerBlockade.Processor
open Lib

def queryInstant (msg : DnstapMessage) : Int := unixTime msg.queryTimeSec msg.queryTimeNsec

def responseInstant (msg : DnstapMessage) : Int := unixTime msg.responseTimeSec msg.responseTimeNsec

/-- An instant is the exact one, nanoseconds of a second and more carried, unless its seconds wrap. -/
theorem unixTime_eq {sec : UInt64} {nsec : UInt32}
    (fits : Int.bmod sec.toNat (2 ^ 64) + (nsec.toNat : Int) / GoTime.secondNanos + 719162 * 86400 < 2 ^ 63) :
    unixTime sec nsec =
      (Int.bmod sec.toNat (2 ^ 64) + 719162 * 86400) * GoTime.secondNanos + nsec.toNat := by
  have low := Int.le_bmod (x := sec.toNat) (m := 2 ^ 64) (by decide)
  have carried : 0 ≤ (nsec.toNat : Int) / GoTime.secondNanos := Int.ediv_nonneg (by omega) (by decide)
  have exact : GoTime.unix (Int.bmod sec.toNat (2 ^ 64)) nsec.toNat =
      (Int.bmod sec.toNat (2 ^ 64) + 719162 * 86400) * GoTime.secondNanos + nsec.toNat := by
    rw [GoTime.unix, Int.bmod_eq_of_le (by omega) (by omega)]
    simp only [GoTime.cast_secondNanos]
    omega
  exact exact

theorem sub_instants (msg : DnstapMessage) : GoTime.sub (responseInstant msg) (queryInstant msg) =
    max (-2 ^ 63) (min (responseInstant msg - queryInstant msg) (2 ^ 63 - 1)) :=
  GoTime.sub_eq (GoTime.unix_inRange _ _) (GoTime.unix_inRange _ _)

theorem dnstapLatency_eq (msg : DnstapMessage) : dnstapLatency msg =
    if msg.queryTimeSec ≠ 0 ∧ msg.responseTimeSec ≠ 0 ∧ queryInstant msg < responseInstant msg then
      some (min (responseInstant msg - queryInstant msg) (2 ^ 63 - 1))
    else none := by
  have clamped := sub_instants msg
  change (if msg.queryTimeSec = 0 ∨ msg.responseTimeSec = 0 then none
    else if GoTime.sub (responseInstant msg) (queryInstant msg) ≤ 0 then none
    else some (GoTime.sub (responseInstant msg) (queryInstant msg))) = _
  by_cases unset : msg.queryTimeSec = 0 ∨ msg.responseTimeSec = 0
  · rw [if_pos unset, if_neg]
    rintro ⟨query, response, -⟩
    exact unset.elim query response
  · obtain ⟨query, response⟩ := not_or.mp unset
    rw [if_neg unset]
    by_cases follows : queryInstant msg < responseInstant msg
    · rw [if_neg (by omega), if_pos ⟨query, response, follows⟩]
      exact congrArg some (by omega)
    · rw [if_pos (by omega), if_neg fun all => follows all.2.2]

theorem eq_min_of_dnstapLatency {msg : DnstapMessage} {d : Int} (measured : dnstapLatency msg = some d) :
    d = min (responseInstant msg - queryInstant msg) (2 ^ 63 - 1) := by
  rw [dnstapLatency_eq, eq_comm, Option.some_eq_ite_none_right] at measured
  exact Option.some.inj measured.2

/-- What is measured of a frame, and what its event says. -/
structure LatencyExact (msg : DnstapMessage) : Prop where
  ok : (dnstapLatency msg).isSome = true ↔
    msg.queryTimeSec ≠ 0 ∧ msg.responseTimeSec ≠ 0 ∧ queryInstant msg < responseInstant msg
  positive : ∀ d, dnstapLatency msg = some d → 0 < d
  exact : responseInstant msg - queryInstant msg < 2 ^ 63 →
    ∀ d, dnstapLatency msg = some d → d = responseInstant msg - queryInstant msg
  saturated : 2 ^ 63 ≤ responseInstant msg - queryInstant msg →
    ∀ d, dnstapLatency msg = some d → d = 2 ^ 63 - 1
  milliseconds : ∀ env now ev, process env now msg = some ev → 0 ≤ ev.latencyMS.1 ∧
    (dnstapLatency msg = none → ev.latencyMS.1 = 0) ∧
    ∀ d, dnstapLatency msg = some d →
      ev.latencyMS.1 * millisecondNanos ≤ d ∧ d < (ev.latencyMS.1 + 1) * millisecondNanos

theorem latency_exact (msg : DnstapMessage) : LatencyExact msg := by
  refine ⟨?_, fun d measured => (dnstapLatency_bounds measured).1, ?_, ?_, ?_⟩
  · rw [dnstapLatency_eq]
    split <;> simp_all
  · intro fits d measured
    have value := eq_min_of_dnstapLatency measured
    omega
  · intro beyond d measured
    have value := eq_min_of_dnstapLatency measured
    omega
  · intro env now ev accepted
    obtain ⟨clientIP, dnsMsg, question, -, -, rfl⟩ := process_some accepted
    simp only [makeEvent]
    rw [latencyMS_val]
    cases measured : dnstapLatency msg with
    | none => exact ⟨le_rfl, fun _ => rfl, by simp⟩
    | some d =>
        have positive := (dnstapLatency_bounds measured).1
        simp only [Option.elim_some, millisecondNanos]
        refine ⟨by omega, by simp, ?_⟩
        rintro _ ⟨⟩
        omega

end PowerBlockade.Processor
