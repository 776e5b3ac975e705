import PowerBlockade.Blocking.Override

/-!
# How far the lists of an update job depend on each other

The lists are downloaded one by one, but share one transaction.
-/

namespace PowerBlockade.Blocking
open Lib

variable (fetch : Fetch) (now : DateTime)

/-! ## What the job is for -/

/-- The entries table takes the domains, and the list's row their number. -/
def Accepted (domains : Finset String) : Prop :=
  (∀ domain ∈ domains, fitsText 255 domain = true) ∧ fitsInteger 32 domains.card = true

instance (domains : Finset String) : Decidable (Accepted domains) :=
  inferInstanceAs (Decidable (_ ∧ _))

def fetched (bl : Blocklist) : Option (Finset String) :=
  match fetch bl.url bl.format with
  | .ok domains => if Accepted domains then some domains else none
  | .error _ => none

/-- What the job is to make of a list, whatever the other lists are. -/
def UpdatedAlone (bl left : Blocklist) : Prop :=
  if isDue bl now = some true then
    match fetched fetch bl with
    | some domains =>
        left.entries = domains ∧ left.lastUpdateStatus = some "success" ∧ left.lastUpdated = some now
    | none =>
        left.entries = bl.entries ∧ left.lastUpdateStatus = some "failed" ∧ left.lastUpdated = some now
  else left = bl

structure Isolated (db : Database) : Prop where
  lists : List.Forall₂ (UpdatedAlone fetch now) db.blocklists
    (updateBlocklistsJob fetch now db).db.blocklists
  regenerated : (∃ bl ∈ db.blocklists, isDue bl now = some true ∧ (fetched fetch bl).isSome = true) →
    ∃ zones, regenerateRpz (updateBlocklistsJob fetch now db).db now = zones ∧
      (updateBlocklistsJob fetch now db).combined = some zones.1 ∧
      (updateBlocklistsJob fetch now db).whitelist = some zones.2
  otherwise : (∀ bl ∈ db.blocklists, isDue bl now = some true → fetched fetch bl = none) →
    (updateBlocklistsJob fetch now db).db.sources = db.sources

/-! ## What spoils it -/

/-- The list makes the job fail as a whole: a due time out of range, domains that the tables do not
take, or the text of an exception that they do not take. -/
def spoils (bl : Blocklist) : Bool :=
  match isDue bl now with
  | none => true
  | some false => false
  | some true => match fetch bl.url bl.format with
      | .ok domains => !decide (Accepted domains)
      | .error error => !storableText (Python.take 500 error)

variable {fetch now} {db : Database} {bl : Blocklist}

theorem isDue_updated_now (updated : bl.lastUpdated = some now) : isDue bl now ≠ some true := by
  unfold isDue
  rw [updated]
  split
  · rename_i frequent
    intro due
    obtain ⟨next, reached, past⟩ := Option.map_eq_some_iff.1 due
    have later := DateTime.add_eq_some.1 reached
    have positive : 0 < bl.updateFrequencyHours * hourMicros := Int.mul_pos frequent.2 (by decide)
    have order := DateTime.le_iff.1 (of_decide_eq_true past)
    omega
  · simp

theorem not_updatedAlone_self (due : isDue bl now = some true) : ¬ UpdatedAlone fetch now bl bl := by
  intro updated
  rw [UpdatedAlone, if_pos due] at updated
  cases got : fetched fetch bl with
  | none =>
      rw [got] at updated
      exact isDue_updated_now updated.2.2 due
  | some domains =>
      rw [got] at updated
      exact isDue_updated_now updated.2.2 due

theorem updatedAlone_of_not_due (idle : isDue bl now ≠ some true) : UpdatedAlone fetch now bl bl := by
  rw [UpdatedAlone, if_neg idle]

/-! ## One list -/

theorem updateBlocklist_of_sound (sound : spoils fetch now bl = false) (stored : bl.storable = true) :
    ∃ left, updateBlocklist fetch now bl = some left ∧ UpdatedAlone fetch now bl left.1 ∧
      left.1.storable = true := by
  unfold spoils at sound
  cases due : isDue bl now with
  | none => simp [due] at sound
  | some isNow =>
      cases isNow with
      | false => exact ⟨(bl, false), by simp [updateBlocklist, due], updatedAlone_of_not_due (by simp [due]), stored⟩
      | true =>
          cases got : fetch bl.url bl.format with
          | error error =>
              have shown : storableText (Python.take 500 error) = true := by simpa [due, got] using sound
              refine ⟨(markFailed bl (Python.take 500 error) now, false), by simp [updateBlocklist, due, got], ?_, ?_⟩
              · simp [UpdatedAlone, due, fetched, got, markFailed]
              · have counted : fitsInteger 32 bl.entryCount = true := by
                  simp only [Blocklist.storable, decide_eq_true_eq] at stored
                  exact stored.2
                simp [Blocklist.storable, markFailed, shown, counted]
          | ok domains =>
              have accepted : Accepted domains := by simpa [due, got] using sound
              refine ⟨(markSuccess bl domains now, true), ?_, ?_, ?_⟩
              · simpa [updateBlocklist, due, got] using accepted.1
              · simp [UpdatedAlone, due, fetched, got, accepted, markSuccess]
              · simp [Blocklist.storable, markSuccess, accepted.2]

theorem updateBlocklist_of_spoils (spoiled : spoils fetch now bl = true) {left : Blocklist × Bool}
    (updated : updateBlocklist fetch now bl = some left) : left.1.storable = false := by
  unfold spoils at spoiled
  cases due : isDue bl now with
  | none => simp [updateBlocklist, due] at updated
  | some isNow =>
      cases isNow with
      | false => simp [due] at spoiled
      | true =>
          cases got : fetch bl.url bl.format with
          | error error =>
              have left : (markFailed bl (Python.take 500 error) now, false) = left := by
                simpa [updateBlocklist, due, got] using updated
              have shown : storableText (Python.take 500 error) = false := by simpa [due, got] using spoiled
              rw [← left]
              simp [Blocklist.storable, markFailed, shown]
          | ok domains =>
              have parts : (∀ domain ∈ domains, fitsText 255 domain = true) ∧
                  (markSuccess bl domains now, true) = left := by
                simpa [updateBlocklist, due, got] using updated
              have refused : ¬ Accepted domains := by simpa [due, got] using spoiled
              have wide : fitsInteger 32 domains.card = false :=
                Bool.eq_false_iff.2 fun fits => refused ⟨parts.1, fits⟩
              rw [← parts.2]
              simp [Blocklist.storable, markSuccess, wide]

/-! ## The whole job -/

theorem job_db_of_spoils (member : bl ∈ db.blocklists) (spoiled : spoils fetch now bl = true) :
    (updateBlocklistsJob fetch now db).db = db := by
  unfold updateBlocklistsJob
  cases looped : db.blocklists.mapM (updateBlocklist fetch now) with
  | none => rfl
  | some results =>
      obtain ⟨left, kept, updated⟩ := exists_of_mapM looped member
      have lost : (results.map (·.1)).all (·.storable) = false :=
        List.all_eq_false.2 ⟨left.1, List.mem_map_of_mem kept, by simp [updateBlocklist_of_spoils spoiled updated]⟩
      simp only [lost]
      split <;> rfl

variable (fetch) in
theorem job_db_of_idle (idle : ∀ bl ∈ db.blocklists, isDue bl now ≠ some true) :
    (updateBlocklistsJob fetch now db).db = db := by
  unfold updateBlocklistsJob
  cases looped : db.blocklists.mapM (updateBlocklist fetch now) with
  | none => rfl
  | some results =>
      have each : results.map (·.1) =
          db.blocklists.map fun bl => ((updateBlocklist fetch now bl).getD (bl, false)).1 :=
        map_of_mapM (by simp +contextual) looped
      have alone : ∀ bl ∈ db.blocklists, ((updateBlocklist fetch now bl).getD (bl, false)).1 = bl := by
        intro bl member
        unfold updateBlocklist
        cases due : isDue bl now with
        | none => rfl
        | some isNow =>
            cases isNow with
            | false => rfl
            | true => exact absurd due (idle bl member)
      have same : results.map (·.1) = db.blocklists := by
        rw [each, List.map_congr_left alone, List.map_id']
      simp only [same, ite_self]
      split <;> rfl

theorem job_of_sound (sound : ∀ bl ∈ db.blocklists, spoils fetch now bl = false)
    (stored : ∀ bl ∈ db.blocklists, bl.storable = true) :
    (updateBlocklistsJob fetch now db).completed = true ∧
      List.Forall₂ (UpdatedAlone fetch now) db.blocklists
        (updateBlocklistsJob fetch now db).db.blocklists := by
  have each : ∀ bl ∈ db.blocklists, ∀ left, updateBlocklist fetch now bl = some left →
      UpdatedAlone fetch now bl left.1 ∧ left.1.storable = true := by
    intro bl member left updated
    obtain ⟨found, same, alone, kept⟩ := updateBlocklist_of_sound (sound bl member) (stored bl member)
    cases same.symm.trans updated
    exact ⟨alone, kept⟩
  cases looped : db.blocklists.mapM (updateBlocklist fetch now) with
  | none =>
      obtain ⟨bl, member, broken⟩ := mapM_eq_none.1 looped
      obtain ⟨found, same, _⟩ := updateBlocklist_of_sound (sound bl member) (stored bl member)
      exact nomatch same.symm.trans broken
  | some results =>
      have lists : List.Forall₂ (UpdatedAlone fetch now) db.blocklists (results.map (·.1)) :=
        List.forall₂_map_right_iff.2
          (forall₂_of_mapM (fun bl member left updated => (each bl member left updated).1) looped)
      have commits : (results.map (·.1)).all (·.storable) = true := by
        rw [List.all_map, List.all_eq_true]
        exact forall_of_mapM (fun bl member left updated => (each bl member left updated).2) looped
      unfold updateBlocklistsJob
      simp only [looped, commits, if_true]
      split <;> exact ⟨rfl, lists⟩

theorem refreshes_of_fetched (due : isDue bl now = some true) (got : (fetched fetch bl).isSome = true) :
    refreshes fetch now bl = true := by
  unfold fetched at got
  cases result : fetch bl.url bl.format with
  | error error => simp [result] at got
  | ok domains => simp [refreshes, due, result, Except.isOk, Except.toBool]

theorem job_regenerates (completed : (updateBlocklistsJob fetch now db).completed = true)
    (some' : db.blocklists.any (refreshes fetch now) = true) :
    (updateBlocklistsJob fetch now db).combined =
        some (regenerateRpz (updateBlocklistsJob fetch now db).db now).1 ∧
      (updateBlocklistsJob fetch now db).whitelist =
        some (regenerateRpz (updateBlocklistsJob fetch now db).db now).2 := by
  unfold updateBlocklistsJob at completed ⊢
  cases looped : db.blocklists.mapM (updateBlocklist fetch now) with
  | none => simp [looped, Outcome.refused] at completed
  | some results =>
      have counted : results.any (·.2) = true := by
        rw [← some']
        exact any_of_mapM (fun bl left updated => (updateBlocklist_some updated).2.2.2) looped
      simp only [looped, counted, if_true] at completed ⊢
      simp only [completed, if_true, and_self]

theorem refreshedEntries_of_none (sound : spoils fetch now bl = false)
    (none' : isDue bl now = some true → fetched fetch bl = none) :
    refreshedEntries fetch now bl = bl.entries := by
  unfold refreshedEntries
  split
  · rename_i due
    have lost := none' due
    cases got : fetch bl.url bl.format with
    | error error => rfl
    | ok domains =>
        have accepted : Accepted domains := by simpa [spoils, due, got] using sound
        simp [fetched, got, accepted] at lost
  · rfl

theorem job_sources (completed : (updateBlocklistsJob fetch now db).completed = true)
    (sound : ∀ bl ∈ db.blocklists, spoils fetch now bl = false)
    (none' : ∀ bl ∈ db.blocklists, isDue bl now = some true → fetched fetch bl = none) :
    (updateBlocklistsJob fetch now db).db.sources = db.sources := by
  cases updateBlocklistsJob_spec fetch now db with
  | inl broken => rw [broken.2, Outcome.refused]
  | inr whole =>
      obtain ⟨_, updated, _, sources, _, left⟩ := whole
      rw [left, if_pos completed, sources, Database.sources]
      congr 1
      simp only [listSources_eq_filterMap]
      apply List.filterMap_congr
      intro bl member
      rw [refreshedEntries_of_none (sound bl member) (none' bl member)]

/-- What the job makes of each list depends on that list alone exactly when no list spoils the
transaction, or there is nothing to do. -/
theorem updateBlocklistsJob_isolated_iff (fetch : Fetch) (now : DateTime) (db : Database)
    (stored : ∀ bl ∈ db.blocklists, bl.storable = true) :
    Isolated fetch now db ↔
      (∀ bl ∈ db.blocklists, isDue bl now ≠ some true) ∨
        ∀ bl ∈ db.blocklists, spoils fetch now bl = false := by
  constructor
  · intro isolated
    by_contra neither
    simp only [not_or, not_forall, ne_eq, not_not] at neither
    obtain ⟨⟨due, listed, isNow⟩, spoiled, member, spoiling⟩ := neither
    have lists := isolated.lists
    rw [job_db_of_spoils member (Bool.eq_true_of_not_eq_false spoiling)] at lists
    exact not_updatedAlone_self isNow (List.forall₂_same.1 lists due listed)
  · intro either
    cases either with
    | inl idle =>
        have same := job_db_of_idle fetch idle
        constructor
        · rw [same]
          exact List.forall₂_same.2 fun bl member => updatedAlone_of_not_due (idle bl member)
        · intro found
          obtain ⟨bl, member, due, _⟩ := found
          exact absurd due (idle bl member)
        · intro _
          rw [same]
    | inr sound =>
        obtain ⟨completed, lists⟩ := job_of_sound sound stored
        constructor
        · exact lists
        · intro found
          obtain ⟨bl, member, due, got⟩ := found
          have refreshed := List.any_eq_true.2 ⟨bl, member, refreshes_of_fetched due got⟩
          exact ⟨_, rfl, job_regenerates completed refreshed⟩
        · exact job_sources completed sound

/-! ## A domain that is too long -/

def longDomain (n : Nat) : String := String.ofList (List.replicate n 'a')

theorem length_longDomain (n : Nat) : (longDomain n).length = n := by simp [longDomain]

def trackersList : Blocklist :=
  { adsList with name := "trackers", url := "https://lists.example/trackers.txt" }

def oneTooLong : Fetch := fun url _ =>
  if url = trackersList.url then .ok {longDomain 256} else .ok {"ads.example"}

theorem not_accepted_longDomain {n : Nat} (long : 255 < n) : ¬ Accepted {longDomain n} := by
  intro accepted
  have fits := of_decide_eq_true (accepted.1 (longDomain n) (Finset.mem_singleton_self _))
  rw [length_longDomain] at fits
  omega

theorem oneTooLong_not_isolated :
    (updateBlocklistsJob oneTooLong noon ⟨[], [adsList, trackersList], []⟩).db =
        ⟨[], [adsList, trackersList], []⟩ ∧
      ¬ Isolated oneTooLong noon ⟨[], [adsList, trackersList], []⟩ := by
  have spoiled : spoils oneTooLong noon trackersList = true := by
    have due : isDue trackersList noon = some true := rfl
    have got : oneTooLong trackersList.url trackersList.format = .ok {longDomain 256} := if_pos rfl
    simp [spoils, due, got, not_accepted_longDomain (show 255 < 256 by simp)]
  have listed : trackersList ∈ (⟨[], [adsList, trackersList], []⟩ : Database).blocklists :=
    List.mem_cons_of_mem _ (List.mem_singleton_self _)
  have same := job_db_of_spoils listed spoiled
  refine ⟨same, fun isolated => ?_⟩
  have lists := isolated.lists
  rw [same] at lists
  exact not_updatedAlone_self rfl (List.forall₂_same.1 lists adsList List.mem_cons_self)

def oneFailed : Fetch := fun url _ =>
  if url = adsList.url then .error "timed out" else .ok {"t.example"}

theorem oneFailed_isolated : Isolated oneFailed noon ⟨[], [adsList, trackersList], []⟩ := by
  apply (updateBlocklistsJob_isolated_iff oneFailed noon ⟨[], [adsList, trackersList], []⟩ (by decide)).2
  refine Or.inr (List.forall_mem_cons.2 ⟨?_, List.forall_mem_singleton.2 ?_⟩)
  · decide
  · decide

end PowerBlockade.Blocking
