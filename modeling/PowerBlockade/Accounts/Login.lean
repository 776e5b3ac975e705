import PowerBlockade.Accounts.Users

/-!
# Who can log in

The last start that names a user decides the password; a start whose password the stored hash takes
leaves the hash. The id of a user stays, and the sessions with it.
-/

namespace PowerBlockade.Accounts
open Lib

variable {bcrypt : Bcrypt} {users : Users} {boots : List Boot}

/-! ## The user of a name -/

theorem withUsername_eq_some {username : String} {id : Nat} {user : User}
    (found : withUsername users username = some (id, user)) :
    users.get id = some user ∧ user.username = username := by
  refine ⟨SerialTable.get_eq_some_iff.mpr (List.mem_of_find?_eq_some found), ?_⟩
  simpa using List.find?_some found

theorem withUsername_insert (users : Users) (new : User) (username : String) :
    withUsername (users.insert new) username =
      (withUsername users username).or (if new.username = username then some (users.nextId, new) else none) := by
  rw [withUsername, SerialTable.insert, SerialTable.rows, List.find?_append, List.find?_singleton]
  simp only [decide_eq_true_eq]
  rfl

theorem withUsername_map {f : Nat → User → User} (keeps : ∀ id user, (f id user).username = user.username)
    (username : String) : withUsername (users.map f) username =
      (withUsername users username).map fun row => (row.1, f row.1 row.2) := by
  rw [withUsername, SerialTable.map, SerialTable.rows, List.find?_map, withUsername]
  congr 2
  funext row
  simp [keeps]

/-! ## Starts -/

/-- The start that set the password of the user. -/
def lastBoot (boots : List Boot) (username : String) : Option Boot :=
  (boots.filter fun boot => boot.username = username ∧ fitsText 100 username).getLast?

theorem lastBoot_append (boots : List Boot) (boot : Boot) (username : String) :
    lastBoot (boots ++ [boot]) username =
      if boot.username = username ∧ fitsText 100 username then some boot else lastBoot boots username := by
  rw [lastBoot, List.filter_append]
  split
  · rename_i mine
    rw [List.filter_cons_of_pos (by simpa using mine), List.filter_nil, List.getLast?_concat]
  · rename_i other
    rw [List.filter_cons_of_neg (by simpa using other), List.filter_nil, List.append_nil]
    rfl

theorem fitsText_of_lastBoot {username : String} {boot : Boot} (last : lastBoot boots username = some boot) :
    fitsText 100 username = true := by
  have kept := List.mem_of_getLast? last
  rw [List.mem_filter, decide_eq_true_eq] at kept
  exact kept.2.2

/-- The table after some starts. -/
def Current (bcrypt : Bcrypt) (boots : List Boot) (users : Users) : Prop :=
  ∀ username, match lastBoot boots username with
    | none => withUsername users username = none
    | some boot => ∃ id user, withUsername users username = some (id, user) ∧
        Opens bcrypt boot.password user.passwordHash

theorem Current.absent (current : Current bcrypt boots users) {username : String}
    (never : lastBoot boots username = none) : withUsername users username = none := by
  have row := current username
  rwa [never] at row

theorem Current.present (current : Current bcrypt boots users) {username : String} {boot : Boot}
    (last : lastBoot boots username = some boot) : ∃ id user, withUsername users username = some (id, user) ∧
      Opens bcrypt boot.password user.passwordHash := by
  have row := current username
  rwa [last] at row

theorem Opens.congr {password other passwordHash : String} (opens : Opens bcrypt password passwordHash)
    (same : prehashIfNeeded other = prehashIfNeeded password) : Opens bcrypt other passwordHash := by
  intro tried whole
  rw [opens tried whole, same]

/-- What a start does to the users. -/
inductive Started (bcrypt : Bcrypt) (users : Users) (boot : Boot) : Users → Prop
  | created (absent : withUsername users boot.username = none) (fits : fitsText 100 boot.username = true) :
      Started bcrypt users boot (users.insert ⟨boot.username, hashPassword bcrypt boot.password boot.salt⟩)
  | refused (absent : withUsername users boot.username = none) (long : fitsText 100 boot.username = false) :
      Started bcrypt users boot users
  | kept (id : Nat) (existing : User) (found : withUsername users boot.username = some (id, existing))
      (taken : verifyPassword bcrypt boot.password existing.passwordHash = true) : Started bcrypt users boot users
  | reconciled (id : Nat) (existing : User) (found : withUsername users boot.username = some (id, existing)) :
      Started bcrypt users boot (users.map fun _ user =>
        if user.username = boot.username then
          { user with passwordHash := hashPassword bcrypt boot.password boot.salt }
        else user)

theorem start_cases (bcrypt : Bcrypt) (users : Users) (boot : Boot) :
    Started bcrypt users boot (start bcrypt users boot) := by
  rw [start, bootstrapAdmin]
  cases found : withUsername users boot.username with
  | none =>
      cases fits : fitsText 100 boot.username with
      | true => exact .created found fits
      | false => exact .refused found fits
  | some row =>
      obtain ⟨id, existing⟩ := row
      cases taken : verifyPassword bcrypt boot.password existing.passwordHash with
      | true =>
          simp only [taken]
          exact .kept id existing found taken
      | false =>
          simp only [taken]
          exact .reconciled id existing found

theorem Current.exists_last (current : Current bcrypt boots users) {username : String} {id : Nat} {user : User}
    (found : withUsername users username = some (id, user)) : ∃ boot, lastBoot boots username = some boot := by
  cases last : lastBoot boots username with
  | none =>
      rw [current.absent last] at found
      cases found
  | some boot => exact ⟨boot, rfl⟩

theorem Current.next (current : Current bcrypt boots users) {boot : Boot} {after : Users}
    (started : Started bcrypt users boot after) : Current bcrypt (boots ++ [boot]) after := by
  intro username
  rw [lastBoot_append]
  by_cases mine : boot.username = username
  · subst mine
    cases started with
    | created absent fits =>
        rw [if_pos ⟨rfl, fits⟩]
        refine ⟨users.nextId, ⟨boot.username, hashPassword bcrypt boot.password boot.salt⟩, ?_,
          opens_hashPassword boot.noNul boot.salt⟩
        rw [withUsername_insert, absent, if_pos rfl, Option.none_or]
    | refused absent long =>
        rw [if_neg (by simp [long])]
        exact current boot.username
    | kept id existing found taken =>
        obtain ⟨last, is⟩ := current.exists_last found
        obtain ⟨other, user, same, opens⟩ := current.present is
        rw [found, Option.some.injEq, Prod.mk.injEq] at same
        obtain ⟨rfl, rfl⟩ := same
        rw [if_pos ⟨rfl, fitsText_of_lastBoot is⟩]
        exact ⟨id, existing, found, opens.congr ((verifyPassword_iff opens boot.noNul).mp taken)⟩
    | reconciled id existing found =>
        obtain ⟨last, is⟩ := current.exists_last found
        rw [if_pos ⟨rfl, fitsText_of_lastBoot is⟩]
        obtain ⟨-, named⟩ := withUsername_eq_some found
        refine ⟨id, { existing with passwordHash := hashPassword bcrypt boot.password boot.salt }, ?_,
          opens_hashPassword boot.noNul boot.salt⟩
        rw [withUsername_map (fun id user => by split <;> rfl), found, Option.map_some, if_pos named]
  · rw [if_neg fun both => mine both.1]
    have row := current username
    cases started with
    | created absent fits =>
        rw [withUsername_insert, if_neg mine, Option.or_none]
        exact row
    | refused absent long => exact row
    | kept id existing found taken => exact row
    | reconciled id existing found =>
        rw [withUsername_map fun id user => by split <;> rfl]
        cases last : lastBoot boots username with
        | none => rw [current.absent last, Option.map_none]
        | some other =>
            obtain ⟨id, user, there, opens⟩ := current.present last
            have named := (withUsername_eq_some there).2
            refine ⟨id, user, ?_, opens⟩
            rw [there, Option.map_some, if_neg]
            rw [named]
            exact Ne.symm mine

theorem current_run (bcrypt : Bcrypt) (boots : List Boot) : Current bcrypt boots (run bcrypt boots SerialTable.empty) := by
  induction boots using List.reverseRecOn with
  | nil =>
      intro username
      rfl
  | append_singleton boots boot ih =>
      rw [run, List.foldl_append]
      exact ih.next (start_cases bcrypt _ boot)

/-! ## Sessions -/

theorem Started.keeps {boot : Boot} {after : Users} (started : Started bcrypt users boot after) {id : Nat} {user : User}
    (there : users.get id = some user) : ∃ kept, after.get id = some kept ∧ kept.username = user.username := by
  cases started with
  | created absent fits =>
      refine ⟨user, ?_, rfl⟩
      have old : id ≠ users.nextId := Nat.ne_of_lt (Nat.lt_succ_of_le (SerialTable.le_lastId there))
      rw [SerialTable.get_insert, Function.update_of_ne old, there]
  | refused absent long => exact ⟨user, there, rfl⟩
  | kept other existing found taken => exact ⟨user, there, rfl⟩
  | reconciled other existing found =>
      refine ⟨_, by rw [SerialTable.get_map, there, Option.map_some], ?_⟩
      split <;> rfl

theorem get_run (later : List Boot) {id : Nat} {user : User} (there : users.get id = some user) :
    ∃ kept, (run bcrypt later users).get id = some kept ∧ kept.username = user.username := by
  induction later generalizing users user with
  | nil => exact ⟨user, there, rfl⟩
  | cons boot later ih =>
      obtain ⟨next, stays, same⟩ := (start_cases bcrypt users boot).keeps there
      obtain ⟨kept, found, name⟩ := ih stays
      exact ⟨kept, found, name.trans same⟩

theorem loginPost_eq_some {username password : String} {id : Nat} (session : loginPost bcrypt users username password = some id) :
    ∃ user, withUsername users username = some (id, user) := by
  rw [loginPost] at session
  cases found : withUsername users username with
  | none => simp [found] at session
  | some row =>
      obtain ⟨other, user⟩ := row
      simp only [found, Option.ite_none_right_eq_some, Option.some.injEq] at session
      exact ⟨user, by rw [session.2]⟩

theorem latin1_injective : Function.Injective Utf8.latin1 := by
  refine List.map_injective_iff.mpr fun a b same => UInt8.toNat_inj.mp ?_
  have small (a : UInt8) : (Char.ofNat a.toNat).toNat = a.toNat := by
    have valid : a.toNat.isValidChar := .inl (Nat.lt_trans a.toNat_lt (by decide))
    rw [Char.ofNat, dif_pos valid]
    rfl
  rw [← small a, ← small b, same]

/-- Stores the password itself. -/
def clearBcrypt : Bcrypt where
  hashpw password _ := String.ofList (Utf8.latin1 password)
  checkpw password hash := some (decide (String.ofList (Utf8.latin1 password) = hash))
  checks password other _ _ _ := by
    have same : String.ofList (Utf8.latin1 password) = String.ofList (Utf8.latin1 other) ↔ password = other :=
      String.ofList_inj.trans latin1_injective.eq_iff
    simp only [same]

def renamed : List Boot :=
  [⟨"admin", "first", [], by decide⟩, ⟨"admin", "second", [], by decide⟩, ⟨"root", "third", [], by decide⟩]

end PowerBlockade.Accounts
