import PowerBlockade.Columns
import PowerBlockade.Lib.SerialTable
import PowerBlockade.Lib.Sha256
import PowerBlockade.Lib.Utf8

/-!
# The users of the admin UI

`bootstrap_admin` is the only writer of `users`: each start of admin-ui makes the user that the
environment names, or gives it the password of the environment. bcrypt is a parameter.
-/

namespace PowerBlockade.Accounts
open Lib

/-- What bcrypt takes whole: no more than 72 bytes, none of them NUL. -/
def Hashable (password : List UInt8) : Prop := password.length ≤ 72 ∧ 0 ∉ password

instance (password : List UInt8) : Decidable (Hashable password) := inferInstanceAs (Decidable (_ ∧ _))

structure Bcrypt where
  hashpw (password salt : List UInt8) : String
  /-- `none` is a `ValueError`. -/
  checkpw (password : List UInt8) (hash : String) : Option Bool
  checks : ∀ password other salt, Hashable password → Hashable other →
    checkpw password (hashpw other salt) = some (decide (password = other))

def bytes (password : String) : List UInt8 := Utf8.encode password.toList

/-- `hashlib.sha256(b).hexdigest()` -/
def digest (password : String) : String := Sha256.hexDigest (bytes password)

def prehashIfNeeded (password : String) : List UInt8 :=
  if 72 < (bytes password).length then bytes (digest password) else bytes password

structure User where
  username : String
  passwordHash : String

abbrev Users := SerialTable User

variable (bcrypt : Bcrypt)

def hashPassword (password : String) (salt : List UInt8) : String := bcrypt.hashpw (prehashIfNeeded password) salt

def verifyPassword (password passwordHash : String) : Bool :=
  (bcrypt.checkpw (prehashIfNeeded password) passwordHash).getD false

/-- `WHERE username = :u` -/
def withUsername (users : Users) (username : String) : Option (Nat × User) :=
  users.rows.find? (·.2.username = username)

/-- A start of admin-ui whose settings were accepted. -/
structure Boot where
  username : String
  password : String
  salt : List UInt8
  /-- A variable of the environment ends at the first NUL. -/
  noNul : '\x00' ∉ password.toList

/-- `none` where the column refuses the name. -/
def bootstrapAdmin (users : Users) (boot : Boot) : Option Users :=
  match withUsername users boot.username with
  | none =>
      if fitsText 100 boot.username then
        some (users.insert ⟨boot.username, hashPassword bcrypt boot.password boot.salt⟩)
      else none
  | some (_, existing) =>
      if verifyPassword bcrypt boot.password existing.passwordHash then some users
      else some (users.map fun _ user =>
        if user.username = boot.username then
          { user with passwordHash := hashPassword bcrypt boot.password boot.salt }
        else user)

/-- The start fails where `bootstrap_admin` raises. -/
def start (users : Users) (boot : Boot) : Users := (bootstrapAdmin bcrypt users boot).getD users

def run (boots : List Boot) (users : Users) : Users := boots.foldl (start bcrypt) users

/-- The user id that the session gets. -/
def loginPost (users : Users) (username password : String) : Option Nat :=
  match withUsername users username with
  | none => none
  | some (id, user) => if verifyPassword bcrypt password user.passwordHash then some id else none

def getCurrentUser (users : Users) (session : Option Nat) : Option User := session.bind users.get

/-! ## Passwords -/

theorem zero_not_mem_utf8EncodeChar {c : Char} (other : c ≠ '\x00') : 0 ∉ String.utf8EncodeChar c := by
  have positive : c.val.toNat ≠ 0 := by
    intro zero
    exact other (Char.ext (UInt32.toNat_inj.mp zero))
  have valid : c.val.toNat < 0x110000 := by
    rcases c.valid with low | high
    · exact Nat.lt_trans low (by decide)
    · exact high.2
  have nonzero {n : Nat} (between : 0 < n ∧ n < 256) : (0 : UInt8) ≠ UInt8.ofNat n := by
    intro zero
    have same := congrArg UInt8.toNat zero
    rw [Utf8.toNat_ofNat_of_lt between.2] at same
    exact absurd same (Nat.ne_of_lt between.1)
  unfold String.utf8EncodeChar
  generalize c.val.toNat = v at positive valid
  simp only
  split
  · simpa using nonzero (n := v) (by omega)
  · split
    · simp only [List.mem_cons, List.not_mem_nil, or_false, not_or]
      exact ⟨nonzero (by omega), nonzero (by omega)⟩
    · split
      · simp only [List.mem_cons, List.not_mem_nil, or_false, not_or]
        exact ⟨nonzero (by omega), nonzero (by omega), nonzero (by omega)⟩
      · simp only [List.mem_cons, List.not_mem_nil, or_false, not_or]
        exact ⟨nonzero (by omega), nonzero (by omega), nonzero (by omega), nonzero (by omega)⟩

theorem zero_not_mem_bytes {password : String} (noNul : '\x00' ∉ password.toList) : 0 ∉ bytes password := by
  intro among
  obtain ⟨c, member, inside⟩ := List.mem_flatMap.mp among
  exact zero_not_mem_utf8EncodeChar (ne_of_mem_of_not_mem member noNul) inside

theorem bytes_inj {password other : String} : bytes password = bytes other ↔ password = other := by
  constructor
  · intro same
    have decoded : some password.toList = some other.toList := by
      rw [← Utf8.decode_encode, ← Utf8.decode_encode]
      exact congrArg Utf8.decode same
    exact String.toList_inj.mp (Option.some.inj decoded)
  · rintro rfl
    rfl

theorem length_bytes_digest (password : String) : (bytes (digest password)).length = 64 := by
  have ascii : ∀ c ∈ (digest password).toList, c.toNat < 128 := fun c among =>
    Nat.lt_of_le_of_lt (Sha256.toNat_of_mem_hexDigest among).2 (by decide)
  have whole := congrArg List.length (Utf8.latin1_encode_eq_self_iff.mpr ascii)
  rw [Utf8.latin1, List.length_map, String.length_toList] at whole
  exact whole.trans (Sha256.length_hexDigest _)

theorem noNul_digest (password : String) : '\x00' ∉ (digest password).toList := by
  intro among
  exact absurd (Sha256.toNat_of_mem_hexDigest among).1 (by decide)

/-- Whatever the length of a password, bcrypt takes all of what it gets. -/
theorem hashable_prehash {password : String} (noNul : '\x00' ∉ password.toList) :
    Hashable (prehashIfNeeded password) := by
  rw [prehashIfNeeded]
  split
  · rw [Hashable, length_bytes_digest]
    exact ⟨by decide, zero_not_mem_bytes (noNul_digest password)⟩
  · rename_i short
    exact ⟨Nat.le_of_not_lt short, zero_not_mem_bytes noNul⟩

/-- One opens what the other was set for: a long password and its digest are the same to bcrypt. -/
def Interchangeable (password other : String) : Prop :=
  password = other ∨ 72 < (bytes password).length ∧ other = digest password ∨
    72 < (bytes other).length ∧ password = digest other

/-- Two long passwords with one digest are one. -/
def NoCollision (password other : String) : Prop :=
  72 < (bytes password).length → 72 < (bytes other).length → digest password = digest other → password = other

theorem prehash_eq_iff {password other : String} (noCollision : NoCollision password other) :
    prehashIfNeeded password = prehashIfNeeded other ↔ Interchangeable password other := by
  have short (password : String) : ¬ 72 < (bytes (digest password)).length := by
    rw [length_bytes_digest]
    decide
  rw [prehashIfNeeded, prehashIfNeeded, Interchangeable]
  split
  · rename_i long
    split
    · rename_i otherLong
      rw [bytes_inj]
      refine ⟨fun same => .inl (noCollision long otherLong same), ?_⟩
      rintro (rfl | ⟨-, rfl⟩ | ⟨-, rfl⟩)
      · rfl
      · exact absurd otherLong (short _)
      · exact absurd long (short _)
    · rename_i otherShort
      rw [bytes_inj]
      refine ⟨fun same => .inr (.inl ⟨long, same.symm⟩), ?_⟩
      rintro (rfl | ⟨-, rfl⟩ | ⟨otherLong, -⟩)
      · exact absurd long otherShort
      · rfl
      · exact absurd otherLong otherShort
  · rename_i notLong
    split
    · rename_i otherLong
      rw [bytes_inj]
      refine ⟨fun same => .inr (.inr ⟨otherLong, same⟩), ?_⟩
      rintro (rfl | ⟨long, -⟩ | ⟨-, rfl⟩)
      · exact absurd otherLong notLong
      · exact absurd long notLong
      · rfl
    · rename_i otherShort
      rw [bytes_inj]
      refine ⟨.inl, ?_⟩
      rintro (same | ⟨long, -⟩ | ⟨otherLong, -⟩)
      · exact same
      · exact absurd long notLong
      · exact absurd otherLong otherShort

variable {bcrypt : Bcrypt}

/-- The stored hash is one of the password. -/
def Opens (bcrypt : Bcrypt) (password passwordHash : String) : Prop :=
  ∀ tried, Hashable tried →
    bcrypt.checkpw tried passwordHash = some (decide (tried = prehashIfNeeded password))

theorem opens_hashPassword {password : String} (noNul : '\x00' ∉ password.toList) (salt : List UInt8) :
    Opens bcrypt password (hashPassword bcrypt password salt) := fun _ whole =>
  bcrypt.checks _ _ salt whole (hashable_prehash noNul)

theorem verifyPassword_iff {password tried passwordHash : String} (opens : Opens bcrypt password passwordHash)
    (noNul : '\x00' ∉ tried.toList) :
    verifyPassword bcrypt tried passwordHash = true ↔ prehashIfNeeded tried = prehashIfNeeded password := by
  rw [verifyPassword, opens _ (hashable_prehash noNul), Option.getD_some, decide_eq_true_iff]

end PowerBlockade.Accounts
