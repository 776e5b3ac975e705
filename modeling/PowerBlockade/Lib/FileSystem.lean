import Mathlib.Data.Finset.Basic
import Mathlib.Logic.Function.Basic
import PowerBlockade.Lib.Raising

/-!
# Files, their names and their bytes

A name leads to an inode, and the inode holds the bytes. A reader that has opened or mounted a file
stays with its inode, whatever the name leads to later. Temporary files have names of their own,
which nothing else uses; they are told apart by their inodes.
-/

namespace PowerBlockade.Lib

structure FileSystem (Name : Type*) where
  inode : Name → Option Nat
  temporary : Finset Nat
  bytes : Nat → List UInt8
  /-- The inodes from here on are unused. -/
  next : Nat
  inode_lt : ∀ name i, inode name = some i → i < next
  temporary_lt : ∀ i ∈ temporary, i < next
  /-- No temporary file has another name. -/
  inode_not_temporary : ∀ name i, inode name = some i → i ∉ temporary

namespace FileSystem

variable {Name : Type*} (fs : FileSystem Name)

def empty : FileSystem Name where
  inode _ := none
  temporary := ∅
  bytes _ := []
  next := 0
  inode_lt _ _ named := nomatch named
  temporary_lt _ member := absurd member (Finset.notMem_empty _)
  inode_not_temporary _ _ named := nomatch named

def read (name : Name) : Option (List UInt8) := (fs.inode name).map fs.bytes

/-! ## The operations -/

def put (i : Nat) (content : List UInt8) : FileSystem Name :=
  { fs with bytes := Function.update fs.bytes i content }

/-- A new empty file under a temporary name; its inode is the one that was next. -/
def makeTemporary : FileSystem Name where
  inode := fs.inode
  temporary := insert fs.next fs.temporary
  bytes := Function.update fs.bytes fs.next []
  next := fs.next + 1
  inode_lt name i named := (fs.inode_lt name i named).trans (Nat.lt_succ_self _)
  temporary_lt i member := by
    cases Finset.mem_insert.1 member with
    | inl new => exact new ▸ Nat.lt_succ_self _
    | inr old => exact (fs.temporary_lt i old).trans (Nat.lt_succ_self _)
  inode_not_temporary name i named member := by
    cases Finset.mem_insert.1 member with
    | inl new => exact absurd (fs.inode_lt name i named) (new ▸ Nat.lt_irrefl _)
    | inr old => exact fs.inode_not_temporary name i named old

def removeTemporary (i : Nat) : FileSystem Name :=
  { fs with
    temporary := fs.temporary.erase i
    temporary_lt := fun j member => fs.temporary_lt j (Finset.mem_of_mem_erase member)
    inode_not_temporary := fun name j named member =>
      fs.inode_not_temporary name j named (Finset.mem_of_mem_erase member) }

variable [DecidableEq Name]

def rename (i : Nat) (name : Name) (there : i ∈ fs.temporary) : FileSystem Name where
  inode := Function.update fs.inode name (some i)
  temporary := fs.temporary.erase i
  bytes := fs.bytes
  next := fs.next
  inode_lt := by
    rw [Function.forall_update_iff fs.inode fun _ found => ∀ j, found = some j → j < fs.next]
    refine ⟨?_, fun other _ => fs.inode_lt other⟩
    intro j found
    exact Option.some.inj found ▸ fs.temporary_lt i there
  temporary_lt j member := fs.temporary_lt j (Finset.mem_of_mem_erase member)
  inode_not_temporary := by
    rw [Function.forall_update_iff fs.inode fun _ found =>
      ∀ j, found = some j → j ∉ fs.temporary.erase i]
    refine ⟨?_, ?_⟩
    · intro j found
      exact Option.some.inj found ▸ Finset.notMem_erase i _
    · intro other _ j named member
      exact fs.inode_not_temporary other j named (Finset.mem_of_mem_erase member)

def create (name : Name) : FileSystem Name where
  inode := Function.update fs.inode name (some fs.next)
  temporary := fs.temporary
  bytes := Function.update fs.bytes fs.next []
  next := fs.next + 1
  inode_lt := by
    rw [Function.forall_update_iff fs.inode fun _ found => ∀ j, found = some j → j < fs.next + 1]
    refine ⟨?_, fun other _ j named => (fs.inode_lt other j named).trans (Nat.lt_succ_self _)⟩
    intro j found
    exact Option.some.inj found ▸ Nat.lt_succ_self _
  temporary_lt i member := (fs.temporary_lt i member).trans (Nat.lt_succ_self _)
  inode_not_temporary := by
    rw [Function.forall_update_iff fs.inode fun _ found => ∀ j, found = some j → j ∉ fs.temporary]
    refine ⟨?_, fun other _ => fs.inode_not_temporary other⟩
    intro j found member
    exact absurd (fs.temporary_lt j member) (Option.some.inj found ▸ Nat.lt_irrefl _)

/-- Opening for writing empties the file, or makes a new one. -/
def truncate (name : Name) : Nat × FileSystem Name :=
  match fs.inode name with
  | some i => (i, fs.put i [])
  | none => (fs.next, fs.create name)

/-! ## What they leave -/

variable {fs} {name : Name} {i : Nat} {content : List UInt8}

omit [DecidableEq Name]

@[simp] theorem inode_put : (fs.put i content).inode = fs.inode := rfl

@[simp] theorem bytes_put_self : (fs.put i content).bytes i = content := Function.update_self ..

theorem read_put_self (named : fs.inode name = some i) : (fs.put i content).read name = some content := by
  simp [read, named]

theorem read_put_other (other : fs.inode name ≠ some i) : (fs.put i content).read name = fs.read name := by
  cases named : fs.inode name with
  | none => simp [read, named]
  | some j =>
      have different : j ≠ i := fun same => other (same ▸ named)
      simp [read, named, put, Function.update_of_ne different]

theorem inode_ne_next : fs.inode name ≠ some fs.next :=
  fun named => Nat.lt_irrefl _ (fs.inode_lt name _ named)

theorem next_notMem_temporary : fs.next ∉ fs.temporary :=
  fun member => Nat.lt_irrefl _ (fs.temporary_lt _ member)

@[simp] theorem inode_makeTemporary : fs.makeTemporary.inode = fs.inode := rfl

@[simp] theorem temporary_makeTemporary : fs.makeTemporary.temporary = insert fs.next fs.temporary := rfl

@[simp] theorem bytes_makeTemporary : fs.makeTemporary.bytes fs.next = [] := Function.update_self ..

theorem read_makeTemporary : fs.makeTemporary.read name = fs.read name := by
  cases named : fs.inode name with
  | none => simp [read, named]
  | some j =>
      have different : j ≠ fs.next := fun same => inode_ne_next (same ▸ named)
      simp [read, named, makeTemporary, Function.update_of_ne different]

@[simp] theorem inode_removeTemporary : (fs.removeTemporary i).inode = fs.inode := rfl

@[simp] theorem temporary_removeTemporary : (fs.removeTemporary i).temporary = fs.temporary.erase i := rfl

@[simp] theorem read_removeTemporary : (fs.removeTemporary i).read name = fs.read name := rfl

theorem read_rename [DecidableEq Name] (there : i ∈ fs.temporary) :
    (fs.rename i name there).read name = some (fs.bytes i) := by
  simp [read, rename]

/-! ### Opening for writing -/

section

variable [DecidableEq Name]

theorem inode_truncate : (fs.truncate name).2.inode name = some (fs.truncate name).1 := by
  cases named : fs.inode name <;> simp [truncate, named, create, put]

@[simp] theorem bytes_truncate : (fs.truncate name).2.bytes (fs.truncate name).1 = [] := by
  cases named : fs.inode name <;> simp [truncate, named, create, put]

theorem truncate_named (named : fs.inode name = some i) : fs.truncate name = (i, fs.put i []) := by
  simp [truncate, named]

theorem read_truncate_put :
    ((fs.truncate name).2.put (fs.truncate name).1 content).read name = some content :=
  read_put_self inode_truncate

theorem inode_truncate_put (named : fs.inode name = some i) :
    ((fs.truncate name).2.put (fs.truncate name).1 content).inode name = some i := by
  rw [truncate_named named]
  exact named

end

/-! ### A reader that stays with its inode -/

structure Held (fs : FileSystem Name) (i : Nat) : Prop where
  lt : i < fs.next
  not_temporary : i ∉ fs.temporary

namespace Held

theorem of_named (named : fs.inode name = some i) : fs.Held i :=
  ⟨fs.inode_lt name i named, fs.inode_not_temporary name i named⟩

variable (held : fs.Held i)
include held

theorem ne_next : i ≠ fs.next := Nat.ne_of_lt held.lt

theorem put (j : Nat) (content : List UInt8) : (fs.put j content).Held i := ⟨held.lt, held.not_temporary⟩

theorem makeTemporary : fs.makeTemporary.Held i := by
  refine ⟨held.lt.trans (Nat.lt_succ_self _), ?_⟩
  rw [temporary_makeTemporary, Finset.mem_insert, not_or]
  exact ⟨held.ne_next, held.not_temporary⟩

theorem removeTemporary (j : Nat) : (fs.removeTemporary j).Held i :=
  ⟨held.lt, fun member => held.not_temporary (Finset.mem_of_mem_erase member)⟩

variable [DecidableEq Name]

theorem rename {j : Nat} (there : j ∈ fs.temporary) : (fs.rename j name there).Held i :=
  ⟨held.lt, fun member => held.not_temporary (Finset.mem_of_mem_erase member)⟩

theorem truncate : (fs.truncate name).2.Held i := by
  unfold FileSystem.truncate
  cases fs.inode name with
  | none => exact ⟨held.lt.trans (Nat.lt_succ_self _), held.not_temporary⟩
  | some j => exact held.put j []

theorem bytes_truncate_put :
    ((fs.truncate name).2.put (fs.truncate name).1 content).bytes i =
      if fs.inode name = some i then content else fs.bytes i := by
  unfold FileSystem.truncate
  cases named : fs.inode name with
  | none => simp [FileSystem.put, create, Function.update_of_ne held.ne_next]
  | some j =>
      by_cases same : j = i
      · simp [same]
      · have different : i ≠ j := fun other => same other.symm
        simp [FileSystem.put, same, Function.update_of_ne different]

end Held

/-- The files of `fs` as they were, with one temporary file more. -/
structure Beside (fs left : FileSystem Name) : Prop where
  inode : left.inode = fs.inode
  read : ∀ name, left.read name = fs.read name
  temporary : left.temporary = insert fs.next fs.temporary

theorem beside_makeTemporary (fs : FileSystem Name) : Beside fs fs.makeTemporary :=
  ⟨rfl, fun _ => read_makeTemporary, rfl⟩

variable {left : FileSystem Name}

theorem Beside.put (beside : Beside fs left) (content : List UInt8) :
    Beside fs (left.put fs.next content) := by
  refine ⟨beside.inode, fun name => ?_, beside.temporary⟩
  have other : left.inode name ≠ some fs.next := by
    rw [beside.inode]
    exact inode_ne_next
  rw [read_put_other other, beside.read]

theorem Beside.there (beside : Beside fs left) : fs.next ∈ left.temporary := by
  rw [beside.temporary]
  exact Finset.mem_insert_self _ _

theorem Beside.removed (beside : Beside fs left) : left.temporary.erase fs.next = fs.temporary := by
  rw [beside.temporary, Finset.erase_insert next_notMem_temporary]

theorem Beside.temporary_ne (beside : Beside fs left) : left.temporary ≠ fs.temporary := by
  intro same
  exact next_notMem_temporary (same ▸ beside.there)

/-! ## System calls

Each with its outcome: whether it succeeds, how many bytes it takes, or after how many it fails.
-/

end FileSystem

inductive FileError
  | os
  | unicode
deriving DecidableEq

abbrev FileM (Name : Type) := EStateM FileError (FileSystem Name)

namespace FileM

variable {Name : Type}

def attempt (succeeds : Bool) : FileM Name Unit := if succeeds then pure () else throw .os

def mkstemp (succeeds : Bool) : FileM Name Nat := do
  attempt succeeds
  modifyGet fun fs => (fs.next, fs.makeTemporary)

/-- One call of `write`, which may take fewer bytes than it is given. -/
def write (taken : Option Nat) (i : Nat) (content : List UInt8) : FileM Name Unit :=
  match taken with
  | none => throw .os
  | some n => modify fun fs => fs.put i (fs.bytes i ++ content.take n)

/-- A buffered write with its flush, which gives up only on an error. -/
def writeAll (failsAfter : Option Nat) (i : Nat) (content : List UInt8) : FileM Name Unit := do
  write (some (failsAfter.getD content.length)) i content
  attempt failsAfter.isNone

variable [DecidableEq Name] in
def replace (succeeds : Bool) (i : Nat) (name : Name) : FileM Name Unit := fun fs =>
  if there : succeeds = true ∧ i ∈ fs.temporary then .ok () (fs.rename i name there.2)
  else .error .os fs

def unlink (succeeds : Bool) (i : Nat) : FileM Name Unit := fun fs =>
  if succeeds = true ∧ i ∈ fs.temporary then .ok () (fs.removeTemporary i) else .error .os fs

variable [DecidableEq Name] in
def openWrite (succeeds : Bool) (name : Name) : FileM Name Nat := do
  attempt succeeds
  modifyGet fun fs => fs.truncate name

/-- The clean-up that passes over its own error. -/
def unlinkQuietly (succeeds : Bool) (i : Nat) : FileM Name Unit :=
  tryCatch (unlink succeeds i) fun _ => pure ()

/-! ### Their results -/

variable {fs : FileSystem Name} {i : Nat} {name : Name} {content : List UInt8}

@[simp] theorem run_attempt (succeeds : Bool) :
    (attempt succeeds).run fs = if succeeds = true then .ok () fs else .error .os fs := by
  cases succeeds <;> rfl

@[simp] theorem run_mkstemp (succeeds : Bool) :
    (mkstemp succeeds).run fs =
      if succeeds = true then .ok fs.next fs.makeTemporary else .error .os fs := by
  cases succeeds <;> rfl

@[simp] theorem run_write_none : (write none i content).run fs = .error .os fs := rfl

@[simp] theorem run_write_some (n : Nat) :
    (write (some n) i content).run fs = .ok () (fs.put i (fs.bytes i ++ content.take n)) := rfl

theorem run_unlink (succeeds : Bool) :
    (unlink succeeds i).run fs = if succeeds = true ∧ i ∈ fs.temporary then
      .ok () (fs.removeTemporary i) else .error .os fs := rfl

@[simp] theorem run_unlinkQuietly (succeeds : Bool) :
    (unlinkQuietly succeeds i).run fs =
      .ok () (if succeeds = true ∧ i ∈ fs.temporary then fs.removeTemporary i else fs) := by
  rw [unlinkQuietly, run_tryCatch, run_unlink]
  by_cases removed : succeeds = true ∧ i ∈ fs.temporary <;> simp [removed]

variable [DecidableEq Name]

theorem run_replace (succeeds : Bool) :
    (replace succeeds i name).run fs =
      if there : succeeds = true ∧ i ∈ fs.temporary then .ok () (fs.rename i name there.2)
      else .error .os fs := rfl

theorem run_openWrite (succeeds : Bool) :
    (openWrite succeeds name).run fs =
      if succeeds = true then .ok (fs.truncate name).1 (fs.truncate name).2 else .error .os fs := by
  cases succeeds <;> rfl

end FileM
end PowerBlockade.Lib
