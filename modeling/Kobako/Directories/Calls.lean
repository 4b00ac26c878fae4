import Kobako.Locking.Semaphore
import Kobako.Overlay.Layer
import Kobako.Parents
import Mathlib.Data.List.Destutter
import Mathlib.Data.List.Sort

/-!
# Directory changes and their locks

Every thread in one call on a Filesystem, with each lock it waits for: the rename lock, the
directories a call works in, and what it changes besides them. A directory is told by its inode and
stands at one dentry; where the dentry of a name stands that names no directory is kept nowhere,
and a step that reads it is told. Each lock is a step of its own, taken where its semaphore grants
it; a wait that ends without it, an error of the Filesystem or a refused check is a return that lets
every lock go. A queued writer only holds readers up, and its place in the queue is left out.
-/

namespace Kobako.Directories

open Kobako.Locking (Holders)
open Kobako.Overlay (RenameFlag)

variable (τ ν ι : Type)

/-- A semaphore: `SuperBlock::rename_mutex`, or an inode's. -/
inductive Lock where
  | renameMutex
  | inode (node : ι)
deriving Repr, DecidableEq

/-- The names of one Filesystem. -/
structure Tree where
  /-- The directory a directory's dentry stands in, also once it is removed. -/
  parent : ι → Option ι
  /-- What stands at a name. -/
  entry : ι → ν → Option ι
  /-- `Inode::is_deaddir`. -/
  dead : ι → Bool
  /-- It was made. -/
  known : ι → Bool

/-- A call and what it is about, its paths walked. -/
inductive Call where
  /-- `lookup_slow`. -/
  | lookup (dir : ι)
  /-- `lookup_open`. -/
  | openLast (dir : ι) (name : ν) (create : Bool)
  /-- The truncation of `do_open`. -/
  | truncate (file : ι)
  /-- `filename_mkdirat` and `filename_symlinkat`, past `filename_parentat`. -/
  | make (dir : ι) (name : ν)
  /-- `filename_linkat`. -/
  | link (old : ι) (dir : ι) (name : ν)
  /-- `filename_rmdir` and `filename_unlinkat`. -/
  | remove (dir : ι) (name : ν) (isDir : Bool)
  /-- `filename_renameat2`, and a move a stacked Filesystem asks for with its flag. -/
  | rename (oldDir : ι) (oldName : ν) (newDir : ι) (newName : ν) (flag : Option RenameFlag)

/-- What a call takes its locks for. -/
inductive Phase where
  /-- The rename lock, before the two directories of a move are put in order. -/
  | mutex
  /-- The directories it works in, or the one file it truncates. -/
  | dirs
  /-- What it changes besides, `old` and `new` being what it found. -/
  | victims (old : ι) (new : Option ι)
deriving Repr, DecidableEq

/-- Where a call stands: what it locks for, what it holds and what it has yet to lock. -/
structure Stage where
  phase : Phase ι
  taken : List (Lock ι)
  todo : List (Lock ι)

/-- The names, the semaphores and the call each thread is in. -/
structure State where
  tree : Tree ν ι
  semaphores : Lock ι → Holders τ
  calls : τ → Option (Call ν ι × Stage ι)

/-- What happens next. -/
inductive Event where
  | start (thread : τ) (call : Call ν ι)
  /-- `down_read` or `down_write` granted. -/
  | lock (thread : τ)
  /-- `lock_rename` with the rename lock held, `is_subdir` given its rounds. -/
  | order (thread : τ) (rounds : Nat)
  /-- A lookup finds a directory that stands elsewhere and moves its dentry to the place it read
  for its own, which stands in `stands` by then. -/
  | unalias (thread : τ) (dir : ι) (name : ν) (other stands : ι) (rounds : Nat)
  /-- The Filesystem makes an entry. -/
  | make (thread : τ) (child : ι)
  /-- The names are found and what they stand for is checked. -/
  | find (thread : τ) (rounds : Nat)
  /-- The Filesystem makes the change, a move leaving a whiteout behind where it was asked for. -/
  | commit (thread : τ) (whiteout : Option ι)
  /-- The call returns, whatever it answers. -/
  | leave (thread : τ)

variable {τ ν ι}

/-- Whose step it is. -/
def Event.thread : Event τ ν ι → τ
  | .start thread _ | .lock thread | .order thread _ | .unalias thread _ _ _ _ _
  | .make thread _ | .find thread _ | .commit thread _ | .leave thread => thread

namespace Tree

variable [DecidableEq ι] [DecidableEq ν]

/-- A name standing for something else. -/
def setEntry (tree : Tree ν ι) (dir : ι) (name : ν) (child : Option ι) : ι → ν → Option ι :=
  fun place called => if place = dir ∧ called = name then child else tree.entry place called

variable (isDir : ι → Bool)

/-- The directory pointer of what moved, nothing else having one. -/
def hang (parent : ι → Option ι) (child dir : ι) : ι → Option ι :=
  if isDir child then Function.update parent child (some dir) else parent

/-- `Dentry::is_subdir`, none while its loop goes on. -/
def isSubdir (tree : Tree ν ι) (rounds : Nat) (dir ancestor : ι) : Option Bool :=
  if dir = ancestor then some true else ancestorWithin tree.parent ancestor rounds dir

/-- An entry made or linked at a name. -/
def addAt (tree : Tree ν ι) (dir : ι) (name : ν) (child : ι) : Tree ν ι :=
  { tree with
    parent := hang isDir tree.parent child dir
    entry := tree.setEntry dir name (some child)
    known := Function.update tree.known child true }

/-- `vfs_rmdir` and `vfs_unlink`. -/
def removeAt (tree : Tree ν ι) (dir : ι) (name : ν) (child : ι) : Tree ν ι :=
  { tree with
    entry := tree.setEntry dir name none
    dead := if isDir child then Function.update tree.dead child true else tree.dead }

/-- `vfs_rename` of what stands at one name onto another, `whiteout` being left at the first. -/
def move (tree : Tree ν ι) (oldDir : ι) (oldName : ν) (newDir : ι) (newName : ν) (old : ι)
    (new whiteout : Option ι) : Tree ν ι :=
  let left : Tree ν ι := { tree with entry := tree.setEntry oldDir oldName whiteout }
  { left with
    parent := hang isDir tree.parent old newDir
    entry := left.setEntry newDir newName (some old)
    dead := fun node => tree.dead node || (new == some node && isDir node)
    known := fun node => tree.known node || whiteout == some node }

/-- `vfs_rename` with `RenameFlag::Exchange`. -/
def exchange (tree : Tree ν ι) (oldDir : ι) (oldName : ν) (newDir : ι) (newName : ν) (old new : ι) :
    Tree ν ι :=
  let left : Tree ν ι := { tree with entry := tree.setEntry oldDir oldName (some new) }
  { left with
    parent := hang isDir (hang isDir tree.parent old newDir) new oldDir
    entry := left.setEntry newDir newName (some old) }

/-- The move `unalias` makes: the other place let go of, and the name standing for the directory. -/
def realias (tree : Tree ν ι) (dir : ι) (name : ν) (other : ι) : Tree ν ι :=
  let left : Tree ν ι :=
    { tree with entry := fun place called => (tree.entry place called).filter (· ≠ other) }
  { left with
    parent := Function.update tree.parent other (some dir)
    entry := left.setEntry dir name (some other) }

end Tree

section Locks

variable [DecidableEq ι]

/-- `lock_two_nondirectories`: lowest address first and one only once. -/
def lockTwoNondirectories [LinearOrder ι] (first second : Option ι) : List ι :=
  ((first.toList ++ second.toList).insertionSort (· ≤ ·)).destutter (· ≠ ·)

/-- `lock_moved`. -/
def lockMoved [LinearOrder ι] (isDir : ι → Bool) (old : ι) (new : Option ι) (sameDir : Bool)
    (flag : Option RenameFlag) : List ι :=
  let newIsDir := new.any isDir
  let lockOldSubdir := !sameDir
  let lockNewSubdir := !sameDir || flag != some .exchange
  match isDir old, newIsDir with
  | true, _ =>
    (if lockOldSubdir then [old] else []) ++
      (new.filter fun _ => !newIsDir || lockNewSubdir).toList
  | false, true => (new.filter fun _ => lockNewSubdir).toList ++ [old]
  | false, false => lockTwoNondirectories (some old) new

end Locks

namespace Call

/-- The inodes a call is handed. -/
def nodes : Call ν ι → List ι
  | .lookup dir | .openLast dir _ _ | .make dir _ | .remove dir _ _ => [dir]
  | .truncate file => [file]
  | .link old dir _ => [old, dir]
  | .rename oldDir _ newDir _ _ => [oldDir, newDir]

/-- The inodes it holds while it looks at its names. -/
def dirs : Call ν ι → List ι
  | .lookup dir | .openLast dir _ _ | .make dir _ | .remove dir _ _ | .link _ dir _ => [dir]
  | .truncate file => [file]
  | .rename oldDir _ newDir _ _ => [oldDir, newDir]

/-- The one inode it holds is a file. -/
def truncates : Call ν ι → Bool
  | .truncate _ => true
  | _ => false

/-- It takes its locks exclusive. -/
def exclusive : Call ν ι → Bool
  | .lookup _ => false
  | .openLast _ _ create => create
  | .truncate _ | .make _ _ | .link _ _ _ | .remove _ _ _ | .rename _ _ _ _ _ => true

variable [DecidableEq ι]

/-- A move between two directories. -/
def crosses : Call ν ι → Bool
  | .rename oldDir _ newDir _ _ => oldDir != newDir
  | _ => false

/-- A call at its start. -/
def stage (call : Call ν ι) : Stage ι :=
  if call.crosses then ⟨.mutex, [], [.renameMutex]⟩
  else ⟨.dirs, [], (call.dirs.take 1).map .inode⟩

end Call

section Steps

variable [DecidableEq τ] [DecidableEq ν] [LinearOrder ι]

/-- `lock_two_directories` of `lock_rename`, none while `is_subdir` goes on. -/
def lockTwoDirectories (tree : Tree ν ι) (rounds : Nat) (oldDir newDir : ι) :
    Option (List (Lock ι)) :=
  match tree.isSubdir rounds oldDir newDir with
  | none => none
  | some true => some [.inode newDir, .inode oldDir]
  | some false => some [.inode oldDir, .inode newDir]

/-- What the flags of `__start_renaming` refuse at the target. -/
def flagRefuses (flag : Option RenameFlag) (new : Option ι) : Bool :=
  match flag with
  | some .exchange => new.isNone
  | some .noReplace => new.isSome
  | _ => false

variable (isDir : ι → Bool)

/-- The kinds `may_delete_dentry` refuses of a target. -/
def kindRefuses (flag : Option RenameFlag) (old : ι) (new : Option ι) : Bool :=
  match new, flag with
  | none, _ | some _, some .exchange => false
  | some target, _ => isDir target != isDir old

/-- What a call found at its names and locks next, none where a check refuses it or goes on. -/
def found (tree : Tree ν ι) (rounds : Nat) :
    Call ν ι → Option (ι × Option ι × List ι)
  | .link old dir name =>
    if tree.entry dir name = none ∧ tree.dead dir = false ∧ isDir old = false then
      some (old, none, [old])
    else none
  | .remove dir name rmdir =>
    match tree.entry dir name with
    | none => none
    | some child =>
      if isDir child = rmdir ∧ tree.dead dir = false then some (child, none, [child]) else none
  | .rename oldDir oldName newDir newName flag =>
    match tree.entry oldDir oldName with
    | none => none
    | some old =>
      let new := tree.entry newDir newName
      if flagRefuses flag new = false ∧ tree.isSubdir rounds newDir old = some false ∧
          (∀ target ∈ new, tree.isSubdir rounds oldDir target = some false) ∧
          ¬(oldDir = newDir ∧ oldName = newName) ∧
          kindRefuses isDir flag old new = false ∧ tree.dead oldDir = false ∧
          tree.dead newDir = false then
        some (old, new, lockMoved isDir old new (oldDir == newDir) flag)
      else none
  | .lookup _ | .openLast _ _ _ | .truncate _ | .make _ _ => none

/-- A whiteout a move may leave behind: none unless its flag asks, and no directory. -/
def mayLeave (whiteout : Option ι) : Call ν ι → Bool
  | .rename _ _ _ _ (some .whiteout) => !whiteout.any isDir
  | _ => whiteout.isNone

/-- The change a call makes once it holds all it locks. -/
def committed (tree : Tree ν ι) (old : ι) (new whiteout : Option ι) :
    Call ν ι → Tree ν ι
  | .link _ dir name => tree.addAt isDir dir name old
  | .remove dir name _ => tree.removeAt isDir dir name old
  | .rename oldDir oldName newDir newName flag =>
    match flag, new with
    | some .exchange, some target =>
      tree.exchange isDir oldDir oldName newDir newName old target
    | _, _ => tree.move isDir oldDir oldName newDir newName old new whiteout
  | .lookup _ | .openLast _ _ _ | .truncate _ | .make _ _ => tree

/-- Where a call makes an entry: an open makes no directory. -/
def making (child : ι) : Call ν ι → Option (ι × ν)
  | .make dir name => some (dir, name)
  | .openLast dir name create =>
    if create = true ∧ isDir child = false then some (dir, name) else none
  | _ => none

/-- The semaphore without a thread. -/
def without (thread : τ) (holders : Holders τ) : Holders τ :=
  { holders with
    writer := holders.writer.filter (· ≠ thread)
    readers := holders.readers.filter (· ≠ thread) }

namespace State

variable (state : State τ ν ι)

/-- A thread at the next stage of its call. -/
def goOn (thread : τ) (call : Call ν ι) (stage : Stage ι) : State τ ν ι :=
  { state with calls := Function.update state.calls thread (some (call, stage)) }

omit [DecidableEq ν] [LinearOrder ι] in
@[simp] theorem goOn_calls_self (thread : τ) (call : Call ν ι) (stage : Stage ι) :
    (state.goOn thread call stage).calls thread = some (call, stage) := by
  simp [goOn]

omit [DecidableEq ν] [LinearOrder ι] in
theorem goOn_calls_of_ne {thread other : τ} (apart : other ≠ thread) (call : Call ν ι)
    (stage : Stage ι) :
    (state.goOn thread call stage).calls other = state.calls other :=
  Function.update_of_ne apart _ _

/-- Both trylocks of `unalias` are granted. -/
def trylocks (thread : τ) (dir : ι) : Bool :=
  ((state.semaphores .renameMutex).tryTake true thread).isSome &&
    ((state.semaphores (.inode dir)).tryTake false thread).isSome

/-- A call returns and lets its locks go. -/
def leave (thread : τ) : State τ ν ι :=
  { state with
    semaphores := fun lock => without thread (state.semaphores lock)
    calls := Function.update state.calls thread none }

omit [DecidableEq ν] [LinearOrder ι] in
@[simp] theorem leave_calls_self (thread : τ) :
    (state.leave thread).calls thread = none := by
  simp [leave]

omit [DecidableEq ν] [LinearOrder ι] in
theorem leave_calls_of_ne {thread other : τ} (apart : other ≠ thread) :
    (state.leave thread).calls other = state.calls other :=
  Function.update_of_ne apart _ _

/-- One step, if it can be taken. -/
def step (isDir : ι → Bool) (state : State τ ν ι) : Event τ ν ι → Option (State τ ν ι)
  | .start thread call =>
    match state.calls thread with
    | some _ => none
    | none =>
      if (∀ node ∈ call.nodes, state.tree.known node = true) ∧
          ∀ dir ∈ call.dirs, isDir dir = !call.truncates then
        some (state.goOn thread call call.stage)
      else none
  | .lock thread =>
    match state.calls thread with
    | some (call, ⟨phase, taken, lock :: todo⟩) =>
      match (state.semaphores lock).take call.exclusive thread with
      | .ok (true, held) =>
        some { state.goOn thread call ⟨phase, taken ++ [lock], todo⟩ with
          semaphores := Function.update state.semaphores lock held }
      | _ => none
    | _ => none
  | .order thread rounds =>
    match state.calls thread with
    | some (.rename oldDir oldName newDir newName flag, ⟨.mutex, taken, []⟩) =>
      (lockTwoDirectories state.tree rounds oldDir newDir).map fun todo =>
        state.goOn thread (.rename oldDir oldName newDir newName flag) ⟨.dirs, taken, todo⟩
    | _ => none
  | .unalias thread dir name other stands rounds =>
    match state.calls thread with
    | some (_, ⟨.dirs, _, []⟩) =>
      match state.tree.parent other with
      | none => none
      | some above =>
        -- `d_ancestor` asks of where the dentry stands by now, whatever place was read for it.
        if isDir other = true ∧ state.tree.isSubdir rounds stands other = some false ∧
            (above = dir ∨ state.trylocks thread above = true) then
          some { state with tree := state.tree.realias dir name other }
        else none
    | _ => none
  | .make thread child =>
    match state.calls thread with
    | some (call, ⟨.dirs, _, []⟩) =>
      match making isDir child call with
      | none => none
      | some (dir, name) =>
        if state.tree.known child = false ∧ state.tree.entry dir name = none ∧
            state.tree.dead dir = false then
          some { state.leave thread with tree := state.tree.addAt isDir dir name child }
        else none
    | _ => none
  | .find thread rounds =>
    match state.calls thread with
    | some (call, ⟨.dirs, taken, []⟩) =>
      (found isDir state.tree rounds call).map fun told =>
        state.goOn thread call ⟨.victims told.1 told.2.1, taken, told.2.2.map .inode⟩
    | _ => none
  | .commit thread whiteout =>
    match state.calls thread with
    | some (call, ⟨.victims old new, _, []⟩) =>
      if mayLeave isDir whiteout call then
        some { state.leave thread with tree := committed isDir state.tree old new whiteout call }
      else none
    | _ => none
  | .leave thread =>
    match state.calls thread with
    | some _ => some (state.leave thread)
    | none => none

/-- A lookup that moves a directory's dentry moves it into a directory its call holds, where the
dentry of the name it looked up still stands. -/
def SplicesInPlace : Event τ ν ι → Prop
  | .unalias thread dir _ _ stands _ =>
    stands = dir ∧ (state.calls thread).all (fun told => decide (dir ∈ told.1.dirs)) = true
  | _ => True

instance (state : State τ ν ι) : DecidablePred state.SplicesInPlace
  | .unalias .. => inferInstanceAs (Decidable (_ ∧ _))
  | .start .. | .lock .. | .order .. | .make .. | .find .. | .commit .. | .leave .. =>
    inferInstanceAs (Decidable True)

/-- A thread holds a lock, shared or exclusive. -/
def Holds (thread : τ) (lock : Lock ι) : Prop :=
  (state.semaphores lock).writer = some thread ∨ thread ∈ (state.semaphores lock).readers

/-- The lock a thread asks for next. -/
def wants (thread : τ) : Option (Lock ι) :=
  (state.calls thread).bind fun told => told.2.todo.head?

/-- The Filesystem before any call. -/
def start (tree : Tree ν ι) : State τ ν ι := ⟨tree, fun _ => .empty, fun _ => none⟩

end State

end Steps

end Kobako.Directories
