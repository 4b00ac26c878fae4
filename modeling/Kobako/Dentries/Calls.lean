import Kobako.Dentries.Cache
import Kobako.Locking.Semaphore
import Kobako.Overlay.Layer
import Mathlib.Data.Fintype.Basic

/-!
# Calls under the VFS locks

Every thread in one call on the Filesystem, with the locks it holds: a walk or an open of a name, a
change of a name, a move of one name to another. What runs under the tables' mutexes, an inode's
`dentry` or `RENAME_LOCK` is one step, and so is each read of a dentry's state between them; what
the Filesystem, `revalidate` or a security module answers comes with the step that hears it. A
loop up the tree takes the rounds its step is given, or is no step. A Filesystem that walks its own
instance within a lookup, and the locks of what a move or a removal changes besides the two
directories, which only hold other calls up, are left out.
-/

namespace Kobako.Dentries

open Kobako.Dcache (LookupState Dentry Key)
open Kobako.Locking (Holders)
open Kobako.Overlay (RenameFlag)
open Kobako.Vfs (FsError)

variable (τ ν ι : Type)

/-- A semaphore: `SuperBlock::rename_mutex`, or an inode's. -/
inductive Lock where
  | renameMutex
  | inode (inode : ι)
deriving Repr, DecidableEq

/-- What a call asks to hold. -/
inductive Target where
  | renameMutex
  /-- `inode_lock` and `inode_lock_shared` of a directory's dentry. -/
  | dir (dentry : Nat)
deriving Repr, DecidableEq

/-- A call and what it is about. -/
inductive Call where
  /-- `lookup_slow`. -/
  | lookup (dir : Nat) (name : ν)
  /-- `lookup_open`. -/
  | openLast (dir : Nat) (name : ν) (create : Bool)
  /-- `start_dirop` or `start_creating`, and what is then made or removed at the name. -/
  | change (dir : Nat) (name : ν)
  /-- `__start_renaming` and `vfs_rename`. -/
  | rename (oldDir : Nat) (oldName : ν) (newDir : Nat) (newName : ν) (flag : Option RenameFlag)

/-- `ask_in_lookup` under way, `ends` where `begin_lookup` answered `Begun`. -/
structure Ask where
  dentry : Nat
  ends : Bool
deriving Repr, DecidableEq

/-- Where the lookup of a name stands. -/
inductive Phase where
  /-- At the top of the loop of `alloc_parallel`. -/
  | alloc
  /-- `wait_lookup` of `alloc_parallel`. -/
  | waiting (waited : Nat)
  /-- That wait over at the name, `hashed` to be read. -/
  | comparing (waited : Nat)
  /-- `alloc_parallel` answered. -/
  | given (dentry : Nat)
  /-- The Filesystem is asked. -/
  | asking (ask : Ask)
  /-- `splice_alias` found the directory at another dentry. -/
  | aliased (ask : Ask) (other : Nat)
  /-- `unalias` with the place to move it to. -/
  | aliasing (ask : Ask) (other : Nat) (place : Nat × ν)
  /-- The ask answered, `lookup_done` next where it ends the lookup. -/
  | ending (ask : Ask) (answer : Except FsError Nat)
  /-- The name is looked up. -/
  | done (answer : Except FsError Nat)

/-- The lookup of a name in a directory, `spelled` being the ask `add_ci` was called from and the
inode it was handed. -/
structure Frame where
  parent : Nat
  name : ν
  spelled : Option (Ask × ι)
  phase : Phase ν

/-- Where a call stands. -/
inductive Stage where
  /-- With what it has yet to lock. -/
  | locking (todo : List Target)
  /-- A name is looked up, `old` being what a move found at its source. -/
  | looking (old : Option Nat) (frame : Frame ν ι)
  /-- A change found what it is about. -/
  | found (child : Nat)
  /-- A move found both its names. -/
  | paired (old new : Nat)
  /-- The source does not stand above the target directory. -/
  | cleared (old new : Nat)
  /-- Nor the target above the source directory: `__start_renaming` returned. -/
  | moving (old new : Nat)
  /-- `move_dentry` let the target go from its name. -/
  | moved (old new : Nat)
  | ended (answer : Except FsError Nat)

/-- The dentries, the semaphores and the call each thread is in. -/
structure State where
  cache : Cache τ ν ι
  semaphores : Lock ι → Holders τ
  calls : τ → Option (Call ν × Stage ν ι)

/-- What the lookup of a name does next. -/
inductive Act where
  /-- A turn of the loop of `alloc_parallel`, a dentry it makes placed at an address. -/
  | alloc (address : Nat)
  /-- `wait_lookup` looks again. -/
  | awake
  /-- `hashed` of what was waited for is read. -/
  | compare
  /-- `revalidate` answers that the dentry no longer names what stands there. -/
  | stale
  /-- `begin_lookup`. -/
  | begin
  /-- `Lookup::Absent`. -/
  | absent
  /-- `Lookup::Found`. -/
  | found (inode : ι)
  /-- `Lookup::Spelled`. -/
  | spelled (name : ν) (inode : ι)
  /-- `atomic_open` records an inode on the dentry itself, or that nothing stands there. -/
  | add (inode : Option ι)
  /-- `Finish::Open` or `Finish::NoOpen`. -/
  | opened
  /-- An error of the Filesystem, of `revalidate`, of a removed directory or of a signal. -/
  | refuse (e : FsError)
  /-- `unalias` reads the place. -/
  | read
  /-- The rest of `unalias`. -/
  | unalias (rounds : Nat)
  /-- `ask_in_lookup` past its `ask`. -/
  | finish
  /-- `add_ci` returns. -/
  | hand

/-- What happens next. -/
inductive Event where
  /-- A call begins, `newFirst` telling which directory `lock_rename` holds first. -/
  | start (thread : τ) (call : Call ν) (newFirst : Bool)
  | lock (thread : τ)
  /-- Every lock held, the first name is looked up. -/
  | enter (thread : τ)
  | turn (thread : τ) (act : Act ν ι)
  /-- A lookup's answer is taken on. -/
  | answer (thread : τ)
  /-- The Filesystem records what a change made, or that nothing stands there. -/
  | record (thread : τ) (inode : Option ι)
  /-- The next check of `__start_renaming`. -/
  | check (thread : τ) (rounds : Nat)
  /-- The first half of `move_dentry`. -/
  | unhashNew (thread : τ)
  /-- The second half of `move_dentry`. -/
  | move (thread : τ)
  | exchange (thread : τ)
  /-- A change is made, or a move has nothing to move. -/
  | finish (thread : τ)
  | refuse (thread : τ) (e : FsError)
  /-- A call returns and lets its locks go. -/
  | leave (thread : τ)
  /-- A removal or a stale name lets a dentry go from its name. -/
  | unhash (dentry : Nat)
  /-- The last holder of a dentry lets it go, be it the LRU. -/
  | drop (dentry : Nat)

variable {τ ν ι}

namespace Call

/-- The directories a call works in. -/
def dirs : Call ν → List Nat
  | .lookup dir _ | .openLast dir _ _ | .change dir _ => [dir]
  | .rename oldDir _ newDir _ _ => [oldDir, newDir]

/-- Its directories are held exclusive. -/
def exclusive : Call ν → Bool
  | .lookup _ _ => false
  | .openLast _ _ create => create
  | .change _ _ | .rename _ _ _ _ _ => true

/-- It asks `atomic_open` in place of `lookup`. -/
def opens : Call ν → Bool
  | .openLast _ _ _ => true
  | .lookup _ _ | .change _ _ | .rename _ _ _ _ _ => false

/-- What a call locks, in order, as `lock_rename` has it for a move. -/
def targets (newFirst : Bool) : Call ν → List Target
  | .lookup dir _ | .openLast dir _ _ | .change dir _ => [.dir dir]
  | .rename oldDir _ newDir _ _ =>
    if oldDir = newDir then [.dir oldDir]
    else if newFirst then [.renameMutex, .dir newDir, .dir oldDir]
    else [.renameMutex, .dir oldDir, .dir newDir]

/-- The directory a name is looked up in: the source's first, then the target's. -/
def dirAt (old : Option Nat) : Call ν → Nat
  | .lookup dir _ | .openLast dir _ _ | .change dir _ => dir
  | .rename oldDir _ newDir _ _ => if old.isSome then newDir else oldDir

/-- The name looked up there. -/
def nameAt (old : Option Nat) : Call ν → ν
  | .lookup _ name | .openLast _ name _ | .change _ name => name
  | .rename _ oldName _ newName _ => if old.isSome then newName else oldName

/-- A lookup at its start. -/
def frame (old : Option Nat) (call : Call ν) : Frame ν ι :=
  ⟨call.dirAt old, call.nameAt old, none, .alloc⟩

end Call

/-- The frame at its next phase. -/
def Frame.at (frame : Frame ν ι) (phase : Phase ν) : Frame ν ι := { frame with phase := phase }

namespace Frame

/-- The place a frame looks at. -/
def place (frame : Frame ν ι) : Nat × ν := (frame.parent, frame.name)

/-- The inode a found entry is spliced with: any, or the one `add_ci` was handed. -/
def Splices (frame : Frame ν ι) (inode : ι) : Prop := ∀ spelled ∈ frame.spelled, spelled.2 = inode

instance [DecidableEq ι] (frame : Frame ν ι) (inode : ι) : Decidable (frame.Splices inode) :=
  inferInstanceAs (Decidable (∀ spelled ∈ frame.spelled, _))

end Frame

/-- The dentry an answer names. -/
def answered (answer : Except FsError Nat) : List Nat := answer.toOption.toList

/-- The dentries a lookup holds. -/
def Phase.holds : Phase ν → List Nat
  | .alloc => []
  | .waiting dentry | .comparing dentry | .given dentry => [dentry]
  | .asking ask => [ask.dentry]
  | .aliased ask other => [ask.dentry, other]
  | .aliasing ask other place => [ask.dentry, other, place.1]
  | .ending ask answer => ask.dentry :: answered answer
  | .done answer => answered answer

/-- The dentries the lookup of a name holds, with those of the one it was called from. -/
def Frame.holds (frame : Frame ν ι) : List Nat :=
  frame.parent :: frame.phase.holds ++ (frame.spelled.map fun spelled => spelled.1.dentry).toList

/-- The dentries a call holds where it stands. -/
def Stage.holds : Stage ν ι → List Nat
  | .locking _ => []
  | .looking old frame => old.toList ++ frame.holds
  | .found child => [child]
  | .paired old new | .cleared old new | .moving old new | .moved old new => [old, new]
  | .ended answer => answered answer

/-- The dentries a thread holds. -/
def State.holds (state : State τ ν ι) (thread : τ) : List Nat :=
  match state.calls thread with
  | none => []
  | some (call, stage) => call.dirs ++ stage.holds

/-- The semaphore without a thread. -/
def without [DecidableEq τ] (thread : τ) (holders : Holders τ) : Holders τ :=
  { holders with
    writer := holders.writer.filter (· ≠ thread)
    readers := holders.readers.filter (· ≠ thread) }

section Steps

variable [DecidableEq τ] [DecidableEq ν] [DecidableEq ι]

/-- Both trylocks of `unalias` are granted. -/
def trylocks (semaphores : Lock ι → Holders τ) (thread : τ) (cache : Cache τ ν ι) (other : Nat) :
    Bool :=
  match (cache.parent other).bind cache.inode with
  | none => false
  | some inode =>
    ((semaphores .renameMutex).tryTake true thread).isSome &&
      ((semaphores (.inode inode)).tryTake false thread).isSome

/-- `Dentry::unalias` once it read the place, none while `d_ancestor` goes on. -/
def unalias (semaphores : Lock ι → Holders τ) (thread : τ) (cache : Cache τ ν ι)
    (rounds dentry other : Nat) (place : Nat × ν) : Option (Cache τ ν ι × Except FsError Nat) :=
  match cache.dAncestor rounds other dentry with
  | none => none
  | some beneath =>
    if beneath = true ∨ cache.parent other = none then some (cache, .error .filesystemLoop)
    else if cache.parent other = some place.1 ∨ trylocks semaphores thread cache other = true then
      some (cache.moveTo other place, .ok other)
    else some (cache, .error .staleNetworkFileHandle)

/-- `begin_lookup`, and the second ask of `lookup_open` for a name nothing stands at. -/
def beginLookup (thread : τ) (opens : Bool) (cache : Cache τ ν ι) (frame : Frame ν ι)
    (dentry : Nat) : Option (Cache τ ν ι × Frame ν ι) :=
  match cache.asked dentry with
  | .asking walk =>
    if walk = thread then some (cache, frame.at (.asking ⟨dentry, false⟩)) else none
  | .allocated walk =>
    if walk = thread then
      some (cache.beginAsk dentry thread, frame.at (.asking ⟨dentry, true⟩))
    else none
  | .unasked =>
    some (cache.beginAsk dentry thread, frame.at (.asking ⟨dentry, true⟩))
  | .answered =>
    if opens = true ∧ frame.spelled = none ∧ cache.inode dentry = none then
      some (cache, frame.at (.asking ⟨dentry, false⟩))
    else some (cache, frame.at (.done (.ok dentry)))

/-- One turn of the loop of `alloc_parallel` under the tables' mutexes. -/
def allocTurn (thread : τ) (cache : Cache τ ν ι) (frame : Frame ν ι) (address : Nat) :
    Option (Cache τ ν ι × Frame ν ι) :=
  match cache.find (cache.keyAt frame.place) with
  | some found => some (cache, frame.at (.given found))
  | none =>
    match cache.findInLookup (cache.keyAt frame.place) with
    | some waited => some (cache, frame.at (.waiting waited))
    | none =>
      if cache.FreeAddress address then
        some (cache.make thread frame.place address, frame.at (.given cache.made))
      else none

/-- `wait_lookup` looks again, then `parent_and_name` is read where no walk holds the lookup. -/
def awake (thread : τ) (cache : Cache τ ν ι) (frame : Frame ν ι) (waited : Nat) :
    Option (Cache τ ν ι × Frame ν ι) :=
  match (cache.asked waited).heldFor with
  | some walk => if walk = thread then some (cache, frame.at (.given waited)) else none
  | none =>
    some (cache,
      frame.at (if cache.parentAndName waited = frame.place then .comparing waited else .alloc))

/-- The next step of the lookup of a name, if it can be taken. -/
def turn (isDir : ι → Bool) (semaphores : Lock ι → Holders τ) (thread : τ) (opens : Bool)
    (cache : Cache τ ν ι) (frame : Frame ν ι) (act : Act ν ι) :
    Option (Cache τ ν ι × Frame ν ι) :=
  match frame.phase, act with
  | .alloc, .alloc address => allocTurn thread cache frame address
  | .alloc, .refuse e => some (cache, frame.at (.done (.error e)))
  | .waiting waited, .awake => awake thread cache frame waited
  | .waiting _, .refuse e => some (cache, frame.at (.done (.error e)))
  | .comparing waited, .compare =>
    some (cache, frame.at (if cache.hashed waited then .given waited else .alloc))
  | .given dentry, .stale =>
    if cache.asked dentry = .answered ∧ frame.spelled = none then
      some (cache.unhash dentry, frame.at .alloc)
    else none
  | .given dentry, .refuse e =>
    if cache.asked dentry = .answered then some (cache, frame.at (.done (.error e))) else none
  | .given dentry, .begin => beginLookup thread opens cache frame dentry
  | .asking ask, .absent =>
    if frame.spelled = none then
      some (cache.rehash ask.dentry, frame.at (.ending ask (.ok ask.dentry)))
    else none
  | .asking ask, .found inode =>
    if frame.Splices inode then
      match cache.findAliasOrAdd isDir inode ask.dentry with
      | (added, none) => some (added, frame.at (.ending ask (.ok ask.dentry)))
      | (same, some other) => some (same, frame.at (.aliased ask other))
    else none
  | .asking ask, .spelled name inode =>
    if frame.spelled = none then
      some (cache, ⟨(cache.parentAndName ask.dentry).1, name, some (ask, inode), .alloc⟩)
    else none
  | .asking ask, .add inode =>
    if opens = true ∧ frame.spelled = none then
      some (cache.add isDir ask.dentry inode, frame)
    else none
  | .asking ask, .opened =>
    if opens = true ∧ frame.spelled = none then
      some (cache, frame.at (.ending ask (.ok ask.dentry)))
    else none
  | .asking ask, .refuse e =>
    if frame.spelled = none then some (cache, frame.at (.ending ask (.error e))) else none
  | .aliased ask other, .read =>
    some (cache, frame.at (.aliasing ask other (cache.parentAndName ask.dentry)))
  | .aliasing ask other place, .unalias rounds =>
    (unalias semaphores thread cache rounds ask.dentry other place).map fun told =>
      (told.1, frame.at (.ending ask told.2))
  | .ending ask answer, .finish =>
    some (if ask.ends then cache.lookupDone ask.dentry else cache, frame.at (.done answer))
  | .done answer, .hand =>
    frame.spelled.map fun spelled =>
      (cache, { frame with spelled := none, phase := .ending spelled.1 answer })
  | _, _ => none

section

variable (isDir : ι → Bool) (semaphores : Lock ι → Holders τ) (thread : τ) (opens : Bool)
  (cache : Cache τ ν ι) (frame : Frame ν ι)

/-- What a step of a lookup is, by the phase it is taken at. -/
inductive Turns : Act ν ι → Cache τ ν ι × Frame ν ι → Prop
  | alloc {address told} (phase : frame.phase = .alloc)
      (went : allocTurn thread cache frame address = some told) : Turns (.alloc address) told
  | awake {waited told} (phase : frame.phase = .waiting waited)
      (went : awake thread cache frame waited = some told) : Turns .awake told
  | failed {e} (phase : frame.phase = .alloc ∨ ∃ waited, frame.phase = .waiting waited) :
      Turns (.refuse e) (cache, frame.at (.done (.error e)))
  | compare {waited} (phase : frame.phase = .comparing waited) :
      Turns .compare (cache, frame.at (if cache.hashed waited then .given waited else .alloc))
  | stale {dentry} (phase : frame.phase = .given dentry) (told : cache.asked dentry = .answered) :
      Turns .stale (cache.unhash dentry, frame.at .alloc)
  | untrusted {dentry e} (phase : frame.phase = .given dentry)
      (told : cache.asked dentry = .answered) :
      Turns (.refuse e) (cache, frame.at (.done (.error e)))
  | begin {dentry told} (phase : frame.phase = .given dentry)
      (went : beginLookup thread opens cache frame dentry = some told) : Turns .begin told
  | absent {ask} (phase : frame.phase = .asking ask) :
      Turns .absent (cache.rehash ask.dentry, frame.at (.ending ask (.ok ask.dentry)))
  | found {ask inode added} (phase : frame.phase = .asking ask)
      (went : cache.findAliasOrAdd isDir inode ask.dentry = (added, none)) :
      Turns (.found inode) (added, frame.at (.ending ask (.ok ask.dentry)))
  | aliased {ask inode same other} (phase : frame.phase = .asking ask)
      (went : cache.findAliasOrAdd isDir inode ask.dentry = (same, some other)) :
      Turns (.found inode) (same, frame.at (.aliased ask other))
  | spelled {ask name inode} (phase : frame.phase = .asking ask) (plain : frame.spelled = none) :
      Turns (.spelled name inode)
        (cache, ⟨(cache.parentAndName ask.dentry).1, name, some (ask, inode), .alloc⟩)
  | add {ask inode} (phase : frame.phase = .asking ask) (open_ : opens = true)
      (plain : frame.spelled = none) :
      Turns (.add inode) (cache.add isDir ask.dentry inode, frame)
  | opened {ask} (phase : frame.phase = .asking ask) (open_ : opens = true) :
      Turns .opened (cache, frame.at (.ending ask (.ok ask.dentry)))
  | refused {ask e} (phase : frame.phase = .asking ask) :
      Turns (.refuse e) (cache, frame.at (.ending ask (.error e)))
  | read {ask other} (phase : frame.phase = .aliased ask other) :
      Turns .read (cache, frame.at (.aliasing ask other (cache.parentAndName ask.dentry)))
  | unalias {ask other place rounds out} (phase : frame.phase = .aliasing ask other place)
      (went : unalias semaphores thread cache rounds ask.dentry other place = some out) :
      Turns (.unalias rounds) (out.1, frame.at (.ending ask out.2))
  | finish {ask answer} (phase : frame.phase = .ending ask answer) :
      Turns .finish
        (if ask.ends then cache.lookupDone ask.dentry else cache, frame.at (.done answer))
  | hand {answer spelled} (phase : frame.phase = .done answer)
      (within_ : frame.spelled = some spelled) :
      Turns .hand (cache, { frame with spelled := none, phase := .ending spelled.1 answer })

end

/-- A step of a lookup taken is one of them. -/
theorem turns_of_turn {isDir : ι → Bool} {semaphores : Lock ι → Holders τ} {thread : τ}
    {opens : Bool} {cache : Cache τ ν ι} {frame : Frame ν ι} {act : Act ν ι}
    {told : Cache τ ν ι × Frame ν ι}
    (taken : turn isDir semaphores thread opens cache frame act = some told) :
    Turns isDir semaphores thread opens cache frame act told := by
  unfold turn at taken
  split at taken
  · rename_i phase
    exact .alloc phase taken
  · rename_i phase
    cases taken
    exact .failed (.inl phase)
  · rename_i phase
    exact .awake phase taken
  · rename_i phase
    cases taken
    exact .failed (.inr ⟨_, phase⟩)
  · rename_i phase
    cases taken
    exact .compare phase
  · rename_i phase
    obtain ⟨may, ⟨⟩⟩ := Option.ite_none_right_eq_some.mp taken
    exact .stale phase may.1
  · rename_i phase
    obtain ⟨may, ⟨⟩⟩ := Option.ite_none_right_eq_some.mp taken
    exact .untrusted phase may
  · rename_i phase
    exact .begin phase taken
  · rename_i phase
    obtain ⟨-, ⟨⟩⟩ := Option.ite_none_right_eq_some.mp taken
    exact .absent phase
  · rename_i phase
    obtain ⟨-, went⟩ := Option.ite_none_right_eq_some.mp taken
    split at went
    · rename_i spliced
      cases went
      exact .found phase spliced
    · rename_i spliced
      cases went
      exact .aliased phase spliced
  · rename_i phase
    obtain ⟨may, ⟨⟩⟩ := Option.ite_none_right_eq_some.mp taken
    exact .spelled phase may
  · rename_i phase
    obtain ⟨may, ⟨⟩⟩ := Option.ite_none_right_eq_some.mp taken
    exact .add phase may.1 may.2
  · rename_i phase
    obtain ⟨may, ⟨⟩⟩ := Option.ite_none_right_eq_some.mp taken
    exact .opened phase may.1
  · rename_i phase
    obtain ⟨-, ⟨⟩⟩ := Option.ite_none_right_eq_some.mp taken
    exact .refused phase
  · rename_i phase
    cases taken
    exact .read phase
  · rename_i phase
    obtain ⟨out, went, rfl⟩ := Option.map_eq_some_iff.mp taken
    exact .unalias phase went
  · rename_i phase
    cases taken
    exact .finish phase
  · rename_i phase
    obtain ⟨spelled, within_, rfl⟩ := Option.map_eq_some_iff.mp taken
    exact .hand phase within_
  · cases taken

/-- Where a call goes on once a name is looked up. -/
def Call.next (call : Call ν) (cache : Cache τ ν ι) (old : Option Nat) :
    Except FsError Nat → Stage ν ι
  | .error e => .ended (.error e)
  | .ok child =>
    match call, old with
    | .lookup _ _, _ | .openLast _ _ _, _ => .ended (.ok child)
    | .change _ _, _ => .found child
    | .rename _ _ _ _ _, none =>
      if cache.inode child = none then .ended (.error .notFound)
      else .looking (some child) (call.frame (some child))
    | .rename _ _ _ _ _, some old => .paired old child

/-- What the flags of `__start_renaming` refuse at the target. -/
def flagRefuses (flag : Option RenameFlag) (cache : Cache τ ν ι) (new : Nat) : Option FsError :=
  match flag with
  | some .exchange => if cache.inode new = none then some .notFound else none
  | some .noReplace => if cache.inode new = none then none else some .alreadyExists
  | _ => none

/-- The error a target above the source directory is refused with. -/
def aboveError (flag : Option RenameFlag) : FsError :=
  if flag = some .exchange then .invalidInput else .directoryNotEmpty

namespace State

/-- A thread at the next stage of its call, the dentries changed. -/
def goOn (state : State τ ν ι) (thread : τ) (cache : Cache τ ν ι) (call : Call ν)
    (stage : Stage ν ι) : State τ ν ι :=
  { state with
    cache := cache
    calls := Function.update state.calls thread (some (call, stage)) }

/-- The semaphore a target is held through. -/
def lockOf (cache : Cache τ ν ι) : Target → Option (Lock ι)
  | .renameMutex => some .renameMutex
  | .dir dentry => (cache.inode dentry).map .inode

/-- `inode_lock`, `inode_lock_shared` and `down_write` once they are granted. -/
def lock (state : State τ ν ι) (thread : τ) : Option (State τ ν ι) :=
  match state.calls thread with
  | some (call, .locking (target :: todo)) =>
    match lockOf state.cache target with
    | none => none
    | some lock =>
      match (state.semaphores lock).take call.exclusive thread with
      | .ok (true, held) =>
        some { state.goOn thread state.cache call (.locking todo) with
          semaphores := Function.update state.semaphores lock held }
      | _ => none
  | _ => none

/-- The checks of `__start_renaming` past its lookups, the first and then the second. -/
def check (state : State τ ν ι) (thread : τ) (rounds : Nat) : Option (State τ ν ι) :=
  match state.calls thread with
  | some (.rename oldDir oldName newDir newName flag, .paired old new) =>
    let goTo := state.goOn thread state.cache (.rename oldDir oldName newDir newName flag)
    match flagRefuses flag state.cache new with
    | some e => some (goTo (.ended (.error e)))
    | none =>
      match state.cache.isSubdir rounds newDir old with
      | none => none
      | some true => some (goTo (.ended (.error .invalidInput)))
      | some false => some (goTo (.cleared old new))
  | some (.rename oldDir oldName newDir newName flag, .cleared old new) =>
    let goTo := state.goOn thread state.cache (.rename oldDir oldName newDir newName flag)
    match state.cache.isSubdir rounds oldDir new with
    | none => none
    | some true => some (goTo (.ended (.error (aboveError flag))))
    | some false => some (goTo (.moving old new))
  | _ => none

/-- One step, if it can be taken. -/
def step [Fintype τ] (isDir : ι → Bool) (state : State τ ν ι) :
    Event τ ν ι → Option (State τ ν ι)
  | .start thread call newFirst =>
    match state.calls thread with
    | some _ => none
    | none =>
      if ∀ dir ∈ call.dirs, state.cache.live dir = true then
        some (state.goOn thread state.cache call (.locking (call.targets newFirst)))
      else none
  | .lock thread => state.lock thread
  | .enter thread =>
    match state.calls thread with
    | some (call, .locking []) =>
      some (state.goOn thread state.cache call (.looking none (call.frame none)))
    | _ => none
  | .turn thread act =>
    match state.calls thread with
    | some (call, .looking old frame) =>
      (turn isDir state.semaphores thread call.opens state.cache frame act).map fun told =>
        state.goOn thread told.1 call (.looking old told.2)
    | _ => none
  | .answer thread =>
    match state.calls thread with
    | some (call, .looking old ⟨_, _, none, .done answer⟩) =>
      some (state.goOn thread state.cache call (call.next state.cache old answer))
    | _ => none
  | .record thread inode =>
    match state.calls thread with
    | some (call, .found child) =>
      some (state.goOn thread (state.cache.add isDir child inode) call (.found child))
    | _ => none
  | .check thread rounds => state.check thread rounds
  | .unhashNew thread =>
    match state.calls thread with
    | some (.rename oldDir oldName newDir newName flag, .moving old new) =>
      if flag = some .exchange ∨ old = new then none
      else
        some (state.goOn thread (state.cache.unhash new)
          (.rename oldDir oldName newDir newName flag) (.moved old new))
    | _ => none
  | .move thread =>
    match state.calls thread with
    | some (call, .moved old new) =>
      some (state.goOn thread (state.cache.moveTo old (state.cache.parentAndName new)) call
        (.ended (.ok old)))
    | _ => none
  | .exchange thread =>
    match state.calls thread with
    | some (.rename oldDir oldName newDir newName flag, .moving old new) =>
      if flag = some .exchange ∧ old ≠ new then
        some (state.goOn thread (state.cache.exchange old new)
          (.rename oldDir oldName newDir newName flag) (.ended (.ok old)))
      else none
    | _ => none
  | .finish thread =>
    match state.calls thread with
    | some (call, .found child) => some (state.goOn thread state.cache call (.ended (.ok child)))
    | some (call, .moving old _) => some (state.goOn thread state.cache call (.ended (.ok old)))
    | _ => none
  | .refuse thread e =>
    match state.calls thread with
    | some (call, .locking _) | some (call, .found _) | some (call, .moving _ _) =>
      some (state.goOn thread state.cache call (.ended (.error e)))
    | _ => none
  | .leave thread =>
    match state.calls thread with
    | some (_, .ended _) =>
      some { state with
        semaphores := fun lock => without thread (state.semaphores lock)
        calls := Function.update state.calls thread none }
    | _ => none
  | .unhash dentry =>
    if state.cache.live dentry then some { state with cache := state.cache.unhash dentry }
    else none
  | .drop dentry =>
    if state.cache.parent dentry ≠ none ∧ state.cache.Childless dentry ∧
        ∀ thread, dentry ∉ state.holds thread then
      some { state with cache := state.cache.drop dentry }
    else none

end State

/-- A stage a call may end at with nothing more to change. -/
def Stage.ends : Stage ν ι → Bool
  | .locking _ | .found _ | .paired _ _ | .cleared _ _ | .moving _ _ => true
  | _ => false

section

variable (isDir : ι → Bool) (state : State τ ν ι)

/-- What a step is, by where its call stood and what it leaves. -/
inductive State.Steps : Event τ ν ι → State τ ν ι → Prop
  | start {thread call newFirst} (idle : state.calls thread = none)
      (live : ∀ dir ∈ call.dirs, state.cache.live dir = true) :
      Steps (.start thread call newFirst)
        (state.goOn thread state.cache call (.locking (call.targets newFirst)))
  | lock {thread call target todo lock held}
      (stood : state.calls thread = some (call, .locking (target :: todo)))
      (locks : lockOf state.cache target = some lock)
      (granted : (state.semaphores lock).take call.exclusive thread = .ok (true, held)) :
      Steps (.lock thread)
        { state.goOn thread state.cache call (.locking todo) with
          semaphores := Function.update state.semaphores lock held }
  | enter {thread call} (stood : state.calls thread = some (call, .locking [])) :
      Steps (.enter thread) (state.goOn thread state.cache call (.looking none (call.frame none)))
  | turn {thread act call old frame told}
      (stood : state.calls thread = some (call, .looking old frame))
      (turned : Dentries.turn isDir state.semaphores thread call.opens state.cache frame act =
        some told) :
      Steps (.turn thread act) (state.goOn thread told.1 call (.looking old told.2))
  | answer {thread call old parent name answer}
      (stood : state.calls thread = some (call, .looking old ⟨parent, name, none, .done answer⟩)) :
      Steps (.answer thread)
        (state.goOn thread state.cache call (call.next state.cache old answer))
  | record {thread inode call child} (stood : state.calls thread = some (call, .found child)) :
      Steps (.record thread inode)
        (state.goOn thread (state.cache.add isDir child inode) call (.found child))
  | clear {thread rounds oldDir oldName newDir newName flag old new}
      (stood : state.calls thread =
        some (.rename oldDir oldName newDir newName flag, .paired old new))
      (searched : state.cache.isSubdir rounds newDir old = some false) :
      Steps (.check thread rounds)
        (state.goOn thread state.cache (.rename oldDir oldName newDir newName flag)
          (.cleared old new))
  | check {thread rounds oldDir oldName newDir newName flag old new}
      (stood : state.calls thread =
        some (.rename oldDir oldName newDir newName flag, .cleared old new))
      (searched : state.cache.isSubdir rounds oldDir new = some false) :
      Steps (.check thread rounds)
        (state.goOn thread state.cache (.rename oldDir oldName newDir newName flag)
          (.moving old new))
  | unhashNew {thread call old new} (stood : state.calls thread = some (call, .moving old new)) :
      Steps (.unhashNew thread) (state.goOn thread (state.cache.unhash new) call (.moved old new))
  | move {thread call old new} (stood : state.calls thread = some (call, .moved old new)) :
      Steps (.move thread)
        (state.goOn thread (state.cache.moveTo old (state.cache.parentAndName new)) call
          (.ended (.ok old)))
  | exchange {thread call old new} (stood : state.calls thread = some (call, .moving old new))
      (apart : old ≠ new) :
      Steps (.exchange thread)
        (state.goOn thread (state.cache.exchange old new) call (.ended (.ok old)))
  | ends {event thread call stage answer} (stood : state.calls thread = some (call, stage))
      (ends : stage.ends = true) :
      Steps event (state.goOn thread state.cache call (.ended answer))
  | leave {thread call answer} (stood : state.calls thread = some (call, .ended answer)) :
      Steps (.leave thread)
        { state with
          semaphores := fun lock => without thread (state.semaphores lock)
          calls := Function.update state.calls thread none }
  | unhash {dentry} (live : state.cache.live dentry = true) :
      Steps (.unhash dentry) { state with cache := state.cache.unhash dentry }
  | drop {dentry} (childless : state.cache.Childless dentry)
      (free : ∀ thread, dentry ∉ state.holds thread) :
      Steps (.drop dentry) { state with cache := state.cache.drop dentry }

end

theorem State.steps_of_check {isDir : ι → Bool} {state next : State τ ν ι} {thread : τ}
    {rounds : Nat} (taken : state.check thread rounds = some next) :
    state.Steps isDir (.check thread rounds) next := by
  unfold State.check at taken
  split at taken
  · rename_i stood
    dsimp only at taken
    split at taken
    · cases taken
      exact .ends stood rfl
    · split at taken
      · cases taken
      · cases taken
        exact .ends stood rfl
      · rename_i searched
        cases taken
        exact .clear stood searched
  · rename_i stood
    dsimp only at taken
    split at taken
    · cases taken
    · cases taken
      exact .ends stood rfl
    · rename_i searched
      cases taken
      exact .check stood searched
  · cases taken

/-- A step taken is one of them. -/
theorem State.steps_of_step [Fintype τ] {isDir : ι → Bool} {state next : State τ ν ι}
    {event : Event τ ν ι} (taken : state.step isDir event = some next) :
    state.Steps isDir event next := by
  cases event with
  | check thread rounds => exact steps_of_check taken
  | start thread call newFirst =>
    simp only [State.step] at taken
    split at taken
    · cases taken
    · rename_i idle
      split at taken
      · rename_i live
        cases taken
        exact .start idle live
      · cases taken
  | lock thread =>
    simp only [State.step, State.lock] at taken
    split at taken
    · rename_i stood
      split at taken
      · cases taken
      · rename_i locks
        split at taken
        · rename_i granted
          cases taken
          exact .lock stood locks granted
        · cases taken
    · cases taken
  | enter thread =>
    simp only [State.step] at taken
    split at taken
    · rename_i stood
      cases taken
      exact .enter stood
    · cases taken
  | turn thread act =>
    simp only [State.step] at taken
    split at taken
    · rename_i stood
      obtain ⟨told, turned, same⟩ := Option.map_eq_some_iff.mp taken
      exact same ▸ .turn stood turned
    · cases taken
  | answer thread =>
    simp only [State.step] at taken
    split at taken
    · rename_i stood
      cases taken
      exact .answer stood
    · cases taken
  | record thread inode =>
    simp only [State.step] at taken
    split at taken
    · rename_i stood
      cases taken
      exact .record stood
    · cases taken
  | unhashNew thread =>
    simp only [State.step] at taken
    split at taken
    · rename_i stood
      split at taken
      · cases taken
      · cases taken
        exact .unhashNew stood
    · cases taken
  | move thread =>
    simp only [State.step] at taken
    split at taken
    · rename_i stood
      cases taken
      exact .move stood
    · cases taken
  | exchange thread =>
    simp only [State.step] at taken
    split at taken
    · rename_i stood
      split at taken
      · rename_i wanted
        cases taken
        exact .exchange stood wanted.2
      · cases taken
    · cases taken
  | finish thread | refuse thread e =>
    simp only [State.step] at taken
    split at taken
    any_goals cases taken
    all_goals
      rename_i stood
      exact .ends stood rfl
  | leave thread =>
    simp only [State.step] at taken
    split at taken
    · rename_i stood
      cases taken
      exact .leave stood
    · cases taken
  | unhash dentry =>
    simp only [State.step] at taken
    split at taken
    · rename_i live
      cases taken
      exact .unhash live
    · cases taken
  | drop dentry =>
    simp only [State.step] at taken
    split at taken
    · rename_i free
      cases taken
      exact .drop free.2.1 free.2.2
    · cases taken

/-! ## Where runs begin -/

/-- `make_root`: the root alone, standing for a directory. -/
def Cache.start (unnamed : ν) (root : ι) : Cache τ ν ι where
  dentries _ := ⟨none, unnamed, some root, .unasked, false⟩
  address _ := 0
  live dentry := dentry == 0
  made := 1
  dentryHashtable _ := none
  inLookupHashtable _ := none
  inodeDentry := Function.update (fun _ => none) root (some 0)

/-- An instance no call has reached. -/
def State.start (unnamed : ν) (root : ι) : State τ ν ι where
  cache := Cache.start unnamed root
  semaphores _ := Holders.empty
  calls _ := none

/-- A walk of a name by one thread, from its locks to its return, with what it hears. -/
def looksUp (thread : τ) (dir : Nat) (name : ν) (address : Nat) (acts : List (Act ν ι)) :
    List (Event τ ν ι) :=
  [Event.start thread (.lookup dir name) false, .lock thread, .enter thread,
      .turn thread (.alloc address), .turn thread .begin] ++
    acts.map (Event.turn thread) ++ [Event.turn thread .finish, .answer thread, .leave thread]

end Steps

end Kobako.Dentries
