import Kobako.Run
import Kobako.Vfs.Dentry
import Mathlib.Data.Fintype.Basic
import Mathlib.Logic.Function.Basic

/-!
# Walks that look a name up at once

The dentries of one Filesystem and the walks of every thread over them. Whatever runs under the
tables' mutexes, under an inode's `dentry` or under a dentry's `state` is one step; what a
Filesystem, a lock or a signal answers comes with the step that hears it. A sleeping walk may look
again at any time, so a wake-up is told no more of. The tables hold their dentries weakly: an entry
goes with the last holder of what it names. An open that makes nothing looks its last name up the
same way, the default `atomic_open` asking `lookup` for it.
-/

namespace Kobako.Dcache

open Kobako.Vfs (FsError)

variable (τ ν ι : Type)

/-- `vfs::dentry::LookupState`. -/
inductive LookupState where
  | unasked
  | allocated (walk : τ)
  | asking (walk : τ)
  | answered
deriving Repr, DecidableEq

/-- `vfs::dentry::State`, a dentry above told by its number. -/
structure Dentry where
  parent : Option Nat
  name : ν
  inode : Option ι
  asked : LookupState τ
  hashed : Bool
deriving Repr, DecidableEq

/-- `vfs::dentry::Key`. -/
abbrev Key := Nat × ν

/-- `vfs::inode::Lookup`. -/
inductive Lookup where
  | found (inode : ι)
  | absent
  | spelled (name : ν) (inode : ι)
deriving Repr, DecidableEq

/-- The error a walk ends with. -/
inductive Refusal where
  /-- A fatal signal while it waited. -/
  | interrupted
  /-- `unalias` onto a name beneath the alias. -/
  | filesystemLoop
  /-- `unalias` with a lock another call holds. -/
  | stale
  /-- What the Filesystem or the directory's lock answered. -/
  | told (e : FsError)
deriving Repr, DecidableEq

/-- Where a walk stands at a name, `ends` telling whether its ask ends the lookup. -/
inductive Phase where
  /-- Before `lookup_fast`. -/
  | fast
  /-- `revalidate` of what `lookup_fast` found. -/
  | trusting (dentry : Nat)
  /-- Before the directory's lock is held shared. -/
  | locking
  /-- At the top of the loop of `alloc_parallel`. -/
  | slow
  /-- `wait_lookup` of `alloc_parallel`. -/
  | waiting (waited : Nat)
  /-- That wait over, another walk's lookup ended. -/
  | left (waited : Nat)
  /-- It stood at the name, `hashed` to be read. -/
  | comparing (waited : Nat)
  /-- `alloc_parallel` answered. -/
  | given (dentry : Nat)
  /-- `revalidate` of what `alloc_parallel` answered. -/
  | revalidating (dentry : Nat)
  /-- `wait_lookup` of `begin_lookup`. -/
  | beginning (dentry : Nat)
  /-- The rest of `begin_lookup`. -/
  | entering (dentry : Nat)
  /-- Inside the Filesystem's `lookup`. -/
  | inside (dentry : Nat) (ends : Bool)
  /-- `splice_alias` of what it found. -/
  | splicing (dentry : Nat) (ends : Bool) (found : Lookup ν ι)
  /-- `add_ci` of another spelling, the frame above this one. -/
  | spelled (dentry : Nat) (ends : Bool)
  /-- Another dentry stands for the directory found. -/
  | aliased (dentry : Nat) (ends : Bool) (other : Nat)
  /-- `unalias` with the name to move it to. -/
  | aliasing (dentry : Nat) (ends : Bool) (other : Nat) (place : Key ν)
  /-- `ask` answered, the lookup to be ended. -/
  | ending (dentry : Nat) (ends : Bool) (asked : Except Refusal (Option Nat))
  /-- The walk of the name is over. -/
  | done (answer : Except Refusal Nat)

/-- One name a thread is looking up: by a walk, or by `add_ci` with the inode to splice there. -/
structure Frame where
  parent : Nat
  name : ν
  inode : Option ι
  phase : Phase ν ι

/-- The dentries, the tables that find them and the walks of each thread, innermost first. -/
structure World where
  dentries : Nat → Dentry τ ν ι
  /-- Every number from here on is free. -/
  made : Nat
  dentryHashtable : Key ν → Option Nat
  inLookupHashtable : Key ν → Option Nat
  /-- `Inode::dentry`. -/
  inodeDentry : ι → Option Nat
  stack : τ → List (Frame ν ι)

/-- What happens next. -/
inductive Act where
  /-- A walk reaches a name, from the guest or from the Filesystem's own code. -/
  | walk (thread : τ) (parent : Nat) (name : ν)
  /-- The runtime's next step, `fatal` being what `fatal_signal_pending` answers. -/
  | go (thread : τ) (fatal : Bool)
  /-- `inode_lock_shared` and `is_deaddir` answer. -/
  | lock (thread : τ) (refused : Option FsError)
  /-- `revalidate` answers. -/
  | trust (thread : τ) (valid : Except FsError Bool)
  /-- The Filesystem's `lookup` answers. -/
  | answer (thread : τ) (found : Except FsError (Lookup ν ι))
  /-- `unalias`, `free` telling whether both locks were taken. -/
  | unalias (thread : τ) (free : Bool)
  /-- The last holder of a dentry lets it go. -/
  | forget (dentry : Nat)

variable {τ ν ι}

/-- The name a frame is about. -/
def Frame.key (frame : Frame ν ι) : Key ν := (frame.parent, frame.name)

/-- The frame at its next phase. -/
def Frame.at (frame : Frame ν ι) (phase : Phase ν ι) : Frame ν ι := { frame with phase := phase }

/-- The dentries a phase holds. -/
def Phase.holds : Phase ν ι → List Nat
  | .fast | .locking | .slow => []
  | .trusting dentry | .waiting dentry | .left dentry | .comparing dentry | .given dentry
  | .revalidating dentry | .beginning dentry | .entering dentry | .inside dentry _
  | .splicing dentry _ _ | .spelled dentry _ => [dentry]
  | .aliased dentry _ other => [dentry, other]
  | .aliasing dentry _ other place => [dentry, other, place.1]
  | .ending dentry _ asked => dentry :: (asked.toOption.join).toList
  | .done answer => answer.toOption.toList

/-- The dentries a frame holds. -/
def Frame.holds (frame : Frame ν ι) : List Nat := frame.parent :: frame.phase.holds

/-- The Filesystem's own code runs, which may walk again. -/
def Phase.outside : Phase ν ι → Bool
  | .trusting _ | .revalidating _ | .inside _ _ => true
  | _ => false

/-- `in_lookup` of the state a lookup stands in. -/
def LookupState.inLookup : LookupState τ → Bool
  | .allocated _ | .asking _ => true
  | .unasked | .answered => false

/-- The walk a lookup is held for. -/
def LookupState.heldFor : LookupState τ → Option τ
  | .allocated walk | .asking walk => some walk
  | .unasked | .answered => none

namespace World

variable [DecidableEq τ] [DecidableEq ν] [DecidableEq ι]

/-- The lookup state of a dentry. -/
def asked (world : World τ ν ι) (dentry : Nat) : LookupState τ := (world.dentries dentry).asked

/-- `Dentry::parent_and_name`, a root being its own parent. -/
def key (world : World τ ν ι) (dentry : Nat) : Key ν :=
  ((world.dentries dentry).parent.getD dentry, (world.dentries dentry).name)

/-- `Dentry::is_root`. -/
def isRoot (world : World τ ν ι) (dentry : Nat) : Bool := (world.dentries dentry).parent.isNone

/-- The loop of `d_ancestor`, as many steps up as there are dentries. -/
def ancestorWithin (world : World τ ν ι) (ancestor : Nat) : Nat → Nat → Bool
  | 0, _ => false
  | steps + 1, dentry =>
    match (world.dentries dentry).parent with
    | none => false
    | some parent => parent == ancestor || world.ancestorWithin ancestor steps parent

/-- `d_ancestor`. -/
def dAncestor (world : World τ ν ι) (ancestor dentry : Nat) : Bool :=
  world.ancestorWithin ancestor world.made dentry

/-- A dentry with its lookup state set. -/
def setAsked (world : World τ ν ι) (dentry : Nat) (state : LookupState τ) : World τ ν ι :=
  { world with
    dentries := Function.update world.dentries dentry
      { world.dentries dentry with asked := state } }

/-- An `in_lookup_hashtable` without a dentry at its name. -/
def leaveLookup (world : World τ ν ι) (dentry : Nat) : World τ ν ι :=
  if world.inLookupHashtable (world.key dentry) = some dentry then
    { world with
      inLookupHashtable := Function.update world.inLookupHashtable (world.key dentry) none }
  else world

/-- `Dentry::rehash`. -/
def rehash (world : World τ ν ι) (dentry : Nat) : World τ ν ι :=
  let ended := world.leaveLookup dentry
  { ended with
    dentries := Function.update ended.dentries dentry
      { ended.dentries dentry with asked := .answered, hashed := true }
    dentryHashtable :=
      if (ended.dentries dentry).hashed then ended.dentryHashtable
      else Function.update ended.dentryHashtable (ended.key dentry) (some dentry) }

/-- `Dentry::lookup_done`. -/
def lookupDone (world : World τ ν ι) (dentry : Nat) : World τ ν ι :=
  if (world.asked dentry).inLookup then (world.leaveLookup dentry).setAsked dentry .unasked
  else world

/-- `Dentries::unhash`, what is kept beneath it left to its holders. -/
def unhash (world : World τ ν ι) (dentry : Nat) : World τ ν ι :=
  if (world.dentries dentry).hashed then
    { world with
      dentryHashtable := Function.update world.dentryHashtable (world.key dentry) none
      dentries := Function.update world.dentries dentry
        { world.dentries dentry with hashed := false } }
  else world

/-- `Dentry::__instantiate`. -/
def instantiate (isDir : ι → Bool) (world : World τ ν ι) (dentry : Nat) (inode : ι) :
    World τ ν ι :=
  match (world.dentries dentry).inode with
  | some _ => world
  | none =>
    { world with
      dentries := Function.update world.dentries dentry
        { world.dentries dentry with inode := some inode }
      inodeDentry :=
        if isDir inode then Function.update world.inodeDentry inode (some dentry)
        else world.inodeDentry }

/-- The dentry of a new name in lookup for a thread, as `alloc_parallel` makes it. -/
def make (world : World τ ν ι) (thread : τ) (place : Key ν) : World τ ν ι :=
  { world with
    dentries := Function.update world.dentries world.made
      { parent := some place.1, name := place.2, inode := none, asked := .allocated thread,
        hashed := false }
    made := world.made + 1
    inLookupHashtable := Function.update world.inLookupHashtable place (some world.made) }

/-- The move `unalias` ends in. -/
def moveTo (world : World τ ν ι) (other : Nat) (place : Key ν) : World τ ν ι :=
  let table :=
    if (world.dentries other).hashed then
      Function.update world.dentryHashtable (world.key other) none
    else world.dentryHashtable
  { world with
    dentryHashtable := Function.update table place (some other)
    dentries := Function.update world.dentries other
      { world.dentries other with hashed := true, parent := some place.1, name := place.2 } }

/-- A dentry gone from every place that held it weakly. -/
def drop (world : World τ ν ι) (dentry : Nat) : World τ ν ι :=
  { world with
    dentryHashtable := fun place => (world.dentryHashtable place).filter (· ≠ dentry)
    inLookupHashtable := fun place => (world.inLookupHashtable place).filter (· ≠ dentry)
    inodeDentry := fun inode => (world.inodeDentry inode).filter (· ≠ dentry) }

/-- The walks of one thread replaced. -/
def onto (world : World τ ν ι) (thread : τ) (frames : List (Frame ν ι)) : World τ ν ι :=
  { world with stack := Function.update world.stack thread frames }

/-! ## The steps of a walk -/

/-- One turn of `wait_lookup`: `owned` where the thread holds the lookup itself, `settled` where no
walk does. -/
def waitLookup (world : World τ ν ι) (thread : τ) (dentry : Nat) (fatal : Bool)
    (stay owned settled : Phase ν ι) : Phase ν ι :=
  match (world.asked dentry).heldFor with
  | some walk =>
    if walk = thread then owned
    else if fatal then .done (.error .interrupted)
    else stay
  | none => settled

/-- One turn of the loop of `alloc_parallel` under the tables' mutexes. -/
def allocTurn (world : World τ ν ι) (thread : τ) (place : Key ν) : World τ ν ι × Phase ν ι :=
  match world.dentryHashtable place with
  | some found => (world, .given found)
  | none =>
    match world.inLookupHashtable place with
    | some waited => (world, .waiting waited)
    | none => (world.make thread place, .given world.made)

/-- What an ask begins with: the Filesystem, or the inode `add_ci` was given. -/
def askPhase (frame : Frame ν ι) (dentry : Nat) (ends : Bool) : Phase ν ι :=
  match frame.inode with
  | none => .inside dentry ends
  | some inode => .splicing dentry ends (.found inode)

/-- `begin_lookup` past its wait. -/
def beginLookup (world : World τ ν ι) (thread : τ) (frame : Frame ν ι) (dentry : Nat) :
    World τ ν ι × Phase ν ι :=
  match world.asked dentry with
  | .asking _ => (world, askPhase frame dentry false)
  | .answered => (world, .done (.ok dentry))
  | .allocated _ | .unasked => (world.setAsked dentry (.asking thread), askPhase frame dentry true)

/-- `Inode::find_alias_or_add`. -/
def findAliasOrAdd (isDir : ι → Bool) (world : World τ ν ι) (inode : ι) (dentry : Nat) :
    World τ ν ι × Option Nat :=
  match world.inodeDentry inode with
  | some held =>
    if held = dentry then ((world.instantiate isDir dentry inode).rehash dentry, none)
    else (world, some held)
  | none => ((world.instantiate isDir dentry inode).rehash dentry, none)

/-- `ask_in_lookup` past its `ask`. -/
def endAsk (world : World τ ν ι) (dentry : Nat) (ends : Bool) : World τ ν ι :=
  if ends then world.lookupDone dentry else world

/-- The frames beneath one that is over, `add_ci` handing its answer to the one it was called
from. -/
def handDown (upper : Frame ν ι) (answer : Except Refusal Nat) :
    List (Frame ν ι) → List (Frame ν ι)
  | [] => []
  | below :: rest =>
    match upper.inode, below.phase with
    | some _, .spelled dentry ends => below.at (.ending dentry ends (answer.map some)) :: rest
    | _, _ => below :: rest

/-- The runtime's next step of the innermost walk of a thread. -/
def advance (isDir : ι → Bool) (world : World τ ν ι) (thread : τ) (fatal : Bool)
    (frame : Frame ν ι) (rest : List (Frame ν ι)) : Option (World τ ν ι) :=
  let goOn (after : World τ ν ι) (phase : Phase ν ι) : Option (World τ ν ι) :=
    some (after.onto thread (frame.at phase :: rest))
  match frame.phase with
  | .fast =>
    match world.dentryHashtable frame.key with
    | some dentry => goOn world (.trusting dentry)
    | none => goOn world .locking
  | .slow =>
    let turned := world.allocTurn thread frame.key
    goOn turned.1 turned.2
  | .waiting waited =>
    goOn world (world.waitLookup thread waited fatal (.waiting waited) (.given waited)
      (.left waited))
  | .left waited =>
    goOn world (if world.key waited = frame.key then .comparing waited else .slow)
  | .comparing waited =>
    goOn world (if (world.dentries waited).hashed then .given waited else .slow)
  | .given dentry =>
    goOn world
      (if frame.inode.isSome || (world.asked dentry).inLookup then .beginning dentry
      else .revalidating dentry)
  | .beginning dentry =>
    goOn world (world.waitLookup thread dentry fatal (.beginning dentry) (.entering dentry)
      (.entering dentry))
  | .entering dentry =>
    let begun := world.beginLookup thread frame dentry
    goOn begun.1 begun.2
  | .splicing dentry ends .absent => goOn (world.rehash dentry) (.ending dentry ends (.ok none))
  | .splicing dentry ends (.found inode) =>
    match world.findAliasOrAdd isDir inode dentry with
    | (added, none) => goOn added (.ending dentry ends (.ok none))
    | (same, some other) => goOn same (.aliased dentry ends other)
  | .splicing dentry ends (.spelled name inode) =>
    let spelling : Frame ν ι := ⟨(world.key dentry).1, name, some inode, .slow⟩
    some (world.onto thread (spelling :: frame.at (.spelled dentry ends) :: rest))
  | .aliased dentry ends other => goOn world (.aliasing dentry ends other (world.key dentry))
  | .ending dentry ends asked =>
    goOn (world.endAsk dentry ends) (.done (asked.map fun spliced => spliced.getD dentry))
  | .done answer => some (world.onto thread (handDown frame answer rest))
  | .trusting _ | .locking | .revalidating _ | .inside _ _ | .spelled _ _ | .aliasing _ _ _ _ =>
    none

/-- `revalidate` of a walk answered, `d_revalidate` with what it drops. -/
def revalidated (world : World τ ν ι) (dentry : Nat) (valid : Except FsError Bool)
    (kept again : Phase ν ι) : World τ ν ι × Phase ν ι :=
  match valid with
  | .ok true => (world, kept)
  | .ok false => (world.unhash dentry, again)
  | .error e => (world, .done (.error (.told e)))

/-- `Dentry::unalias`, its locks taken where they are needed or not. -/
def unaliased (world : World τ ν ι) (dentry other : Nat) (place : Key ν) (free : Bool) :
    World τ ν ι × Except Refusal (Option Nat) :=
  if world.dAncestor other dentry || world.isRoot other then (world, .error .filesystemLoop)
  else if (world.key other).1 = place.1 ∨ free = true then
    (world.moveTo other place, .ok (some other))
  else (world, .error .stale)

/-- One step, if it can be taken. -/
def step [Fintype τ] (isDir : ι → Bool) (world : World τ ν ι) : Act τ ν ι → Option (World τ ν ι)
  | .walk thread parent name =>
    let reached : Frame ν ι := ⟨parent, name, none, .fast⟩
    match world.stack thread with
    | [] => if parent < world.made then some (world.onto thread [reached]) else none
    | frame :: rest =>
      if frame.phase.outside = true ∧ parent < world.made then
        some (world.onto thread (reached :: frame :: rest))
      else none
  | .go thread fatal =>
    match world.stack thread with
    | [] => none
    | frame :: rest => world.advance isDir thread fatal frame rest
  | .lock thread refused =>
    match world.stack thread with
    | [] => none
    | frame :: rest =>
      match frame.phase, refused with
      | .locking, none => some (world.onto thread (frame.at .slow :: rest))
      | .locking, some e => some (world.onto thread (frame.at (.done (.error (.told e))) :: rest))
      | _, _ => none
  | .trust thread valid =>
    match world.stack thread with
    | [] => none
    | frame :: rest =>
      match frame.phase with
      | .trusting dentry =>
        let told := world.revalidated dentry valid (.done (.ok dentry)) .locking
        some (told.1.onto thread (frame.at told.2 :: rest))
      | .revalidating dentry =>
        let told := world.revalidated dentry valid (.beginning dentry) .slow
        some (told.1.onto thread (frame.at told.2 :: rest))
      | _ => none
  | .answer thread found =>
    match world.stack thread with
    | [] => none
    | frame :: rest =>
      match frame.phase, found with
      | .inside dentry ends, .ok found =>
        some (world.onto thread (frame.at (.splicing dentry ends found) :: rest))
      | .inside dentry ends, .error e =>
        some (world.onto thread (frame.at (.ending dentry ends (.error (.told e))) :: rest))
      | _, _ => none
  | .unalias thread free =>
    match world.stack thread with
    | [] => none
    | frame :: rest =>
      match frame.phase with
      | .aliasing dentry ends other place =>
        let told := world.unaliased dentry other place free
        some (told.1.onto thread (frame.at (.ending dentry ends told.2) :: rest))
      | _ => none
  | .forget dentry =>
    if ∀ thread, ∀ frame ∈ world.stack thread, dentry ∉ frame.holds then some (world.drop dentry)
    else none

end World

end Kobako.Dcache
