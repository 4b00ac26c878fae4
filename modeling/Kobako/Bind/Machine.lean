import Kobako.Bind.Host
import Kobako.Run

/-!
# A Bind at work

The host directories a Bind keeps open and the calls it answers. A call finds the directory it is
about by the dentry it is handed: one kept for it, or the names beneath the nearest directory kept,
each opened in turn without following a link. Every call on the host and every look at a dentry or
at the cache is a step of its own, and between any two the host may change, dentries may move, come
and go, and other calls take their steps.
-/

namespace Kobako.Bind

open Vfs Host

variable {ν : Type}

/-- A host descriptor: the entry it is open on, until the last to hold it lets go. -/
structure Fid where
  object : Nat
  isOpen : Bool

/-- A dentry, as a Bind reads it. -/
structure Dentry (ν : Type) where
  /-- The dentry above and the name there, none at the root. -/
  above : Option (Nat × ν)
  /-- The kind and the identity its inode recorded. -/
  record : Option (FileType × Option Identity)
  /-- `OpenDirFid`. -/
  dir : Option Nat
  /-- `OpenFids`, and whether each was opened to write. -/
  files : List (Nat × Bool)

/-- What a directory is asked for itself. -/
inductive DirAct
  | getattr
  | setattr (atime mtime : Option Nat)
  | opens (read : Bool)

/-- What a call does with the directory `fid_lookup` answers. -/
inductive Goal (ν : Type)
  /-- It is about the directory itself. -/
  | dir (act : DirAct)
  /-- It is about a name there, as `at` hands it. -/
  | name (name : ν) (act : NameAct)
  /-- `open_file` of a name there, for a dentry. -/
  | openFile (dentry : Nat) (name : ν) (how : OpenHow) (create : Bool)
  /-- `rename` of a name there; the directory above another dentry is found next. -/
  | renameFrom (name : ν) (target : Nat)
  /-- `rename` to a name there, from a name in a directory found before. -/
  | renameTo (fid : Nat) (name toName : ν)

/-- Where a call stands, named after what it does next. -/
inductive Phase (ν : Type)
  /-- `find_fid`: whether a dentry is the root or is held open. -/
  | asking (dentry : Nat) (names : List ν)
  /-- `find_fid`: whether the cache keeps a directory for it. -/
  | searching (dentry : Nat) (names : List ν)
  /-- `fid_lookup`: its name is pushed. -/
  | naming (dentry : Nat) (names : List ν)
  /-- `fid_lookup`: the one above it is taken. -/
  | rising (dentry : Nat) (names : List ν)
  /-- `walk`: the names left, the directory come to, and where it all began. -/
  | walking (recorded : Option Identity) (above : Nat) (names : List ν) (fid : Nat)
    (todo : List ν)
  /-- `nofollow_error`: why an open of a name failed. -/
  | refused (fid : Nat) (name : ν) (error : FsError)
  /-- `stands`. -/
  | checking (recorded : Option Identity) (fid : Nat)
  /-- `fid_lookup` answered. -/
  | acting (fid : Nat)
  /-- `open_file`: what opened is looked at. -/
  | opening (fid : Nat)
  | done (answer : Except FsError (Answer ν))

/-- A call, and the dentry whose directory it looks up. -/
structure Task (ν : Type) where
  target : Nat
  goal : Goal ν
  phase : Phase ν

/-- The host, the dentries, and what the Bind and its callers hold. -/
structure State (ν : Type) where
  host : Host ν
  /-- The host as it was before each change, the last first. -/
  past : List (Host ν)
  fids : List Fid
  /-- `FidCache`: a dentry's address and the directory kept for it, the last asked first. -/
  cache : List (Nat × Nat)
  dentries : Nat → Option (Dentry ν)
  /-- Every address a dentry had. -/
  addresses : List Nat
  /-- The descriptors guests hold open. -/
  opened : List Nat
  tasks : List (Task ν)
  /-- The entries of the host that calls read or changed. -/
  touched : List Nat

/-- A Bind made at a host directory, and its root dentry. -/
def State.new (identity : Option Identity) : State ν where
  host := ⟨[.empty .dir identity]⟩
  past := []
  fids := [⟨0, true⟩]
  cache := []
  dentries address := if address = 0 then some ⟨none, some (.dir, identity), none, []⟩ else none
  addresses := [0]
  opened := []
  tasks := []
  touched := []

namespace State

/-- The entry a descriptor is open on. -/
def object (state : State ν) (fid : Nat) : Option Nat := state.fids[fid]?.map (·.object)

/-- Whether a descriptor is still held. -/
def isOpen (state : State ν) (fid : Nat) : Bool := state.fids[fid]?.any (·.isOpen)

/-- The host as a call left it. -/
def onto (state : State ν) (host : Host ν) : State ν :=
  { state with host, past := state.host :: state.past }

/-- Entries a call read or changed. -/
def touch (state : State ν) (objects : List Nat) : State ν :=
  { state with touched := objects ++ state.touched }

/-- A descriptor is opened. -/
def push (state : State ν) (object : Nat) : State ν :=
  { state with fids := state.fids ++ [⟨object, true⟩] }

/-- A call goes on. -/
def goOn (state : State ν) (index : Nat) (task : Task ν) (phase : Phase ν) : State ν :=
  { state with tasks := state.tasks.set index { task with phase } }

/-- A dentry is changed. -/
def setDentry (state : State ν) (address : Nat) (dentry : Option (Dentry ν)) : State ν :=
  { state with dentries := fun other => if other = address then dentry else state.dentries other }

/-- What a dentry recorded as its identity. -/
def recorded (state : State ν) (address : Nat) : Option Identity :=
  (state.dentries address).bind fun dentry => dentry.record.bind (·.2)

/-- Whether a dentry stands for a directory. -/
def isDir (state : State ν) (address : Nat) : Bool :=
  (state.dentries address).any fun dentry => dentry.record.any fun record => record.1 = .dir

/-- `v9fs_fid_find_inode`. -/
def fidFindInode (state : State ν) (address : Nat) (writable : Bool) : Option Nat :=
  (state.dentries address).bind fun dentry =>
    ((dentry.files.filter fun file => file.2 || !writable).find? fun file =>
      state.isOpen file.1).map (·.1)

end State

/-- What a call answers for: `stands_as_recorded` tells what came of asking, any other call
answers it. -/
def Goal.settle (answer : Except FsError (Answer ν)) : Goal ν → Except FsError (Answer ν)
  | .name _ (.revalidate recorded) =>
    match answer with
    | .ok value => .ok value
    | .error .notFound => .ok (.stands recorded.isNone)
    | .error .notADirectory | .error .filesystemLoop => .ok (.stands false)
    | .error error => .error error
  | _ => answer

/-- A call ends. -/
def State.finish (state : State ν) (index : Nat) (task : Task ν)
    (answer : Except FsError (Answer ν)) : State ν :=
  state.goOn index task (.done (task.goal.settle answer))

/-- A call ends with what the host answered it. -/
def State.conclude (state : State ν) (index : Nat) (task : Task ν) (outcome : Outcome ν) :
    State ν :=
  ((state.onto outcome.host).touch outcome.touched).finish index task outcome.answer

/-- A directory is found for a dentry on the way up: the one looked up, or one to walk from. -/
def State.found (state : State ν) (index : Nat) (task : Task ν) (fid : Nat) (names : List ν) :
    State ν :=
  state.goOn index task
    (if names.isEmpty then .acting fid
      else .walking (state.recorded task.target) fid names fid names)

variable [DecidableEq ν] (outside : Outside ν)

/-- `FidCache::get`: the directory kept for a dentry is now the last asked. -/
def State.reuse (state : State ν) (address fid : Nat) : State ν :=
  { state with cache := outside.get state.cache (address, fid) }

/-- `FidCache::put`. -/
def State.keep (state : State ν) (address fid : Nat) : State ν :=
  { state with cache := outside.put state.cache (address, fid) }

/-- `open_in` as far as the open itself: a descriptor, or why there is none. -/
def State.openIn (state : State ν) (index : Nat) (task : Task ν) (fid dir : Nat) (name : ν)
    (how : OpenHow) (create : Bool) (identity : Option Identity) : State ν :=
  let outcome := outside.openIn state.host dir name how create identity
  let asked := (state.onto outcome.host).touch outcome.touched
  match outcome.answer with
  | .ok object => (asked.push object).goOn index task (.opening state.fids.length)
  | .error error => asked.goOn index task (.refused fid name error)

/-- `open_file` once a descriptor is open: only a file stands, and the one recorded. -/
def State.opened? (state : State ν) (index : Nat) (task : Task ν) (fid object address : Nat)
    (how : OpenHow) : Option (State ν) :=
  match state.host.nodes[object]?, state.dentries address with
  | some node, some dentry =>
    let refuse (error : FsError) := (state.touch [object]).finish index task (.error error)
    let answer (record : FileType × Option Identity) : State ν :=
      { (((state.touch [object]).setDentry address (some { dentry with
          record := some record
          files := dentry.files.filter (fun file => state.isOpen file.1) ++
            [(fid, how.write || how.truncate)] })).finish index task (.ok (.opened fid))) with
        opened := fid :: state.opened }
    match node.fileType, dentry.record with
    | .dir, _ => some (refuse .isADirectory)
    | .regFile, none => some (answer (node.fileType, node.identity))
    | .regFile, some record =>
      if record.2 ≠ none ∧ node.identity ≠ record.2 then some (refuse .notFound)
      else some (answer record)
    | _, _ => some (refuse .permissionDenied)
  | _, _ => none

/-- A call does what it is for with the directory found. -/
def State.act (state : State ν) (index : Nat) (task : Task ν) (fid dir : Nat)
    (identity : Option Identity) : Option (State ν) :=
  match task.goal with
  | .dir .getattr => some (state.conclude index task (outside.ask state.host dir .stat))
  | .dir (.setattr atime mtime) =>
    some (state.conclude index task (outside.ask state.host dir (.setTimes atime mtime)))
  | .dir (.opens _) =>
    match state.dentries task.target with
    | none => none
    | some dentry =>
      some { ((state.touch [dir]).setDentry task.target (some { dentry with
          dir := some fid })).finish index task (.ok (.opened fid)) with
        opened := fid :: state.opened }
  | .name name act =>
    some (state.conclude index task (outside.act state.host dir name identity act))
  | .openFile _ name how create =>
    some (state.openIn outside index task fid dir name how create identity)
  | .renameFrom name target =>
    match (state.dentries target).bind (·.above) with
    | none => none
    | some (parent, toName) =>
      if state.isDir parent then
        some { state with
          tasks := state.tasks.set index ⟨parent, .renameTo fid name toName, .asking parent []⟩ }
      else none
  | .renameTo held name toName =>
    match state.object held with
    | none => none
    | some above =>
      some (state.conclude index task (outside.rename state.host above name dir toName))

/-- A call takes its next step, whatever the host holds now. -/
def State.turn (state : State ν) (index : Nat) (task : Task ν) (identity : Option Identity) :
    Option (State ν) :=
  match task.phase with
  | .asking address names =>
    match state.dentries address with
    | none => none
    | some dentry =>
      if dentry.above.isNone then some (state.found index task 0 names)
      else
        match dentry.dir.filter state.isOpen with
        | some fid => some (state.found index task fid names)
        | none => some (state.goOn index task (.searching address names))
  | .searching address names =>
    match state.cache.lookup address with
    | some fid => some ((state.reuse outside address fid).found index task fid names)
    | none => some (state.goOn index task (.naming address names))
  | .naming address names =>
    match (state.dentries address).bind (·.above) with
    | none => none
    | some (_, name) => some (state.goOn index task (.rising address (name :: names)))
  | .rising address names =>
    match (state.dentries address).bind (·.above) with
    | none => none
    | some (parent, _) => some (state.goOn index task (.asking parent names))
  | .walking recorded _ _ fid [] => some (state.goOn index task (.checking recorded fid))
  | .walking recorded above names fid (name :: todo) =>
    match state.object fid with
    | none => none
    | some dir =>
      match state.host.lookup dir name with
      | none => some ((state.touch [dir]).goOn index task (.refused fid name .notFound))
      | some object =>
        if state.host.isDir object then
          some (((state.touch [dir, object]).push object).goOn index task
            (.walking recorded above names state.fids.length todo))
        else
          some ((state.touch [dir, object]).goOn index task (.refused fid name .notADirectory))
  | .refused fid name error =>
    match state.object fid with
    | none => none
    | some dir =>
      match state.host.lookup dir name with
      | none => some ((state.touch [dir]).finish index task (.error error))
      | some object =>
        some ((state.touch [dir, object]).finish index task (.error
          (if state.host.nodes[object]?.any (·.fileType = .symlink) then .filesystemLoop
            else error)))
  | .checking recorded fid =>
    match state.object fid with
    | none => none
    | some object =>
      if recorded = none ∨ state.host.identity object = recorded then
        some (((state.touch [object]).keep outside task.target fid).goOn index task
          (.acting fid))
      else some ((state.touch [object]).finish index task (.error .notFound))
  | .acting fid =>
    match state.object fid with
    | none => none
    | some dir => state.act outside index task fid dir identity
  | .opening fid =>
    match state.object fid, task.goal with
    | some object, .openFile address _ how _ => state.opened? index task fid object address how
    | _, _ => none
  | .done _ => none

/-- A call on the host fails. -/
def State.fail (state : State ν) (index : Nat) (task : Task ν) (error : FsError) :
    Option (State ν) :=
  match task.phase with
  | .walking _ _ _ fid (name :: _) => some (state.goOn index task (.refused fid name error))
  -- Why is not told, so the failure stands as it is.
  | .refused _ _ before => some (state.finish index task (.error before))
  | .checking _ _ => some (state.finish index task (.error .notFound))
  | .acting fid =>
    match task.goal with
    | .openFile _ name _ _ => some (state.goOn index task (.refused fid name error))
    | .renameFrom _ _ => none
    | _ => some (state.finish index task (.error error))
  | .opening _ => some (state.finish index task (.error error))
  | _ => none

/-- A call a Bind is made. -/
inductive Call
  /-- `getattr`, `setattr` or `open` of a directory. -/
  | dir (act : DirAct)
  /-- `getattr` of a file. -/
  | getattr
  /-- `setattr` of a file's times. -/
  | setTimes (atime mtime : Option Nat)
  /-- `setattr` of a file's length, by its name. -/
  | setLen (len : Nat)
  /-- `revalidate`. -/
  | revalidate
  /-- `lookup`, `get_link`, `mkdir`, `rmdir` or `unlink`, or `getattr` of a link. -/
  | name (act : NameAct)
  /-- `open`, or `atomic_open` where it creates. -/
  | openFile (how : OpenHow) (create : Bool)
  /-- `rename`. -/
  | rename (target : Nat)

/-- A call is added. -/
def State.spawn (state : State ν) (task : Task ν) : State ν :=
  { state with tasks := state.tasks ++ [task] }

/-- A call about a name in the directory above a dentry, as `at` reads both. -/
def State.above (state : State ν) (address : Nat) (goal : ν → Goal ν) : Option (State ν) :=
  match (state.dentries address).bind (·.above) with
  | none => none
  | some (parent, name) =>
    if state.isDir parent then some (state.spawn ⟨parent, goal name, .asking parent []⟩) else none

/-- A call on a descriptor. -/
def State.through (state : State ν) (fid : Nat) (act : FidAct) : Option (State ν) :=
  match state.object fid with
  | none => none
  | some object =>
    let outcome := outside.ask state.host object act
    some ((state.onto outcome.host).touch outcome.touched)

/-- A Bind is made a call about a dentry. -/
def State.call (state : State ν) (address : Nat) : Call → Option (State ν)
  | .dir act =>
    if state.isDir address then some (state.spawn ⟨address, .dir act, .asking address []⟩)
    else none
  | .getattr =>
    match state.fidFindInode address false with
    | some fid => state.through outside fid .stat
    | none => state.above address (.name · .stat)
  | .setTimes atime mtime =>
    match state.fidFindInode address false with
    | some fid => state.through outside fid (.setTimes atime mtime)
    | none => state.above address (.name · (.setTimes atime mtime))
  | .setLen len =>
    match state.fidFindInode address true with
    | some fid => state.through outside fid (.setLen len)
    | none => some state
  | .revalidate =>
    match state.dentries address with
    | none => none
    | some dentry =>
      -- Nothing was recorded to compare.
      if dentry.record.any fun record => record.2.isNone then some state
      else state.above address (.name · (.revalidate dentry.record))
  | .name act => state.above address (.name · act)
  | .openFile how create => state.above address (.openFile address · how create)
  | .rename target => state.above address (.renameFrom · target)

/-- What happens next. -/
inductive Event (ν : Type)
  /-- A process of the host makes an entry. -/
  | make (node : Node ν)
  /-- It changes what an entry holds. -/
  | change (object : Nat) (entries : List (ν × Nat)) (bytes : List UInt8) (times : Nat × Nat)
  /-- The host lets go of an entry no descriptor is open on. -/
  | letGo (object : Nat)
  /-- A dentry is made. -/
  | alloc (address parent : Nat) (name : ν)
  /-- A dentry records an inode, once. -/
  | instantiate (address : Nat) (record : FileType × Option Identity)
  /-- A dentry moves. -/
  | move (address parent : Nat) (name : ν)
  /-- A dentry goes. -/
  | drop (address : Nat)
  /-- A Bind is made a call about a dentry. -/
  | call (address : Nat) (call : Call)
  /-- A call takes its next step, an entry it makes given an identity by the host. -/
  | turn (index : Nat) (identity : Option Identity)
  /-- Its call on the host fails. -/
  | fail (index : Nat) (error : FsError)
  /-- The host's kernel takes no path that long, and the names are opened one by one. -/
  | again (index : Nat)
  /-- A guest reads, writes or lists what it holds open. -/
  | ask (fid : Nat) (act : FidAct)
  /-- A guest closes what it holds open. -/
  | close (fid : Nat)
  /-- The last to hold a descriptor lets go. -/
  | release (fid : Nat)

/-- Whether the event is one of the host's own. -/
def Event.ofHost : Event ν → Bool
  | .make _ | .change _ _ _ _ | .letGo _ => true
  | _ => false

/-- The descriptors a call holds for what it is to do. -/
def Goal.fids : Goal ν → List Nat
  | .renameTo fid _ _ => [fid]
  | _ => []

/-- The dentries a call holds for what it is to do. -/
def Goal.dentries : Goal ν → List Nat
  | .openFile address _ _ _ | .renameFrom _ address => [address]
  | _ => []

/-- The descriptors a call holds where it stands. -/
def Phase.fids : Phase ν → List Nat
  | .walking _ above _ fid _ => [above, fid]
  | .refused fid _ _ | .checking _ fid | .acting fid | .opening fid => [fid]
  | _ => []

/-- The dentry a call looks at where it stands. -/
def Phase.dentries : Phase ν → List Nat
  | .asking address _ | .searching address _ | .naming address _ | .rising address _ => [address]
  | _ => []

/-- Whether a call has ended. -/
def Phase.isDone : Phase ν → Bool
  | .done _ => true
  | _ => false

/-- The descriptors a call holds. -/
def Task.fids (task : Task ν) : List Nat :=
  if task.phase.isDone then [] else task.phase.fids ++ task.goal.fids

/-- The dentries a call holds. -/
def Task.dentries (task : Task ν) : List Nat :=
  if task.phase.isDone then [] else task.target :: task.phase.dentries ++ task.goal.dentries

/-- Whether nobody holds a descriptor. -/
def State.unheld (state : State ν) (fid : Nat) : Bool :=
  fid ≠ 0 && state.cache.all (fun entry => entry.2 ≠ fid) && !state.opened.contains fid &&
    state.tasks.all fun task => !task.fids.contains fid

/-- Whether nobody holds a dentry: no call, and none beneath it. -/
def State.unused (state : State ν) (address : Nat) : Bool :=
  (state.tasks.all fun task => !task.dentries.contains address) &&
    state.addresses.all fun other =>
      (state.dentries other).all fun dentry => dentry.above.all fun above => above.1 ≠ address

/-- One step of a call, of the dentries or of the host. -/
def State.step (state : State ν) : Event ν → Option (State ν)
  | .make node =>
    if node.live && state.host.free node.identity then some (state.onto (state.host.add node))
    else none
  | .change object entries bytes times =>
    some (state.onto (state.host.modify object fun node => { node with entries, bytes, times }))
  | .letGo object =>
    if state.fids.all fun fid => fid.isOpen → fid.object ≠ object then
      some (state.onto (state.host.modify object fun node => { node with live := false }))
    else none
  | .alloc address parent name =>
    -- Each entry of the cache holds its dentry's allocation, so no other can take its address.
    if state.dentries address = none ∧ (state.cache.all fun entry => entry.1 ≠ address) ∧
        (state.dentries parent).isSome then
      some { (state.setDentry address (some ⟨some (parent, name), none, none, []⟩)) with
        addresses := address :: state.addresses }
    else none
  | .instantiate address record =>
    match state.dentries address with
    | some ⟨above, none, dir, files⟩ =>
      some (state.setDentry address (some ⟨above, some record, dir, files⟩))
    | _ => none
  | .move address parent name =>
    match state.dentries address with
    | some ⟨some _, record, dir, files⟩ =>
      if (state.dentries parent).isSome then
        some (state.setDentry address (some ⟨some (parent, name), record, dir, files⟩))
      else none
    | _ => none
  | .drop address =>
    if address ≠ 0 ∧ state.unused address then some (state.setDentry address none) else none
  | .call address call => state.call outside address call
  | .turn index identity =>
    match state.tasks[index]? with
    | none => none
    | some task =>
      if state.host.free identity then state.turn outside index task identity else none
  | .fail index error =>
    match state.tasks[index]? with
    | none => none
    | some task => state.fail index task error
  | .again index =>
    match state.tasks[index]? with
    | some ⟨target, goal, .walking recorded above names _ _⟩ =>
      some { state with
        tasks := state.tasks.set index ⟨target, goal, .walking recorded above names above names⟩ }
    | _ => none
  | .ask fid act => if state.opened.contains fid then state.through outside fid act else none
  | .close fid => some { state with opened := state.opened.erase fid }
  | .release fid =>
    if state.unheld fid then
      some { state with fids := state.fids.modify fid fun held => { held with isOpen := false } }
    else none

end Kobako.Bind
