import Kobako.Outcome
import Kobako.Vfs.Namei

/-!
# Operations and hooks

What the calls of the VFS reach below and beside them: the operations of a Filesystem, as the
traits `InodeOperations` and `FileOperations` list them, and the hooks of the security modules a
`Cred` registers, as the trait `SecurityOperations` lists them. Neither is given: a Filesystem and
a module answer as they like, by the moment they are asked. What a call asks of either is kept in
a log, the latest first, so that what was asked before an operation can be read off it.
-/

namespace Kobako.Vfs

/-! ## Flags -/

/-- `OpenHow`, with the flags that say how a link at the end is taken and what the open file
does. -/
structure OpenAsk extends OpenHow where
  /-- Follow a link at the end of the path. -/
  follow : Bool
  /-- `O_APPEND`. -/
  append : Bool
  /-- `O_NONBLOCK`. -/
  nonblock : Bool
  /-- `O_DSYNC`. -/
  dsync : Bool
  /-- `O_SYNC`. -/
  sync : Bool
deriving Repr, DecidableEq

/-- `OpenHow::default`. -/
def OpenAsk.none : OpenAsk :=
  ⟨⟨false, false, false, false, false, false⟩, false, false, false, false, false⟩

/-- `inode::Mask`. -/
structure Mask where
  /-- `MAY_EXEC`. -/
  exec : Bool := false
  /-- `MAY_WRITE`. -/
  write : Bool := false
  /-- `MAY_READ`. -/
  read : Bool := false
  /-- `MAY_OPEN`. -/
  «open» : Bool := false
  /-- `MAY_APPEND`. -/
  append : Bool := false
deriving Repr, DecidableEq

/-- `OpenFlags`, with what the open asks of what it opens. -/
structure AskedFlags where
  /-- The flags the open was made with. -/
  openFlag : OpenAsk
  /-- What the open asks of what it opens. -/
  accMode : Mask
  /-- Whether the walk follows a link at the end. -/
  lookupFollow : Bool
  /-- Whether the walk must end on a directory. -/
  lookupDirectory : Bool
deriving Repr, DecidableEq

/-- `openat2::build_open_flags`. -/
def buildOpenFlags (how : OpenAsk) : Except FsError AskedFlags :=
  if !how.read && !how.write then
    .ok ⟨{ OpenAsk.none with directory := how.directory, follow := how.follow }, {}, how.follow,
      how.directory⟩
  else if how.directory && how.create then .error .invalidInput
  else
    .ok ⟨{ how with dsync := how.dsync || how.sync },
      { read := how.read, write := how.write || how.truncate, append := how.append },
      how.follow && !(how.create && how.exclusive), how.directory⟩

/-- `file::FMode`. -/
structure FMode where
  /-- `FMODE_READ`. -/
  read : Bool
  /-- `FMODE_WRITE`. -/
  write : Bool
  /-- `FMODE_LSEEK`. -/
  lseek : Bool
  /-- `FMODE_PREAD`. -/
  pread : Bool
  /-- `FMODE_PWRITE`. -/
  pwrite : Bool
  /-- `FMODE_STREAM`. -/
  stream : Bool
  /-- `FMODE_CREATED`. -/
  created : Bool
  /-- `FMODE_PATH`. -/
  path : Bool
deriving Repr, DecidableEq

/-- `FMode::PATH`. -/
def FMode.pathOnly : FMode := ⟨false, false, false, false, false, false, false, true⟩

/-- `FMode::of`. -/
def FMode.of (how : OpenHow) : FMode :=
  if !how.read && !how.write then .pathOnly
  else ⟨how.read, how.write, true, true, true, false, false, false⟩

/-- `FMode::stream_open`. -/
def FMode.streamOpen (mode : FMode) : FMode :=
  { mode with lseek := false, pread := false, pwrite := false, stream := true }

/-- `stat::special_file`. -/
def specialFile : FileType → Bool
  | .chrdev | .blkdev | .fifo | .sock => true
  | .regFile | .dir | .symlink | .unknown => false

/-! ## Operations -/

/-- `attr::SetTime`, a time carried by its count from the epoch. -/
inductive SetTime where
  | now
  | at (time : Nat)
deriving Repr, DecidableEq

/-- `attr::Iattr`. -/
structure Iattr where
  /-- The length to truncate or extend a file to. -/
  size : Option Nat
  /-- The access time to set. -/
  atime : Option SetTime
  /-- The modification time to set. -/
  mtime : Option SetTime
  /-- Whether the size comes from an open asking to truncate. -/
  «open» : Bool
deriving Repr, DecidableEq

/-- `Iattr::size`. -/
def Iattr.ofSize (len : Nat) : Iattr := ⟨some len, none, some .now, false⟩

/-- `Iattr::open_truncate`. -/
def Iattr.openTruncate : Iattr := { Iattr.ofSize 0 with «open» := true }

/-- `file::Kiocb`. -/
structure Kiocb where
  /-- Where the call lands. -/
  pos : Nat
  /-- `IOCB_APPEND`. -/
  append : Bool
  /-- `IOCB_DSYNC`. -/
  dsync : Bool
  /-- `IOCB_SYNC`. -/
  sync : Bool
deriving Repr, DecidableEq

/-- The operations a call asks of a Filesystem to open an entry or to change one; those of an open
file carry the dentry it was opened at and the kind of its inode. -/
inductive Op (D : Type) where
  | create (dir child : D)
  | atomicOpen (dir child : D) (how : OpenAsk)
  | «open» (child : D) (how : OpenAsk)
  | mkdir (dir child : D)
  | symlink (dir child : D) (target : String)
  | link (old dir child : D)
  | unlink (dir child : D)
  | rmdir (dir child : D)
  | rename (oldDir old newDir new : D)
  | setattr (child : D) (attr : Iattr)
  | writeIter (dentry : D) (kind : FileType)
  | fallocate (dentry : D) (kind : FileType)
deriving Repr, DecidableEq

/-- `inode::Lookup`, what was found read off the dentry. -/
inductive Lookup where
  | found
  | absent
  | spelled (name : String)
deriving Repr, DecidableEq

/-- `inode::Finish`, with `F` the open files of the Filesystem. -/
inductive Finish (F : Type) where
  | «open» (file : F) (created : Bool)
  | spelled (file : F) (name : String)
  | noOpen (created : Bool)
  | lookup (answer : Lookup)
deriving Repr, DecidableEq

/-- A Filesystem: what its entries and its open files answer, by the moment they are asked. -/
structure Filesystem (D F : Type) where
  /-- `InodeOperations::permission`. -/
  permission : Nat → D → Mask → Except FsError Unit
  /-- The links `InodeOperations::getattr` counts. -/
  nlink : Nat → D → Except FsError Nat
  /-- `InodeOperations::lookup`. -/
  lookup : Nat → D → D → Except FsError Lookup
  /-- `InodeOperations::atomic_open`, none for a directory that leaves it to the default. -/
  atomicOpen : Nat → D → D → OpenAsk → Option (Except FsError (Finish F))
  /-- Whether an `atomic_open` asked to truncate empties the file itself, as FUSE's
  `atomic_o_trunc` lets a server. -/
  empties : Nat → D → Bool
  /-- `InodeOperations::open`. -/
  «open» : Nat → D → OpenAsk → Except FsError F
  /-- What a change answers, by its operation. -/
  change : Nat → Op D → Except FsError Unit
  /-- `FileOperations::write_iter`: how much was written, and where it left the position. -/
  writeIter : Nat → F → Kiocb → List UInt8 → Except FsError (Nat × Nat)
  /-- `FileOperations::fallocate`. -/
  fallocate : Nat → F → Nat → Nat → Except FsError Unit
  /-- `FileOperations::is_stream`. -/
  isStream : F → Bool
  /-- `EmptyFops`. -/
  emptyFops : F

/-! ## Hooks -/

/-- `mount::Access`. -/
inductive Access where
  | read
  | readWrite
deriving Repr, DecidableEq

/-- What a module keeps on an open file: `security::AllowedAccess`, or a module's own. -/
inductive Kept where
  | allowedAccess (access : Access)
  | own (value : Nat)
deriving Repr, DecidableEq

/-- `cred::FileSecurity`. -/
abbrev FileSecurity := Option Kept

/-- The hooks of `SecurityOperations`, a `SecurityPath` the mount and the dentry it is built
from. -/
inductive Hook (M D : Type) where
  | inodePermission (dentry : D) (mask : Mask)
  | pathMknod (path : M × D)
  | pathMkdir (path : M × D)
  | pathRmdir (path : M × D)
  | pathUnlink (path : M × D)
  | pathSymlink (path : M × D)
  | pathLink (old new : M × D)
  | pathRename (old new : M × D)
  | fileOpen (path : M × D) (kind : FileType) (mode : FMode) (how : OpenAsk)
  | fileTruncate (kept : FileSecurity)
  | pathUtimes (path : M × D)
deriving Repr, DecidableEq

/-- A security module: what it answers a hook, by the moment it is asked, with what it keeps on
the file where the hook is `file_open`. -/
abbrev SecurityModule (M D : Type) := Nat → Hook M D → Except FsError FileSecurity

/-- `Cred`: the modules registered for the caller. -/
abbrev Cred (M D : Type) := List (SecurityModule M D)

/-- `Cred::call_int_hook` and `Cred::security_file_open`: each module asked in turn, the first
refusal answering, and what each keeps. -/
def Cred.callIntHook {M D : Type} (cred : Cred M D) (now : Nat) (hook : Hook M D) :
    Except FsError (List FileSecurity) :=
  cred.mapM fun answers => answers now hook

/-- `Cred::security_file_truncate`. -/
def Cred.securityFileTruncate {M D : Type} (cred : Cred M D) (now : Nat)
    (kept : List FileSecurity) : Except FsError Unit :=
  (cred.zip kept).forM fun (answers, kept) => do
    let _ ← answers now (.fileTruncate kept)

/-! ## The system -/

/-- What a call may read or ask: the walks' answers, the mounts, the dentries and the
Filesystem. -/
structure System (M D F : Type) where
  /-- What a walk is told. -/
  env : Env D
  /-- A dentry that names an entry names it from then on, as `Dentry::__instantiate` records one
  only where none is. -/
  kind_stays : ∀ {now later : Nat} {d : D} {kind : FileType}, now ≤ later →
    env.kind now d = some kind → env.kind later d = some kind
  /-- `VfsMount::read_only`. -/
  readOnly : M → Bool
  /-- `SuperBlock::rdonly` of what is mounted. -/
  rdonly : M → Bool
  /-- `Dentry::path_raw`. -/
  pathRaw : Nat → D → String
  /-- `Dentry::inode_lock` and `Dentry::inode_lock_shared`. -/
  inodeLock : Nat → D → Except FsError Unit
  /-- `lookup_one_qstr_excl`. -/
  lookupOneQstrExcl : Nat → D → String → Except FsError D
  /-- `Dentry::in_lookup`. -/
  inLookup : Nat → D → Bool
  /-- `Dentry::add_ci`. -/
  addCi : Nat → D → String → Except FsError D
  /-- `Dentry::splice_alias`. -/
  spliceAlias : Nat → D → Lookup → Except FsError (Option D)
  /-- `Dentry::names_the_entry_of`. -/
  namesTheEntryOf : Nat → D → D → Bool
  /-- `namei::lock_rename`. -/
  lockRename : Nat → D → D → Except FsError Unit
  /-- `namei::lock_moved`. -/
  lockMoved : Nat → D → D → Except FsError Unit
  /-- The Filesystem mounted. -/
  fs : Filesystem D F

namespace System

variable {M D F : Type} (sys : System M D F)

/-- `VfsMount::is_readonly`. -/
def isReadonly (m : M) : Bool := sys.readOnly m || sys.rdonly m

/-- `VfsMount::mnt_want_write`. -/
def mntWantWrite (m : M) : Except FsError Unit :=
  if sys.isReadonly m then .error .readOnlyFilesystem else .ok ()

/-- A dentry names one kind of entry only, whenever it is asked. -/
theorem kind_once {now later : Nat} {d : D} {kind kind' : FileType}
    (first : sys.env.kind now d = some kind) (second : sys.env.kind later d = some kind') :
    kind = kind' := by
  rcases Nat.le_total now later with before | before
  · rw [sys.kind_stays before first, Option.some.injEq] at second
    exact second
  · rw [sys.kind_stays before second, Option.some.injEq] at first
    exact first.symm

/-- A mount that takes a write is not read-only. -/
theorem isReadonly_of_mntWantWrite {m : M} (taken : sys.mntWantWrite m = .ok ()) :
    sys.isReadonly m = false := by
  unfold mntWantWrite at taken
  split at taken
  · cases taken
  · rename_i writable
    exact Bool.not_eq_true _ ▸ writable

end System

/-! ## Calls -/

/-- What a call asked: a hook every module allowed, an operation, and what a Filesystem said it
made or emptied in its `atomic_open`. -/
inductive Event (M D : Type) where
  | hook (now : Nat) (hook : Hook M D)
  | op (now : Nat) (mnt : M) (op : Op D)
  | made (mnt : M) (child : D)
  | emptied (mnt : M) (child : D)
deriving Repr, DecidableEq

/-- `file::File`. -/
structure File (M D F : Type) where
  /-- The mount it was opened on. -/
  mnt : M
  /-- The dentry it was opened at. -/
  dentry : D
  /-- The kind of its inode. -/
  kind : FileType
  /-- What answers for it. -/
  ops : F
  /-- What it was opened for. -/
  mode : FMode
  /-- Whether each write lands at the end. -/
  append : Bool
  /-- Whether it asked not to wait. -/
  nonblock : Bool
  /-- `O_DSYNC`. -/
  dsync : Bool
  /-- `O_SYNC`. -/
  sync : Bool
  /-- Where the next read or write lands. -/
  pos : Nat
  /-- Who opened it. -/
  cred : Cred M D
  /-- What each module kept on it. -/
  security : List FileSecurity

/-- The questions asked, the links the call followed, what was asked, and the files open. -/
structure World (M D F : Type) where
  /-- How many questions were asked. -/
  clock : Nat
  /-- The links followed, as the call's `total_link_count`. -/
  links : Nat
  /-- What the calls asked, the latest first. -/
  log : List (Event M D)
  /-- The files opened, the first first. -/
  files : List (File M D F)

/-- A call: it ends in an answer or an error, and in what was asked either way. -/
abbrev Call (M D F α : Type) := EStateM FsError (World M D F) α

namespace Call

variable {M D F α : Type}

/-- One question that never fails. -/
def read (question : Nat → α) : Call M D F α := fun w =>
  .ok (question w.clock) { w with clock := w.clock + 1 }

/-- One question, its refusal ending the call. -/
def ask (question : Nat → Except FsError α) : Call M D F α := fun w =>
  match question w.clock with
  | .ok a => .ok a { w with clock := w.clock + 1 }
  | .error error => .error error { w with clock := w.clock + 1 }

/-- What an answer already given says. -/
def given : Except FsError α → Call M D F α
  | .ok a => pure a
  | .error error => throw error

/-- A hook asked of every module of `cred`. -/
def security (cred : Cred M D) (hook : Hook M D) : Call M D F (List FileSecurity) := fun w =>
  match cred.callIntHook w.clock hook with
  | .ok kept =>
    .ok kept { w with clock := w.clock + 1, log := .hook w.clock hook :: w.log }
  | .error error => .error error { w with clock := w.clock + 1 }

/-- An operation asked of the Filesystem through the mount `m`. -/
def invoke (m : M) (op : Op D) (answer : Nat → Except FsError α) : Call M D F α := fun w =>
  let after := { w with clock := w.clock + 1, log := .op w.clock m op :: w.log }
  match answer w.clock with
  | .ok a => .ok a after
  | .error error => .error error after

/-- What the Filesystem says it did, noted. -/
def note (event : Event M D) : Call M D F Unit := fun w =>
  .ok () { w with log := event :: w.log }

/-- A method of a walk, made from where the call stands. -/
def onWalk (walk : Nameidata D → Walked D α) (nd : Nameidata D) :
    Call M D F (α × Nameidata D) := fun w =>
  match walk { nd with clock := w.clock, totalLinkCount := w.links } with
  | .ok a nd => .ok (a, nd) { w with clock := nd.clock, links := nd.totalLinkCount }
  | .error error nd => .error error { w with clock := nd.clock, links := nd.totalLinkCount }

end Call

end Kobako.Vfs
