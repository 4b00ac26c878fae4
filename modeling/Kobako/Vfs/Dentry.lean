import Mathlib.Data.List.Basic

/-!
# Dentries

What a walk asks of the names it passes through. A dentry is a name in the directory above it,
standing for an entry or for nothing; a walk asks one question after another, and what it is told
may differ from one question to the next, so every answer is given for the moment it was asked.
What never differs is that a name found in a directory stands in that directory, and that above
every dentry there are finitely many others up to a root.
-/

namespace Kobako.Vfs

/-- `FilesystemError`, the arms a walk or an Overlay answers itself named, any other carried. -/
inductive FsError where
  | notFound
  | alreadyExists
  | notADirectory
  | isADirectory
  | directoryNotEmpty
  | permissionDenied
  | readOnlyFilesystem
  | invalidInput
  | unsupported
  | storageFull
  | crossesDevices
  | escape
  | filesystemLoop
  | notPermitted
  | wouldBlock
  | invalidFilename
  | staleNetworkFileHandle
  | other (name : String)
deriving Repr, DecidableEq

/-- `FileType`. -/
inductive FileType where
  | regFile
  | dir
  | symlink
  | fifo
  | sock
  | blkdev
  | chrdev
  | unknown
deriving Repr, DecidableEq

/-- `OpenHow`, the flags a walk reads. -/
structure OpenHow where
  /-- Open for reading. -/
  read : Bool
  /-- Open for writing. -/
  write : Bool
  /-- `O_CREAT`. -/
  create : Bool
  /-- `O_EXCL`. -/
  exclusive : Bool
  /-- `O_TRUNC`. -/
  truncate : Bool
  /-- `O_DIRECTORY`. -/
  directory : Bool
deriving Repr, DecidableEq

/-- `AtomicOpen`: whether the Filesystem opened the file, whether it made it, and the dentry to
use where its lookup spliced another. -/
structure AtomicOpen (D : Type) where
  /-- Whether the file was opened too. -/
  file : Bool
  /-- Whether the file was made. -/
  created : Bool
  /-- The dentry the lookup handed back. -/
  spliced : Option D
deriving Repr, DecidableEq

/-- What a walk is told, by the moment it asks. -/
structure Env (D : Type) where
  /-- The directory above, as `Dentry::parent`. -/
  parent : Nat → D → D
  /-- `Dentry::is_root`. -/
  isRoot : D → Bool
  /-- How many dentries stand above. -/
  depth : Nat → D → Nat
  /-- What stands at the name, none for a negative dentry, as `Dentry::inode` and its kind. -/
  kind : Nat → D → Option FileType
  /-- `inode_permission` asked to search a directory. -/
  permission : Nat → D → Except FsError Unit
  /-- `lookup_dentry`. -/
  lookup : Nat → D → String → Except FsError D
  /-- `Dentry::get_link`. -/
  getLink : Nat → D → Except FsError String
  /-- Whether `RENAME_LOCK` moved between two moments, as `read_seqretry`. -/
  seqRetry : Nat → Nat → Bool
  /-- `lookup_fast`. -/
  lookupFast : Nat → D → String → Except FsError (Option D)
  /-- `VfsMount::mnt_want_write`. -/
  mntWantWrite : Nat → Except FsError Unit
  /-- `Dentry::is_deaddir`. -/
  isDeaddir : Nat → D → Bool
  /-- `d_alloc_parallel`. -/
  dAllocParallel : Nat → D → String → Except FsError D
  /-- Whether no lookup answered for the dentry yet, as `begin_lookup` tells. -/
  beginLookup : Nat → D → Except FsError Bool
  /-- `Nameidata::may_o_create`. -/
  mayOCreate : Nat → D → D → Except FsError Unit
  /-- `atomic_open`. -/
  atomicOpen : Nat → D → D → OpenHow → Except FsError (AtomicOpen D)
  /-- `do_dentry_open`, with the security modules' answer. -/
  doDentryOpen : Nat → D → OpenHow → Except FsError Unit
  /-- `may_open`, and `handle_truncate` where the open empties the file. -/
  mayOpen : Nat → D → Bool → Except FsError Unit
  /-- A dentry that is no root stands below the one above it. -/
  deeper : ∀ now d, isRoot d = false → depth now (parent now d) < depth now d
  /-- A name looked up stands in the directory asked. -/
  lookup_child : ∀ {now d name c}, lookup now d name = .ok c →
    parent now c = d ∧ isRoot c = false
  /-- A name held already stands in the directory asked. -/
  lookupFast_child : ∀ {now d name c}, lookupFast now d name = .ok (some c) →
    parent now c = d ∧ isRoot c = false
  /-- A name taken for an open stands in the directory asked. -/
  alloc_child : ∀ {now d name c}, dAllocParallel now d name = .ok c →
    parent now c = d ∧ isRoot c = false
  /-- A name an open's lookup hands back stands in the directory asked. -/
  spliced_child : ∀ {now d given how opened c}, atomicOpen now d given how = .ok opened →
    opened.spliced = some c → parent now c = d ∧ isRoot c = false

namespace Env

variable {D : Type} [DecidableEq D] (env : Env D)

/-- `dentry::d_ancestor`, climbing at most as far as there are dentries above. -/
def dAncestor (now : Nat) (ancestor : D) : Nat → D → Bool
  | 0, _ => false
  | left + 1, d =>
    if env.isRoot d then false
    else if env.parent now d = ancestor then true
    else dAncestor now ancestor left (env.parent now d)

/-- `Dentry::is_subdir`. -/
def isSubdir (now : Nat) (d ancestor : D) : Bool :=
  d = ancestor || env.dAncestor now ancestor (env.depth now d) d

/-- A dentry that is a directory at some moment. -/
def IsDir (d : D) : Prop := ∃ now, env.kind now d = some .dir

/-- No directory is moved: the one above it is the same at every moment. -/
def Still : Prop := ∀ d, env.IsDir d → ∀ now later, env.parent now d = env.parent later d

/-- The start directory, or a directory in one beneath it. -/
inductive Beneath (start : D) : D → Prop where
  | here : Beneath start start
  | child {d c : D} (above : Beneath start d) (isDir : env.IsDir c)
    (parent : ∀ now, env.parent now c = d) (inner : env.isRoot c = false) : Beneath start c

/-- An entry that is the start or a directory beneath it, or stood in one when it was found. -/
def Within (start e : D) : Prop :=
  env.Beneath start e ∨
    ∃ d now, env.Beneath start d ∧ env.parent now e = d ∧ env.isRoot e = false

end Env

end Kobako.Vfs
