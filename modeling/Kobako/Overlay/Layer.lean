import Kobako.Outcome
import Kobako.Vfs.Dentry

/-!
# Layers

What an Overlay asks of the Layers beneath it. An `OverlayPath` is one Layer's directory or file as
the Overlay holds it; each of its methods in `path.rs` is one question to that Layer, answered in
whatever way the Layer answers, also with a failure. A `Session` is what the Overlay keeps between
calls: the Layers as they stand, what each inode of the view keeps, the next name the workdir
takes, and the files open through the view.
-/

namespace Kobako.Overlay

open Vfs

/-! ## What is asked -/

/-- `Identity`: a device and an inode number. -/
structure Identity where
  /-- The device. -/
  dev : Nat
  /-- The inode number. -/
  ino : Nat
deriving Repr, DecidableEq

/-- `Kstat`, what an Overlay reads of it. -/
structure Kstat where
  /-- What kind of entry it is. -/
  fileType : FileType
  /-- The device it reports. -/
  dev : Nat
  /-- The inode number it reports, zero for none. -/
  ino : Nat
  /-- How many names it has. -/
  nlink : Nat
  /-- When it was last read. -/
  atime : Option Nat
  /-- When it was last changed. -/
  mtime : Option Nat
deriving Repr, DecidableEq

/-- `Kstat::with_identity`. -/
def Kstat.withIdentity (stat : Kstat) (identity : Identity) : Kstat :=
  { stat with dev := identity.dev, ino := identity.ino }

/-- The device and inode numbers a stat reports. -/
def Kstat.identity (stat : Kstat) : Identity := ⟨stat.dev, stat.ino⟩

/-- `Identity::of`: an inode of zero reports none. -/
def Identity.of (stat : Kstat) : Option Identity :=
  if stat.ino ≠ 0 then some stat.identity else none

/-- `SetTime`. -/
inductive SetTime where
  | now
  | exactly (time : Nat)
deriving Repr, DecidableEq

/-- `Iattr`, whether it comes from an open and through an open file told, not by which. -/
structure Iattr where
  /-- The length to truncate or extend to. -/
  size : Option Nat
  /-- The access time to set. -/
  atime : Option SetTime
  /-- The modification time to set. -/
  mtime : Option SetTime
  /-- Whether the size comes from an open asking to truncate. -/
  opening : Bool
  /-- Whether it is made through an open file. -/
  through : Bool
deriving Repr, DecidableEq

/-- `path::timestamps`. -/
def timestamps (stat : Kstat) : Iattr :=
  ⟨none, stat.atime.map .exactly, stat.mtime.map .exactly, false, false⟩

/-- `RenameFlag`. -/
inductive RenameFlag where
  | noReplace
  | exchange
  | whiteout
deriving Repr, DecidableEq

/-- `DirEntry`. -/
structure DirEntry where
  /-- The name listed. -/
  name : String
  /-- What it lists as. -/
  fileType : FileType
deriving Repr, DecidableEq

/-- How an Overlay opens what it only reads. -/
def readOnly : OpenHow := ⟨true, false, false, false, false, false⟩

/-- What a Layer is asked, as the operation it reaches of the Layer's Filesystem, of one of its
inodes, or of one of its open files. -/
inductive LayerOp where
  | lookup
  | getattr
  | getLink
  | revalidate
  | openRealfile (how : OpenHow)
  | entries
  | readIter
  | fsync
  | flush
  | mkdir
  | create
  | rmdir
  | unlink
  | rename
  | whiteout
  | tmpfile
  | link
  | setxattr
  | setattr
  | writeIter
  | fallocate
deriving Repr, DecidableEq

/-- Whether an operation changes what it is asked of. An open does where it may write or empty. -/
def LayerOp.mutates : LayerOp → Bool
  | .lookup | .getattr | .getLink | .revalidate | .entries | .readIter | .fsync | .flush => false
  | .openRealfile how => how.write || how.truncate
  | .mkdir | .create | .rmdir | .unlink | .rename | .whiteout | .tmpfile | .link | .setxattr
  | .setattr | .writeIter | .fallocate => true

/-- An operation a Layer was asked. -/
structure Asked where
  /-- Which Layer, topmost first. -/
  layer : Nat
  /-- What it was asked. -/
  op : LayerOp
deriving Repr, DecidableEq

/-! ## Layers -/

/-- How the Layers answer: `W` is how they stand, `D` their dentries and `F` their open files. Each
question names the Layer it goes to. -/
structure Layers (W D F : Type) where
  /-- What kind of entry a dentry recorded, none where it recorded nothing. -/
  kind : W → Nat → D → Option FileType
  /-- The name a dentry carries, as its Layer stores it. -/
  name : W → Nat → D → String
  /-- The identity a dentry's inode recorded. -/
  identity : W → Nat → D → Option Identity
  /-- Whether a directory is a Tmpfs's. -/
  tmpfs : W → Nat → D → Bool
  /-- Whether a whiteout stands at a name, as `Tmpfs::is_whiteout` reads it. -/
  whiteoutAt : W → Nat → D → String → Bool
  /-- Whether a directory is marked opaque, as `Tmpfs::getxattr` reads it. -/
  opaqueDir : W → Nat → D → Bool
  /-- Whether what the Layer's dcache holds at a name, if anything, is a dentry. -/
  matchesReal : W → Nat → D → String → D → Bool
  /-- `Dentry::goes_when_unused`. -/
  goesWhenUnused : W → Nat → D → Bool
  /-- `lookup_one_unlocked`. -/
  lookupReal : Nat → D → String → EStateM FsError W D
  /-- `Dentry::getattr`. -/
  getattr : Nat → D → EStateM FsError W Kstat
  /-- `Dentry::get_link`. -/
  getLink : Nat → D → EStateM FsError W String
  /-- `DentryOperations::revalidate`. -/
  revalidate : Nat → D → EStateM FsError W Bool
  /-- `inode_permission` and then `Dentry::open`. -/
  openRealfile : Nat → D → OpenHow → EStateM FsError W F
  /-- `OverlayPath::entries`: the directory opened to read and listed. -/
  entries : Nat → D → EStateM FsError W (List DirEntry)
  /-- `FileOperations::read_iter`: what is read from a position, at most so much. -/
  readIter : Nat → F → Nat → Nat → EStateM FsError W (List UInt8)
  /-- `FileOperations::fsync`. -/
  fsync : Nat → F → EStateM FsError W Unit
  /-- `FileOperations::flush`. -/
  flush : Nat → F → EStateM FsError W Unit
  /-- `start_creating` and `vfs_mkdir`. -/
  doMkdir : Nat → D → String → EStateM FsError W Unit
  /-- `start_creating` and `vfs_create`. -/
  doCreate : Nat → D → String → EStateM FsError W Unit
  /-- `start_removing` and `vfs_rmdir`. -/
  doRmdir : Nat → D → String → EStateM FsError W Unit
  /-- `start_removing` and `vfs_unlink`. -/
  doUnlink : Nat → D → String → EStateM FsError W Unit
  /-- `__start_renaming` and `vfs_rename`. -/
  doRename : Nat → D → String → Nat → D → String → Option RenameFlag → EStateM FsError W Unit
  /-- `start_creating` and `Tmpfs::whiteout`. -/
  doWhiteout : Nat → D → String → EStateM FsError W Unit
  /-- `Tmpfs::tmpfile`. -/
  doTmpfile : Nat → D → EStateM FsError W F
  /-- `start_creating` and `Tmpfs::link`. -/
  doLink : Nat → D → F → String → EStateM FsError W D
  /-- `Tmpfs::setxattr` of the opaque mark. -/
  setOpaque : Nat → D → EStateM FsError W Unit
  /-- `notify_change`. -/
  notifyChange : Nat → D → Iattr → EStateM FsError W Unit
  /-- `TmpfsFile::setattr`. -/
  setattrFile : Nat → F → Iattr → EStateM FsError W Unit
  /-- `FileOperations::write_iter`: how much of it was written at a position. -/
  writeIter : Nat → F → Nat → List UInt8 → EStateM FsError W Nat
  /-- `FileOperations::fallocate`. -/
  fallocate : Nat → F → Nat → Nat → EStateM FsError W Unit

variable {W D F V : Type}

/-- A question recorded before it is asked. -/
def recorded {α : Type} (layer : Nat) (op : LayerOp) (ask : EStateM FsError W α) :
    EStateM FsError (W × List Asked) α := fun (world, asked) =>
  match ask world with
  | .ok answer after => .ok answer (after, ⟨layer, op⟩ :: asked)
  | .error error after => .error error (after, ⟨layer, op⟩ :: asked)

/-- The same Layers, with every question they are asked recorded. A move asks two directories. -/
def Layers.logged (layers : Layers W D F) : Layers (W × List Asked) D F where
  kind world := layers.kind world.1
  name world := layers.name world.1
  identity world := layers.identity world.1
  tmpfs world := layers.tmpfs world.1
  whiteoutAt world := layers.whiteoutAt world.1
  opaqueDir world := layers.opaqueDir world.1
  matchesReal world := layers.matchesReal world.1
  goesWhenUnused world := layers.goesWhenUnused world.1
  lookupReal layer d name := recorded layer .lookup (layers.lookupReal layer d name)
  getattr layer d := recorded layer .getattr (layers.getattr layer d)
  getLink layer d := recorded layer .getLink (layers.getLink layer d)
  revalidate layer d := recorded layer .revalidate (layers.revalidate layer d)
  openRealfile layer d how :=
    recorded layer (.openRealfile how) (layers.openRealfile layer d how)
  entries layer d := recorded layer .entries (layers.entries layer d)
  readIter layer file pos len := recorded layer .readIter (layers.readIter layer file pos len)
  fsync layer file := recorded layer .fsync (layers.fsync layer file)
  flush layer file := recorded layer .flush (layers.flush layer file)
  doMkdir layer d name := recorded layer .mkdir (layers.doMkdir layer d name)
  doCreate layer d name := recorded layer .create (layers.doCreate layer d name)
  doRmdir layer d name := recorded layer .rmdir (layers.doRmdir layer d name)
  doUnlink layer d name := recorded layer .unlink (layers.doUnlink layer d name)
  doRename layer d name layer' d' name' flag := do
    recorded layer .rename (pure ())
    recorded layer' .rename (layers.doRename layer d name layer' d' name' flag)
  doWhiteout layer d name := recorded layer .whiteout (layers.doWhiteout layer d name)
  doTmpfile layer d := recorded layer .tmpfile (layers.doTmpfile layer d)
  doLink layer d file name := recorded layer .link (layers.doLink layer d file name)
  setOpaque layer d := recorded layer .setxattr (layers.setOpaque layer d)
  notifyChange layer d attr := recorded layer .setattr (layers.notifyChange layer d attr)
  setattrFile layer file attr := recorded layer .setattr (layers.setattrFile layer file attr)
  writeIter layer file pos data := recorded layer .writeIter (layers.writeIter layer file pos data)
  fallocate layer file offset len :=
    recorded layer .fallocate (layers.fallocate layer file offset len)

/-! ## Sessions -/

/-- `OverlayPath`: a dentry of one Layer. -/
structure OverlayPath (D : Type) where
  /-- Which Layer, topmost first, as its `filesystem`. -/
  layer : Nat
  /-- The Layer's dentry. -/
  dentry : D
deriving Repr, DecidableEq

/-- `OverlayPath::beneath`. -/
def OverlayPath.beneath (path : OverlayPath D) (dentry : D) : OverlayPath D := { path with dentry }

/-- `UPPER`: where the upper stands among the Layers. -/
def UPPER : Nat := 0

/-- `Level`: each Layer's directory at one directory of the view, topmost first. -/
abbrev Level (D : Type) := List (Option (OverlayPath D))

/-- What an inode of the view keeps: `OverlayDirInode` or `OverlayFileInode`. -/
inductive Kept (D : Type) where
  | dir (level : Level D)
  | file (real : OverlayPath D)
deriving Repr, DecidableEq

/-- An inode of the view: the identity its lookup recorded and what it keeps. -/
structure ViewInode (D : Type) where
  /-- The identity recorded. -/
  identity : Option Identity
  /-- What it keeps. -/
  kept : Kept D
deriving Repr, DecidableEq

/-- A file of the view that is open. -/
inductive OpenFile (D F V : Type) where
  /-- A Layer's own file, handed out as it is. -/
  | real (layer : Nat) (file : F)
  /-- `OverlayFile`: a lower Layer's file open to read, the dentry it was opened on, the inode it
  reads, and the upper's file once a call found one. -/
  | lower (file : F) (real : OverlayPath D) (inode : V) (upper : Option (Nat × F))
  /-- `OverlayDir`. -/
  | dir
deriving Repr, DecidableEq

/-- What an Overlay keeps between calls. -/
structure Session (W D F V : Type) where
  /-- The Layers as they stand. -/
  world : W
  /-- The inodes of the view. -/
  inodes : V → Option (ViewInode D)
  /-- The next name a change built in the workdir takes. -/
  temp : Nat
  /-- The files open through the view. -/
  files : List (OpenFile D F V)

/-- A dentry of the view: its inode and its name, then those of each dentry above it. -/
abbrev ViewDentry (V : Type) := List (V × String)

/-- A program of the Overlay. -/
abbrev Ovl (W D F V : Type) := EStateM FsError (Session W D F V)

/-- Ask the Layers, as they stand. -/
def ask {α : Type} (question : EStateM FsError W α) : Ovl W D F V α := fun s =>
  match question s.world with
  | .ok answer world => .ok answer { s with world }
  | .error error world => .error error { s with world }

/-- Nothing of a session but how the Layers stand is changed. -/
def OnlyWorld (s after : Session W D F V) : Prop := after = { s with world := after.world }

theorem OnlyWorld.refl (s : Session W D F V) : OnlyWorld s s := rfl

theorem OnlyWorld.trans {s next after : Session W D F V} (one : OnlyWorld s next)
    (two : OnlyWorld next after) : OnlyWorld s after := by
  unfold OnlyWorld at one two ⊢
  rw [two, one]

/-- A question asked of the Layers ends a session as it ends them. -/
theorem ask_ends {α : Type} {question : EStateM FsError W α} {s : Session W D F V}
    {ok : α → W → Prop} {failed : FsError → W → Prop} (ends : Ends question s.world ok failed) :
    Ends (ask question) s (fun a after => OnlyWorld s after ∧ ok a after.world)
      fun e after => OnlyWorld s after ∧ failed e after.world := by
  unfold Ends at ends ⊢
  unfold ask
  cases ended : question s.world with
  | ok a world =>
    rw [ended] at ends
    exact ⟨rfl, ends⟩
  | error e world =>
    rw [ended] at ends
    exact ⟨rfl, ends⟩

/-- Read what the Layers recorded. -/
def look {α : Type} (read : W → α) : Ovl W D F V α := fun s => .ok (read s.world) s

/-- `Option::ok_or`. -/
def okOr {α : Type} (found : Option α) (error : FsError) : Ovl W D F V α :=
  match found with
  | some a => pure a
  | none => throw error

/-- An answer that may be a failure, taken as one. -/
def ofExcept {α : Type} : Except FsError α → Ovl W D F V α
  | .ok a => pure a
  | .error error => throw error

namespace OverlayPath

variable (layers : Layers W D F) (path : OverlayPath D)

variable (name : String)

/-- `OverlayPath::lookup_real`. -/
def lookupReal : Ovl W D F V D := ask (layers.lookupReal path.layer path.dentry name)

/-- `Dentry::kind` of a dentry of the same Layer. -/
def kindOf (dentry : D) : Ovl W D F V (Option FileType) :=
  look fun world => layers.kind world path.layer dentry

/-- `OverlayPath::lookup_single`. -/
def lookupSingle : Ovl W D F V (Option (String × D)) := do
  let dentry ← path.lookupReal layers name
  let kind ← path.kindOf layers dentry
  let stored ← look fun world => layers.name world path.layer dentry
  pure (if kind.isSome then some (stored, dentry) else none)

/-- `OverlayPath::is_whiteout_dentry`. -/
def isWhiteoutDentry (dentry : D) : Ovl W D F V Bool :=
  look fun world => decide (layers.kind world path.layer dentry = some .chrdev) &&
    layers.tmpfs world path.layer path.dentry

/-- `OverlayPath::is_whiteout`. -/
def isWhiteout : Ovl W D F V Bool :=
  look fun world => layers.tmpfs world path.layer path.dentry &&
    layers.whiteoutAt world path.layer path.dentry name

/-- `OverlayPath::is_opaque`. -/
def isOpaque : Ovl W D F V Bool :=
  look fun world => layers.tmpfs world path.layer path.dentry &&
    layers.opaqueDir world path.layer path.dentry

/-- `OverlayPath::getattr`. -/
def getattr : Ovl W D F V Kstat := ask (layers.getattr path.layer path.dentry)

/-- `OverlayPath::getattr_at`. -/
def getattrAt : Ovl W D F V Kstat := do
  let dentry ← path.lookupReal layers name
  (path.beneath dentry).getattr layers

/-- `OverlayPath::open_dir`. -/
def openDir : Ovl W D F V (OverlayPath D) := do
  let dentry ← path.lookupReal layers name
  match ← path.kindOf layers dentry with
  | none => throw .notFound
  | some .dir => pure (path.beneath dentry)
  | some .symlink => throw .filesystemLoop
  | some _ => throw .notADirectory

/-- `OverlayPath::entries`. -/
def entries : Ovl W D F V (List DirEntry) := ask (layers.entries path.layer path.dentry)

/-- `OverlayPath::open_realfile`. -/
def openRealfile (how : OpenHow) : Ovl W D F V F :=
  ask (layers.openRealfile path.layer path.dentry how)

/-- `OverlayPath::do_mkdir`. -/
def doMkdir : Ovl W D F V Unit := ask (layers.doMkdir path.layer path.dentry name)

/-- `OverlayPath::do_create`. -/
def doCreate : Ovl W D F V Unit := ask (layers.doCreate path.layer path.dentry name)

/-- `OverlayPath::do_rmdir`. -/
def doRmdir : Ovl W D F V Unit := ask (layers.doRmdir path.layer path.dentry name)

/-- `OverlayPath::do_unlink`. -/
def doUnlink : Ovl W D F V Unit := ask (layers.doUnlink path.layer path.dentry name)

/-- `OverlayPath::do_rename`. -/
def doRename (target : OverlayPath D) (toName : String) (flag : Option RenameFlag) :
    Ovl W D F V Unit :=
  ask (layers.doRename path.layer path.dentry name target.layer target.dentry toName flag)

/-- `OverlayPath::do_whiteout`. -/
def doWhiteout : Ovl W D F V Unit :=
  ask (layers.doWhiteout path.layer path.dentry name)

/-- `OverlayPath::do_tmpfile`. -/
def doTmpfile : Ovl W D F V F := ask (layers.doTmpfile path.layer path.dentry)

/-- `OverlayPath::do_link`. -/
def doLink (file : F) (name : String) : Ovl W D F V D :=
  ask (layers.doLink path.layer path.dentry file name)

/-- `OverlayPath::set_opaque`. -/
def setOpaque : Ovl W D F V Unit := ask (layers.setOpaque path.layer path.dentry)

/-- `notify_change` of what a path names. -/
def notifyChange (attr : Iattr) : Ovl W D F V Unit :=
  ask (layers.notifyChange path.layer path.dentry attr)

/-- `OverlayPath::set_timestamps`. -/
def setTimestamps (stat : Kstat) : Ovl W D F V Unit := path.notifyChange layers (timestamps stat)

end OverlayPath

end Kobako.Overlay
