import Kobako.Overlay.Change

/-!
# Calls

What the VFS asks an Overlay: of a directory of the view, of a file or a link of it, and of a file
open through it, as `overlay.rs` and `file.rs` answer. The VFS hands each call the dentries it is
about and records what a lookup found on the dentry it was asked for.
-/

namespace Kobako.Overlay

open Vfs

variable {W D F V : Type} [DecidableEq V] [DecidableEq D] (layers : Layers W D F)
  (fs : OverlayFs D)

/-- `NAME_MAX`. -/
def nameMax : Nat := 255

/-! ## Mounting -/

section Mount

omit [DecidableEq V] [DecidableEq D]

/-- `ovl_workdir_create`. -/
def ovlWorkdirCreate (root : OverlayPath D) (name : String) : Ovl W D F V (OverlayPath D) := do
  match ← attempt (root.doMkdir layers name) with
  | .ok () => root.openDir layers name
  | .error .alreadyExists => root.openDir layers name
  | .error error => throw error

/-- The loop of `OverlayFs::new` that empties the workdir. -/
def emptyWorkdir (rounds : Nat) (made : OverlayPath D) : List DirEntry → Ovl W D F V Unit
  | [] => pure ()
  | listed :: rest => do
    workdirCleanup layers rounds [(made, listed.name)]
    emptyWorkdir rounds made rest

/-- The roots of the lower Layers, the first of them at place `index`. -/
def lowerRoots : Nat → List D → Level D
  | _, [] => []
  | index, root :: rest => some ⟨index, root⟩ :: lowerRoots (index + 1) rest

/-- `OverlayFs::new` with an upper: `upper` and `lower` are the roots of the Layers. -/
def newOverlayFs (rounds : Nat) (upper : D) (lower : List D) : Ovl W D F V (OverlayFs D) := do
  let root : OverlayPath D := ⟨UPPER, upper⟩
  let changes ← ovlWorkdirCreate layers root "upper"
  let work ← ovlWorkdirCreate layers root "work"
  emptyWorkdir layers rounds work (← work.entries layers)
  pure ⟨some changes :: lowerRoots (UPPER + 1) lower, some work, rounds⟩

end Mount

/-! ## Directories -/

section Record

omit [DecidableEq D]

/-- Record what stands at a dentry of the view that records nothing yet, as `Dentry::add`. -/
def Session.record (s : Session W D F V) (v : V) (inode : ViewInode D) : Session W D F V :=
  { s with inodes := fun other =>
      if other = v then some ((s.inodes v).getD inode) else s.inodes other }

/-- `Overlay::lookup`: the name as a Layer stores it and the inode, none where nothing stands. -/
def lookup (dentry : ViewDentry V) : Ovl W D F V (Option (String × ViewInode D)) := do
  let level ← levelOf dentry.tail
  if (nameOf dentry).utf8ByteSize > nameMax then throw .invalidFilename
  match ← lookupLayer layers level (nameOf dentry) with
  | none => pure none
  | some (index, found) =>
    pure (some (found.storedName, ← lookupInode layers fs level found.storedName index found))

/-- Record what `lookup` found under the inode the VFS gives it. -/
def recordLookup (dentry : ViewDentry V) (found : Option (String × ViewInode D)) :
    Ovl W D F V Unit :=
  match dentry, found with
  | own :: _, some (_, inode) => modify fun s => s.record own.1 inode
  | _, _ => pure ()

/-- `Overlay::create`. -/
def create (dentry : ViewDentry V) : Ovl W D F V Unit := do
  createIn layers fs dentry.tail (nameOf dentry)
  match ← lookup layers fs dentry with
  | some (stored, inode) =>
    if stored = nameOf dentry then recordLookup dentry (some (stored, inode)) else throw .notFound
  | none => throw .notFound

/-- `Overlay::open` of a directory: each Layer's directory is opened to be held. -/
def openReals : Level D → Ovl W D F V Unit
  | [] => pure ()
  | none :: rest => openReals rest
  | some dir :: rest => do
    let _ ← dir.openRealfile layers readOnly
    openReals rest

/-- `Overlay::setattr` of a directory. -/
def setattrDir (dentry : ViewDentry V) (attr : Iattr) : Ovl W D F V Unit := do
  (← upperDir layers fs dentry).notifyChange layers attr

/-! ## Files and links -/

omit [DecidableEq V] in
/-- `Overlay::real_getattr`. -/
def realGetattr (dentry : ViewDentry V) : Ovl W D F V Kstat := do
  let real ← realOf dentry .notFound
  let found ← real.getattr layers
  match (← inodeOf dentry).identity with
  | some identity => pure (found.withIdentity identity)
  | none => pure found

/-- `OverlayRegular::setattr`. -/
def setattrFile (dentry : ViewDentry V) (attr : Iattr) : Ovl W D F V Unit := do
  copyUpFile layers fs dentry.tail dentry false
  (← realOf dentry .notFound).notifyChange layers { attr with opening := false, through := false }

omit [DecidableEq V] in
/-- `OverlayLink::get_link`. -/
def getLink (dentry : ViewDentry V) : Ovl W D F V String := do
  let real ← realOf dentry .notFound
  ask (layers.getLink real.layer real.dentry)

omit [DecidableEq V] in
/-- Hand a file out, open through the view. -/
def handOut (file : OpenFile D F V) : Ovl W D F V Unit :=
  modify fun s => { s with files := s.files ++ [file] }

/-! ## Dentries -/

/-- `ovl_revalidate_real`. -/
def revalidateReal (real : OverlayPath D) : Ovl W D F V Bool :=
  ask (layers.revalidate real.layer real.dentry)

/-- The loop of `Overlay::revalidate` over the Layers a directory stands for. -/
def revalidateReals : Level D → Ovl W D F V Bool
  | [] => pure true
  | none :: rest => revalidateReals rest
  | some dir :: rest => do
    if ← revalidateReal layers dir then revalidateReals rest else pure false

/-- `Overlay::revalidate`. -/
def revalidate (dentry : ViewDentry V) : Ovl W D F V Bool := do
  match ← attempt (inodeOf dentry) with
  | .error _ => do pure (← lookup layers fs dentry).isNone
  | .ok inode =>
    match inode.kept with
    | .file real => revalidateReal layers real
    | .dir shown =>
      if ← revalidateReals layers shown then
        let above ← levelOf dentry.tail
        look fun world => (above.zip shown).all fun
          | (some dir, some own) =>
            layers.matchesReal world dir.layer dir.dentry (nameOf dentry) own.dentry
          | _ => true
      else pure false

end Record

/-! ## Open files -/

section Files

omit [DecidableEq V]

/-- Run a call on the file at a descriptor, and keep what it left of the file there. -/
def onFile (fd : Nat) (run : OpenFile D F V → Ovl W D F V (OpenFile D F V)) : Ovl W D F V Unit := do
  match (← get).files[fd]? with
  | none => throw .invalidInput
  | some file =>
    let file ← run file
    modify fun s => { s with files := s.files.set fd file }

/-- `OverlayFile::real_file`: the file holding the data now, and the open file as this left it. -/
def realFile (file : F) (real : OverlayPath D) (inode : V) (upper : Option (Nat × F)) :
    Ovl W D F V ((Nat × F) × OpenFile D F V) := do
  match upper with
  | some upper => pure (upper, .lower file real inode (some upper))
  | none =>
    let now ← realOf [(inode, "")] .notFound
    if now = real then pure ((real.layer, file), .lower file real inode none)
    else
      let opened ← now.openRealfile layers readOnly
      pure ((now.layer, opened), .lower file real inode (some (now.layer, opened)))

/-- `FileOperations::read_iter` of a file of the view. What `real_file` found stays found, also
where the read then fails. -/
def readFile (pos len : Nat) : OpenFile D F V → Ovl W D F V (OpenFile D F V)
  | .real layer file => do
    let _ ← ask (layers.readIter layer file pos len)
    pure (.real layer file)
  | .lower file real inode upper => do
    let (now, left) ← realFile layers file real inode upper
    let _ ← attempt (ask (layers.readIter now.1 now.2 pos len))
    pure left
  | .dir => throw .isADirectory

/-- `FileOperations::fsync` of a file of the view. -/
def fsyncFile : OpenFile D F V → Ovl W D F V (OpenFile D F V)
  | .real layer file => do
    ask (layers.fsync layer file)
    pure (.real layer file)
  | .lower file real inode upper => do
    let (now, left) ← realFile layers file real inode upper
    let _ ← attempt (ask (layers.fsync now.1 now.2))
    pure left
  | .dir => pure .dir

omit [DecidableEq D] in
/-- `FileOperations::flush` of a file of the view. -/
def flushFile : OpenFile D F V → Ovl W D F V (OpenFile D F V)
  | .real layer file => do
    ask (layers.flush layer file)
    pure (.real layer file)
  | .lower file real inode upper => do
    ask (layers.flush real.layer file)
    pure (.lower file real inode upper)
  | .dir => pure .dir

omit [DecidableEq D] in
/-- `FileOperations::write_iter` of a file of the view, which an `OverlayFile` does not have. -/
def writeFile (pos : Nat) (data : List UInt8) : OpenFile D F V → Ovl W D F V (OpenFile D F V)
  | .real layer file => do
    let _ ← ask (layers.writeIter layer file pos data)
    pure (.real layer file)
  | .lower _ _ _ _ => throw .invalidInput
  | .dir => throw .invalidInput

omit [DecidableEq D] in
/-- `FileOperations::fallocate` of a file of the view, which an `OverlayFile` does not have. -/
def fallocateFile (offset len : Nat) : OpenFile D F V → Ovl W D F V (OpenFile D F V)
  | .real layer file => do
    ask (layers.fallocate layer file offset len)
    pure (.real layer file)
  | .lower _ _ _ _ => throw .unsupported
  | .dir => throw .unsupported

end Files

/-! ## Calls -/

/-- A call made through an Overlay. -/
inductive Call (V : Type) where
  | lookup (dentry : ViewDentry V)
  | revalidate (dentry : ViewDentry V)
  | getattrDir (dentry : ViewDentry V)
  | getattrFile (dentry : ViewDentry V)
  | getLink (dentry : ViewDentry V)
  | setattrDir (dentry : ViewDentry V) (attr : Iattr)
  | setattrFile (dentry : ViewDentry V) (attr : Iattr)
  | openDir (dentry : ViewDentry V)
  | iterateDir (dentry : ViewDentry V)
  | openFile (dentry : ViewDentry V) (how : OpenHow)
  | create (dentry : ViewDentry V)
  | mkdir (dentry : ViewDentry V)
  | rmdir (dentry : ViewDentry V)
  | unlink (dentry : ViewDentry V)
  | rename (src dest : ViewDentry V) (moving : FileType) (replaced : Option FileType)
    (flag : Option RenameFlag)
  | read (fd pos len : Nat)
  | fsync (fd : Nat)
  | flush (fd : Nat)
  | write (fd pos : Nat) (data : List UInt8)
  | fallocate (fd offset len : Nat)
deriving Repr, DecidableEq

/-- What an Overlay does with a call; its answer goes to the VFS and changes nothing. -/
def call : Call V → Ovl W D F V Unit
  | .lookup dentry => do recordLookup dentry (← lookup layers fs dentry)
  | .revalidate dentry => do let _ ← revalidate layers fs dentry
  | .getattrDir dentry => do let _ ← dirGetattr layers (← levelOf dentry)
  | .getattrFile dentry => do let _ ← realGetattr layers dentry
  | .getLink dentry => do let _ ← getLink layers dentry
  | .setattrDir dentry attr => setattrDir layers fs dentry attr
  | .setattrFile dentry attr => setattrFile layers fs dentry attr
  | .openDir dentry => do
    openReals layers (← levelOf dentry)
    handOut .dir
  | .iterateDir dentry => do let _ ← readMerged layers (← levelOf dentry)
  | .openFile dentry how => do handOut (← openFile layers fs dentry.tail dentry how)
  | .create dentry => create layers fs dentry
  | .mkdir dentry => mkdirIn layers fs dentry.tail (nameOf dentry)
  | .rmdir dentry => rmdirIn layers fs dentry.tail dentry
  | .unlink dentry => unlinkIn layers fs dentry.tail dentry
  | .rename src dest moving replaced flag =>
    if flag.isSome then throw .invalidInput
    else renameIn layers fs src.tail src dest.tail dest moving replaced
  | .read fd pos len => onFile fd (readFile layers pos len)
  | .fsync fd => onFile fd (fsyncFile layers)
  | .flush fd => onFile fd (flushFile layers)
  | .write fd pos data => onFile fd (writeFile layers pos data)
  | .fallocate fd offset len => onFile fd (fallocateFile layers offset len)

/-- The session a call leaves, whether it succeeds or fails. -/
def Session.after (s : Session W D F V) (made : Call V) : Session W D F V :=
  match call layers fs made s with
  | .ok () after => after
  | .error _ after => after

/-- The session a list of calls leaves. -/
def Session.calls (s : Session W D F V) : List (Call V) → Session W D F V
  | [] => s
  | made :: rest => (s.after layers fs made).calls rest

/-- The inode of the root, as `Overlay::fill_super` makes it: every Layer's root, under the identity
the topmost one recorded. -/
def rootInode (world : W) : ViewInode D :=
  ⟨(fs.roots.filterMap id).head?.bind fun top => layers.identity world top.layer top.dentry,
    .dir fs.roots⟩

/-- A session before anything is mounted. -/
def Session.start (world : W) : Session W D F V := ⟨world, fun _ => none, 0, []⟩

/-- An Overlay with an upper mounted, its root recorded under `root`, and then called: what is left
of the session, also where it does not mount. -/
def mountAndCall (rounds : Nat) (upper : D) (lower : List D) (world : W) (root : V)
    (made : List (Call V)) : Session W D F V :=
  match newOverlayFs layers rounds upper lower (.start world) with
  | .ok fs s => (s.record root (rootInode layers fs s.world)).calls layers fs made
  | .error _ s => s

end Kobako.Overlay
