import Kobako.Vfs.Operations
import Mathlib.Algebra.GroupWithZero.Nat

/-!
# Calls

The calls of `namei.rs`, `file.rs` and `utimes.rs` that open an entry or change one, each from its
entry point down to the operation it asks of the Filesystem. The walks are those of `Nameidata`.
A lock is only asked for: what it keeps others from doing is left to what the next question is
told.
-/

namespace Kobako.Vfs

/-- `path::Start`: where a walk starts, found once its path was taken. -/
abbrev Start (M D : Type) := Nat → Except FsError (M × D)

/-- `namei::AtomicOpen`, with the file the Filesystem opened. -/
structure AtomicOpened (D F : Type) where
  /-- The file it opened. -/
  file : Option F
  /-- Whether it made the file. -/
  created : Bool
  /-- The dentry its lookup handed back. -/
  spliced : Option D

/-- `namei::Open`: what `Nameidata::lookup_open` leaves `namei::do_open`. -/
structure OpenLeft (F : Type) where
  /-- The file the Filesystem opened, and what each module kept on it. -/
  file : Option (F × List FileSecurity)
  /-- What the open is for. -/
  mode : FMode

/-- `file::OFFSET_MAX`. -/
def offsetMax : Nat := 2 ^ 63 - 1

/-- `file::MAX_RW_COUNT`. -/
def maxRwCount : Nat := 2 ^ 31 - 4096

namespace System

open Call

variable {M D F : Type} (sys : System M D F)

/-! ## Permission -/

/-- `namei::sb_permission`. -/
def sbPermission (m : M) (d : D) (mask : Mask) : Call M D F Unit := do
  if mask.write && sys.rdonly m then
    match ← read (sys.env.kind · d) with
    | none => throw .notFound
    | some .regFile | some .dir | some .symlink => throw .readOnlyFilesystem
    | some _ => pure ()

/-- `Dentry::kind`. -/
def kindOf (d : D) : Call M D F FileType := do
  match ← read (sys.env.kind · d) with
  | none => throw .notFound
  | some kind => pure kind

variable (cred : Cred M D)

/-- `namei::inode_permission`. -/
def inodePermission (m : M) (d : D) (mask : Mask) : Call M D F Unit := do
  sys.sbPermission m d mask
  let _ ← sys.kindOf d
  ask (sys.fs.permission · d mask)
  let _ ← security cred (.inodePermission d mask)

/-- `namei::may_create_dentry`. -/
def mayCreateDentry (m : M) (dir child : D) : Call M D F Unit := do
  if (← read (sys.env.kind · child)).isSome then throw .alreadyExists
  if ← read (sys.env.isDeaddir · dir) then throw .notFound
  sys.inodePermission cred m dir { write := true, exec := true }

/-- `namei::may_delete_dentry`. -/
def mayDeleteDentry (m : M) (dir : D) (victim : Option FileType) (isDir : Bool) :
    Call M D F Unit := do
  match victim with
  | none => throw .notFound
  | some victim =>
    sys.inodePermission cred m dir { write := true, exec := true }
    if isDir && victim ≠ .dir then throw .notADirectory
    if !isDir && victim = .dir then throw .isADirectory
    if ← read (sys.env.isDeaddir · dir) then throw .notFound

/-! ## Opening an entry -/

/-- `InodeOperations::atomic_open` of a directory that leaves it to the default. -/
def defaultAtomicOpen (m : M) (dir child : D) (how : OpenAsk) : Call M D F (Finish F) := do
  let inLookup ← read (sys.inLookup · child)
  let answer ← if inLookup then ask (sys.fs.lookup · dir child) else pure .absent
  if inLookup && (!how.create || answer ≠ .absent) then pure (.lookup answer)
  else if !how.create then pure (.noOpen false)
  else
    invoke m (.create dir child) (sys.fs.change · (.create dir child))
    pure (.noOpen true)

/-- `InodeOperations::atomic_open` as a directory of the Filesystem answers it. -/
def fsAtomicOpen (m : M) (dir child : D) (how : OpenAsk) : Call M D F (Finish F) := do
  let answer ← invoke m (.atomicOpen dir child how) fun now =>
    .ok (sys.fs.atomicOpen now dir child how, sys.fs.empties now child)
  match answer with
  | (some answer, empties) =>
    if how.truncate && empties then note (.emptied m child)
    given answer
  | (none, _) => sys.defaultAtomicOpen m dir child how

/-- `namei::atomic_open`. -/
def atomicOpen (m : M) (dir child : D) (how : OpenAsk) : Call M D F (AtomicOpened D F) := do
  let _ ← sys.kindOf dir
  match ← sys.fsAtomicOpen m dir child how with
  | .open file created =>
    if created then note (.made m child)
    pure ⟨some file, created, none⟩
  | .spelled file name =>
    let spelled ← ask (sys.addCi · child name)
    pure ⟨some file, false, some spelled⟩
  | .noOpen created =>
    if created then note (.made m child)
    pure ⟨none, created, none⟩
  | .lookup answer =>
    let spliced ← ask (sys.spliceAlias · child answer)
    pure ⟨none, false, spliced⟩

/-- `Dentry::open`. -/
def dentryOpen (m : M) (d : D) (how : OpenAsk) : Call M D F F := do
  let _ ← sys.kindOf d
  invoke m (.open d how) (sys.fs.open · d how)

/-- `file::do_dentry_open`. -/
def doDentryOpen (m : M) (d : D) (kind : FileType) (mode : FMode) (how : OpenAsk)
    (opens : Call M D F F) : Call M D F (F × List FileSecurity) := do
  if mode.path then pure (sys.fs.emptyFops, List.replicate cred.length none)
  else
    if mode.write && !specialFile kind then given (sys.mntWantWrite m)
    let kept ← security cred (.fileOpen (m, d) kind mode how)
    let file ← opens
    pure (file, kept)

/-- `File::new`. -/
def fileNew (m : M) (d : D) (ops : F) (mode : FMode) (how : OpenAsk) (cred : Cred M D)
    (kept : List FileSecurity) : Call M D F (File M D F) := do
  match ← read (sys.env.kind · d) with
  | none => throw (.other "a file opens only on a dentry naming an inode")
  | some kind =>
    let mode := if sys.fs.isStream ops then mode.streamOpen else mode
    pure ⟨m, d, kind, ops, mode, how.append, how.nonblock, how.dsync, how.sync, 0, cred, kept⟩

/-- `Nameidata::may_o_create`. -/
def mayOCreate (m : M) (dir child : D) : Call M D F Unit := do
  let _ ← security cred (.pathMknod (m, child))
  sys.mayCreateDentry cred m dir child

/-- Why an open that may make a file may not here, as the `create_error` of
`Nameidata::lookup_open`. -/
def createError (m : M) (dir given : D) (how : OpenAsk) (gotWrite : Except FsError Unit) :
    Call M D F (Option FsError) := do
  if how.create then
    match gotWrite with
    | .error error => pure (some error)
    | .ok () =>
      match ← attempt (sys.mayOCreate cred m dir given) with
      | .error error => pure (some error)
      | .ok () => pure none
  else pure none

/-- The closure `ask` of `Nameidata::lookup_open`. -/
def askOpen (m : M) (nd : Nameidata D) (given : D) (how : OpenAsk)
    (gotWrite : Except FsError Unit) :
    Call M D F (Except FsError (AtomicOpened D F) × Option FsError) := do
  let refused ← sys.createError cred m nd.dir given how gotWrite
  let asked ← attempt (sys.atomicOpen m nd.dir given
    { how with toOpenHow := nd.atomicOpenHow how.toOpenHow gotWrite refused })
  pure (asked, refused)

/-- What `Nameidata::lookup_open` is told of the name it took, and why a file was not made. -/
def askGiven (m : M) (nd : Nameidata D) (given : D) (how : OpenAsk)
    (gotWrite : Except FsError Unit) :
    Call M D F (Except FsError (AtomicOpened D F) × Option FsError) := do
  match ← attempt (ask (sys.env.beginLookup · given)) with
  | .error error => pure (.error error, none)
  | .ok true => sys.askOpen cred m nd given how gotWrite
  | .ok false =>
    if (← read (sys.env.kind · given)).isSome then pure (.ok ⟨none, false, none⟩, none)
    else sys.askOpen cred m nd given how gotWrite

/-- The end of `Nameidata::lookup_open`: the dentry is what the walk ended on, and a file the
Filesystem opened is finished here. -/
def settleOpen (m : M) (nd : Nameidata D) (child : D) (opened : AtomicOpened D F)
    (refused : Option FsError) (how : OpenAsk) (mode : FMode) :
    Call M D F ((D × OpenLeft F) × Nameidata D) := do
  let nd := { nd with path := some child }
  if (← read (sys.env.kind · child)).isNone then throw (refused.getD .notFound)
  let mode := if opened.created then { mode with created := true } else mode
  match opened.file with
  | none => pure ((child, ⟨none, mode⟩), nd)
  | some file =>
    let kind ← sys.kindOf child
    let finished ← sys.doDentryOpen cred m child kind mode how (pure file)
    pure ((child, ⟨some finished, mode⟩), nd)

/-- `Nameidata::lookup_open`. -/
def lookupOpen (m : M) (nd : Nameidata D) (how : OpenAsk) (mode : FMode) :
    Call M D F ((D × OpenLeft F) × Nameidata D) := do
  let gotWrite := if how.create || how.truncate || how.write then sys.mntWantWrite m
    else .error .readOnlyFilesystem
  ask (sys.inodeLock · nd.dir)
  if ← read (sys.env.isDeaddir · nd.dir) then throw .notFound
  let given ← ask (sys.env.dAllocParallel · nd.dir nd.last)
  match ← sys.askGiven cred m nd given how gotWrite with
  | (.error .notFound, some refused) => throw refused
  | (.error error, _) => throw error
  | (.ok opened, refused) =>
    sys.settleOpen cred m nd (opened.spliced.getD given) opened refused how mode

/-- `namei::may_open`. -/
def mayOpen (m : M) (child : D) (kind : FileType) (mask : Mask) :
    Call M D F Unit := do
  if kind = .symlink then throw .filesystemLoop
  if kind = .dir && mask.write then throw .isADirectory
  sys.inodePermission cred m child { mask with «open» := true }

/-- `attr::notify_change`. -/
def notifyChange (m : M) (d : D) (attr : Iattr) : Call M D F Unit :=
  invoke m (.setattr d attr) (sys.fs.change · (.setattr d attr))

/-- What `namei::do_open` opens: the file the Filesystem opened already, or the one `vfs_open`
does. -/
def openChild (m : M) (child : D) (kind : FileType) (opened : OpenLeft F) (how : OpenAsk) :
    Call M D F (F × List FileSecurity) :=
  match opened.file with
  | some file => pure file
  | none => sys.doDentryOpen cred m child kind opened.mode how (sys.dentryOpen m child how)

/-- The emptying of a file an open asked to truncate, at the end of `namei::do_open`. -/
def handleTruncate (m : M) (child : D) (kept : List FileSecurity) :
    Call M D F Unit := do
  ask (cred.securityFileTruncate · kept)
  ask (sys.inodeLock · child)
  sys.notifyChange m child .openTruncate

/-! ## Walks -/

section Walks

variable [DecidableEq D]

/-- The dentry of the last name of an open and what became of it: the one the dcache holds, or
what `Nameidata::lookup_open` finds. -/
def findForOpen (cred : Cred M D) (m : M) (nd : Nameidata D) (how : OpenAsk) (mode : FMode) :
    Call M D F ((D × OpenLeft F) × Nameidata D) := do
  match ← onWalk (Nameidata.lookupFastForOpen sys.env · how.toOpenHow) nd with
  | (some child, nd) =>
    if (← read (sys.env.kind · child)).isNone then throw .notFound
    pure ((child, ⟨none, mode⟩), { nd with path := some child })
  | (none, nd) => sys.lookupOpen cred m nd how mode

/-- `Nameidata::open_last_lookups`, following at most `rounds` links. -/
def openLastLookups (cred : Cred M D) (m : M) (how : OpenAsk) (mode : FMode) :
    Nat → Nameidata D → Bool → Call M D F (OpenLeft F × Nameidata D)
  | 0, _, _ => throw .filesystemLoop
  | rounds + 1, nd, follow => do
    if nd.lastType ≠ .norm then
      let (_, nd) ← onWalk (Nameidata.handleDots sys.env) nd
      pure (⟨none, mode⟩, nd)
    else
      if nd.trailingSlash && how.create then throw .isADirectory
      let follow := follow || nd.trailingSlash
      let nd := { nd with lookupDirectory := nd.lookupDirectory || nd.trailingSlash }
      let ((child, opened), nd) ← sys.findForOpen cred m nd how mode
      let kind ← read (sys.env.kind · child)
      if opened.file.isSome || opened.mode.created || !follow || kind ≠ some .symlink then
        pure (opened, nd)
      else
        let (_, nd) ← onWalk (Nameidata.followLast sys.env · child) nd
        openLastLookups cred m how mode rounds nd follow

/-- `namei::do_open`. -/
def doOpen (cred : Cred M D) (m : M) (nd : Nameidata D) (child : D) (opened : OpenLeft F)
    (op : AskedFlags) : Call M D F (File M D F) := do
  let how := op.openFlag
  let mode := opened.mode
  if opened.file.isNone && !mode.created then
    let _ ← onWalk (Nameidata.completeWalk sys.env) nd
  let kind ← sys.kindOf child
  match nd.doOpenRefusal how.toOpenHow mode.created kind with
  | some error => throw error
  | none =>
    let accMode : Mask := if mode.created then {} else op.accMode
    let truncate := !mode.created && how.truncate && kind = .regFile
    if truncate then given (sys.mntWantWrite m)
    sys.mayOpen cred m child kind accMode
    let (ops, kept) ← sys.openChild cred m child kind opened how
    if truncate then sys.handleTruncate cred m child kept
    sys.fileNew m child ops mode how cred kept

/-- `Nameidata::path`. -/
def pathOf (nd : Nameidata D) : Call M D F D := given (nd.path.elim (.error .notFound) .ok)

/-- `namei::do_o_path`. -/
def doOPath (cred : Cred M D) (m : M) (nd : Nameidata D) (op : AskedFlags) :
    Call M D F (File M D F) := do
  let (_, nd) ← onWalk (Nameidata.pathLookupat sys.env · op.lookupFollow) nd
  let child ← pathOf nd
  let kind ← sys.kindOf child
  let (ops, kept) ← sys.doDentryOpen cred m child kind .pathOnly op.openFlag
    (sys.dentryOpen m child op.openFlag)
  sys.fileNew m child ops .pathOnly op.openFlag cred kept

/-- `namei::path_openat`. -/
def pathOpenat (cred : Cred M D) (m : M) (nd : Nameidata D) (op : AskedFlags) :
    Call M D F (File M D F) := do
  let nd := { nd with lookupDirectory := op.lookupDirectory }
  let mode := FMode.of op.openFlag.toOpenHow
  if mode.path then sys.doOPath cred m nd op
  else
    let (_, nd) ← onWalk (Nameidata.linkPathWalk sys.env) nd
    let (opened, nd) ← sys.openLastLookups cred m op.openFlag mode (maxSymlinks + 2) nd
      op.lookupFollow
    let child ← pathOf nd
    sys.doOpen cred m nd child opened op

/-- `namei::set_nameidata`. -/
def setNameidata (start : Start M D) (path : String) : Call M D F (M × Nameidata D) := do
  given (Nameidata.getname path)
  if isAbsolute path then throw .escape
  let (m, d) ← ask start
  let kind ← sys.kindOf d
  if kind ≠ .dir then throw .notADirectory
  let w ← get
  pure (m, Nameidata.fresh d path ⟨w.links, w.clock, []⟩)

/-- `namei::walk_with_reval`: made once more where it answers ESTALE, the links counted so far
counted on. -/
def walkWithReval {α : Type} (walk : Call M D F α) : Call M D F α := do
  modify fun w => { w with links := 0 }
  match ← attempt walk with
  | .error .staleNetworkFileHandle => walk
  | answered => given answered

/-- `namei::retry_estale`. -/
def retryEstale {W α : Type} (walk : Call M D F W) (act : W → Call M D F α) : Call M D F α := do
  let reached ← walk
  match ← attempt (act reached) with
  | .error .staleNetworkFileHandle =>
    let again ← walk
    act again
  | answered => given answered

/-- `namei::filename_lookup`. -/
def filenameLookup (start : Start M D) (path : String) (follow : Bool) :
    Call M D F (M × Nameidata D) :=
  walkWithReval do
    let (m, nd) ← sys.setNameidata start path
    let (_, nd) ← onWalk (Nameidata.pathLookupat sys.env · follow) nd
    pure (m, nd)

/-- `namei::filename_parentat`. -/
def filenameParentat (start : Start M D) (path : String) : Call M D F (M × Nameidata D) :=
  walkWithReval do
    let (m, nd) ← sys.setNameidata start path
    let (_, nd) ← onWalk (Nameidata.linkPathWalk sys.env) nd
    let (_, nd) ← onWalk (Nameidata.completeWalk sys.env) nd
    pure (m, nd)

/-- `namei::do_file_open`. -/
def doFileOpen (cred : Cred M D) (start : Start M D) (path : String) (op : AskedFlags) :
    Call M D F (File M D F) :=
  walkWithReval do
    let (m, nd) ← sys.setNameidata start path
    sys.pathOpenat cred m nd op

/-! ## Changes -/

/-- `namei::filename_create`. -/
def filenameCreate (m : M) (nd : Nameidata D) (wantDir : Bool) : Call M D F D := do
  if nd.lastType ≠ .norm then throw .alreadyExists
  let write := sys.mntWantWrite m
  ask (sys.inodeLock · nd.dir)
  let child ← ask (sys.lookupOneQstrExcl · nd.dir nd.last)
  if (← read (sys.env.kind · child)).isSome then throw .alreadyExists
  if nd.trailingSlash && !wantDir then throw .notFound
  given write
  pure child

/-- `namei::start_dirop`. -/
def startDirop (nd : Nameidata D) : Call M D F D := do
  ask (sys.inodeLock · nd.dir)
  let child ← ask (sys.lookupOneQstrExcl · nd.dir nd.last)
  let _ ← sys.kindOf child
  pure child

/-- `namei::vfs_link`. -/
def vfsLink (cred : Cred M D) (m : M) (old dir child : D) : Call M D F Unit := do
  sys.mayCreateDentry cred m dir child
  if (← sys.kindOf old) = .dir then throw .notPermitted
  ask (sys.inodeLock · old)
  if (← ask (sys.fs.nlink · old)) = 0 then throw .notFound
  invoke m (.link old dir child) (sys.fs.change · (.link old dir child))

/-- `namei::filename_linkat`. -/
def filenameLinkat [DecidableEq M] (cred : Cred M D) (oldStart : Start M D) (oldPath : String)
    (newStart : Start M D) (newPath : String) (follow : Bool) : Call M D F Unit :=
  retryEstale
    (do
      let (oldMnt, old) ← sys.filenameLookup oldStart oldPath follow
      let target ← pathOf old
      let (newMnt, new) ← sys.filenameParentat newStart newPath
      let child ← sys.filenameCreate newMnt new false
      pure (oldMnt, target, newMnt, new, child))
    fun (oldMnt, target, newMnt, new, child) => do
      if oldMnt ≠ newMnt then throw .crossesDevices
      let _ ← security cred (.pathLink (oldMnt, target) (newMnt, child))
      sys.vfsLink cred newMnt target new.dir child

/-- `namei::vfs_symlink`. -/
def vfsSymlink (cred : Cred M D) (m : M) (dir child : D) (target : String) :
    Call M D F Unit := do
  sys.mayCreateDentry cred m dir child
  invoke m (.symlink dir child target) (sys.fs.change · (.symlink dir child target))

/-- `namei::filename_symlinkat`. -/
def filenameSymlinkat (cred : Cred M D) (target : String) (start : Start M D) (path : String) :
    Call M D F Unit := do
  given (Nameidata.getname target)
  retryEstale
    (do
      let (m, nd) ← sys.filenameParentat start path
      let child ← sys.filenameCreate m nd false
      pure (m, nd, child))
    fun (m, nd, child) => do
      let _ ← security cred (.pathSymlink (m, child))
      sys.vfsSymlink cred m nd.dir child target

/-- `namei::vfs_mkdir`. -/
def vfsMkdir (cred : Cred M D) (m : M) (dir child : D) : Call M D F Unit := do
  sys.mayCreateDentry cred m dir child
  invoke m (.mkdir dir child) (sys.fs.change · (.mkdir dir child))

/-- `namei::filename_mkdirat`. -/
def filenameMkdirat (cred : Cred M D) (start : Start M D) (path : String) : Call M D F Unit :=
  retryEstale
    (do
      let (m, nd) ← sys.filenameParentat start path
      let child ← sys.filenameCreate m nd true
      pure (m, nd, child))
    fun (m, nd, child) => do
      let _ ← security cred (.pathMkdir (m, child))
      sys.vfsMkdir cred m nd.dir child

/-- `namei::vfs_rmdir`. -/
def vfsRmdir (cred : Cred M D) (m : M) (dir victim : D) : Call M D F Unit := do
  let kind ← read (sys.env.kind · victim)
  sys.mayDeleteDentry cred m dir kind true
  ask (sys.inodeLock · victim)
  invoke m (.rmdir dir victim) (sys.fs.change · (.rmdir dir victim))

/-- `namei::filename_rmdir`. -/
def filenameRmdir (cred : Cred M D) (start : Start M D) (path : String) : Call M D F Unit :=
  retryEstale (sys.filenameParentat start path) fun (m, nd) => do
    match nd.lastType with
    | .dot => throw .invalidInput
    | .dotDot => throw .directoryNotEmpty
    | .norm =>
      given (sys.mntWantWrite m)
      let child ← sys.startDirop nd
      let _ ← security cred (.pathRmdir (m, child))
      sys.vfsRmdir cred m nd.dir child

/-- `namei::vfs_unlink`. -/
def vfsUnlink (cred : Cred M D) (m : M) (dir victim : D) : Call M D F Unit := do
  let kind ← read (sys.env.kind · victim)
  sys.mayDeleteDentry cred m dir kind false
  ask (sys.inodeLock · victim)
  invoke m (.unlink dir victim) (sys.fs.change · (.unlink dir victim))

/-- `namei::filename_unlinkat`. -/
def filenameUnlinkat (cred : Cred M D) (start : Start M D) (path : String) : Call M D F Unit :=
  retryEstale (sys.filenameParentat start path) fun (m, nd) => do
    if nd.lastType ≠ .norm then throw .isADirectory
    given (sys.mntWantWrite m)
    let child ← sys.startDirop nd
    if nd.trailingSlash then
      throw (if (← read (sys.env.kind · child)) = some .dir then .isADirectory
        else .notADirectory)
    let _ ← security cred (.pathUnlink (m, child))
    sys.vfsUnlink cred m nd.dir child

/-- `namei::__start_renaming` without a flag: the dentries of the two names. -/
def startRenaming (oldDir : D) (oldName : String) (newDir : D) (newName : String) :
    Call M D F (D × D) := do
  ask (sys.lockRename · oldDir newDir)
  let old ← ask (sys.lookupOneQstrExcl · oldDir oldName)
  let _ ← sys.kindOf old
  let new ← ask (sys.lookupOneQstrExcl · newDir newName)
  if ← read (sys.env.isSubdir · newDir old) then throw .invalidInput
  if ← read (sys.env.isSubdir · oldDir new) then throw .directoryNotEmpty
  pure (old, new)

/-- `namei::vfs_rename` without a flag. -/
def vfsRename (cred : Cred M D) (m : M) (oldDir old newDir new : D) : Call M D F Unit := do
  let moving ← read (sys.env.kind · old)
  let target ← read (sys.env.kind · new)
  if old = new then pure ()
  else if ← read (sys.namesTheEntryOf · old new) then pure ()
  else
    let isDir := moving = some .dir
    sys.mayDeleteDentry cred m oldDir moving isDir
    match target with
    | none => sys.mayCreateDentry cred m newDir new
    | some _ => sys.mayDeleteDentry cred m newDir target isDir
    if oldDir ≠ newDir ∧ isDir then sys.inodePermission cred m old { write := true }
    ask (sys.lockMoved · old new)
    invoke m (.rename oldDir old newDir new) (sys.fs.change · (.rename oldDir old newDir new))

/-- What `namei::filename_renameat2` asks before the move: a trailing slash asks for a directory,
and the security modules judge both names. -/
def judgeRename (cred : Cred M D) (m : M) (old new : D) (slash : Bool) : Call M D F Unit := do
  let kind ← sys.kindOf old
  if kind ≠ .dir && slash then throw .notADirectory
  let _ ← security cred (.pathRename (m, old) (m, new))

/-- `namei::filename_renameat2`. -/
def filenameRenameat2 [DecidableEq M] (cred : Cred M D) (source : Start M D)
    (sourcePath : String) (target : Start M D) (targetPath : String) : Call M D F Unit :=
  retryEstale
    (do
      let source ← sys.filenameParentat source sourcePath
      let target ← sys.filenameParentat target targetPath
      pure (source, target))
    fun ((m, source), (other, target)) => do
      if m ≠ other then throw .crossesDevices
      if source.lastType ≠ .norm || target.lastType ≠ .norm then throw (.other "ResourceBusy")
      given (sys.mntWantWrite m)
      let (old, new) ← sys.startRenaming source.dir source.last target.dir target.last
      sys.judgeRename cred m old new (source.trailingSlash || target.trailingSlash)
      sys.vfsRename cred m source.dir old target.dir new

/-! ## Times and open files -/

/-- `utimes::vfs_utimes`. -/
def vfsUtimes (cred : Cred M D) (m : M) (d : D) (times : Iattr) : Call M D F Unit := do
  given (sys.mntWantWrite m)
  let _ ← security cred (.pathUtimes (m, d))
  ask (sys.inodeLock · d)
  sys.notifyChange m d times

/-- `utimes::do_utimes_path`. -/
def doUtimesPath (cred : Cred M D) (start : Start M D) (path : String) (follow : Bool)
    (times : Iattr) : Call M D F Unit :=
  retryEstale (sys.filenameLookup start path follow) fun (m, nd) => do
    let d ← pathOf nd
    sys.vfsUtimes cred m d times

end Walks

variable (file : File M D F)

/-- `File::may_write`. -/
def mayWrite : Except FsError Unit :=
  if file.mode.write then .ok () else .error (.other "BadDescriptor")

/-- `File::may_pwrite`. -/
def mayPwrite (pos : Nat) : Except FsError Unit :=
  if pos > offsetMax then .error .invalidInput
  else if !file.mode.pwrite then .error (.other "NotSeekable")
  else mayWrite file

/-- `File::rw_verify_area`. -/
def rwVerifyArea (ppos : Option Nat) (count : Nat) : Except FsError Unit :=
  match ppos with
  | none => .ok ()
  | some pos => if pos + count ≤ offsetMax then .ok () else .error .invalidInput

/-- `File::kiocb`. -/
def kiocb (pos : Nat) : Kiocb := ⟨pos, file.append, file.dsync, file.sync⟩

/-- `FileOperations::write_iter` of an open file. -/
def writeIter (iocb : Kiocb) (buf : List UInt8) :
    Call M D F (Nat × Nat) :=
  invoke file.mnt (.writeIter file.dentry file.kind)
    (sys.fs.writeIter · file.ops iocb (buf.take maxRwCount))

/-- `File::write`. -/
def write (buf : List UInt8) : Call M D F (File M D F) := do
  given (mayWrite file)
  let ppos := if file.mode.stream then none else some file.pos
  given (rwVerifyArea ppos buf.length)
  let (written, pos) ← sys.writeIter file (kiocb file (ppos.getD 0)) buf
  if written > 0 && ppos.isSome then pure { file with pos } else pure file

/-- `File::pwrite`. -/
def pwrite (buf : List UInt8) (pos : Nat) : Call M D F (File M D F) := do
  given (mayPwrite file pos)
  given (rwVerifyArea (some pos) buf.length)
  let _ ← sys.writeIter file (kiocb file pos) buf
  pure file

/-- `File::truncate`. -/
def truncate (len : Nat) : Call M D F (File M D F) := do
  if file.kind ≠ .regFile || !file.mode.write || len > offsetMax then throw .invalidInput
  ask (file.cred.securityFileTruncate · file.security)
  ask (sys.inodeLock · file.dentry)
  sys.notifyChange file.mnt file.dentry (.ofSize len)
  pure file

/-- The kinds `File::fallocate` reserves bytes for. -/
def mayAllocate : FileType → Except FsError Unit
  | .fifo => .error (.other "NotSeekable")
  | .dir => .error .isADirectory
  | .regFile | .blkdev => .ok ()
  | .symlink | .sock | .chrdev | .unknown => .error (.other "NoSuchDevice")

/-- `File::fallocate`. -/
def fallocate (offset len : Nat) : Call M D F (File M D F) := do
  if offset > offsetMax || len = 0 || len > offsetMax then throw .invalidInput
  given (mayWrite file)
  given (mayAllocate file.kind)
  if offset + len > offsetMax then throw (.other "FileTooLarge")
  invoke file.mnt (.fallocate file.dentry file.kind) (sys.fs.fallocate · file.ops offset len)
  pure file

/-- The open file at `fd`, and what a call on it leaves it. -/
def onFile (fd : Nat) (act : File M D F → Call M D F (File M D F)) : Call M D F Unit := do
  let w ← get
  match w.files[fd]? with
  | none => throw (.other "BadDescriptor")
  | some file =>
    let file ← act file
    modify fun w => { w with files := w.files.set fd file }

/-! ## Runs -/

/-- What is asked of the VFS. -/
inductive Request (M D : Type) where
  | «open» (cred : Cred M D) (start : Start M D) (path : String) (how : OpenAsk)
  | write (fd : Nat) (buf : List UInt8)
  | pwrite (fd : Nat) (buf : List UInt8) (pos : Nat)
  | truncate (fd len : Nat)
  | fallocate (fd offset len : Nat)
  | utimesFd (cred : Cred M D) (fd : Nat) (times : Iattr)
  | utimes (cred : Cred M D) (start : Start M D) (path : String) (follow : Bool) (times : Iattr)
  | mkdir (cred : Cred M D) (start : Start M D) (path : String)
  | symlink (cred : Cred M D) (target : String) (start : Start M D) (path : String)
  | link (cred : Cred M D) (oldStart : Start M D) (oldPath : String) (newStart : Start M D)
    (newPath : String) (follow : Bool)
  | rmdir (cred : Cred M D) (start : Start M D) (path : String)
  | unlink (cred : Cred M D) (start : Start M D) (path : String)
  | rename (cred : Cred M D) (source : Start M D) (sourcePath : String) (target : Start M D)
    (targetPath : String)

/-- Who a request is made for, none where the file it is made on says. -/
def Request.creds : Request M D → List (Cred M D)
  | .open cred .. | .utimesFd cred .. | .utimes cred .. | .mkdir cred .. | .symlink cred ..
  | .link cred .. | .rmdir cred .. | .unlink cred .. | .rename cred .. => [cred]
  | .write .. | .pwrite .. | .truncate .. | .fallocate .. => []

/-- One request made. -/
def perform [DecidableEq M] [DecidableEq D] : Request M D → Call M D F Unit
  | .open cred start path how => do
    let op ← given (buildOpenFlags how)
    let file ← sys.doFileOpen cred start path op
    modify fun w => { w with files := w.files ++ [file] }
  | .write fd buf => onFile fd fun file => sys.write file buf
  | .pwrite fd buf pos => onFile fd fun file => sys.pwrite file buf pos
  | .truncate fd len => onFile fd fun file => sys.truncate file len
  | .fallocate fd offset len => onFile fd fun file => sys.fallocate file offset len
  | .utimesFd cred fd times => onFile fd fun file => do
    sys.vfsUtimes cred file.mnt file.dentry times
    pure file
  | .utimes cred start path follow times => sys.doUtimesPath cred start path follow times
  | .mkdir cred start path => sys.filenameMkdirat cred start path
  | .symlink cred target start path => sys.filenameSymlinkat cred target start path
  | .link cred oldStart oldPath newStart newPath follow =>
    sys.filenameLinkat cred oldStart oldPath newStart newPath follow
  | .rmdir cred start path => sys.filenameRmdir cred start path
  | .unlink cred start path => sys.filenameUnlinkat cred start path
  | .rename cred source sourcePath target targetPath =>
    sys.filenameRenameat2 cred source sourcePath target targetPath

/-- Requests made one after another, whatever each answers. -/
def runRequests [DecidableEq M] [DecidableEq D] : List (Request M D) → World M D F → World M D F
  | [], w => w
  | request :: rest, w =>
    match sys.perform request w with
    | .ok () after => runRequests rest after
    | .error _ after => runRequests rest after

end System

end Kobako.Vfs
