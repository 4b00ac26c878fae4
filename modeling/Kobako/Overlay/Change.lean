import Kobako.Overlay.Stack

/-!
# Changes

Copying up, listing, and changing a directory of the view, as `copy_up.rs`, `readdir.rs` and
`dir.rs` do. A change that replaces an entry is built in the workdir and exchanged into place.
-/

namespace Kobako.Overlay

open Vfs

variable {W D F V : Type} [DecidableEq V] (layers : Layers W D F) (fs : OverlayFs D)

/-! ## Cleaning up -/

section Cleanup

omit [DecidableEq V]

/-- `ovl_cleanup`. -/
def ovlCleanup (dir : OverlayPath D) (name : String) : Ovl W D F V Unit := do
  if (← dir.getattrAt layers name).fileType = .dir then dir.doRmdir layers name
  else dir.doUnlink layers name

/-- The loop of `ovl_cleanup_whiteouts` over what `inner` lists. -/
def cleanupWhiteouts (inner : OverlayPath D) : List DirEntry → Ovl W D F V Unit
  | [] => pure ()
  | listed :: rest => do
    if ← inner.isWhiteout layers listed.name then inner.doUnlink layers listed.name
    cleanupWhiteouts inner rest

/-- `ovl_cleanup_whiteouts`. -/
def ovlCleanupWhiteouts (dir : OverlayPath D) (name : String) : Ovl W D F V Unit := do
  if (← dir.getattrAt layers name).fileType = .dir then
    let inner ← dir.openDir layers name
    cleanupWhiteouts layers inner (← inner.entries layers)

/-- The loop of `ovl_workdir_cleanup`, `pending` its stack, followed for so many rounds. -/
def workdirCleanup : Nat → List (OverlayPath D × String) → Ovl W D F V Unit
  | _, [] => pure ()
  | 0, _ => throw (.other "a cleanup followed no further")
  | rounds + 1, (dir, name) :: pending => do
    if (← dir.getattrAt layers name).fileType ≠ .dir then
      dir.doUnlink layers name
      workdirCleanup rounds pending
    else
      let inner ← dir.openDir layers name
      let listed ← inner.entries layers
      if listed.isEmpty then
        dir.doRmdir layers name
        workdirCleanup rounds pending
      else
        workdirCleanup rounds
          ((listed.map fun one => (inner, one.name)).reverse ++ (dir, name) :: pending)

end Cleanup

/-! ## Copying up -/

section Copy

omit [DecidableEq V]

/-- The inner loop of `copy_whole`: what was read is written, however little each write takes. -/
def writeAll (layer : Nat) (target : F) (pos : Nat) (data : List UInt8) : Ovl W D F V Nat :=
  if _done : data.isEmpty then pure pos
  else do
    match ← ask (layers.writeIter layer target pos data) with
    | 0 => throw (.other "a copy up's write wrote nothing")
    | wrote + 1 => writeAll layer target (pos + (wrote + 1)) (data.drop (wrote + 1))
termination_by data.length
decreasing_by
  cases data with
  | nil => exact absurd rfl _done
  | cons byte rest =>
    rw [List.length_drop, List.length_cons]
    omega

/-- `stack::copy_whole`, followed for so many rounds, what is left to read `from` and to write
`upto`. -/
def copyWhole (source : Nat × F) (target : Nat × F) : Nat → Nat → Nat → Ovl W D F V Unit
  | 0, _, _ => throw (.other "a copy up followed no further")
  | rounds + 1, readPos, writePos => do
    let read ← ask (layers.readIter source.1 source.2 readPos (64 * 1024))
    if read.isEmpty then pure ()
    else
      let writePos ← writeAll layers target.1 target.2 writePos read
      copyWhole source target rounds (readPos + read.length) writePos

end Copy

/-- The end of `OverlayFs::copy_up_dir`: what was made in the workdir is moved into place beneath
`parent`, or taken away again. -/
def landDir (dir : ViewDentry V) (parent work : OverlayPath D) (temp : String)
    (made : Except FsError Unit) : Ovl W D F V (OverlayPath D) := do
  let parentTimes ← parent.getattr layers
  let moved ← attempt do
    ofExcept made
    work.doRename layers temp parent (nameOf dir) (some .noReplace)
  match moved with
  | .error error =>
    let _ ← attempt (work.doRmdir layers temp)
    throw error
  | .ok () =>
    let _ ← attempt (parent.setTimestamps layers parentTimes)
    let made ← parent.openDir layers (nameOf dir)
    inodeUpdate dir made
    pure made

/-- `OverlayFs::copy_up_dir`. -/
def copyUpDir (dir : ViewDentry V) (parent : OverlayPath D) : Ovl W D F V (OverlayPath D) := do
  let level ← levelOf dir
  match upperOf level with
  | some held => pure held
  | none =>
    let shown ← okOr (level.filterMap id).head? .notFound
    let lower ← shown.getattr layers
    let (work, temp) ← tempname fs
    work.doMkdir layers temp
    let made ← attempt do
      let made ← work.openDir layers temp
      made.setTimestamps layers lower
    landDir layers dir parent work temp made

/-- `OverlayFs::upper_dir`: the climb to the first directory the upper holds, each directory passed
copied up on the way back. -/
def upperDir : ViewDentry V → Ovl W D F V (OverlayPath D)
  | [] => throw .notFound
  | own :: above => do
    match upperOf (← levelOf (own :: above)) with
    | some held => pure held
    | none => copyUpDir layers fs (own :: above) (← upperDir above)

/-- What `OverlayFs::copy_up_file` copies: the bytes behind an open to read, or none. -/
def copyData (real target : OverlayPath D) (copy : F) (truncate : Bool) : Ovl W D F V Unit := do
  if truncate then pure ()
  else
    let source ← real.openRealfile layers readOnly
    copyWhole layers (real.layer, source) (target.layer, copy) fs.rounds 0 0

/-- `OverlayFs::copy_up_file` once what is to be copied is found to be a file. -/
def landFile (child : ViewDentry V) (real target : OverlayPath D) (lower : Kstat)
    (truncate : Bool) : Ovl W D F V Unit := do
  let copy ← target.doTmpfile layers
  copyData layers fs real target copy truncate
  ask (layers.setattrFile target.layer copy (timestamps lower))
  let parentTimes ← target.getattr layers
  let linked ← target.doLink layers copy (nameOf child)
  let _ ← attempt (target.setTimestamps layers parentTimes)
  setReal child (target.beneath linked)

/-- `OverlayFs::copy_up_file`. -/
def copyUpFile (dir child : ViewDentry V) (truncate : Bool) : Ovl W D F V Unit := do
  let target ← upperDir layers fs dir
  let real ← realOf child .notFound
  if fs.isInUpper real then pure ()
  else
    let lower ← real.getattr layers
    if lower.fileType ≠ .regFile then throw .permissionDenied
    else landFile layers fs child real target lower truncate

/-! ## Listing -/

section Listing

omit [DecidableEq V]

/-- `MergedEntries`. -/
structure MergedEntries where
  /-- What is listed. -/
  entries : List DirEntry
  /-- Whether the upper holds a whiteout. -/
  upperWhiteouts : Bool
deriving Repr, DecidableEq

/-- The inner loop of `read_merged` over what the Layer at `index` lists. -/
def mergeEntries (index : Nat) (dir : OverlayPath D) :
    List DirEntry → List String → MergedEntries → Ovl W D F V (List String × MergedEntries)
  | [], taken, merged => pure (taken, merged)
  | listed :: rest, taken, merged => do
    let whiteout := decide (listed.fileType = .chrdev) && (← dir.isWhiteout layers listed.name)
    let merged :=
      { merged with upperWhiteouts := merged.upperWhiteouts || (whiteout && decide (index = UPPER)) }
    if taken.contains listed.name then mergeEntries index dir rest taken merged
    else
      mergeEntries index dir rest (listed.name :: taken)
        (if whiteout then merged else { merged with entries := merged.entries ++ [listed] })

/-- The outer loop of `read_merged`, `index` the first Layer's place. -/
def readMergedFrom : Nat → Level D → List String → MergedEntries → Ovl W D F V MergedEntries
  | _, [], _, merged => pure merged
  | index, none :: rest, taken, merged => readMergedFrom (index + 1) rest taken merged
  | index, some dir :: rest, taken, merged => do
    let (taken, merged) ← mergeEntries layers index dir (← dir.entries layers) taken merged
    readMergedFrom (index + 1) rest taken merged

/-- `read_merged`. -/
def readMerged (level : Level D) : Ovl W D F V MergedEntries :=
  readMergedFrom layers 0 level [] ⟨[], false⟩

/-- `OverlayFs::check_empty_dir`. -/
def checkEmptyDir (dentry : ViewDentry V) : Ovl W D F V (Option Bool) := do
  let merged ← readMerged layers (← levelOf dentry)
  pure (if merged.entries.isEmpty then some merged.upperWhiteouts else none)

end Listing

/-! ## Changing a directory -/

section Exchange

omit [DecidableEq V]

/-- `OverlayFs::cleanup_and_whiteout`. -/
def cleanupAndWhiteout (dir : OverlayPath D) (name : String) : Ovl W D F V Unit := do
  let (work, temp) ← tempname fs
  work.doWhiteout layers temp
  let isDir ← (← entry layers dir name).isDirectory layers dir
  let flag := if isDir then some RenameFlag.exchange else none
  match ← attempt (work.doRename layers temp dir name flag) with
  | .error error =>
    let _ ← attempt (work.doUnlink layers temp)
    throw error
  | .ok () => if isDir then let _ ← attempt (ovlCleanup layers work temp)

/-- `OverlayFs::exchange_in`. -/
def exchangeIn (dir : OverlayPath D) (name : String)
    (make : OverlayPath D → String → Ovl W D F V Unit) : Ovl W D F V Unit := do
  let (work, temp) ← tempname fs
  let made ← attempt do
    make work temp
    work.doRename layers temp dir name (some .exchange)
  match made with
  | .error error =>
    let _ ← attempt (ovlCleanup layers work temp)
    throw error
  | .ok () =>
    let _ ← attempt do
      ovlCleanupWhiteouts layers work temp
      ovlCleanup layers work temp

/-- `OverlayFs::clear_empty`. -/
def clearEmpty (dir : OverlayPath D) (name : String) : Ovl W D F V Unit :=
  exchangeIn layers fs dir name fun work temp => do
    work.doMkdir layers temp
    (← work.openDir layers temp).setOpaque layers

/-- `OverlayFs::upper_holds`. -/
def upperHolds (dentry : ViewDentry V) : Ovl W D F V Bool := do
  match ← attempt (inodeOf dentry) with
  | .error _ => pure false
  | .ok inode =>
    match inode.kept with
    | .file real => pure (fs.isInUpper real)
    | .dir level => pure (upperOf level).isSome

end Exchange

/-- The end of `OverlayFs::do_remove`, once a directory of whiteouts is cleared: a whiteout over any
Layer that keeps the name, or else only the upper's entry. -/
def removeName (dir : ViewDentry V) (level : Level D) (name : String) (shownBelow held : Bool) :
    Ovl W D F V Unit := do
  if shownBelow then cleanupAndWhiteout layers fs (← upperDir layers fs dir) name
  else if held then ovlCleanup layers (← layerDir (upperOf level)) name
  else throw .notFound

/-- `OverlayFs::do_remove`. -/
def doRemove (dir dentry : ViewDentry V) (upperWhiteouts : Bool) : Ovl W D F V Unit := do
  let level ← levelOf dir
  let shownBelow ← ovlLowerPositive layers level (nameOf dentry)
  let held ← upperHolds fs dentry
  if upperWhiteouts then clearEmpty layers fs (← layerDir (upperOf level)) (nameOf dentry)
  removeName layers fs dir level (nameOf dentry) shownBelow held

/-- `OverlayFs::open`. -/
def openFile (dir child : ViewDentry V) (how : OpenHow) : Ovl W D F V (OpenFile D F V) := do
  let real ← realOf child .isADirectory
  if fs.isInUpper real then pure (.real real.layer (← real.openRealfile layers how))
  else if how.write = false ∧ how.truncate = false then
    let file ← real.openRealfile layers how
    match child with
    | [] => throw .notFound
    | own :: _ => pure (.lower file real own.1 none)
  else
    copyUpFile layers fs dir child how.truncate
    let real ← realOf child .isADirectory
    pure (.real real.layer (← real.openRealfile layers how))

/-- `OverlayFs::create`. -/
def createIn (dir : ViewDentry V) (name : String) : Ovl W D F V Unit := do
  let upper ← upperDir layers fs dir
  if ← upper.isWhiteout layers name then
    exchangeIn layers fs upper name fun work temp => work.doCreate layers temp
  else upper.doCreate layers name

/-- `OverlayFs::mkdir`. -/
def mkdirIn (dir : ViewDentry V) (name : String) : Ovl W D F V Unit := do
  let upper ← upperDir layers fs dir
  if ← upper.isWhiteout layers name then clearEmpty layers fs upper name
  else upper.doMkdir layers name

/-- `OverlayFs::rmdir`. -/
def rmdirIn (dir dentry : ViewDentry V) : Ovl W D F V Unit := do
  let upperWhiteouts ← okOr (← checkEmptyDir layers dentry) .directoryNotEmpty
  doRemove layers fs dir dentry upperWhiteouts

/-- `OverlayFs::unlink`. -/
def unlinkIn (dir dentry : ViewDentry V) : Ovl W D F V Unit := doRemove layers fs dir dentry false

omit [DecidableEq V] in
/-- `OverlayFs::can_move`. -/
def canMove (moved : ViewDentry V) (moving : FileType) : Ovl W D F V Bool := do
  if moving = .dir then
    let level ← levelOf moved
    pure ((upperOf level).isSome && ((lowerOf level).filterMap id).isEmpty)
  else if moving = .regFile then pure true
  else upperHolds fs moved

/-- What `OverlayFs::rename` asks the upper's rename to do. -/
def renameFlag (shownBelow ontoWhiteout isDir : Bool) : Option RenameFlag :=
  if shownBelow then if ontoWhiteout then some .exchange else some .whiteout
  else if ontoWhiteout && isDir then some .exchange
  else none

/-- Whether what `OverlayFs::rename` would replace is a directory of whiteouts, refused where it
shows an entry. -/
def replacedWhiteouts (target : ViewDentry V) (replaced : Option FileType) : Ovl W D F V Bool := do
  if replaced = some .dir then okOr (← checkEmptyDir layers target) .directoryNotEmpty
  else pure false

/-- The move of `OverlayFs::rename` itself, once what moves and where it goes stand in the upper. -/
def moveName (source : OverlayPath D) (name : String) (target : OverlayPath D) (toName : String)
    (shownBelow isDir : Bool) : Ovl W D F V Unit := do
  let ontoWhiteout ← target.isWhiteout layers toName
  let flag := renameFlag shownBelow ontoWhiteout isDir
  source.doRename layers name target toName flag
  if flag = some .exchange ∧ shownBelow = false then source.doUnlink layers name

/-- A directory moved into one a lower Layer also shows is marked opaque first. -/
def markMoved (source : OverlayPath D) (name : String) (toLevel : Level D) (isDir : Bool) :
    Ovl W D F V Unit := do
  if isDir ∧ ((lowerOf toLevel).filterMap id).isEmpty = false then
    (← source.openDir layers name).setOpaque layers

/-- A regular file that moves is copied up first. -/
def copyUpMoved (src moved : ViewDentry V) (moving : FileType) : Ovl W D F V Unit := do
  if moving = .regFile then copyUpFile layers fs src moved false

omit [DecidableEq V] in
/-- A directory of whiteouts that is replaced is cleared first. -/
def clearReplaced (dir : OverlayPath D) (name : String) (upperWhiteouts : Bool) :
    Ovl W D F V Unit := do
  if upperWhiteouts then clearEmpty layers fs dir name

/-- `OverlayFs::rename` once what moves may: copied up, with a directory of whiteouts it would
replace cleared. -/
def landMove (src moved dest target : ViewDentry V) (moving : FileType) (toLevel : Level D)
    (upperWhiteouts shownBelow : Bool) : Ovl W D F V Unit := do
  copyUpMoved layers fs src moved moving
  let targetDir ← upperDir layers fs dest
  clearReplaced layers fs targetDir (nameOf target) upperWhiteouts
  let source ← okOr (upperOf (← levelOf src)) .notFound
  markMoved layers source (nameOf moved) toLevel (decide (moving = .dir))
  moveName layers source (nameOf moved) targetDir (nameOf target) shownBelow
    (decide (moving = .dir))

/-- `OverlayFs::rename`, what moves and what it would replace of kinds `moving` and `replaced`. -/
def renameIn (src moved dest target : ViewDentry V) (moving : FileType)
    (replaced : Option FileType) : Ovl W D F V Unit := do
  let fromLevel ← levelOf src
  let toLevel ← levelOf dest
  if ← canMove fs moved moving then
    let upperWhiteouts ← replacedWhiteouts layers target replaced
    let shownBelow ← ovlLowerPositive layers fromLevel (nameOf moved)
    landMove layers fs src moved dest target moving toLevel upperWhiteouts shownBelow
  else throw .crossesDevices

end Kobako.Overlay
