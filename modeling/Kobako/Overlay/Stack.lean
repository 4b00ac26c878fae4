import Kobako.Overlay.Layer

/-!
# The stack

The rules of `stack.rs` that make the Layers one view: which Layer shows a name and which merge
into a directory, how what a lower Layer shows is copied up, and how a name is made, removed or
moved. Every change is asked of a path the upper holds.
-/

namespace Kobako.Overlay

open Vfs

variable {W D F V : Type} (layers : Layers W D F)

/-! ## Names -/

/-- `LayerEntry`. -/
structure LayerEntry (D : Type) where
  /-- The name as the Layer stores it. -/
  storedName : String
  /-- Its dentry there. -/
  dentry : D
deriving Repr, DecidableEq

/-- `Presence`. -/
inductive Presence (D : Type) where
  | nothing
  | whiteout
  | entry (found : LayerEntry D)
deriving Repr, DecidableEq

/-- `stack::entry`. -/
def entry (dir : OverlayPath D) (name : String) : Ovl W D F V (Presence D) := do
  match ← attempt (dir.lookupSingle layers name) with
  | .ok (some (stored, dentry)) =>
    if ← dir.isWhiteoutDentry layers dentry then pure .whiteout
    else pure (.entry ⟨stored, dentry⟩)
  | .ok none => pure .nothing
  | .error .notFound => pure .nothing
  | .error .invalidFilename => pure .nothing
  | .error error => throw error

/-- `Presence::is_directory` of what `entry` found in `dir`. -/
def Presence.isDirectory (dir : OverlayPath D) : Presence D → Ovl W D F V Bool
  | .entry found => do pure (decide ((← dir.kindOf layers found.dentry) = some .dir))
  | _ => pure false

/-- The Layers below the upper, as `ovl_lower_positive` skips it. -/
def lowerOf (level : Level D) : Level D := level.drop (UPPER + 1)

/-- The loop of `ovl_lower_positive`. -/
def lowerPositiveFrom (name : String) : Level D → Ovl W D F V Bool
  | [] => pure false
  | none :: rest => lowerPositiveFrom name rest
  | some dir :: rest => do
    match ← attempt (entry layers dir name) with
    | .ok .nothing => lowerPositiveFrom name rest
    | .ok .whiteout => pure false
    | .ok (.entry _) => pure true
    | .error _ => pure true

/-- `ovl_lower_positive`. -/
def ovlLowerPositive (level : Level D) (name : String) : Ovl W D F V Bool :=
  lowerPositiveFrom layers name (lowerOf level)

/-- `layer_dir`. -/
def layerDir (dir : Option (OverlayPath D)) : Ovl W D F V (OverlayPath D) := okOr dir .notFound

/-- The upper's directory of a level, as `level[UPPER]`. -/
def upperOf (level : Level D) : Option (OverlayPath D) := level[UPPER]?.join

/-- The loop of `OverlayFs::lookup_layer`, `index` the first Layer's place. -/
def lookupLayerFrom (name : String) : Nat → Level D → Ovl W D F V (Option (Nat × LayerEntry D))
  | _, [] => pure none
  | index, none :: rest => lookupLayerFrom name (index + 1) rest
  | index, some dir :: rest => do
    match ← entry layers dir name with
    | .entry found => pure (some (index, found))
    | .whiteout => pure none
    | .nothing => lookupLayerFrom name (index + 1) rest

/-- `OverlayFs::lookup_layer`. -/
def lookupLayer (level : Level D) (name : String) : Ovl W D F V (Option (Nat × LayerEntry D)) :=
  lookupLayerFrom layers name 0 level

/-- The loop of `OverlayFs::lookup_layers`: each Layer's own directory, until one holds something
else, hides it, or marks its directory opaque. -/
def mergeBelow (name : String) : Level D → Ovl W D F V (Level D)
  | [] => pure []
  | none :: rest => do pure (none :: (← mergeBelow name rest))
  | some dir :: rest => do
    match ← entry layers dir name with
    | .entry found =>
      if (← dir.kindOf layers found.dentry) = some .dir then
        let inner := dir.beneath found.dentry
        if ← inner.isOpaque layers then pure (some inner :: rest.map fun _ => none)
        else pure (some inner :: (← mergeBelow name rest))
      else pure (none :: rest.map fun _ => none)
    | .whiteout => pure (none :: rest.map fun _ => none)
    | .nothing => do pure (none :: (← mergeBelow name rest))

/-- `OverlayFs::lookup_layers`. -/
def lookupLayers (level : Level D) (name : String) (at_ : Nat) (top : LayerEntry D) :
    Ovl W D F V (Level D) := do
  let dir ← layerDir level[at_]?.join
  let top := dir.beneath top.dentry
  let above := (level.take at_).map fun _ => none
  if ← top.isOpaque layers then
    pure (above ++ some top :: (level.drop (at_ + 1)).map fun _ => none)
  else pure (above ++ some top :: (← mergeBelow layers name (level.drop (at_ + 1))))

/-- `OverlayFs::dir_getattr`. -/
def dirGetattr (level : Level D) : Ovl W D F V Kstat := do
  match level.filterMap id with
  | [] => throw .notFound
  | [topmost] => topmost.getattr layers
  | topmost :: lower :: _ =>
    let topmost ← topmost.getattr layers
    let lower ← lower.getattr layers
    pure { topmost.withIdentity lower.identity with nlink := 1 }

/-! ## The Overlay -/

/-- `OverlayFs`: each Layer's root, where a change is built, and the most rounds a loop with no
bound of its own is followed for. -/
structure OverlayFs (D : Type) where
  /-- Each Layer's root, the upper's `upper` first. -/
  roots : Level D
  /-- The workdir, with an upper only. -/
  work : Option (OverlayPath D)
  /-- The most rounds followed. -/
  rounds : Nat

variable (fs : OverlayFs D)

/-- `OverlayFs::has_upper`. -/
def OverlayFs.hasUpper : Bool := fs.work.isSome

/-- `OverlayFs::is_in_upper`: a Layer's dentries all stand beneath that Layer's root, so one stands
beneath the upper's where it is the upper's. -/
def OverlayFs.isInUpper (real : OverlayPath D) : Bool :=
  fs.work.any fun work => decide (real.layer = work.layer)

/-- `OverlayFs::file_inode`: the identity recorded for an entry that is no directory. -/
def fileIdentity (index : Nat) (real : OverlayPath D) : Ovl W D F V (Option Identity) := do
  let _ ← okOr (← real.kindOf layers real.dentry) .notFound
  let found ← look fun world => layers.identity world real.layer real.dentry
  if fs.hasUpper && decide (index ≠ UPPER) then
    if (← real.getattr layers).nlink > 1 then pure none else pure found
  else pure found

/-- The inode of the entry the Layer at `index` shows, as `OverlayFs::lookup`. -/
def lookupInode (level : Level D) (name : String) (index : Nat) (found : LayerEntry D) :
    Ovl W D F V (ViewInode D) := do
  let dir ← layerDir level[index]?.join
  let real := dir.beneath found.dentry
  let kind ← okOr (← real.kindOf layers real.dentry) .notFound
  if kind ≠ .dir then
    pure ⟨← fileIdentity layers fs index real, .file real⟩
  else
    let merged ← lookupLayers layers level name index found
    let identity ←
      if (merged.filterMap id).length = 1 then
        look fun world => layers.identity world real.layer real.dentry
      else do pure (Identity.of (← dirGetattr layers merged))
    pure ⟨identity, .dir merged⟩

/-! ## Inodes of the view -/

/-- The inode a dentry of the view names. -/
def inodeOf (dentry : ViewDentry V) : Ovl W D F V (ViewInode D) := fun s =>
  match dentry.head?.bind fun own => s.inodes own.1 with
  | some inode => .ok inode s
  | none => .error .notFound s

/-- `OverlayFs::dir` and then `ViewDir::level`. -/
def levelOf (dentry : ViewDentry V) : Ovl W D F V (Level D) := do
  match (← inodeOf dentry).kept with
  | .dir level => pure level
  | .file _ => throw .notADirectory

/-- What a file's inode keeps, refused as `error` for a directory's. -/
def realOf (dentry : ViewDentry V) (error : FsError) : Ovl W D F V (OverlayPath D) := do
  match (← inodeOf dentry).kept with
  | .file real => pure real
  | .dir _ => throw error

/-- The name a dentry of the view carries. -/
def nameOf (dentry : ViewDentry V) : String := (dentry.head?.map Prod.snd).getD ""

/-- Keep something else on an inode of the view. -/
def Session.keep [DecidableEq V] (s : Session W D F V) (v : V) (change : Kept D → Kept D) :
    Session W D F V :=
  { s with inodes := fun other =>
      if other = v then (s.inodes v).map fun inode => { inode with kept := change inode.kept }
      else s.inodes other }

variable [DecidableEq V]

/-- `OverlayDirInode::inode_update`. -/
def inodeUpdate (dentry : ViewDentry V) (made : OverlayPath D) : Ovl W D F V Unit :=
  match dentry with
  | [] => pure ()
  | own :: _ => modify fun s => s.keep own.1 fun
    | .dir level => .dir (level.set UPPER (some made))
    | .file real => .file real

/-- `OverlayFileInode::set_real`. -/
def setReal (dentry : ViewDentry V) (real : OverlayPath D) : Ovl W D F V Unit :=
  match dentry with
  | [] => pure ()
  | own :: _ => modify fun s => s.keep own.1 fun
    | .dir level => .dir level
    | .file _ => .file real

omit [DecidableEq V] in
/-- `OverlayFs::tempname`: the workdir and the next name in it. -/
def tempname : Ovl W D F V (OverlayPath D × String) := fun s =>
  match fs.work with
  | none => .error .readOnlyFilesystem s
  | some work =>
    .ok (work, "#" ++ String.ofList (Nat.toDigits 16 s.temp)) { s with temp := s.temp + 1 }

end Kobako.Overlay
