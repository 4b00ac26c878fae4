import Kobako.Overlay.Calls
import Kobako.PathTree
import Mathlib.Algebra.GroupWithZero.Nat

/-!
# Tmpfs over trees

The Layers of an Overlay as they are: a Tmpfs for an upper and lower Layers nothing changes. Both
are told by what stands at each path. A Tmpfs refuses only for want of room, which `room` answers
each time it is asked, so what holds for every `room` holds for every size and number of inodes. An
Overlay hands its Layers only names an entry may have and Layers let their Overlay change them, so
neither refusal is told here.
-/

namespace Kobako.Overlay

open Vfs PathTree

/-- The names that lead to an entry, the last one first. -/
abbrev Path := List String

/-! ## Entries -/

/-- What a Layer holds at a path, as an Overlay tells entries apart. -/
inductive Seen where
  | file
  | link
  | directory (hides : Bool)
  | whiteout
deriving Repr, DecidableEq

/-- `Node::file_type`. -/
def Seen.fileType : Seen → FileType
  | .file => .regFile
  | .link => .symlink
  | .directory _ => .dir
  | .whiteout => .chrdev

/-- `Node`: a Tmpfs's entry. A file's bytes stay the file's wherever it moves, so an entry names
them by its inode; a directory may be marked opaque. -/
inductive Node where
  | file (ino : Nat)
  | directory (ino : Nat) (hides : Bool)
  | whiteout
deriving Repr, DecidableEq

/-- What a Tmpfs's entry is. -/
def Node.seen : Node → Seen
  | .file _ => .file
  | .directory _ hides => .directory hides
  | .whiteout => .whiteout

/-- The inode number an entry reports, zero for none. -/
def Node.ino : Node → Nat
  | .file ino => ino
  | .directory ino _ => ino
  | .whiteout => 0

/-- A lower Layer's entry. -/
inductive LowerNode where
  | file (bytes : List UInt8)
  | link (target : String)
  | directory (hides : Bool)
  | whiteout
deriving Repr, DecidableEq

/-- What a lower Layer's entry is. -/
def LowerNode.seen : LowerNode → Seen
  | .file _ => .file
  | .link _ => .link
  | .directory hides => .directory hides
  | .whiteout => .whiteout

/-- A lower Layer: what it holds, and what each of its directories lists. -/
structure LowerTree where
  /-- What stands at each path. -/
  node : Tree String LowerNode
  /-- The names a directory lists. -/
  names : Path → List String
  /-- The inode number each entry reports. -/
  ino : Path → Nat
  /-- Whether it is a Tmpfs. -/
  tmpfs : Bool
  /-- A directory lists what stands in it. -/
  listed : ∀ dir name, name ∈ names dir ↔ node (name :: dir) ≠ none
  /-- Only a Tmpfs holds an Overlay's marks. -/
  marked : ∀ path, node path = some .whiteout ∨ node path = some (.directory true) → tmpfs = true

/-! ## Tmpfs -/

/-- `Tmpfs`, as it stands. -/
structure Tmpfs where
  /-- What stands at each path. -/
  node : Tree String Node
  /-- Every name an entry was given. -/
  known : List String
  /-- The bytes of each file. -/
  bytes : Nat → List UInt8
  /-- `Tree::next_ino`. -/
  nextIno : Nat
  /-- How often room was asked for. -/
  asked : Nat

/-- A program of a Tmpfs. -/
abbrev TmpfsM := EStateM FsError Tmpfs

namespace Tmpfs

/-- `Tmpfs::new`. -/
def empty : Tmpfs :=
  ⟨leaf (some (.directory 1 false)), [], fun _ => [], 2, 0⟩

variable (t : Tmpfs)

/-- The names a directory lists, and as what. -/
def entries (dir : Path) : List DirEntry :=
  t.known.filterMap fun name => (t.node (name :: dir)).map fun node => ⟨name, node.seen.fileType⟩

/-- The names known once one is given. -/
def learn (path : Path) : List String :=
  match path with
  | [] => t.known
  | name :: _ => t.known.insert name

/-- Something put at a path, in place of all there was. -/
def put (path : Path) (node : Option Node) : Tmpfs :=
  { t with node := graft t.node path (leaf node), known := t.learn path }

/-- What stands beneath a path moved to another, with `left` where it stood. -/
def moved (src dst : Path) (left : Tree String Node) : Tmpfs :=
  { t with
    node := graft (graft t.node src left) dst (beneath t.node src)
    known := t.learn dst }

/-- One more inode number given. -/
def numbered : Tmpfs := { t with nextIno := t.nextIno + 1 }

variable (room : Nat → Bool)

/-- `Budget::take`. -/
def take : TmpfsM Unit := fun t =>
  if room t.asked then .ok () { t with asked := t.asked + 1 }
  else .error .storageFull { t with asked := t.asked + 1 }

variable (path : Path)

/-- `start_creating` and `may_create_dentry`: nothing may stand at a name that is made. -/
def mayCreate : TmpfsM Unit := fun t =>
  if (t.node path).isSome then .error .alreadyExists t else .ok () t

/-- `start_creating`, `vfs_mkdir` and `Tmpfs::mkdir`. -/
def mkdir : TmpfsM Unit := do
  mayCreate path
  take room
  modify fun t => (t.put path (some (.directory t.nextIno false))).numbered

/-- `start_creating`, `vfs_create` and `Tmpfs::create`. -/
def create : TmpfsM Unit := do
  mayCreate path
  take room
  modify fun t =>
    { (t.put path (some (.file t.nextIno))).numbered with
      bytes := Function.update t.bytes t.nextIno [] }

/-- `start_creating` and `Tmpfs::whiteout`. -/
def whiteout : TmpfsM Unit := do
  mayCreate path
  take room
  modify fun t => t.put path (some .whiteout)

/-- `start_removing`, `vfs_rmdir` and `Tmpfs::rmdir`. -/
def rmdir : TmpfsM Unit := fun t =>
  match t.node path with
  | none => .error .notFound t
  | some (.directory _ _) =>
    if (t.entries path).isEmpty then .ok () (t.put path none) else .error .directoryNotEmpty t
  | some _ => .error .notADirectory t

/-- `start_removing`, `vfs_unlink` and `Tmpfs::unlink`. -/
def unlink : TmpfsM Unit := fun t =>
  match t.node path with
  | none => .error .notFound t
  | some (.directory _ _) => .error .isADirectory t
  | some _ => .ok () (t.put path none)

/-- What `__start_renaming` and `vfs_rename` refuse of a move. -/
def renameRefusal (src dst : Path) (flag : Option RenameFlag) : Option FsError :=
  match t.node src, t.node dst with
  | none, _ => some .notFound
  | some moving, replaced =>
    if flag = some .exchange ∧ replaced = none then some .notFound
    else if flag = some .noReplace ∧ replaced ≠ none then some .alreadyExists
    else if src <:+ dst.tail then some .invalidInput
    else if dst <:+ src.tail then
      some (if flag = some .exchange then .invalidInput else .directoryNotEmpty)
    else if src = dst ∨ flag = some .exchange then none
    else
      match moving, replaced with
      | _, none => none
      | .directory _ _, some (.directory _ _) => none
      | .directory _ _, some _ => some .notADirectory
      | _, some (.directory _ _) => some .isADirectory
      | _, some _ => none

/-- `Tmpfs::rename_at` of a move that is no exchange. -/
def replace (src dst : Path) (flag : Option RenameFlag) : TmpfsM Unit := do
  let t ← get
  if (t.node dst).isSome && !(t.entries dst).isEmpty then throw .directoryNotEmpty
  else if flag = some .whiteout then
    take room
    modify fun t => t.moved src dst (leaf (some .whiteout))
  else modify fun t => t.moved src dst (leaf none)

/-- `__start_renaming`, `vfs_rename` and `Tmpfs::rename_at`. -/
def rename (src dst : Path) (flag : Option RenameFlag) : TmpfsM Unit := do
  let t ← get
  match t.renameRefusal src dst flag with
  | some error => throw error
  | none =>
    if src = dst then pure ()
    else if flag = some .exchange then set (t.moved src dst (beneath t.node dst))
    else replace room src dst flag

/-- `Tmpfs::tmpfile`. -/
def tmpfile : TmpfsM Nat := do
  take room
  modifyGet fun t => (t.nextIno,
    { t.numbered with bytes := Function.update t.bytes t.nextIno [] })

/-- `start_creating` and `Tmpfs::link`. -/
def link (ino : Nat) : TmpfsM Path := do
  mayCreate path
  modifyGet fun t => (path, t.put path (some (.file ino)))

/-- `Tmpfs::setxattr` of the opaque mark. -/
def setOpaque : TmpfsM Unit := fun t =>
  match t.node path with
  | some (.directory ino _) =>
    .ok () { t with node := Function.update t.node path (some (.directory ino true)) }
  | _ => .error .readOnlyFilesystem t

/-- Bytes of a length, zeros where there were none. -/
def resized (bytes : List UInt8) (len : Nat) : List UInt8 :=
  bytes.take len ++ List.replicate (len - bytes.length) 0

/-- Room for a file that grows to a length. -/
def grow (ino len : Nat) : TmpfsM Unit := fun t =>
  if (t.bytes ino).length < len then take room t else .ok () t

/-- `Content::resize`. -/
def resize (ino len : Nat) : TmpfsM Unit := do
  grow room ino len
  modify fun t => { t with bytes := Function.update t.bytes ino (resized (t.bytes ino) len) }

/-- Bytes written over others from a position. -/
def written (bytes : List UInt8) (pos : Nat) (data : List UInt8) : List UInt8 :=
  resized bytes pos ++ data ++ bytes.drop (pos + data.length)

/-- How far a file may reach, as `usize` bounds it. -/
def offsetMax : Nat := 2 ^ 64

/-- `tmpfs::write`. -/
def write (ino pos : Nat) (data : List UInt8) : TmpfsM Nat :=
  if data.isEmpty then pure 0
  else if offsetMax ≤ pos + data.length then throw .invalidInput
  else do
    grow room ino (pos + data.length)
    modify fun t => { t with bytes := Function.update t.bytes ino (written (t.bytes ino) pos data) }
    pure data.length

/-- `fallocate` of an open file. -/
def fallocate (ino offset len : Nat) : TmpfsM Unit := do
  if ((← get).bytes ino).length < offset + len then resize room ino (offset + len)

/-- `setattr` of an entry, of which only a size is told. -/
def setattr (attr : Iattr) : TmpfsM Unit := do
  match (← get).node path, attr.size with
  | some (.file ino), some len => resize room ino len
  | some (.file _), none => pure ()
  | some (.directory _ _), _ => pure ()
  | some .whiteout, _ => throw .invalidInput
  | none, _ => throw .notFound

end Tmpfs

/-! ## Layers -/

/-- An open file: a Tmpfs's bytes, a lower Layer's, or a directory. -/
inductive Handle where
  | file (ino : Nat)
  | bytes (bytes : List UInt8)
  | directory
deriving Repr, DecidableEq

section Layers

variable (lowers : List LowerTree)

variable (t : Tmpfs)

/-- What a Layer holds at a path. -/
def holds : Nat → Path → Option Seen
  | 0, path => (t.node path).map Node.seen
  | index + 1, path => lowers[index]?.bind fun tree => (tree.node path).map LowerNode.seen

@[simp]
theorem holds_upper (path : Path) :
    holds lowers t UPPER path = (t.node path).map Node.seen := rfl

@[simp]
theorem holds_lower (index : Nat) (path : Path) :
    holds lowers t (index + 1) path =
      lowers[index]?.bind fun tree => (tree.node path).map LowerNode.seen := rfl

/-- The inode number a Layer reports at a path. -/
def inoAt : Nat → Path → Nat
  | 0, path => ((t.node path).map Node.ino).getD 0
  | index + 1, path => (lowers[index]?.map fun tree => tree.ino path).getD 0

/-- Whether a Layer is a Tmpfs. -/
def isTmpfs : Nat → Bool
  | 0 => true
  | index + 1 => lowers[index]?.any LowerTree.tmpfs

/-- What a directory of a Layer lists. -/
def entriesAt : Nat → Path → List DirEntry
  | 0, path => t.entries path
  | index + 1, path => (lowers[index]?.map fun tree => (tree.names path).filterMap fun name =>
      (tree.node (name :: path)).map fun node => ⟨name, node.seen.fileType⟩).getD []

/-- `getattr` of an entry. Times are left out. -/
def statAt (layer : Nat) (path : Path) : EStateM FsError Tmpfs Kstat :=
  match holds lowers t layer path with
  | some seen => pure ⟨seen.fileType, layer, inoAt lowers t layer path, 1, none, none⟩
  | none => throw .notFound

/-- `open` of an entry, which empties nothing. -/
def openAt : Nat → Path → EStateM FsError Tmpfs Handle
  | 0, path =>
    match t.node path with
    | some (.file ino) => pure (.file ino)
    | some _ => pure .directory
    | none => throw .notFound
  | index + 1, path =>
    match lowers[index]?.bind fun tree => tree.node path with
    | some (.file bytes) => pure (.bytes bytes)
    | some _ => pure .directory
    | none => throw .notFound

/-- `get_link` of an entry. A Tmpfs holds no links. -/
def linkAt : Nat → Path → EStateM FsError Tmpfs String
  | 0, _ => throw .invalidInput
  | index + 1, path =>
    match lowers[index]?.bind fun tree => tree.node path with
    | some (.link target) => pure target
    | _ => throw .invalidInput

/-- A change, which only the upper takes. -/
def onUpper {α : Type} (change : TmpfsM α) : Nat → TmpfsM α
  | 0 => change
  | _ + 1 => throw .readOnlyFilesystem

/-- A change of an open file of the upper. -/
def onUpperFile {α : Type} (change : Nat → TmpfsM α) : Nat → Handle → TmpfsM α
  | 0, .file ino => change ino
  | _, _ => throw .readOnlyFilesystem

/-- A Tmpfs over lower Layers, the Tmpfs refusing for want of room where `room` says. -/
def stacked (room : Nat → Bool) : Layers Tmpfs Path Handle where
  kind t layer path := (holds lowers t layer path).map Seen.fileType
  name _ _ path := path.headD ""
  identity t layer path :=
    if inoAt lowers t layer path = 0 then none else some ⟨layer, inoAt lowers t layer path⟩
  tmpfs _ layer _ := isTmpfs lowers layer
  whiteoutAt t layer dir name := decide (holds lowers t layer (name :: dir) = some .whiteout)
  opaqueDir t layer dir := decide (holds lowers t layer dir = some (.directory true))
  matchesReal _ _ dir name real := decide (real = name :: dir)
  goesWhenUnused _ _ _ := false
  lookupReal _ dir name := pure (name :: dir)
  getattr layer path := do statAt lowers (← get) layer path
  getLink layer path := linkAt lowers layer path
  revalidate _ _ := pure true
  openRealfile layer path _ := do openAt lowers (← get) layer path
  entries layer path := do pure (entriesAt lowers (← get) layer path)
  readIter _ handle pos len := do
    match handle with
    | .file ino => pure ((((← get).bytes ino).drop pos).take len)
    | .bytes bytes => pure ((bytes.drop pos).take len)
    | .directory => throw .isADirectory
  fsync _ _ := pure ()
  flush _ _ := pure ()
  doMkdir layer dir name := onUpper (Tmpfs.mkdir room (name :: dir)) layer
  doCreate layer dir name := onUpper (Tmpfs.create room (name :: dir)) layer
  doRmdir layer dir name := onUpper (Tmpfs.rmdir (name :: dir)) layer
  doUnlink layer dir name := onUpper (Tmpfs.unlink (name :: dir)) layer
  doRename layer dir name layer' dir' name' flag :=
    onUpper (onUpper (Tmpfs.rename room (name :: dir) (name' :: dir') flag) layer') layer
  doWhiteout layer dir name := onUpper (Tmpfs.whiteout room (name :: dir)) layer
  doTmpfile layer _ := do pure (.file (← onUpper (Tmpfs.tmpfile room) layer))
  doLink layer dir handle name := onUpperFile (Tmpfs.link (name :: dir)) layer handle
  setOpaque layer path := onUpper (Tmpfs.setOpaque path) layer
  notifyChange layer path attr := onUpper (Tmpfs.setattr room path attr) layer
  setattrFile layer handle _ := onUpperFile (fun _ => pure ()) layer handle
  writeIter layer handle pos data := onUpperFile (fun ino => Tmpfs.write room ino pos data) layer handle
  fallocate layer handle offset len :=
    onUpperFile (fun ino => Tmpfs.fallocate room ino offset len) layer handle

end Layers

end Kobako.Overlay
