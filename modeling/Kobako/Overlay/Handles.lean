import Kobako.Overlay.Tmpfs

/-!
# Handles

The handles of one regular file of the view: how each is opened, and what is read, written and
truncated through it, with what each call answers. What the answers are held against is one array
of bytes every handle would share.

The VFS refuses a call the open's mode does not allow before any of this is reached. `pos` is the
position it hands down, the file's own for `read` and `write` and the caller's for `pread` and
`pwrite`.
-/

namespace Kobako.Overlay

open Vfs

variable {W D F V : Type}

/-! ## Uses -/

/-- What is done with one file of the view. A name that reaches it is told by its last name and the
dentry above. -/
inductive Use (V : Type) where
  | opens (name : String) (above : ViewDentry V) (how : OpenHow)
  | read (fd pos len : Nat)
  | write (fd pos : Nat) (data : List UInt8)
  | append (fd : Nat) (data : List UInt8)
  | truncate (name : String) (above : ViewDentry V) (len : Nat)
deriving Repr, DecidableEq

/-- How a use ends. -/
inductive UseEnd where
  | done
  | bytes (data : List UInt8)
  | wrote (count : Nat)
  | failed (error : FsError)
deriving Repr, DecidableEq

/-- `Iattr::size`, made through an open file. -/
def Iattr.ofSize (len : Nat) : Iattr := ⟨some len, none, some .now, false, true⟩

/-- `Iattr::open_truncate`, made through the file that opens. -/
def Iattr.openTruncate : Iattr := ⟨some 0, none, some .now, true, true⟩

section Calls

variable [DecidableEq V] [DecidableEq D] (layers : Layers W D F) (fs : OverlayFs D)

/-- `do_open` of a regular file that stands, once it may be opened: the file is opened, and then
emptied where the open asks. -/
def doOpen (dentry : ViewDentry V) (how : OpenHow) : Ovl W D F V Unit := do
  let file ← openFile layers fs dentry.tail dentry how
  if how.truncate then setattrFile layers fs dentry Iattr.openTruncate
  handOut file

omit [DecidableEq V] in
/-- `FileOperations::read_iter` of a handle, with what it read. What `real_file` found stays found,
also where the read then fails. -/
def readIter (fd pos len : Nat) : Ovl W D F V (List UInt8) := do
  match (← get).files[fd]? with
  | none => throw .invalidInput
  | some (.real layer file) => ask (layers.readIter layer file pos len)
  | some (.lower file real inode upper) => do
    let (now, left) ← realFile layers file real inode upper
    modify fun s => { s with files := s.files.set fd left }
    ask (layers.readIter now.1 now.2 pos len)
  | some .dir => throw .isADirectory

omit [DecidableEq V] [DecidableEq D] in
/-- `FileOperations::write_iter` of a handle, with how much it wrote. An `OverlayFile` has none.
Where the write appends, `start` is the end its file has as it writes. -/
def writeIter (start : W → Nat → F → Nat) (fd : Nat) (data : List UInt8) : Ovl W D F V Nat := do
  match (← get).files[fd]? with
  | some (.real layer file) =>
    ask fun world => layers.writeIter layer file (start world layer file) data world
  | _ => throw .invalidInput

variable (v : V) (size : W → Nat → F → Nat)

/-- What a use of the file at `v` does, `size` the length an open file has. -/
def perform : Use V → Ovl W D F V UseEnd
  | .opens name above how => do
    doOpen layers fs ((v, name) :: above) how
    pure .done
  | .read fd pos len => do pure (.bytes (← readIter layers fd pos len))
  | .write fd pos data => do pure (.wrote (← writeIter layers (fun _ _ _ => pos) fd data))
  | .append fd data => do pure (.wrote (← writeIter layers size fd data))
  | .truncate name above len => do
    setattrFile layers fs ((v, name) :: above) (Iattr.ofSize len)
    pure .done

/-- How each use of a sequence ends, with the session it is made in. -/
def serve (s : Session W D F V) : List (Use V) → List (Session W D F V × Use V × UseEnd)
  | [] => []
  | use :: rest =>
    match perform layers fs v size use s with
    | .ok ended after => (s, use, ended) :: serve after rest
    | .error error after => (s, use, .failed error) :: serve after rest

end Calls

/-! ## One array -/

/-- What a read may answer from an array of bytes: what stands from the position on, as much as was
asked or less, and nothing only at the end. -/
structure ReadsFrom (array : List UInt8) (pos len : Nat) (data : List UInt8) : Prop where
  /-- What is read stands there. -/
  stands : data = (array.drop pos).take data.length
  /-- No more is read than was asked. -/
  within : data.length ≤ len
  /-- Nothing is read only where nothing is left, or nothing was asked. -/
  left : data = [] → len = 0 ∨ array.length ≤ pos

/-- What `count` bytes of what is written leave of an array. -/
def overwrite (array : List UInt8) (pos : Nat) (data : List UInt8) (count : Nat) : List UInt8 :=
  if count = 0 then array else Tmpfs.written array pos (data.take count)

/-- Whether an open is made to change what it opens. -/
def forChange (how : OpenHow) : Bool := how.write || how.truncate

/-- What every handle shares: one array of bytes, how each handle was opened, and whether the file
was opened to change it or truncated, and so copied up. -/
structure Shared where
  /-- The bytes. -/
  array : List UInt8
  /-- How each handle was opened. -/
  handles : List OpenHow
  /-- Whether the file was copied up. -/
  copied : Bool

/-- What a use that ended so leaves of what is shared. -/
def Shared.after (shared : Shared) : Use V → UseEnd → Shared
  | .opens _ _ how, .done =>
    ⟨if how.truncate then [] else shared.array, shared.handles ++ [how],
      shared.copied || forChange how⟩
  | .write _ pos data, .wrote count =>
    { shared with array := overwrite shared.array pos data count }
  | .append _ data, .wrote count =>
    { shared with array := overwrite shared.array shared.array.length data count }
  | .truncate _ _ len, .done =>
    { shared with array := Tmpfs.resized shared.array len, copied := true }
  | _, _ => shared

/-- Whether what is shared would answer a use so, `refused` telling how the use may fail. -/
def Answered (refused : FsError → Prop) (shared : Shared) : Use V → UseEnd → Prop
  | .opens _ _ _, .done => True
  | .read fd pos len, .bytes data =>
    fd < shared.handles.length ∧ ReadsFrom shared.array pos len data
  | .write fd _ data, .wrote count =>
    fd < shared.handles.length ∧ count ≤ data.length ∧ (data ≠ [] → 0 < count)
  | .append fd data, .wrote count =>
    fd < shared.handles.length ∧ count ≤ data.length ∧ (data ≠ [] → 0 < count)
  | .truncate _ _ _, .done => True
  | _, .failed error => refused error
  | _, _ => False

/-- Whether what is shared, from what it is at first, would answer every use as it was answered,
`refused` telling how a use may fail in the session it is made in. -/
def AsOneArray (refused : Shared → Session W D F V → Use V → FsError → Prop) (shared : Shared) :
    List (Session W D F V × Use V × UseEnd) → Prop
  | [] => True
  | (s, use, ended) :: rest =>
    Answered (refused shared s use) shared use ended ∧
      AsOneArray refused (shared.after use ended) rest

end Kobako.Overlay
