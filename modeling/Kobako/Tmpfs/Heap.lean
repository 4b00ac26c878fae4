import Kobako.Overlay.Layer
import Kobako.Tmpfs.State
import Mathlib.Data.List.Basic

/-!
# What a Tmpfs holds

The objects of a Tmpfs as shared references keep them: a file's content, a directory and a whiteout
live while a directory names them or something outside holds them, an open file or an inode. Each
counts one inode, and a file its bytes, from when it is made until the last reference to it goes.
The last reference to a directory lets go of everything beneath it in a loop. Times, inode numbers
and extended attributes are left out, and so is a reference taken and dropped within one call while
others keep what it names.
-/

namespace Kobako.Tmpfs

open Vfs
open Overlay (RenameFlag)

/-! ## Budgets -/

/-- `usize::MAX`. -/
def usizeMax : Nat := 2 ^ 64 - 1

/-- `Budget`. -/
structure Budget where
  /-- The most that may be used. -/
  limit : Nat
  /-- How much is used. -/
  used : Nat
  /-- Whether more was given back than was used, where `fetch_sub` wraps. -/
  wrapped : Bool
deriving Repr, DecidableEq

namespace Budget

/-- `Budget::new`. -/
def new (limit : Option Nat) : Budget := ⟨limit.getD usizeMax, 0, false⟩

/-- `Budget::set_limit`. -/
def setLimit (budget : Budget) (limit : Option Nat) : Budget :=
  { budget with limit := limit.getD usizeMax }

/-- `Budget::take`. -/
def take (budget : Budget) (amount : Nat) : Except FsError Budget :=
  if budget.used + amount ≤ usizeMax ∧ budget.used + amount ≤ budget.limit then
    .ok { budget with used := budget.used + amount }
  else .error .storageFull

/-- `Budget::add`. What a Host App seeds lies in memory, so this never overflows. -/
def add (budget : Budget) (amount : Nat) : Budget :=
  { budget with used := budget.used + amount }

/-- `Budget::give`. -/
def give (budget : Budget) (amount : Nat) : Budget :=
  if amount ≤ budget.used then { budget with used := budget.used - amount }
  else { budget with used := budget.used + 2 ^ 64 - amount, wrapped := true }

end Budget

/-! ## Objects -/

/-- `Node`: a reference to an object, told by where it lies. -/
inductive Node where
  | file (id : Nat)
  | directory (id : Nat)
  | whiteout (id : Nat)
deriving Repr, DecidableEq

/-- Where the object lies. -/
def Node.id : Node → Nat
  | .file id => id
  | .directory id => id
  | .whiteout id => id

/-- Whether it is a directory. -/
def Node.isDirectory : Node → Bool
  | .directory _ => true
  | _ => false

/-- `Content`. -/
structure Content where
  /-- The file's bytes. -/
  bytes : List UInt8
  /-- One while a directory holds it. -/
  names : Nat

/-- What an object is. -/
inductive Body where
  | file (content : Content)
  | directory (state : State Node)
  | whiteout

/-- The references an object holds. -/
def State.nodes (state : State Node) : List Node := state.entries.bindings.map (·.2)

namespace Body

/-- How a reference names the object. -/
def node (id : Nat) : Body → Node
  | .file _ => .file id
  | .directory _ => .directory id
  | .whiteout => .whiteout id

/-- The bytes it counts. -/
def length : Body → Nat
  | .file content => content.bytes.length
  | _ => 0

/-- The references it holds. -/
def nodes : Body → List Node
  | .directory state => state.nodes
  | _ => []

end Body

/-- An object and how many references there are to it, as `Arc` counts them. -/
structure Object where
  /-- The references to it. -/
  strong : Nat
  /-- What it is. -/
  body : Body

/-- A Tmpfs: its objects, its space and who holds what outside its directories. -/
structure Heap where
  /-- The objects alive. -/
  objects : OrderedMap Nat Object
  /-- Where the next object lies. -/
  next : Nat
  /-- `Space::bytes`. -/
  bytes : Budget
  /-- `Space::inodes`. -/
  inodes : Budget
  /-- The references held outside its directories, by open files, by inodes and by the Tmpfs. -/
  holders : List Node

namespace Heap

/-- How many objects are alive. -/
def size (h : Heap) : Nat := h.objects.total fun _ _ => 1

/-- Another object in the place of one. -/
def setObject (h : Heap) (id : Nat) (object : Object) : Heap :=
  { h with objects := h.objects.insert id object }

/-- `Arc::new`. -/
def alloc (h : Heap) (body : Body) : Nat × Heap :=
  (h.next, { h with objects := h.objects.insert h.next ⟨1, body⟩, next := h.next + 1 })

/-- `Arc::clone`. -/
def clone (h : Heap) (node : Node) : Heap :=
  match h.objects.get node.id with
  | some object => h.setObject node.id { object with strong := object.strong + 1 }
  | none => h

/-- One inode given back. -/
def giveInode (h : Heap) : Heap := { h with inodes := h.inodes.give 1 }

/-- The last reference to an object gone: `Drop for Content`, `Drop for Whiteout`, and what
`Arc::into_inner` takes out of a directory's. -/
def free (h : Heap) (id : Nat) (body : Body) : Heap :=
  { h with
    objects := h.objects.remove id
    bytes := match body with
      | .file content => h.bytes.give content.bytes.length
      | _ => h.bytes }

/-- One reference to an object less, others being left. -/
def release (h : Heap) (id : Nat) (object : Object) : Heap :=
  h.setObject id { object with strong := object.strong - 1 }

/-- A reference to a file or a whiteout dropped. -/
def dropLeaf (h : Heap) (node : Node) : Heap :=
  match h.objects.get node.id with
  | some object =>
    if object.strong = 1 then (h.free node.id object.body).giveInode
    else h.release node.id object
  | none => h

/-- `Dir::take_directories`: the directories of what a directory held pushed, the rest dropped. -/
def takeDirectories : List Node → Heap → List Nat → Heap × List Nat
  | [], h, nested => (h, nested)
  | .directory id :: rest, h, nested => takeDirectories rest h (id :: nested)
  | node :: rest, h, nested => takeDirectories rest (h.dropLeaf node) nested

theorem size_setObject {h : Heap} {id : Nat} {old new : Object}
    (held : h.objects.get id = some old) : (h.setObject id new).size = h.size := by
  have sum := OrderedMap.total_insert (fun _ _ => 1) h.objects id new
  rw [OrderedMap.weightAt_some held] at sum
  exact Nat.add_right_cancel sum

theorem size_free {h : Heap} {id : Nat} {object : Object} (held : h.objects.get id = some object)
    (body : Body) : (h.free id body).size < h.size := by
  have sum := OrderedMap.total_remove (fun _ _ => 1) h.objects id
  rw [OrderedMap.weightAt_some held] at sum
  show (h.objects.remove id).total (fun _ _ => 1) < h.objects.total fun _ _ => 1
  omega

theorem size_dropLeaf_le (h : Heap) (node : Node) : (h.dropLeaf node).size ≤ h.size := by
  rw [dropLeaf]
  cases held : h.objects.get node.id with
  | none => exact Nat.le_refl _
  | some object =>
    by_cases last : object.strong = 1
    · simp only [if_pos last]
      exact Nat.le_of_lt (size_free held object.body)
    · simp only [if_neg last]
      exact Nat.le_of_eq (size_setObject held)

theorem size_takeDirectories_le (nodes : List Node) (h : Heap) (nested : List Nat) :
    (takeDirectories nodes h nested).1.size ≤ h.size := by
  induction nodes generalizing h nested with
  | nil => exact Nat.le_refl _
  | cons node rest ih =>
    cases node with
    | directory id => exact ih h (id :: nested)
    | file id => exact Nat.le_trans (ih _ nested) (size_dropLeaf_le h (.file id))
    | whiteout id => exact Nat.le_trans (ih _ nested) (size_dropLeaf_le h (.whiteout id))

/-- The loop of `Drop for Dir`: each directory taken out of its last reference gives its own
directories to the loop and its inode back. -/
def dropNested (h : Heap) : List Nat → Heap
  | [] => h
  | id :: nested =>
    match _ : h.objects.get id with
    | some ⟨1, .directory state⟩ =>
      let taken := takeDirectories state.nodes (h.free id (.directory state)) nested
      dropNested taken.1.giveInode taken.2
    | some object => dropNested (h.release id object) nested
    | none => dropNested h nested
termination_by nested => (h.size, nested.length)
decreasing_by
  · apply Prod.Lex.left
    exact Nat.lt_of_le_of_lt (size_takeDirectories_le _ _ _) (size_free (by assumption) _)
  · rw [release, size_setObject (by assumption)]
    exact Prod.Lex.right _ (Nat.lt_succ_self _)
  · exact Prod.Lex.right _ (Nat.lt_succ_self _)

/-- A reference to a directory dropped, with `Drop for Dir` where it was the last. -/
def dropDirectory (h : Heap) (id : Nat) : Heap :=
  match h.objects.get id with
  | some ⟨1, .directory state⟩ =>
    let taken := takeDirectories state.nodes (h.free id (.directory state)) []
    (dropNested taken.1 taken.2).giveInode
  | some object => h.release id object
  | none => h

/-- A reference dropped. -/
def drop (h : Heap) (node : Node) : Heap :=
  match node with
  | .directory id => h.dropDirectory id
  | node => h.dropLeaf node

/-! ## Directories -/

/-- A directory's state. -/
def stateOf (h : Heap) (id : Nat) : Option (State Node) :=
  match h.objects.get id with
  | some ⟨_, .directory state⟩ => some state
  | _ => none

/-- Another body in the place of an object's. -/
def setBody (h : Heap) (id : Nat) (body : Body) : Heap :=
  match h.objects.get id with
  | some object => h.setObject id { object with body := body }
  | none => h

/-- `Node::drop_name`. -/
def dropName (h : Heap) (node : Node) : Heap :=
  match h.objects.get node.id with
  | some ⟨_, .file content⟩ => h.setBody node.id (.file { content with names := 0 })
  | some ⟨_, .directory state⟩ => h.setBody node.id (.directory { state with removed := true })
  | _ => h

/-- `State::hold`, of a directory: what stood at the name comes out. -/
def hold (h : Heap) (dir : Nat) (name : String) (node : Node) : Heap × Option Node :=
  match h.stateOf dir with
  | some state =>
    match state.hold Node.isDirectory name node with
    | (state, replaced) => (h.setBody dir (.directory state), replaced)
  | none => (h, none)

/-- What came out of a directory, dropped. -/
def dropOption (h : Heap) : Option Node → Heap
  | some node => h.drop node
  | none => h

/-- `State::insert`. -/
def insert (h : Heap) (dir : Nat) (name : String) (node : Node) : Heap :=
  match h.hold dir name node with
  | (h, some replaced) => (h.dropName replaced).drop replaced
  | (h, none) => h

/-- `State::exchange`. -/
def exchange (h : Heap) (dir : Nat) (name : String) (node : Node) : Heap :=
  match h.hold dir name node with
  | (h, replaced) => h.dropOption replaced

/-- `Dir::get`, without taking a reference. -/
def standing (h : Heap) (dir : Nat) (name : String) : Option Node :=
  (h.stateOf dir).bind fun state => state.entries.get name

/-- `State::take`. -/
def take (h : Heap) (dir : Nat) (name : String) : Heap :=
  match h.stateOf dir with
  | some state =>
    (h.setBody dir (.directory (state.take Node.isDirectory name))).dropOption
      (state.entries.get name)
  | none => h

/-- `State::remove`. -/
def remove (h : Heap) (dir : Nat) (name : String) : Heap :=
  match h.standing dir name with
  | some removed => (h.dropName removed).take dir name
  | none => h.take dir name

/-- Whether a reference names a directory that holds something. -/
def holdsAny (h : Heap) (node : Node) : Bool :=
  match node with
  | .directory id => (h.stateOf id).any fun state => !state.entries.bindings.isEmpty
  | _ => false

/-! ## What is made -/

/-- `inodes.take(1)` and an object made: where it lies. -/
def make (h : Heap) (body : Body) : Except FsError (Nat × Heap) :=
  match h.inodes.take 1 with
  | .ok inodes => .ok ({ h with inodes := inodes }.alloc body)
  | .error error => .error error

/-- A reference held outside from now on. -/
def held (h : Heap) (node : Node) : Heap := { h with holders := node :: h.holders }

/-- An object made at a name and held by the inode its dentry records, as `Tmpfs::make` does: the
name holds one reference and the inode another. -/
def makeAt (h : Heap) (dir : Nat) (name : String) (body : Body) : Except FsError Unit × Heap :=
  match h.make body with
  | .ok (id, h) => (.ok (), ((h.clone (body.node id)).insert dir name (body.node id)).held (body.node id))
  | .error error => (.error error, h)

/-- An empty file. -/
def emptyFile : Body := .file ⟨[], 1⟩

/-! ## What a file holds -/

/-- A file's content. -/
def contentOf (h : Heap) (id : Nat) : Option Content :=
  match h.objects.get id with
  | some ⟨_, .file content⟩ => some content
  | _ => none

/-- A list of bytes made as long as `Vec::resize` makes it. -/
def resized (bytes : List UInt8) (length : Nat) : List UInt8 :=
  bytes.take length ++ List.replicate (length - bytes.length) 0

/-- `Content::resize`, `reserves` being whether the room can be allocated. Where it cannot, what was
taken of the space is given back. -/
def resize (h : Heap) (id : Nat) (content : Content) (length : Nat) (reserves : Bool) :
    Except FsError Heap :=
  let growth := length - content.bytes.length
  let grown : Except FsError Budget :=
    if 0 < growth then
      match h.bytes.take growth with
      | .error error => .error error
      | .ok bytes => if reserves then .ok bytes else .error .storageFull
    else .ok h.bytes
  match grown with
  | .error error => .error error
  | .ok bytes => .ok ({ h with bytes := bytes.give (content.bytes.length - length) }.setBody id
      (.file { content with bytes := resized content.bytes length }))

/-- The bytes of a list from a place on put over. -/
def overwritten (bytes : List UInt8) (start : Nat) (buf : List UInt8) : List UInt8 :=
  bytes.take start ++ buf ++ bytes.drop (start + buf.length)

/-- `write`, at a place or at the end. -/
def write (h : Heap) (id : Nat) (content : Content) (start : Option Nat) (buf : List UInt8)
    (reserves : Bool) : Except FsError Heap :=
  let start := start.getD content.bytes.length
  if buf.isEmpty then .ok h
  else if usizeMax < start + buf.length then .error .invalidInput
  else
    let grown := if content.bytes.length < start + buf.length then
        h.resize id content (start + buf.length) reserves
      else .ok h
    match grown with
    | .error error => .error error
    | .ok h =>
      match h.contentOf id with
      | some content => .ok (h.setBody id
          (.file { content with bytes := overwritten content.bytes start buf }))
      | none => .ok h

/-- `TmpfsFile::fallocate`. -/
def fallocate (h : Heap) (id : Nat) (content : Content) (offset length : Nat) (reserves : Bool) :
    Except FsError Heap :=
  if usizeMax < offset + length then .error .storageFull
  else if content.bytes.length < offset + length then
    h.resize id content (offset + length) reserves
  else .ok h

end Heap

end Kobako.Tmpfs
