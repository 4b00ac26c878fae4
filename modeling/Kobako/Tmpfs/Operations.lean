import Kobako.Run
import Kobako.Tmpfs.Heap

/-!
# A Tmpfs as its guests change it

`Tmpfs::try_from_iter` seeds a Tmpfs, whose limits the Host App then sets. From there guests change
it through what they hold: each call names a directory or a file held outside, and does nothing
where it is not held. A call answers as the source's, and what it leaves is the Tmpfs after it.
-/

namespace Kobako.Tmpfs

open Vfs
open Overlay (RenameFlag)

/-! ## Seeding -/

/-- `SeedError`, each path as its names. -/
inductive SeedError where
  | root
  | twice (path : List String)
  | fileAndDirectory (path : List String)
  | dotDot (path : List String)
deriving Repr, DecidableEq

/-- `normalize_seed`, the names its path joins. -/
def normalizeSeed (path : String) : List String :=
  ((path.toList.splitOn '/').map String.ofList).filter fun name => name ≠ "" ∧ name ≠ "."

/-- `inodes_for`. -/
def inodesFor (bytes : Option Nat) : Option Nat :=
  bytes.map fun bytes => min ((bytes + 4095) / 4096 + 1) usizeMax

/-- `Tmpfs::DEFAULT_SIZE`. -/
def defaultSize : Nat := 64 * 1024 * 1024

namespace Heap

/-- `Tmpfs::new`. -/
def new : Heap :=
  { objects := OrderedMap.empty.insert 0 ⟨1, .directory .new⟩
    next := 1
    bytes := .new (some defaultSize)
    inodes := (Budget.new (inodesFor (some defaultSize))).add 1
    holders := [.directory 0] }

/-- What a Host App seeds, counted and never refused. -/
def counted (h : Heap) (length : Nat) : Heap :=
  { h with bytes := h.bytes.add length, inodes := h.inodes.add 1 }

/-- An object seeded at a name: where it lies. -/
def seedAt (h : Heap) (dir : Nat) (name : String) (body : Body) : Nat × Heap :=
  match (h.counted body.length).alloc body with
  | (id, h) => (id, (h.hold dir name (body.node id)).1)

/-- One file of `Tmpfs::try_from_iter`, from the directory its names so far lead to. -/
def seedFile (h : Heap) (dir : Nat) (above : List String) :
    List String → List UInt8 → Except SeedError Heap
  | [], _ => .error .root
  | [name], contents =>
    match h.standing dir name with
    | some (.directory _) => .error (.fileAndDirectory (above ++ [name]))
    | some _ => .error (.twice (above ++ [name]))
    | none => .ok (h.seedAt dir name (.file ⟨contents, 1⟩)).2
  | name :: next :: rest, contents =>
    match h.standing dir name with
    | some (.directory inner) => seedFile h inner (above ++ [name]) (next :: rest) contents
    | some _ => .error (.fileAndDirectory (above ++ [name]))
    | none =>
      match h.seedAt dir name (.directory .new) with
      | (inner, h) => seedFile h inner (above ++ [name]) (next :: rest) contents

/-- `Tmpfs::try_from_iter`, from what was seeded so far. -/
def seed (h : Heap) : List (String × List UInt8) → Except SeedError Heap
  | [] => .ok h
  | (path, contents) :: files =>
    let names := normalizeSeed path
    if names.isEmpty then .error .root
    else if ".." ∈ names then .error (.dotDot names)
    else
      match h.seedFile 0 [] names contents with
      | .ok h => h.seed files
      | .error error => .error error

/-- `Tmpfs::try_from_iter`. -/
def tryFromIter (files : List (String × List UInt8)) : Except SeedError Heap := new.seed files

/-- What a Host App limits: `Tmpfs::with_size` and `Tmpfs::with_nr_inodes`. -/
inductive Setting where
  | withSize (size : Option Nat)
  | withNrInodes (nrInodes : Option Nat)
deriving Repr, DecidableEq

/-- A Tmpfs limited, `follow` being whether its inodes follow its size. -/
def configure (h : Heap) (follow : Bool) : List Setting → Heap
  | [] => h
  | .withSize size :: settings =>
    configure { h with
      bytes := h.bytes.setLimit size
      inodes := if follow then h.inodes.setLimit (inodesFor size) else h.inodes } follow settings
  | .withNrInodes nrInodes :: settings =>
    configure { h with inodes := h.inodes.setLimit nrInodes } false settings

/-! ## Calls -/

/-- `NAME_MAX`. -/
def nameMax : Nat := 255

/-- `Tmpfs::lookup`: the inode it answers holds what was found, a whiteout's holding nothing. -/
def lookup (h : Heap) (dir : Nat) (name : String) : Except FsError Unit × Heap :=
  if nameMax < name.utf8ByteSize then (.error .invalidFilename, h)
  else
    match h.standing dir name with
    | none => (.ok (), h)
    | some (.whiteout _) => (.ok (), h)
    | some node => (.ok (), (h.clone node).held node)

/-- `Tmpfs::rmdir`. -/
def rmdir (h : Heap) (dir : Nat) (name : String) : Except FsError Unit × Heap :=
  match h.standing dir name with
  | some node =>
    if h.holdsAny node then (.error .directoryNotEmpty, h) else (.ok (), h.remove dir name)
  | none => (.ok (), h.remove dir name)

/-- `Tmpfs::whiteout`. -/
def whiteout (h : Heap) (dir : Nat) (name : String) : Except FsError Unit × Heap :=
  match h.make .whiteout with
  | .ok (id, h) => (.ok (), h.insert dir name (.whiteout id))
  | .error error => (.error error, h)

/-- What `RENAME_WHITEOUT` leaves, if it is asked for. -/
def leaving (h : Heap) (flag : Option RenameFlag) : Except FsError (Option Node × Heap) :=
  match flag with
  | some .whiteout =>
    match h.make .whiteout with
    | .ok (id, h) => .ok (some (.whiteout id), h)
    | .error error => .error error
  | _ => .ok (none, h)

/-- A move leaves a whiteout it has just made, or nothing and the heap as it is. -/
theorem leaving_cases {h made : Heap} {flag : Option RenameFlag} {left : Option Node}
    (leaves : h.leaving flag = .ok (left, made)) :
    (flag = some .whiteout ∧ ∃ id, left = some (.whiteout id) ∧
      h.make .whiteout = .ok (id, made)) ∨
    (flag ≠ some .whiteout ∧ left = none ∧ made = h) := by
  match flag with
  | none | some .noReplace | some .exchange =>
    cases leaves
    exact .inr ⟨nofun, rfl, rfl⟩
  | some .whiteout =>
    rw [leaving] at leaves
    split at leaves
    · rename_i id after allocated
      cases leaves
      exact .inl ⟨rfl, id, rfl, allocated⟩
    · cases leaves

/-- A reference taken to what stands somewhere, if anything does. -/
def cloneOption (h : Heap) : Option Node → Heap
  | some node => h.clone node
  | none => h

/-- The source of a move given up, to what it leaves there or to nothing. -/
def leave (h : Heap) (dir : Nat) (name : String) : Option Node → Heap
  | some left => h.exchange dir name left
  | none => h.take dir name

/-- `Tmpfs::rename_at`, the references it takes told once it refuses nothing more. -/
def renameAt (h : Heap) (fromDir : Nat) (source : String) (toDir : Nat) (target : String)
    (flag : Option RenameFlag) : Except FsError Unit × Heap :=
  match h.standing fromDir source with
  | none => (.error .notFound, h)
  | some moving =>
    if flag = some .exchange then
      match h.standing toDir target with
      | none => (.error .notFound, h)
      | some replaced =>
        (.ok (), (((h.clone moving).clone replaced).exchange fromDir source replaced).exchange toDir
          target moving)
    else if (h.standing toDir target).any h.holdsAny then (.error .directoryNotEmpty, h)
    else
      match h.leaving flag with
      | .error error => (.error error, h)
      | .ok (left, made) =>
        let cloned := (made.clone moving).cloneOption (h.standing toDir target)
        (.ok (), ((cloned.leave fromDir source left).insert toDir target moving).dropOption
          (h.standing toDir target))

/-- `Tmpfs::tmpfile`. -/
def tmpfile (h : Heap) : Except FsError Unit × Heap :=
  match h.make emptyFile with
  | .ok (id, h) => (.ok (), h.held (.file id))
  | .error error => (.error error, h)

/-- What a change to a file's content answers. -/
def changed (h : Heap) (id : Nat) (change : Content → Except FsError Heap) :
    Except FsError Unit × Heap :=
  match h.contentOf id with
  | some content =>
    match change content with
    | .ok h => (.ok (), h)
    | .error error => (.error error, h)
  | none => (.ok (), h)

end Heap

/-- What a guest's call asks of a Tmpfs, `reserves` being whether the room a file grows by can be
allocated. -/
inductive Op where
  | lookup (dir : Nat) (name : String)
  | opened (node : Node)
  | closed (node : Node)
  | create (dir : Nat) (name : String)
  | mkdir (dir : Nat) (name : String)
  | unlink (dir : Nat) (name : String)
  | rmdir (dir : Nat) (name : String)
  | whiteout (dir : Nat) (name : String)
  | rename (fromDir : Nat) (source : String) (toDir : Nat) (target : String)
      (flag : Option RenameFlag)
  | tmpfile (dir : Nat)
  | link (file : Nat) (dir : Nat) (name : String)
  | write (file : Nat) (start : Option Nat) (buf : List UInt8) (reserves : Bool)
  | truncate (file : Nat) (length : Nat) (reserves : Bool)
  | fallocate (file : Nat) (offset length : Nat) (reserves : Bool)

/-- What a call needs held. -/
def Op.needs : Op → List Node
  | .lookup dir _ => [.directory dir]
  | .opened node => [node]
  | .closed node => [node]
  | .create dir _ => [.directory dir]
  | .mkdir dir _ => [.directory dir]
  | .unlink dir _ => [.directory dir]
  | .rmdir dir _ => [.directory dir]
  | .whiteout dir _ => [.directory dir]
  | .rename fromDir _ toDir _ _ => [.directory fromDir, .directory toDir]
  | .tmpfile dir => [.directory dir]
  | .link file dir _ => [.file file, .directory dir]
  | .write file _ _ _ => [.file file]
  | .truncate file _ _ => [.file file]
  | .fallocate file _ _ _ => [.file file]

namespace Heap

/-- What a call does, what it needs being held. -/
def perform (h : Heap) : Op → Except FsError Unit × Heap
  | .lookup dir name => h.lookup dir name
  | .opened node => (.ok (), (h.clone node).held node)
  | .closed node => (.ok (), { h with holders := h.holders.erase node }.drop node)
  | .create dir name => h.makeAt dir name emptyFile
  | .mkdir dir name => h.makeAt dir name (.directory .new)
  | .unlink dir name => (.ok (), h.remove dir name)
  | .rmdir dir name => h.rmdir dir name
  | .whiteout dir name => h.whiteout dir name
  | .rename fromDir source toDir target flag => h.renameAt fromDir source toDir target flag
  | .tmpfile _ => h.tmpfile
  | .link file dir name => (.ok (), (h.clone (.file file)).insert dir name (.file file))
  | .write file start buf reserves =>
    h.changed file fun content => h.write file content start buf reserves
  | .truncate file length reserves =>
    h.changed file fun content => h.resize file content length reserves
  | .fallocate file offset length reserves =>
    h.changed file fun content => h.fallocate file content offset length reserves

/-- One call, possible only with what it needs held. -/
def step (h : Heap) (op : Op) : Option Heap :=
  if ∀ node ∈ op.needs, node ∈ h.holders then some (h.perform op).2 else none

end Heap

end Kobako.Tmpfs
