import Kobako.Bytes
import Kobako.Readdir.Serve

/-!
# `fd_readdir`

How preview1 writes a listing into guest memory: each entry a header and its name, cut off where
the buffer ends, its `d_next` filled in once the next entry or the listing's end says where the
listing goes on. The directory does not change while it is listed, so it is told once, and an open
file of it is where it stands and what its `Rdir` holds. `dirents` is how a guest reads what was
written, and `readOn` a guest calling again from the `d_next` of the last entry it read whole.
-/

namespace Kobako.Readdir

open Vfs Bytes

/-! ## Guest memory -/

/-- `types::Error`: what a Filesystem failed with, or a pointer outside guest memory. -/
inductive Failure where
  | filesystem (error : FsError)
  | pointer
deriving Repr, DecidableEq

/-- Guest memory, its bytes in order. -/
abbrev Memory := List UInt8

/-- Memory with other bytes from a place on. -/
def splice (memory : Memory) (start : Nat) (bytes : List UInt8) : Memory :=
  memory.take start ++ bytes ++ memory.drop (start + bytes.length)

/-- The bytes of a range of memory. -/
def slice (memory : Memory) (start length : Nat) : List UInt8 := (memory.drop start).take length

/-- `GuestPtr::add`. -/
def pointerAdd (start offset : Nat) : Except Failure Nat :=
  if start + offset < 2 ^ 32 then .ok (start + offset) else .error .pointer

/-- `GuestMemory::write_bytes`. -/
def writeBytes (memory : Memory) (ptr : Nat) (bytes : List UInt8) : Except Failure Memory :=
  if ptr + bytes.length ≤ memory.length then .ok (splice memory ptr bytes) else .error .pointer

/-! ## Writing entries -/

/-- `types::Dirent`, and the name behind it. -/
structure Dirent where
  /-- `d_next`. -/
  dNext : Nat
  /-- `d_ino`. -/
  dIno : Nat
  /-- `d_type`. -/
  dType : Nat
  /-- The name. -/
  name : List UInt8
deriving Repr, DecidableEq

/-- `to_filetype`, as the number `Filetype` gives it. -/
def toFiletype : FileType → Nat
  | .dir => 3
  | .symlink => 7
  | .regFile => 4
  | .sock => 6
  | .blkdev => 1
  | .chrdev => 2
  | .fifo => 0
  | .unknown => 0

/-- `str::as_bytes`. -/
def nameBytes (name : String) : List UInt8 := name.toByteArray.data.toList

/-- `types::Dirent::guest_size`. -/
def headerSize : Nat := 24

/-- `to_dirent_header`, and what `write_d_next` later makes of it. -/
def toDirentHeader (dirent : Dirent) : List UInt8 :=
  toLe 8 dirent.dNext ++ toLe 8 dirent.dIno ++ toLe 4 dirent.name.length ++
    toLe 1 dirent.dType ++ [0, 0, 0]

/-- What a listing under way has written. -/
structure Filling where
  /-- Guest memory. -/
  memory : Memory
  /-- The bytes of the buffer used. -/
  used : Nat
  /-- What stopped the listing. -/
  failed : Option Failure
  /-- Where the header of the last entry written whole stands. -/
  lastWhole : Option Nat

/-- How a guest sees an entry named: `Profile::guest_ino`. -/
abbrev GuestIno := Option Identity → UInt64

/-- An entry as a `dirent`. -/
def direntOf (guestIno : GuestIno) (emit : DirEmit) (dNext : Nat) : Dirent :=
  ⟨dNext, (guestIno emit.identity).toNat, toFiletype emit.fileType, nameBytes emit.name⟩

/-- One part of an entry, cut off where the buffer ends, answering whether it fit. -/
def writePart (start capacity : Nat) (memory : Memory) (used : Nat) (part : List UInt8) :
    Except Failure (Memory × Nat × Bool) := do
  let take := min part.length (capacity - used)
  let memory ← if 0 < take then writeBytes memory (← pointerAdd start used) (part.take take)
    else pure memory
  return (memory, used + take, take == part.length)

/-- `write_dirent`, answering the memory and the bytes used after, and where the entry's header
stands when it fit whole. What it wrote before it failed stays written, and the failure tells it. -/
def writeDirent (start capacity : Nat) (guestIno : GuestIno) (emit : DirEmit) (memory : Memory)
    (used : Nat) : Except (Memory × Nat × Failure) (Memory × Nat × Option Nat) :=
  let dirent := direntOf guestIno emit 0
  match writePart start capacity memory used (toDirentHeader dirent) with
  | .error failure => .error (memory, used, failure)
  | .ok (memory, afterHeader, headerFit) =>
    match writePart start capacity memory afterHeader dirent.name with
    | .error failure => .error (memory, afterHeader, failure)
    | .ok (memory, afterName, nameFit) =>
      .ok (memory, afterName, if headerFit && nameFit then some used else none)

/-- `write_d_next`. -/
def writeDNext (start at_ dNext : Nat) (memory : Memory) : Except Failure Memory := do
  writeBytes memory (← pointerAdd start at_) (toLe 8 dNext)

/-- `write_d_next` of the last entry written whole, if there is one. -/
def writeLast (start : Nat) (lastWhole : Option Nat) (dNext : Nat) (memory : Memory) :
    Except Failure Memory :=
  match lastWhole with
  | some at_ => writeDNext start at_ dNext memory
  | none => .ok memory

/-- The actor of `readdir`. -/
def fill (start capacity : Nat) (guestIno : GuestIno) : Actor Filling := fun emit f =>
  match verifyDirentName emit.name with
  | .error error => (false, { f with failed := some (.filesystem error) })
  | .ok () =>
    match writeLast start f.lastWhole emit.offset f.memory with
    | .error failure => (false, { f with lastWhole := none, failed := some failure })
    | .ok memory =>
      match writeDirent start capacity guestIno emit memory f.used with
      | .error (memory, used, failure) => (false, ⟨memory, used, some failure, none⟩)
      | .ok (memory, used, whole) => (whole.isSome, ⟨memory, used, f.failed, whole⟩)

/-! ## Open directories -/

/-- A directory that does not change: of a Tmpfs, or read whole. -/
inductive Directory (ν : Type) where
  | tmpfs (state : Tmpfs.State ν) (reports : Reports ν) (own above : Option Identity)
  | rdir (answers : Answers)

variable {ν : Type}

/-- `File`, open on a directory. -/
structure OpenDir where
  /-- Where it stands. -/
  pos : Nat
  /-- What a listing read whole keeps. -/
  rdir : Rdir
deriving Repr, DecidableEq

/-- `OFFSET_MAX`. -/
def offsetMax : Nat := 2 ^ 63 - 1

/-- `File::llseek` and `generic_file_llseek` of a directory, from its start. -/
def OpenDir.llseek (file : OpenDir) (cookie : Nat) : Except FsError OpenDir :=
  if cookie ≤ offsetMax then .ok { file with pos := cookie } else .error .invalidInput

/-- `File::iterate_dir` of a directory that stands. -/
def OpenDir.iterateDir {σ : Type} (file : OpenDir) (dir : Directory ν) (actor : Actor σ)
    (kept : σ) : Except FsError Unit × OpenDir × σ :=
  match dir with
  | .tmpfs state reports own above =>
    let ctx := iterateTmpfs actor state reports own above ⟨file.pos, kept⟩
    (.ok (), { file with pos := ctx.pos }, ctx.kept)
  | .rdir answers =>
    match file.rdir.iterate actor answers ⟨file.pos, kept⟩ with
    | (listed, ctx, rdir) => (listed, ⟨ctx.pos, rdir⟩, ctx.kept)

/-- `readdir` once it has sought: what is listed and written. -/
def fillFrom (dir : Directory ν) (guestIno : GuestIno) (start capacity : Nat) (file : OpenDir)
    (memory : Memory) : Except Failure Nat × OpenDir × Memory :=
  match file.iterateDir dir (fill start capacity guestIno) ⟨memory, 0, none, none⟩ with
  | (listed, file, f) =>
    match writeLast start f.lastWhole file.pos f.memory with
    | .error failure => (.error failure, file, f.memory)
    | .ok memory =>
      let stopped := match listed with
        | .error error => some (.filesystem error)
        | .ok () => f.failed
      match stopped with
      | some failure => (if f.used = 0 then .error failure else .ok f.used, file, memory)
      | none => (.ok f.used, file, memory)

/-- `readdir`. -/
def readdir (dir : Directory ν) (guestIno : GuestIno) (start capacity cookie : Nat)
    (file : OpenDir) (memory : Memory) : Except Failure Nat × OpenDir × Memory :=
  if cookie ≠ file.pos then
    match file.llseek cookie with
    | .error error => (.error (.filesystem error), file, memory)
    | .ok file => fillFrom dir guestIno start capacity file memory
  else fillFrom dir guestIno start capacity file memory

/-! ## The guest's side -/

/-- Each whole `dirent` in what was written. -/
def dirents (bytes : List UInt8) : List Dirent :=
  let length := ofLe (slice bytes 16 4)
  if _whole : headerSize + length ≤ bytes.length then
    ⟨ofLe (slice bytes 0 8), ofLe (slice bytes 8 8), ofLe (slice bytes 20 1),
      slice bytes headerSize length⟩ :: dirents (bytes.drop (headerSize + length))
  else []
termination_by bytes.length
decreasing_by
  rw [List.length_drop]
  have positive : 0 < headerSize := by decide
  omega

/-- One call as the guest sees it: what it read whole, and where it goes on. -/
structure Heard where
  /-- The bytes the call answered. -/
  used : Nat
  /-- The entries read whole. -/
  seen : List Dirent

/-- Calls of `readdir`, one for each capacity, each from the `d_next` of the last entry read whole:
what each answered, where the next would go on, and what they left. -/
def readOn (dir : Directory ν) (guestIno : GuestIno) (start : Nat) :
    List Nat → Nat → OpenDir → Memory → Except Failure (List Heard × Nat × OpenDir × Memory)
  | [], cookie, file, memory => .ok ([], cookie, file, memory)
  | capacity :: capacities, cookie, file, memory =>
    match readdir dir guestIno start capacity cookie file memory with
    | (.error failure, _, _) => .error failure
    | (.ok used, file, memory) => do
      let seen := dirents (slice memory start used)
      let next := (seen.getLast?.map (·.dNext)).getD cookie
      let (more, last) ← readOn dir guestIno start capacities next file memory
      return (⟨used, seen⟩ :: more, last)

end Kobako.Readdir
