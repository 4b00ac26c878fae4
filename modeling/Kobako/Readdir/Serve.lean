import Kobako.Tmpfs.State
import Kobako.Vfs.Dentry

/-!
# Listing a directory

How a directory hands its entries to whoever lists it. A `DirContext` says where the listing stands
and what the actor taking the entries has kept so far. A Tmpfs directory reads on from each name's
stable position; one that reads whole listings at once goes through `Rdir`, which keeps what a
listing began with until it ends, counted against the caller.
-/

namespace Kobako.Readdir

open Vfs

/-! ## Entries and the actor -/

/-- `Identity`. -/
structure Identity where
  /-- The device. -/
  dev : Nat
  /-- The inode number. -/
  ino : Nat
deriving Repr, DecidableEq

/-- `Identity::from_numbers`: an inode of zero reports none. -/
def Identity.fromNumbers (dev ino : Nat) : Option Identity :=
  if ino ≠ 0 then some ⟨dev, ino⟩ else none

/-- `DirEntry`. -/
structure DirEntry where
  /-- The name listed. -/
  name : String
  /-- What it lists as. -/
  fileType : FileType
  /-- The device it reports. -/
  dev : Nat
  /-- The inode number it reports, zero for none. -/
  ino : Nat
deriving Repr, DecidableEq

/-- `DirEmit`: one entry a listing hands its actor. -/
structure DirEmit where
  /-- The name. -/
  name : String
  /-- What it lists as. -/
  fileType : FileType
  /-- What the entry is, if its Filesystem names an inode number. -/
  identity : Option Identity
  /-- Where the entry stands. -/
  offset : Nat
deriving Repr, DecidableEq

/-- An entry standing at a position. -/
def DirEntry.emitAt (entry : DirEntry) (offset : Nat) : DirEmit :=
  ⟨entry.name, entry.fileType, Identity.fromNumbers entry.dev entry.ino, offset⟩

variable {σ : Type}

/-- Who takes each entry, answering whether to go on. -/
abbrev Actor (σ : Type) := DirEmit → σ → Bool × σ

/-- `DirContext`: where a listing stands, and what its actor keeps. -/
structure DirContext (σ : Type) where
  /-- Where it stands. -/
  pos : Nat
  /-- What the actor keeps. -/
  kept : σ

namespace DirContext

variable (actor : Actor σ)

/-- `DirContext::set_pos`. -/
def setPos (ctx : DirContext σ) (pos : Nat) : DirContext σ := { ctx with pos := pos }

/-- `DirContext::emit`. -/
def emit (ctx : DirContext σ) (name : String) (fileType : FileType) (identity : Option Identity) :
    Bool × DirContext σ :=
  match actor ⟨name, fileType, identity, ctx.pos⟩ ctx.kept with
  | (took, kept) => (took, { ctx with kept := kept })

/-- `DirContext::dir_emit`. -/
def dirEmit (ctx : DirContext σ) (entry : DirEntry) : Bool × DirContext σ :=
  ctx.emit actor entry.name entry.fileType (Identity.fromNumbers entry.dev entry.ino)

/-- One of the dots, if the listing stands at it. -/
def emitDot (ctx : DirContext σ) (at_ : Nat) (name : String) (identity : Option Identity) :
    Bool × DirContext σ :=
  if ctx.pos = at_ then
    match ctx.emit actor name .dir identity with
    | (true, ctx) => (true, ctx.setPos (at_ + 1))
    | (false, ctx) => (false, ctx)
  else (true, ctx)

/-- `dir_emit_dots`, handed the identities of the directory and of what stands above it. -/
def dirEmitDots (ctx : DirContext σ) (own above : Option Identity) : Bool × DirContext σ :=
  match ctx.emitDot actor 0 "." own with
  | (true, ctx) => ctx.emitDot actor 1 ".." above
  | (false, ctx) => (false, ctx)

end DirContext

/-- `PATH_MAX`. -/
def pathMax : Nat := 4096

/-- What a listing is refused for with a name no directory can hold. -/
def badName : FsError := .other "a Filesystem listed a name no directory can hold"

/-- `verify_dirent_name`. -/
def verifyDirentName (name : String) : Except FsError Unit :=
  if name.isEmpty ∨ pathMax ≤ name.utf8ByteSize ∨ '/' ∈ name.toList then .error badName
  else .ok ()

/-! ## A Tmpfs directory -/

section Tmpfs

variable {ν : Type}

/-- What a node reports of itself: its kind, its device and its inode number. -/
abbrev Reports (ν : Type) := ν → FileType × Nat × Nat

/-- `Node::dir_entry`. -/
def dirEntry (reports : Reports ν) (name : String) (node : ν) : DirEntry :=
  ⟨name, (reports node).1, (reports node).2.1, (reports node).2.2⟩

/-- The positions from one on are the first found there, and those past it. -/
theorem fromKey_entryFrom {s : Tmpfs.State ν} {pos offset : Nat} {name : String} {node : ν}
    (found : s.entryFrom pos = some (offset, name, node)) :
    s.offsets.fromKey pos = (offset, name) :: s.offsets.fromKey (offset + 1) := by
  rw [Tmpfs.State.entryFrom] at found
  cases first : s.offsets.firstFrom pos with
  | none =>
    rw [first] at found
    cases found
  | some binding =>
    rw [first] at found
    obtain ⟨standing, -, same⟩ := Option.map_eq_some_iff.mp found
    cases same
    exact OrderedMap.fromKey_eq_cons first

/-- Past a position found, fewer positions are left. -/
theorem entryFrom_fewer {s : Tmpfs.State ν} {pos offset : Nat} {name : String} {node : ν}
    (found : s.entryFrom pos = some (offset, name, node)) :
    (s.offsets.fromKey (offset + 1)).length < (s.offsets.fromKey pos).length := by
  rw [fromKey_entryFrom found, List.length_cons]
  exact Nat.lt_succ_self _

/-- The loop of `TmpfsDir::iterate_shared`. -/
def listFrom (actor : Actor σ) (s : Tmpfs.State ν) (reports : Reports ν) (ctx : DirContext σ) :
    DirContext σ :=
  match _ : s.entryFrom ctx.pos with
  | none => ctx
  | some (offset, name, node) =>
    match (ctx.setPos offset).dirEmit actor (dirEntry reports name node) with
    | (true, ctx) => listFrom actor s reports (ctx.setPos (offset + 1))
    | (false, ctx) => ctx
termination_by (s.offsets.fromKey ctx.pos).length
decreasing_by exact entryFrom_fewer (by assumption)

/-- `TmpfsDir::iterate_shared`. -/
def iterateTmpfs (actor : Actor σ) (s : Tmpfs.State ν) (reports : Reports ν)
    (own above : Option Identity) (ctx : DirContext σ) : DirContext σ :=
  match ctx.dirEmitDots actor own above with
  | (true, ctx) => listFrom actor s reports ctx
  | (false, ctx) => ctx

end Tmpfs

/-! ## A listing read whole -/

/-- `VmCommitted`. -/
structure VmCommitted where
  /-- The most that may be held. -/
  limit : Nat
  /-- What is held. -/
  used : Nat
deriving Repr, DecidableEq

/-- `Cred`, what a listing counts against, if anything. -/
abbrev Cred := Option VmCommitted

/-- `FilesystemError::OutOfMemory`. -/
def outOfMemory : FsError := .other "OutOfMemory"

/-- `Cred::security_vm_enough_memory`. -/
def securityVmEnoughMemory (bytes : Nat) : Cred → Except FsError Cred
  | none => .ok none
  | some committed =>
    if committed.used + bytes ≤ committed.limit then
      .ok (some { committed with used := committed.used + bytes })
    else .error outOfMemory

/-- `Cred::vm_unacct_memory`. -/
def vmUnacctMemory (bytes : Nat) : Cred → Cred
  | none => none
  | some committed => some { committed with used := committed.used - bytes }

/-- `Listing`: the entries, and the bytes they count for. -/
structure Listing where
  /-- The entries, `.` and `..` first. -/
  entries : List DirEntry
  /-- What `Charge` counts. -/
  bytes : Nat
deriving Repr, DecidableEq

/-- An open directory's `Rdir` and who it counts against. -/
structure Rdir where
  /-- What a listing began with, until it ends. -/
  held : Option Listing
  /-- What it counts against. -/
  cred : Cred
deriving Repr, DecidableEq

/-- `Drop for Charge`. -/
def Rdir.letGo (rdir : Rdir) (listing : Listing) : Rdir :=
  ⟨none, vmUnacctMemory listing.bytes rdir.cred⟩

/-- `dots`, of what a stat of the directory and of what stands above it reports. -/
def dots (own above : Except FsError Identity) : Except FsError (List DirEntry) := do
  let dot ← own
  let dotdot ← above
  return [⟨".", .dir, dot.dev, dot.ino⟩, ⟨"..", .dir, dotdot.dev, dotdot.ino⟩]

/-- The entries `emit_from` goes over, answering whether all were taken. -/
def emitAll (actor : Actor σ) (ctx : DirContext σ) : List DirEntry → Bool × DirContext σ
  | [] => (true, ctx)
  | entry :: rest =>
    match ctx.dirEmit actor entry with
    | (true, ctx) => emitAll actor (ctx.setPos (ctx.pos + 1)) rest
    | (false, ctx) => (false, ctx)

/-- `emit_from`. -/
def emitFrom (actor : Actor σ) (ctx : DirContext σ) (entries : List DirEntry) :
    Bool × DirContext σ :=
  emitAll actor ctx (entries.drop ctx.pos)

/-- How a directory answers a listing read whole: its entries, a stat of it and of what stands
above it, and what `Charge::account` counts for entries. -/
structure Answers where
  /-- `read`. -/
  read : Except FsError (List DirEntry)
  /-- `dentry.getattr`. -/
  own : Except FsError Identity
  /-- `dentry.parent().getattr`. -/
  above : Except FsError Identity
  /-- The bytes entries count for. -/
  cost : List DirEntry → Nat

/-- A listing from the start, read and counted. -/
def Rdir.begin (rdir : Rdir) (answers : Answers) : Except FsError (Listing × Rdir) := do
  let read ← answers.read
  let entries := (← dots answers.own answers.above) ++ read
  let bytes := answers.cost entries
  let cred ← securityVmEnoughMemory bytes rdir.cred
  return (⟨entries, bytes⟩, ⟨none, cred⟩)

/-- What `Rdir::iterate` goes on with: what it held, past the start, or the directory read anew,
what it held let go of. -/
def Rdir.resume (rdir : Rdir) (answers : Answers) (pos : Nat) :
    Rdir × Except FsError (Listing × Rdir) :=
  match rdir.held with
  | some held =>
    if pos ≠ 0 then (⟨none, rdir.cred⟩, .ok (held, ⟨none, rdir.cred⟩))
    else (rdir.letGo held, (rdir.letGo held).begin answers)
  | none => (rdir, rdir.begin answers)

/-- `Rdir::iterate`. -/
def Rdir.iterate (rdir : Rdir) (actor : Actor σ) (answers : Answers) (ctx : DirContext σ) :
    Except FsError Unit × DirContext σ × Rdir :=
  match rdir.resume answers ctx.pos with
  | (left, .error error) => (.error error, ctx, left)
  | (_, .ok (listing, rdir)) =>
    match emitFrom actor ctx listing.entries with
    | (true, ctx) => (.ok (), ctx, rdir.letGo listing)
    | (false, ctx) => (.ok (), ctx, { rdir with held := some listing })

end Kobako.Readdir
