import Kobako.Tmpfs.Content

/-!
# Positions of an open file

An open file as `File` keeps it, over what a Tmpfs holds: its mode, whether its writes append and
the position its next read or write lands at. Each call checks its range before it asks the
Filesystem anything, and the Filesystem adds to the position it is handed. Every plain addition of
the two is taken as the machine takes it, so that one past `u64::MAX` ends the call in a panic; a
run of calls shows that none does.
-/

namespace Kobako.Tmpfs.Offsets

open Vfs (FsError FileType)

/-! ## The open file -/

/-- `OFFSET_MAX`. -/
def offsetMax : Nat := 2 ^ 63 - 1

/-- `MAX_RW_COUNT`. -/
def maxRwCount : Nat := 2 ^ 31 - 4096

/-- `isize::MAX`, the most bytes a `Vec` holds. -/
def isizeMax : Nat := 2 ^ 63 - 1

/-- `FMode`, one field for each of its bits a call asks for. -/
structure FMode where
  /-- `FMode::READ`. -/
  read : Bool
  /-- `FMode::WRITE`. -/
  write : Bool
  /-- `FMode::LSEEK`. -/
  lseek : Bool
  /-- `FMode::PREAD`. -/
  pread : Bool
  /-- `FMode::PWRITE`. -/
  pwrite : Bool
  /-- `FMode::STREAM`. -/
  stream : Bool
deriving Repr, DecidableEq

/-- What answers for an open file of a Tmpfs: `TmpfsFile`, `TmpfsDir`, or `EmptyFops` where it was
opened only for its path. -/
inductive FileOps where
  | file
  | dir
  | empty
deriving Repr, DecidableEq

/-- `File`, the fields these calls read. -/
structure File where
  /-- What answers for it. -/
  ops : FileOps
  /-- `File::kind`. -/
  kind : FileType
  /-- What it was opened for. -/
  mode : FMode
  /-- Whether each write lands at the end. -/
  append : Bool
  /-- Where the next read or write lands. -/
  pos : Nat
deriving Repr, DecidableEq

/-- `Whence`. -/
inductive Whence where
  | set
  | cur
  | end
deriving Repr, DecidableEq

/-- How a call fails: refused, or stopped by an addition past the machine's range. -/
inductive Fault where
  | refused (error : FsError)
  | panicked
deriving Repr, DecidableEq

/-- What a call asks of the Filesystem. -/
inductive Request where
  | read (pos count : Nat)
  | write (pos count : Nat)
  | allocate (offset length : Nat)
  | truncate (length : Nat)
deriving Repr, DecidableEq

/-- An open file and what it stands for: the content its handles share, the size its directory
reports where it is one, and what this call asked so far. -/
structure Opened where
  /-- The open file. -/
  file : File
  /-- What the Tmpfs holds of it. -/
  content : Shared
  /-- The size a directory reports. -/
  listed : Nat
  /-- What was asked of the Filesystem. -/
  asked : List Request
deriving Repr, DecidableEq

/-- A program of the file layer. -/
abbrev Program := EStateM Fault Opened

/-- Refuse a call. -/
def refuse {α : Type} (error : FsError) : Program α := throw (.refused error)

/-- Refuse a call unless something holds. -/
def require (holds : Bool) (error : FsError) : Program Unit :=
  if holds then pure () else refuse error

/-- An addition of two `u64`, or of two `usize`, as the machine takes it. -/
def add (left right : Nat) : Program Nat :=
  if left + right ≤ usizeMax then pure (left + right) else throw .panicked

/-- `u64::checked_add`. -/
def checkedAdd (left right : Nat) : Option Nat :=
  if left + right ≤ usizeMax then some (left + right) else none

/-- `u64::checked_add_signed`. -/
def checkedAddSigned (left : Nat) (right : Int) : Option Nat :=
  if 0 ≤ left + right ∧ left + right ≤ usizeMax then some (left + right).toNat else none

/-- What a program of the content leaves of an open file. -/
def onContent {α : Type} (program : EStateM FsError Shared α) : Program α := fun opened =>
  match program opened.content with
  | .ok answer content => .ok answer { opened with content }
  | .error error content => .error (.refused error) { opened with content }

/-- Note what is asked of the Filesystem. -/
def ask (request : Request) : Program Unit :=
  modify fun opened => { opened with asked := opened.asked ++ [request] }

/-- Leave the position at `pos`. -/
def moveTo (pos : Nat) : Program Unit :=
  modify fun opened => { opened with file.pos := pos }

/-! ## The Tmpfs -/

/-- `try_reserve_exact`: a `Vec` never grows past `isize::MAX`, and `allocates` is whether there is
the room otherwise. -/
def reserves (allocates : Bool) (length : Nat) : Bool := allocates && decide (length ≤ isizeMax)

variable (ops : FileOps)

/-- `FileOperations::read_iter`, with the additions `TmpfsFile` makes. -/
def readIter (iocb : Kiocb) (length : Nat) : Program (Nat × Nat) :=
  match ops with
  | .file => do
    let start := min iocb.pos (← get).content.bytes.length
    let (data, _) ← onContent (Shared.readIter iocb length)
    let _ ← add start data.length
    let pos ← add iocb.pos data.length
    pure (data.length, pos)
  | .dir => refuse .isADirectory
  | .empty => refuse .invalidInput

/-- `FileOperations::write_iter`, with the addition `TmpfsFile` makes; `generic_write_sync` finds
nothing to flush. -/
def writeIter (iocb : Kiocb) (buf : List UInt8) (allocates : Bool) :
    Program (Nat × Nat) :=
  match ops with
  | .file => do
    let start := landsAt (← get).content.bytes iocb
    let (written, _) ←
      onContent (Shared.writeIter iocb buf (reserves allocates (start + buf.length)))
    let pos ← add start written
    pure (written, pos)
  | .dir => refuse .invalidInput
  | .empty => refuse .invalidInput

/-- `FileOperations::fallocate`, with the addition `TmpfsFile` makes. -/
def allocate (offset length : Nat) (allocates : Bool) : Program Unit :=
  match ops with
  | .file => do
    let stop ← add offset length
    onContent (Shared.fallocate offset length (reserves allocates stop))
  | .dir => refuse .unsupported
  | .empty => refuse .unsupported

/-- Where a seek counts from: the start, the position or the size the dentry's `getattr` reports,
`unreported` being what that fails with, if it does. -/
def seekBase (opened : Opened) (unreported : Option FsError) : Whence → Except FsError Nat
  | .set => .ok 0
  | .cur => .ok opened.file.pos
  | .end => match unreported with
    | some error => .error error
    | none => .ok (if opened.file.ops = .file then opened.content.bytes.length else opened.listed)

/-- `generic_file_llseek`. -/
def genericFileLlseek (opened : Opened) (offset : Int) (whence : Whence)
    (unreported : Option FsError) : Except FsError Nat := do
  let base ← seekBase opened unreported whence
  match (checkedAddSigned base offset).filter (· ≤ offsetMax) with
  | some pos => .ok pos
  | none => .error .invalidInput

/-- `FileOperations::llseek`. -/
def seek (opened : Opened) (offset : Int) (whence : Whence) (unreported : Option FsError) :
    Except FsError Nat :=
  match opened.file.ops with
  | .file => genericFileLlseek opened offset whence unreported
  | .dir => genericFileLlseek opened offset whence unreported
  | .empty => .error (.other "NotSeekable")

/-! ## The calls -/

namespace File

variable (file : File)

/-- `File::kiocb`. -/
def kiocb (pos : Nat) : Kiocb := ⟨pos, file.append⟩

/-- `File::may_read`. -/
def mayRead : Program Unit := require file.mode.read (.other "BadDescriptor")

/-- `File::may_write`. -/
def mayWrite : Program Unit := require file.mode.write (.other "BadDescriptor")

/-- `File::may_at`, for the mode it asks for. -/
def mayAt (pos : Nat) (mode : Bool) : Program Unit := do
  require (pos ≤ offsetMax) .invalidInput
  require mode (.other "NotSeekable")

/-- `File::file_ppos`. -/
def filePpos : Option Nat := if file.mode.stream then none else some file.pos

/-- `File::rw_verify_area`. -/
def rwVerifyArea (ppos : Option Nat) (count : Nat) : Program Unit :=
  match ppos with
  | none => pure ()
  | some pos =>
    match checkedAdd pos count with
    | some stop => require (stop ≤ offsetMax) .invalidInput
    | none => refuse .invalidInput

/-- `File::read`, into a buffer so long. -/
def read (length : Nat) : Program Nat := do
  let file := (← get).file
  file.mayRead
  rwVerifyArea file.filePpos length
  let iocb := file.kiocb (file.filePpos.getD 0)
  ask (.read iocb.pos (min length maxRwCount))
  let (count, pos) ← readIter file.ops iocb (min length maxRwCount)
  if file.filePpos.isSome then moveTo pos else pure ()
  pure count

/-- `File::pread`. -/
def pread (length pos : Nat) : Program Nat := do
  let file := (← get).file
  mayAt pos file.mode.pread
  file.mayRead
  rwVerifyArea (some pos) length
  ask (.read pos (min length maxRwCount))
  let (count, _) ← readIter file.ops (file.kiocb pos) (min length maxRwCount)
  pure count

/-- `File::write`. -/
def write (buf : List UInt8) (allocates : Bool) : Program Nat := do
  let file := (← get).file
  file.mayWrite
  rwVerifyArea file.filePpos buf.length
  let iocb := file.kiocb (file.filePpos.getD 0)
  ask (.write iocb.pos (min buf.length maxRwCount))
  let (written, pos) ← writeIter file.ops iocb (buf.take maxRwCount) allocates
  if 0 < written ∧ file.filePpos.isSome then moveTo pos else pure ()
  pure written

/-- `File::pwrite`. -/
def pwrite (buf : List UInt8) (pos : Nat) (allocates : Bool) : Program Nat := do
  let file := (← get).file
  mayAt pos file.mode.pwrite
  file.mayWrite
  rwVerifyArea (some pos) buf.length
  ask (.write pos (min buf.length maxRwCount))
  let (written, _) ← writeIter file.ops (file.kiocb pos) (buf.take maxRwCount) allocates
  pure written

/-- `File::llseek`. -/
def llseek (offset : Int) (whence : Whence) (unreported : Option FsError) : Program Nat := do
  let opened ← get
  require opened.file.mode.lseek (.other "NotSeekable")
  match seek opened offset whence unreported with
  | .ok pos => do
    moveTo pos
    pure pos
  | .error error => refuse error

/-- The kinds `File::fallocate` lets through. -/
def mayAllocate : Program Unit :=
  match file.kind with
  | .fifo => refuse (.other "NotSeekable")
  | .dir => refuse .isADirectory
  | .regFile => pure ()
  | .blkdev => pure ()
  | _ => refuse (.other "NoSuchDevice")

/-- `File::fallocate`. -/
def fallocate (offset length : Nat) (allocates : Bool) : Program Unit := do
  let file := (← get).file
  require (offset ≤ offsetMax ∧ length ≠ 0 ∧ length ≤ offsetMax) .invalidInput
  file.mayWrite
  file.mayAllocate
  let stop ← add offset length
  require (stop ≤ offsetMax) (.other "FileTooLarge")
  ask (.allocate offset length)
  allocate file.ops offset length allocates

/-- `File::truncate`, `denied` being what the security modules, the inode's lock or
`notify_change` refuse it with, if they do. -/
def truncate (length : Nat) (denied : Option FsError) (allocates : Bool) : Program Unit := do
  let file := (← get).file
  require (file.kind = .regFile ∧ file.mode.write ∧ length ≤ offsetMax) .invalidInput
  match denied with
  | some error => refuse error
  | none => do
    ask (.truncate length)
    onContent (Shared.setattr length (reserves allocates length))

end File

/-- A content a Tmpfs can hold. -/
structure Stored where
  /-- The content. -/
  content : Shared
  /-- A `Vec` holds no more. -/
  fits : content.bytes.length ≤ isizeMax

/-- A call of an open file, or what others do to what it stands for between two calls. -/
inductive Call where
  | read (length : Nat)
  | pread (length pos : Nat)
  | write (buf : List UInt8) (allocates : Bool)
  | pwrite (buf : List UInt8) (pos : Nat) (allocates : Bool)
  | llseek (offset : Int) (whence : Whence) (unreported : Option FsError)
  | fallocate (offset length : Nat) (allocates : Bool)
  | truncate (length : Nat) (denied : Option FsError) (allocates : Bool)
  | setfl (append : Bool)
  | elsewhere (stored : Stored) (listed : Nat)

/-- What a call does and the number it answers, 0 where it answers none. -/
def perform : Call → Program Nat
  | .read length => File.read length
  | .pread length pos => File.pread length pos
  | .write buf allocates => File.write buf allocates
  | .pwrite buf pos allocates => File.pwrite buf pos allocates
  | .llseek offset whence unreported => File.llseek offset whence unreported
  | .fallocate offset length allocates => do
    File.fallocate offset length allocates
    pure 0
  | .truncate length denied allocates => do
    File.truncate length denied allocates
    pure 0
  | .setfl append => do
    modify fun opened => { opened with file.append := append }
    pure 0
  | .elsewhere stored listed => do
    modify fun opened => { opened with content := stored.content, listed }
    pure 0

/-- One call of a run: the open file before it, how it ended and the open file after. -/
structure Event where
  /-- The call. -/
  call : Call
  /-- The open file it found, nothing asked yet. -/
  before : Opened
  /-- What it answered or failed with. -/
  answer : Except Fault Nat
  /-- The open file it left, with what it asked. -/
  after : Opened

/-- Every call of a sequence and how it ended. -/
def serve (opened : Opened) : List Call → List Event
  | [] => []
  | call :: rest =>
    let before := { opened with asked := [] }
    match perform call before with
    | .ok answer after => ⟨call, before, .ok answer, after⟩ :: serve after rest
    | .error fault after => ⟨call, before, .error fault, after⟩ :: serve after rest

/-- `File::new` on what a Tmpfs holds. -/
def Opened.new (kind : FileType) (mode : FMode) (append : Bool) (stored : Stored) (listed : Nat) :
    Opened :=
  ⟨⟨ops, kind, mode, append, 0⟩, stored.content, listed, []⟩

/-! ## What stays in range -/

/-- Whether a request lies within what a file can hold, a transfer being no longer than one may
be. -/
def Request.Fits : Request → Prop
  | .read pos count => pos + count ≤ offsetMax ∧ count ≤ maxRwCount
  | .write pos count => pos + count ≤ offsetMax ∧ count ≤ maxRwCount
  | .allocate offset length => offset + length ≤ offsetMax
  | .truncate length => length ≤ offsetMax

/-- What every call keeps: the position, the content and what was asked are in range. -/
structure Opened.Sound (opened : Opened) : Prop where
  /-- The position is. -/
  pos : opened.file.pos ≤ offsetMax
  /-- The content is. -/
  content : opened.content.bytes.length ≤ isizeMax
  /-- What was asked is. -/
  asked : ∀ request ∈ opened.asked, request.Fits

/-- From `opened`, a program answers as `answers` says with everything in range, or is refused with
everything in range and the open file as it was. -/
def Settles {α : Type} (program : Program α) (opened : Opened) (answers : α → Opened → Prop) :
    Prop :=
  Ends program opened (fun answer after => after.Sound ∧ answers answer after)
    fun fault after => fault ≠ .panicked ∧ after.Sound ∧ after.file = opened.file

/-- Where a call's arguments leave the range a file has. -/
def Call.OutOfRange (opened : Opened) : Call → Prop
  | .read length => opened.file.mode.stream = false ∧ offsetMax < opened.file.pos + length
  | .write buf _ => opened.file.mode.stream = false ∧ offsetMax < opened.file.pos + buf.length
  | .pread length pos => offsetMax < pos + length
  | .pwrite buf pos _ => offsetMax < pos + buf.length
  | .llseek offset whence unreported => ∀ base : Nat,
    seekBase opened unreported whence = .ok base → base + offset < 0 ∨ offsetMax < base + offset
  | .fallocate offset length _ => length = 0 ∨ offsetMax < offset + length
  | .truncate length _ _ => offsetMax < length
  | .setfl _ => False
  | .elsewhere _ _ => False

/-- What is promised of each call of a run. -/
structure Event.InRange (event : Event) : Prop where
  /-- The position it leaves is in range, and the content. -/
  position : event.after.file.pos ≤ offsetMax ∧ event.after.content.bytes.length ≤ isizeMax
  /-- No addition left the machine's range. -/
  added : event.answer ≠ .error .panicked
  /-- What it asked of the Filesystem lies within the range. -/
  asked : ∀ request ∈ event.after.asked, request.Fits
  /-- Out of range, it is refused, asks nothing and leaves the open file and what it stands for. -/
  refused : event.call.OutOfRange event.before →
    (∃ error, event.answer = .error (.refused error)) ∧ event.after.asked = [] ∧
      event.after = event.before
  /-- Refused for whatever reason, it leaves the position. -/
  kept : ∀ error, event.answer = .error (.refused error) →
    event.after.file.pos = event.before.file.pos

namespace Settles

variable {α β : Type} {opened : Opened}

theorem answer {a : α} {answers : α → Opened → Prop} (sound : opened.Sound)
    (holds : answers a opened) : Settles (pure a) opened answers := Ends.pure ⟨sound, holds⟩

theorem refuse {error : FsError} {answers : α → Opened → Prop} (sound : opened.Sound) :
    Settles (refuse error) opened answers := by
  apply Ends.throw
  exact ⟨by simp, sound, rfl⟩

variable {answers : β → Opened → Prop}

/-- One program that leaves the open file, then another made of its answer. -/
theorem bind {first : Program α} {next : α → Program β} {middle : α → Opened → Prop}
    (start : Settles first opened fun a after => after.file = opened.file ∧ middle a after)
    (onward : ∀ a after, after.Sound → after.file = opened.file → middle a after →
      Settles (next a) after answers) : Settles (first >>= next) opened answers := by
  apply Ends.bind start
  intro a after ⟨sound, same, held⟩
  have continued := onward a after sound same held
  apply Ends.mono continued
  · intro b last ended
    exact ended
  · intro fault last ⟨not, still, kept⟩
    exact ⟨not, still, kept.trans same⟩

theorem get {next : Opened → Program β} (onward : Settles (next opened) opened answers) :
    Settles (MonadState.get >>= next) opened answers := onward

/-- A check that passes leaves everything. -/
theorem require {holds : Bool} {error : FsError} {next : Unit → Program β} (sound : opened.Sound)
    (onward : holds = true → Settles (next ()) opened answers) :
    Settles (Offsets.require holds error >>= next) opened answers := by
  cases holds with
  | true => exact onward rfl
  | false => exact ⟨by simp, sound, rfl⟩

/-- An addition in range is taken. -/
theorem add {left right : Nat} {next : Nat → Program β} (fits : left + right ≤ usizeMax)
    (onward : Settles (next (left + right)) opened answers) :
    Settles (Offsets.add left right >>= next) opened answers := by
  unfold Offsets.add
  rw [if_pos fits]
  exact onward

/-- What is asked within the range keeps it. -/
theorem ask {request : Request} {next : Unit → Program β} (sound : opened.Sound)
    (fits : request.Fits) (onward : ∀ after, after.Sound → after.file = opened.file →
      after.content = opened.content → Settles (next ()) after answers) :
    Settles (Offsets.ask request >>= next) opened answers := by
  let after : Opened := { opened with asked := opened.asked ++ [request] }
  have still : after.Sound := by
    refine ⟨sound.pos, sound.content, ?_⟩
    intro one member
    cases List.mem_append.mp member with
    | inl before => exact sound.asked one before
    | inr last =>
      have same : one = request := List.mem_singleton.mp last
      exact same ▸ fits
  exact onward after still rfl rfl

/-- A program of the content that leaves it in range when it answers and as it was when it does
not. -/
theorem onContent {program : EStateM FsError Shared α} {answers : α → Shared → Prop}
    (sound : opened.Sound)
    (ends : Ends program opened.content
      (fun a after => after.bytes.length ≤ isizeMax ∧ answers a after)
      fun _ after => after = opened.content) :
    Settles (Offsets.onContent program) opened fun a after =>
      after.file = opened.file ∧ answers a after.content := by
  unfold Ends at ends
  unfold Settles Ends Offsets.onContent
  cases ended : program opened.content with
  | ok a content =>
    rw [ended] at ends
    exact ⟨⟨sound.pos, ends.1, sound.asked⟩, rfl, ends.2⟩
  | error error content =>
    rw [ended] at ends
    have same : content = opened.content := ends
    exact ⟨by simp, ⟨sound.pos, same ▸ sound.content, sound.asked⟩, rfl⟩

end Settles

/-! ## What the Tmpfs keeps in range -/

/-- A growth that is answered was reserved. -/
theorem grow_reserved (growth : Nat) (reserves : Bool) (file : Shared) :
    Ends (Shared.grow growth reserves) file (fun _ _ => growth = 0 ∨ reserves = true)
      fun _ _ => True := by
  unfold Shared.grow
  by_cases grows : 0 < growth
  · rw [if_pos grows]
    have took : Ends (Shared.take growth) file (fun _ _ => True) fun _ _ => True := by
      unfold Ends Shared.take
      cases file.space.take growth <;> trivial
    apply took.bind
    intro _ after _
    cases reserves with
    | true => exact Ends.pure (.inr rfl)
    | false => trivial
  · rw [if_neg grows]
    have none : growth = 0 := by omega
    exact Ends.pure (.inl none)

/-- Room that is answered for was there already or was reserved. -/
theorem extend_reserved (upto : Nat) (reserves : Bool) (file : Shared) :
    Ends (Shared.extend upto reserves) file
      (fun _ _ => upto ≤ file.bytes.length ∨ reserves = true) fun _ _ => True := by
  have got : (get : EStateM FsError Shared Shared) file = .ok file file := rfl
  unfold Shared.extend
  rw [Ends, bind_eq got, ← Ends]
  by_cases longer : file.bytes.length < upto
  · rw [if_pos longer]
    unfold Shared.resize
    rw [Ends, bind_eq got, ← Ends]
    apply (grow_reserved (upto - file.bytes.length) reserves file).bind
    intro _ after reserved
    cases reserved with
    | inl nothing => exact absurd nothing (by omega)
    | inr reserved => exact .inr reserved
  · rw [if_neg longer]
    exact Ends.pure (.inl (Nat.le_of_not_lt longer))

/-- A write that is answered ends within the file as it was, or where room was reserved. -/
theorem write_reserved (buf : List UInt8) (start : Nat) (reserves : Bool) (file : Shared) :
    Ends (Shared.write buf start reserves) file
      (fun _ _ => buf = [] ∨ start + buf.length ≤ file.bytes.length ∨ reserves = true)
      fun _ _ => True := by
  unfold Shared.write
  by_cases nothing : buf = []
  · rw [if_pos (by simp [nothing])]
    exact Ends.pure (.inl nothing)
  · rw [if_neg (by simpa using nothing)]
    by_cases far : usizeMax < start + buf.length
    · rw [if_pos far]
      exact Ends.throw trivial
    · rw [if_neg far]
      apply (extend_reserved (start + buf.length) reserves file).bind
      intro _ after reserved
      exact .inr reserved

/-- How long a written array is. -/
theorem arrayWrite_length (array : List UInt8) (start : Nat) {data : List UInt8}
    (some : data ≠ []) :
    (arrayWrite array start data).length = max array.length (start + data.length) := by
  rw [arrayWrite, if_neg some, zeroFilled]
  simp only [List.length_append, List.length_take, List.length_replicate, List.length_drop]
  omega

/-- A write within the range, or one that appends, leaves the content and the position past it in
range. -/
theorem writeIter_fits (iocb : Kiocb) (buf : List UInt8) (allocates : Bool) (file : Shared)
    (fits : file.bytes.length ≤ isizeMax) (within : iocb.pos + buf.length ≤ offsetMax) :
    Ends (Shared.writeIter iocb buf
        (reserves allocates (landsAt file.bytes iocb + buf.length))) file
      (fun answer after => after.bytes.length ≤ isizeMax ∧
        answer.1 = buf.length ∧ landsAt file.bytes iocb + answer.1 ≤ offsetMax)
      fun _ after => after = file := by
  have got : (get : EStateM FsError Shared Shared) file = .ok file file := rfl
  have reserved : Ends (Shared.writeIter iocb buf
        (reserves allocates (landsAt file.bytes iocb + buf.length))) file
      (fun _ _ => buf = [] ∨ landsAt file.bytes iocb + buf.length ≤ offsetMax)
      fun _ _ => True := by
    unfold Shared.writeIter
    rw [Ends, bind_eq got, ← Ends]
    apply (write_reserved buf (landsAt file.bytes iocb) _ file).bind
    intro count after room
    apply Ends.pure
    simp only [reserves, Bool.and_eq_true, decide_eq_true_eq] at room
    unfold isizeMax at fits room
    unfold offsetMax
    obtain nothing | ended | ⟨-, ended⟩ := room
    · exact .inl nothing
    · exact .inr (by omega)
    · exact .inr ended
  apply ((Shared.writeIter_ends iocb buf _ file).and reserved).mono
  · rintro answer after ⟨⟨all, _, same⟩, room⟩
    rw [same, all]
    have start : landsAt file.bytes iocb = file.bytes.length ∨
        landsAt file.bytes iocb = iocb.pos := by
      unfold landsAt
      cases iocb.append <;> simp
    unfold isizeMax offsetMax at *
    by_cases nothing : buf = []
    · subst nothing
      rw [arrayWrite, if_pos rfl]
      refine ⟨fits, rfl, ?_⟩
      simp only [List.length_nil] at within ⊢
      omega
    · have ended := room.resolve_left nothing
      rw [arrayWrite_length _ _ nothing]
      exact ⟨by omega, rfl, ended⟩
  · intro error after both
    exact both.1

variable {opened : Opened} {offset : Int} {call : Call}

/-- A read within the range leaves the position past what it read in range. -/
theorem readIter_settles (iocb : Kiocb) (length : Nat) (sound : opened.Sound)
    (within : iocb.pos + length ≤ offsetMax) :
    Settles (readIter ops iocb length) opened fun answer after =>
      after.file = opened.file ∧ answer.2 ≤ offsetMax := by
  unfold readIter
  cases ops with
  | dir => exact .refuse sound
  | empty => exact .refuse sound
  | file =>
    apply Settles.get
    have ends : Ends (Shared.readIter iocb length) opened.content
        (fun answer after => after.bytes.length ≤ isizeMax ∧ answer.1.length ≤ length ∧
          answer.1.length ≤ opened.content.bytes.length - min iocb.pos opened.content.bytes.length)
        fun _ after => after = opened.content := by
      apply Ends.of_eq (Shared.readIter_eq iocb length opened.content)
      refine ⟨sound.content, List.length_take_le _ _, ?_⟩
      rw [List.length_take, List.length_drop]
      omega
    apply (Settles.onContent sound ends).bind
    intro answer after still same ⟨short, inside⟩
    have fits := sound.content
    unfold offsetMax at within ⊢
    unfold isizeMax at fits
    apply Settles.add (by unfold usizeMax; omega)
    apply Settles.add (by unfold usizeMax; omega)
    apply Settles.answer still
    exact ⟨same, by show iocb.pos + answer.1.length ≤ _; omega⟩

/-- A write within the range, or one that appends, leaves the position past what it wrote in
range. -/
theorem writeIter_settles (iocb : Kiocb) (buf : List UInt8) (allocates : Bool)
    (sound : opened.Sound) (within : iocb.pos + buf.length ≤ offsetMax) :
    Settles (writeIter ops iocb buf allocates) opened fun answer after =>
      after.file = opened.file ∧ answer.2 ≤ offsetMax := by
  unfold writeIter
  cases ops with
  | dir => exact .refuse sound
  | empty => exact .refuse sound
  | file =>
    apply Settles.get
    apply (Settles.onContent sound
      (writeIter_fits iocb buf allocates opened.content sound.content within)).bind
    intro answer after still same ⟨all, ended⟩
    unfold offsetMax at ended ⊢
    apply Settles.add (by unfold usizeMax; omega)
    apply Settles.answer still
    exact ⟨same, ended⟩

/-! ## What each call keeps in range -/

/-- Moving to a position in range keeps everything in range. -/
theorem moveTo_settles {pos count : Nat} (sound : opened.Sound) (fits : pos ≤ offsetMax) :
    Settles (do moveTo pos; pure count) opened fun _ _ => True :=
  ⟨⟨fits, sound.content, sound.asked⟩, trivial⟩

/-- An area that is let through ends within the range. -/
theorem rwVerifyArea_settles {β : Type} {ppos : Option Nat} {count : Nat} {next : Unit → Program β}
    {answers : β → Opened → Prop} (sound : opened.Sound)
    (onward : (∀ pos, ppos = some pos → pos + count ≤ offsetMax) → Settles (next ()) opened answers) :
    Settles (File.rwVerifyArea ppos count >>= next) opened answers := by
  cases ppos with
  | none => exact onward (by simp)
  | some pos =>
    show Settles ((match checkedAdd pos count with
      | some stop => require (stop ≤ offsetMax) .invalidInput
      | none => refuse .invalidInput) >>= next) opened answers
    unfold checkedAdd
    by_cases fits : pos + count ≤ usizeMax
    · rw [if_pos fits]
      apply Settles.require sound
      intro inside
      apply onward
      intro same found
      cases found
      simpa using inside
    · rw [if_neg fits]
      exact ⟨by simp, sound, rfl⟩

/-- A position that is let through leaves everything. -/
theorem mayAt_settles {β : Type} {pos : Nat} {mode : Bool} {next : Unit → Program β}
    {answers : β → Opened → Prop} (sound : opened.Sound)
    (onward : Settles (next ()) opened answers) :
    Settles (File.mayAt pos mode >>= next) opened answers := by
  unfold File.mayAt
  rw [bind_assoc]
  apply Settles.require sound
  intro _
  apply Settles.require sound
  intro _
  exact onward

/-- A position let through by `file_ppos` starts a transfer within the range. -/
theorem filePpos_within {file : File} {count : Nat}
    (within : ∀ pos, file.filePpos = some pos → pos + count ≤ offsetMax) :
    file.filePpos.getD 0 + min count maxRwCount ≤ offsetMax := by
  cases found : file.filePpos with
  | none =>
    rw [Option.getD_none]
    unfold maxRwCount offsetMax
    omega
  | some pos =>
    have fits := within pos found
    rw [Option.getD_some]
    omega

theorem read_settles (length : Nat) (sound : opened.Sound) :
    Settles (File.read length) opened fun _ _ => True := by
  unfold File.read
  apply Settles.get
  apply Settles.require sound
  intro _
  apply rwVerifyArea_settles sound
  intro within
  have fits := filePpos_within within
  have asks : (Request.read (opened.file.filePpos.getD 0) (min length maxRwCount)).Fits :=
    ⟨fits, Nat.min_le_right _ _⟩
  apply Settles.ask sound asks
  intro asked still same _
  apply (readIter_settles _ _ _ still fits).bind
  intro (count, pos) after settled _ moved
  show Settles (if opened.file.filePpos.isSome then do moveTo pos; pure count else pure count)
    after fun _ _ => True
  by_cases positioned : opened.file.filePpos.isSome
  · rw [if_pos positioned]
    exact moveTo_settles settled moved
  · rw [if_neg positioned]
    exact Settles.answer settled trivial

theorem pread_settles (length pos : Nat) (sound : opened.Sound) :
    Settles (File.pread length pos) opened fun _ _ => True := by
  unfold File.pread
  apply Settles.get
  apply mayAt_settles sound
  apply Settles.require sound
  intro _
  apply rwVerifyArea_settles sound
  intro within
  have all : pos + length ≤ offsetMax := within pos rfl
  have fits : pos + min length maxRwCount ≤ offsetMax := by omega
  have asks : (Request.read pos (min length maxRwCount)).Fits := ⟨fits, Nat.min_le_right _ _⟩
  apply Settles.ask sound asks
  intro asked still same _
  apply (readIter_settles _ _ _ still fits).bind
  intro answer after settled _ _
  exact Settles.answer settled trivial

theorem write_settles (buf : List UInt8) (allocates : Bool) (sound : opened.Sound) :
    Settles (File.write buf allocates) opened fun _ _ => True := by
  unfold File.write
  apply Settles.get
  apply Settles.require sound
  intro _
  apply rwVerifyArea_settles sound
  intro within
  have fits := filePpos_within within
  have asks : (Request.write (opened.file.filePpos.getD 0) (min buf.length maxRwCount)).Fits :=
    ⟨fits, Nat.min_le_right _ _⟩
  apply Settles.ask sound asks
  intro asked still same _
  have cut : opened.file.filePpos.getD 0 + (buf.take maxRwCount).length ≤ offsetMax := by
    rw [List.length_take, Nat.min_comm]
    exact fits
  apply (writeIter_settles _ (opened.file.kiocb _) _ allocates still cut).bind
  intro (written, pos) after settled _ moved
  show Settles (if 0 < written ∧ opened.file.filePpos.isSome then do moveTo pos; pure written
    else pure written) after fun _ _ => True
  by_cases positioned : 0 < written ∧ opened.file.filePpos.isSome
  · rw [if_pos positioned]
    exact moveTo_settles settled moved
  · rw [if_neg positioned]
    exact Settles.answer settled trivial

theorem pwrite_settles (buf : List UInt8) (pos : Nat) (allocates : Bool) (sound : opened.Sound) :
    Settles (File.pwrite buf pos allocates) opened fun _ _ => True := by
  unfold File.pwrite
  apply Settles.get
  apply mayAt_settles sound
  apply Settles.require sound
  intro _
  apply rwVerifyArea_settles sound
  intro within
  have all : pos + buf.length ≤ offsetMax := within pos rfl
  have fits : pos + min buf.length maxRwCount ≤ offsetMax := by omega
  have asks : (Request.write pos (min buf.length maxRwCount)).Fits := ⟨fits, Nat.min_le_right _ _⟩
  apply Settles.ask sound asks
  intro asked still same _
  have cut : pos + (buf.take maxRwCount).length ≤ offsetMax := by
    rw [List.length_take, Nat.min_comm]
    exact fits
  apply (writeIter_settles _ (opened.file.kiocb pos) _ allocates still cut).bind
  intro answer after settled _ _
  exact Settles.answer settled trivial

/-- A position a seek keeps is in range. -/
theorem filter_fits {base pos : Nat}
    (found : (checkedAddSigned base offset).filter (· ≤ offsetMax) = some pos) :
    pos ≤ offsetMax := by
  have passed := (Option.filter_eq_some_iff.mp found).2
  simpa using passed

/-- A seek that is answered is answered in range. -/
theorem seek_fits {whence : Whence} {unreported : Option FsError} {pos : Nat}
    (sought : seek opened offset whence unreported = .ok pos) : pos ≤ offsetMax := by
  have generic : genericFileLlseek opened offset whence unreported = .ok pos := by
    unfold seek at sought
    cases ops : opened.file.ops <;> rw [ops] at sought
    · exact sought
    · exact sought
    · cases sought
  unfold genericFileLlseek at generic
  cases based : seekBase opened unreported whence with
  | error error =>
    rw [based] at generic
    cases generic
  | ok base =>
    rw [based] at generic
    simp only [bind, Except.bind] at generic
    split at generic
    · rename_i at_ found
      cases generic
      exact filter_fits found
    · cases generic

theorem llseek_settles (offset : Int) (whence : Whence) (unreported : Option FsError)
    (sound : opened.Sound) :
    Settles (File.llseek offset whence unreported) opened fun _ _ => True := by
  unfold File.llseek
  apply Settles.get
  apply Settles.require sound
  intro _
  cases sought : seek opened offset whence unreported with
  | ok pos => exact moveTo_settles sound (seek_fits sought)
  | error error => exact .refuse sound

/-- A kind that is let through leaves everything. -/
theorem mayAllocate_settles {β : Type} {file : File} {next : Unit → Program β}
    {answers : β → Opened → Prop} (sound : opened.Sound)
    (onward : Settles (next ()) opened answers) :
    Settles (file.mayAllocate >>= next) opened answers := by
  have refused : ∀ error, Settles (refuse error >>= next) opened answers := by
    intro error
    exact ⟨by simp, sound, rfl⟩
  unfold File.mayAllocate
  cases file.kind with
  | regFile => exact onward
  | blkdev => exact onward
  | fifo => exact refused _
  | dir => exact refused _
  | symlink => exact refused _
  | sock => exact refused _
  | chrdev => exact refused _
  | unknown => exact refused _

/-- An allocation within the range leaves the content in range. -/
theorem allocate_settles (offset length : Nat) (allocates : Bool) (sound : opened.Sound)
    (within : offset + length ≤ offsetMax) :
    Settles (allocate ops offset length allocates) opened fun _ after =>
      after.file = opened.file ∧ True := by
  unfold allocate
  cases ops with
  | dir => exact .refuse sound
  | empty => exact .refuse sound
  | file =>
    have fits := sound.content
    unfold offsetMax at within
    unfold isizeMax at fits
    apply Settles.add (by unfold usizeMax; omega)
    have ends : Ends (Shared.fallocate offset length (reserves allocates (offset + length)))
        opened.content (fun _ after => after.bytes.length ≤ isizeMax ∧ True)
        fun _ after => after = opened.content := by
      apply (Shared.fallocate_ends offset length _ opened.content).mono
      · intro _ after same
        refine ⟨?_, trivial⟩
        rw [same, zeroFilled, List.length_append, List.length_replicate]
        unfold isizeMax
        omega
      · intro _ after same
        exact same
    exact Settles.onContent sound ends

theorem fallocate_settles (offset length : Nat) (allocates : Bool) (sound : opened.Sound) :
    Settles (File.fallocate offset length allocates) opened fun _ after =>
      after.file = opened.file ∧ True := by
  unfold File.fallocate
  apply Settles.get
  apply Settles.require sound
  intro checked
  have bounds : offset ≤ offsetMax ∧ length ≠ 0 ∧ length ≤ offsetMax := by simpa using checked
  apply Settles.require sound
  intro _
  apply mayAllocate_settles sound
  have added : offset + length ≤ usizeMax := by
    unfold offsetMax at bounds
    unfold usizeMax
    omega
  apply Settles.add added
  apply Settles.require sound
  intro ended
  have within : offset + length ≤ offsetMax := by simpa using ended
  have asks : (Request.allocate offset length).Fits := within
  apply Settles.ask sound asks
  intro asked still same _
  apply (allocate_settles opened.file.ops offset length allocates still within).mono
  · intro _ after ⟨settled, kept, _⟩
    exact ⟨settled, kept.trans same, trivial⟩
  · intro fault after failed
    exact failed

theorem truncate_settles (length : Nat) (denied : Option FsError) (allocates : Bool)
    (sound : opened.Sound) :
    Settles (File.truncate length denied allocates) opened fun _ after =>
      after.file = opened.file ∧ True := by
  unfold File.truncate
  apply Settles.get
  apply Settles.require sound
  intro checked
  have within : length ≤ offsetMax := by
    have all : opened.file.kind = .regFile ∧ opened.file.mode.write ∧ length ≤ offsetMax := by
      simpa using checked
    exact all.2.2
  cases denied with
  | some error => exact .refuse sound
  | none =>
    have asks : (Request.truncate length).Fits := within
    apply Settles.ask sound asks
    intro asked still same _
    have ends : Ends (Shared.setattr length (reserves allocates length)) asked.content
        (fun _ after => after.bytes.length ≤ isizeMax ∧ True)
        fun _ after => after = asked.content := by
      apply (Shared.resize_ends length _ asked.content).mono
      · intro _ after cut
        refine ⟨?_, trivial⟩
        rw [cut, arrayTruncate]
        exact (List.length_take_le _ _).trans within
      · intro _ after kept
        exact kept
    apply (Settles.onContent still ends).mono
    · intro _ after ⟨settled, kept, _⟩
      exact ⟨settled, kept.trans same, trivial⟩
    · intro fault after failed
      exact failed

/-- Every call keeps everything in range. -/
theorem perform_settles (call : Call) (sound : opened.Sound) :
    Settles (perform call) opened fun _ _ => True := by
  cases call with
  | read length => exact read_settles length sound
  | pread length pos => exact pread_settles length pos sound
  | write buf allocates => exact write_settles buf allocates sound
  | pwrite buf pos allocates => exact pwrite_settles buf pos allocates sound
  | llseek offset whence unreported => exact llseek_settles offset whence unreported sound
  | fallocate offset length allocates =>
    apply (fallocate_settles offset length allocates sound).bind
    intro _ after settled _ _
    exact Settles.answer settled trivial
  | truncate length denied allocates =>
    apply (truncate_settles length denied allocates sound).bind
    intro _ after settled _ _
    exact Settles.answer settled trivial
  | setfl append => exact ⟨⟨sound.pos, sound.content, sound.asked⟩, trivial⟩
  | elsewhere stored listed => exact ⟨⟨sound.pos, stored.fits, sound.asked⟩, trivial⟩

/-! ## What is refused for its range -/

/-- A program that is refused before it asks or changes anything. -/
def Refuses {α : Type} (program : Program α) (opened : Opened) : Prop :=
  ∃ error, program opened = .error (.refused error) opened

namespace Refuses

variable {α β : Type} {opened : Opened}

theorem bind {first : Program α} {next : α → Program β} (refused : Refuses first opened) :
    Refuses (first >>= next) opened := by
  obtain ⟨error, ended⟩ := refused
  refine ⟨error, ?_⟩
  show EStateM.bind first next opened = _
  unfold EStateM.bind
  rw [ended]

variable {next : Unit → Program β}

/-- A check that fails refuses, and what follows one that passes does otherwise. -/
theorem require {holds : Bool} {error : FsError}
    (onward : holds = true → Refuses (next ()) opened) :
    Refuses (Offsets.require holds error >>= next) opened := by
  cases holds with
  | true => exact onward rfl
  | false => exact bind ⟨error, rfl⟩

/-- A position that is let through leaves what follows to refuse. -/
theorem mayAt {pos : Nat} {mode : Bool} (onward : Refuses (next ()) opened) :
    Refuses (File.mayAt pos mode >>= next) opened := by
  unfold File.mayAt
  rw [bind_assoc]
  apply require
  intro _
  apply require
  intro _
  exact onward

/-- A kind that is let through leaves what follows to refuse. -/
theorem mayAllocate {file : File} (onward : Refuses (next ()) opened) :
    Refuses (file.mayAllocate >>= next) opened := by
  unfold File.mayAllocate
  cases file.kind with
  | regFile => exact onward
  | blkdev => exact onward
  | fifo => exact bind ⟨_, rfl⟩
  | dir => exact bind ⟨_, rfl⟩
  | symlink => exact bind ⟨_, rfl⟩
  | sock => exact bind ⟨_, rfl⟩
  | chrdev => exact bind ⟨_, rfl⟩
  | unknown => exact bind ⟨_, rfl⟩

/-- An area that ends past the range is refused. -/
theorem rwVerifyArea {pos count : Nat} (past : offsetMax < pos + count) :
    Refuses (File.rwVerifyArea (some pos) count >>= next) opened := by
  apply bind
  show Refuses (match checkedAdd pos count with
    | some stop => Offsets.require (stop ≤ offsetMax) .invalidInput
    | none => refuse .invalidInput) opened
  unfold checkedAdd
  by_cases fits : pos + count ≤ usizeMax
  · rw [if_pos fits]
    have failed : decide (pos + count ≤ offsetMax) = false := by simpa using past
    show Refuses (Offsets.require (decide (pos + count ≤ offsetMax)) .invalidInput) opened
    rw [failed]
    exact ⟨_, rfl⟩
  · rw [if_neg fits]
    exact ⟨_, rfl⟩

end Refuses

/-- A position out of range is not kept. -/
theorem filter_none {base : Nat} (outside : base + offset < 0 ∨ offsetMax < base + offset) :
    (checkedAddSigned base offset).filter (· ≤ offsetMax) = none := by
  unfold checkedAddSigned
  by_cases fits : 0 ≤ base + offset ∧ base + offset ≤ usizeMax
  · rw [if_pos fits]
    have beyond : ¬(base + offset).toNat ≤ offsetMax := by omega
    simp [Option.filter, beyond]
  · rw [if_neg fits]
    rfl

/-- A seek out of range is refused. -/
theorem seek_refuses {whence : Whence} {unreported : Option FsError}
    (past : Call.OutOfRange opened (.llseek offset whence unreported)) :
    ∃ error, seek opened offset whence unreported = .error error := by
  have generic : ∃ error, genericFileLlseek opened offset whence unreported = .error error := by
    unfold genericFileLlseek
    cases based : seekBase opened unreported whence with
    | error error => exact ⟨error, rfl⟩
    | ok base =>
      refine ⟨.invalidInput, ?_⟩
      simp only [bind, Except.bind]
      rw [filter_none (past base based)]
  unfold seek
  cases opened.file.ops with
  | file => exact generic
  | dir => exact generic
  | empty => exact ⟨_, rfl⟩

/-- A call out of range is refused before it asks or changes anything. -/
theorem perform_refuses (past : call.OutOfRange opened) :
    Refuses (perform call) opened := by
  cases call with
  | read length =>
    have placed : opened.file.filePpos = some opened.file.pos := by
      simp [File.filePpos, past.1]
    show Refuses (opened.file.mayRead >>= fun _ => _) opened
    apply Refuses.require
    intro _
    rw [placed]
    exact Refuses.rwVerifyArea past.2
  | write buf allocates =>
    have placed : opened.file.filePpos = some opened.file.pos := by
      simp [File.filePpos, past.1]
    show Refuses (opened.file.mayWrite >>= fun _ => _) opened
    apply Refuses.require
    intro _
    rw [placed]
    exact Refuses.rwVerifyArea past.2
  | pread length pos =>
    show Refuses (File.mayAt pos opened.file.mode.pread >>= fun _ => _) opened
    apply Refuses.mayAt
    apply Refuses.require
    intro _
    exact Refuses.rwVerifyArea past
  | pwrite buf pos allocates =>
    show Refuses (File.mayAt pos opened.file.mode.pwrite >>= fun _ => _) opened
    apply Refuses.mayAt
    apply Refuses.require
    intro _
    exact Refuses.rwVerifyArea past
  | llseek offset whence unreported =>
    show Refuses (require opened.file.mode.lseek _ >>= fun _ => _) opened
    apply Refuses.require
    intro _
    obtain ⟨error, refused⟩ := seek_refuses past
    rw [refused]
    exact ⟨error, rfl⟩
  | fallocate offset length allocates =>
    apply Refuses.bind
    show Refuses (require (offset ≤ offsetMax ∧ length ≠ 0 ∧ length ≤ offsetMax) _ >>= fun _ => _)
      opened
    apply Refuses.require
    intro checked
    have bounds : offset ≤ offsetMax ∧ length ≠ 0 ∧ length ≤ offsetMax := by simpa using checked
    have beyond : offsetMax < offset + length := past.resolve_left bounds.2.1
    have added : offset + length ≤ usizeMax := by
      unfold offsetMax at bounds
      unfold usizeMax
      omega
    have failed : decide (offset + length ≤ offsetMax) = false := by simpa using beyond
    apply Refuses.require
    intro _
    apply Refuses.mayAllocate
    show Refuses (add offset length >>= fun _ => _) opened
    unfold add
    rw [if_pos added]
    show Refuses (require (decide (offset + length ≤ offsetMax)) _ >>= fun _ => _) opened
    rw [failed]
    exact Refuses.bind ⟨_, rfl⟩
  | truncate length denied allocates =>
    apply Refuses.bind
    show Refuses (require (opened.file.kind = .regFile ∧ opened.file.mode.write ∧
      length ≤ offsetMax) _ >>= fun _ => _) opened
    apply Refuses.require
    intro checked
    have all : opened.file.kind = .regFile ∧ opened.file.mode.write ∧ length ≤ offsetMax := by
      simpa using checked
    have beyond : offsetMax < length := past
    omega
  | setfl append => exact past.elim
  | elsewhere stored listed => exact past.elim

/-! ## Runs -/

/-- A call that answers is in range. -/
theorem inRange_of_ok {before after : Opened} {answer : Nat}
    (performed : perform call before = .ok answer after) (sound : after.Sound) :
    (⟨call, before, .ok answer, after⟩ : Event).InRange := by
  refine ⟨⟨sound.pos, sound.content⟩, by simp, sound.asked, ?_, by simp⟩
  intro past
  obtain ⟨error, refused⟩ := perform_refuses past
  rw [performed] at refused
  cases refused

/-- A call that is refused is in range. -/
theorem inRange_of_error {before after : Opened} {fault : Fault}
    (performed : perform call before = .error fault after) (unasked : before.asked = [])
    (added : fault ≠ .panicked) (sound : after.Sound) (same : after.file = before.file) :
    (⟨call, before, .error fault, after⟩ : Event).InRange := by
  refine ⟨⟨sound.pos, sound.content⟩, by simpa using added, sound.asked, ?_, ?_⟩
  · intro past
    obtain ⟨error, refused⟩ : Refuses (perform call) before := perform_refuses past
    rw [performed] at refused
    cases refused
    exact ⟨⟨error, rfl⟩, unasked, rfl⟩
  · intro error _
    exact congrArg File.pos same

/-- From an open file in range, every call of a sequence is in range. -/
theorem serve_inRange (calls : List Call) (opened : Opened) (sound : opened.Sound) :
    ∀ event ∈ serve opened calls, event.InRange := by
  induction calls generalizing opened with
  | nil => simp [serve]
  | cons call rest ih =>
    have fresh : Opened.Sound { opened with asked := [] } :=
      ⟨sound.pos, sound.content, by simp⟩
    have settled := perform_settles call fresh
    unfold Settles Ends at settled
    intro event member
    unfold serve at member
    cases performed : perform call { opened with asked := [] } with
    | ok answer after =>
      rw [performed] at settled
      simp only [performed, List.mem_cons] at member
      cases member with
      | inl same => exact same ▸ inRange_of_ok performed settled.1
      | inr later => exact ih after settled.1 event later
    | error fault after =>
      rw [performed] at settled
      obtain ⟨added, still, same⟩ := settled
      simp only [performed, List.mem_cons] at member
      cases member with
      | inl first => exact first ▸ inRange_of_error performed rfl added still same
      | inr later => exact ih after still event later

/-- Whatever a file of a Tmpfs was opened for and whatever calls are made of it, each leaves the
position in range, adds nothing past the machine's range and asks the Filesystem for nothing past
the range or longer than a transfer may be; a call out of range is refused before it asks anything
and leaves the position. -/
theorem positions_in_range (ops : FileOps) (kind : FileType) (mode : FMode) (append : Bool)
    (stored : Stored) (listed : Nat) (calls : List Call) :
    ∀ event ∈ serve (.new ops kind mode append stored listed) calls, event.InRange := by
  apply serve_inRange
  exact ⟨Nat.zero_le _, stored.fits, by simp [Opened.new]⟩

/-- An empty file of a Tmpfs that holds up to 64 bytes. -/
def emptyFile : Stored := ⟨⟨[], .new (some 64)⟩, by simp⟩

/-- A file opened to read and write. -/
def readWrite : FMode := ⟨true, true, true, true, true, false⟩

/-- A seek to the last position but one, a write of two bytes there, which is refused unasked, and
a write of one, which is asked and does not fit. -/
def lastPosition : List Call :=
  [.llseek (2 ^ 63 - 2) .set none, .write [120, 121] true, .write [120] true]

theorem positions_in_range_last :
    (serve (.new .file .regFile readWrite false emptyFile 0) lastPosition).map
        (fun event => (event.answer.toOption, event.after.file.pos, event.after.asked)) =
      [(some (2 ^ 63 - 2), 2 ^ 63 - 2, []), (none, 2 ^ 63 - 2, []),
        (none, 2 ^ 63 - 2, [.write (2 ^ 63 - 2) 1])] ∧
    ∀ event ∈ serve (.new .file .regFile readWrite false emptyFile 0) lastPosition,
      event.InRange :=
  ⟨by decide, positions_in_range _ _ _ _ _ _ _⟩

end Kobako.Tmpfs.Offsets
