import Kobako.Outcome
import Kobako.Tmpfs.Operations

/-!
# What a file holds

A file of a Tmpfs as its handles share it: its bytes, and the space they are taken from, which
other files of the Tmpfs take from too. A handle keeps nothing of its own; the position a call reads
or writes at comes with the call and comes back moved. What the file holds is held against an array
that a write past its end first fills with zeros.
-/

namespace Kobako.Tmpfs

open Vfs

/-! ## Calls -/

/-- `Content`, its bytes and the part of `Space` they are counted in. -/
structure Shared where
  /-- The file's bytes. -/
  bytes : List UInt8
  /-- `Space::bytes`. -/
  space : Budget
deriving Repr, DecidableEq

/-- `Kiocb`, the position of a call and whether it appends. -/
structure Kiocb where
  /-- Where it lands. -/
  pos : Nat
  /-- Whether it lands at the end. -/
  append : Bool
deriving Repr, DecidableEq

namespace Shared

/-- `Budget::take` of the space. -/
def take (amount : Nat) : EStateM FsError Shared Unit := fun file =>
  match file.space.take amount with
  | .ok space => .ok () { file with space }
  | .error error => .error error file

/-- `Budget::give` of the space. -/
def give (amount : Nat) : EStateM FsError Shared Unit :=
  modify fun file => { file with space := file.space.give amount }

/-- The growth of `Content::resize`, `reserves` being whether the room can be allocated. -/
def grow (growth : Nat) (reserves : Bool) : EStateM FsError Shared Unit :=
  if 0 < growth then do
    take growth
    if reserves then pure ()
    else do
      give growth
      throw .storageFull
  else pure ()

/-- `Content::resize`. -/
def resize (length : Nat) (reserves : Bool) : EStateM FsError Shared Unit := do
  grow (length - (← get).bytes.length) reserves
  give ((← get).bytes.length - length)
  modify fun file => { file with bytes := Heap.resized file.bytes length }

/-- Room for a file up to `upto`, where it ends before. -/
def extend (upto : Nat) (reserves : Bool) : EStateM FsError Shared Unit := do
  if (← get).bytes.length < upto then resize upto reserves else pure ()

/-- `tmpfs::write`. -/
def write (buf : List UInt8) (start : Nat) (reserves : Bool) : EStateM FsError Shared Nat :=
  if buf.isEmpty then pure 0
  else if usizeMax < start + buf.length then throw .invalidInput
  else do
    extend (start + buf.length) reserves
    modify fun file => { file with bytes := Heap.overwritten file.bytes start buf }
    pure buf.length

/-- `TmpfsFile::read_iter`: what is read into a buffer so long, and the position after. -/
def readIter (iocb : Kiocb) (length : Nat) : EStateM FsError Shared (List UInt8 × Nat) := do
  let data := (← get).bytes
  let start := min iocb.pos data.length
  let read := min length (data.length - start)
  pure ((data.drop start).take read, iocb.pos + read)

/-- `TmpfsFile::write_iter`: how much was written, and the position after. -/
def writeIter (iocb : Kiocb) (buf : List UInt8) (reserves : Bool) :
    EStateM FsError Shared (Nat × Nat) := do
  let length := (← get).bytes.length
  let start := if iocb.append then length else iocb.pos
  let written ← write buf start reserves
  pure (written, start + written)

/-- `TmpfsRegular::setattr` of a length. -/
def setattr (length : Nat) (reserves : Bool) : EStateM FsError Shared Unit := resize length reserves

/-- `TmpfsFile::fallocate`. -/
def fallocate (offset length : Nat) (reserves : Bool) : EStateM FsError Shared Unit :=
  if usizeMax < offset + length then throw .storageFull
  else extend (offset + length) reserves

end Shared

/-- A call through some handle of the file, or something other files of the Tmpfs do to the space
they share. -/
inductive FileCall where
  | read (iocb : Kiocb) (length : Nat)
  | write (iocb : Kiocb) (buf : List UInt8) (reserves : Bool)
  | truncate (length : Nat) (reserves : Bool)
  | fallocate (offset length : Nat) (reserves : Bool)
  | elsewhere (space : Budget)

/-- What a call answers. -/
inductive FileAnswer where
  | read (data : List UInt8) (pos : Nat)
  | wrote (count : Nat) (pos : Nat)
  | done
  | refused (error : FsError)

/-- What a call does. -/
def Shared.perform : FileCall → EStateM FsError Shared FileAnswer
  | .read iocb length => do
    let (data, pos) ← readIter iocb length
    pure (.read data pos)
  | .write iocb buf reserves => do
    let (count, pos) ← writeIter iocb buf reserves
    pure (.wrote count pos)
  | .truncate length reserves => do
    setattr length reserves
    pure .done
  | .fallocate offset length reserves => do
    fallocate offset length reserves
    pure .done
  | .elsewhere space => do
    modify fun file => { file with space }
    pure .done

/-- A call made, what it answered, and the space around it. -/
structure FileEvent where
  /-- The call. -/
  call : FileCall
  /-- Its answer. -/
  answer : FileAnswer
  /-- The space before it. -/
  before : Budget
  /-- The space after it. -/
  after : Budget

/-- Every call of a sequence and what it answered. -/
def Shared.serve (file : Shared) : List FileCall → List FileEvent
  | [] => []
  | call :: rest =>
    match perform call file with
    | .ok answer after => ⟨call, answer, file.space, after.space⟩ :: serve after rest
    | .error error after => ⟨call, .refused error, file.space, after.space⟩ :: serve after rest

/-! ## The reference array -/

/-- An array made at least so long with zeros. -/
def zeroFilled (array : List UInt8) (length : Nat) : List UInt8 :=
  array ++ List.replicate (length - array.length) 0

/-- Bytes written to an array, the gap before them filled with zeros. -/
def arrayWrite (array : List UInt8) (start : Nat) (data : List UInt8) : List UInt8 :=
  if data = [] then array
  else (zeroFilled array start).take start ++ data ++ array.drop (start + data.length)

/-- An array cut to a length, or extended to it with zeros. -/
def arrayTruncate (array : List UInt8) (length : Nat) : List UInt8 :=
  (zeroFilled array length).take length

/-- Where a write to an array lands. -/
def landsAt (array : List UInt8) (iocb : Kiocb) : Nat :=
  if iocb.append then array.length else iocb.pos

/-- What a call that is answered so leaves of the array. -/
def arrayAfter (array : List UInt8) : FileCall → FileAnswer → List UInt8
  | .write iocb buf _, .wrote _ _ => arrayWrite array (landsAt array iocb) buf
  | .truncate length _, .done => arrayTruncate array length
  | .fallocate offset length _, .done => zeroFilled array (offset + length)
  | _, _ => array

/-- Whether the array would answer a call so, a refusal leaving the space as it was. -/
def Answers (array : List UInt8) (event : FileEvent) : Prop :=
  match event.call, event.answer with
  | .read iocb length, .read data pos =>
    data = (array.drop iocb.pos).take length ∧ pos = iocb.pos + data.length
  | .write iocb buf _, .wrote count pos =>
    count = buf.length ∧ pos = landsAt array iocb + count
  | .truncate _ _, .done => True
  | .fallocate _ _ _, .done => True
  | .elsewhere _, .done => True
  | .write _ _ _, .refused _ => event.after = event.before
  | .truncate _ _, .refused _ => event.after = event.before
  | .fallocate _ _ _, .refused _ => event.after = event.before
  | _, _ => False

/-- Whether the array answers every call of a sequence as it was answered. -/
def AnswersAll (array : List UInt8) : List FileEvent → Prop
  | [] => True
  | event :: rest =>
    Answers array event ∧ AnswersAll (arrayAfter array event.call event.answer) rest

/-! ## Agreement -/

/-- What was taken and is given back was never taken. -/
theorem Budget.give_take {budget taken : Budget} {amount : Nat}
    (took : budget.take amount = .ok taken) : taken.give amount = budget := by
  unfold Budget.take at took
  split at took
  · cases took
    have enough : amount ≤ budget.used + amount := by omega
    simp [Budget.give, enough]
  · cases took

/-- A file made so long as `Vec::resize` makes it is cut or filled with zeros. -/
theorem resized_eq (bytes : List UInt8) (length : Nat) :
    Heap.resized bytes length = arrayTruncate bytes length := by
  unfold Heap.resized arrayTruncate zeroFilled
  rw [List.take_append, List.take_replicate, Nat.min_self]

/-- A file that grows is filled with zeros. -/
theorem arrayTruncate_of_le {bytes : List UInt8} {length : Nat} (longer : bytes.length ≤ length) :
    arrayTruncate bytes length = zeroFilled bytes length := by
  unfold arrayTruncate
  apply List.take_of_length_le
  rw [zeroFilled, List.length_append, List.length_replicate]
  omega

/-- A file as long already has nothing to fill. -/
theorem zeroFilled_of_le {bytes : List UInt8} {length : Nat} (long : length ≤ bytes.length) :
    zeroFilled bytes length = bytes := by
  rw [zeroFilled, Nat.sub_eq_zero_of_le long]
  simp

/-- Bytes put over a file filled up to their end are written to it. -/
theorem overwritten_zeroFilled (bytes : List UInt8) (start : Nat) {buf : List UInt8}
    (some : buf ≠ []) :
    Heap.overwritten (zeroFilled bytes (start + buf.length)) start buf =
      arrayWrite bytes start buf := by
  unfold Heap.overwritten arrayWrite
  rw [if_neg some]
  have head : (zeroFilled bytes (start + buf.length)).take start =
      (zeroFilled bytes start).take start := by
    unfold zeroFilled
    rw [List.take_append, List.take_append, List.take_replicate, List.take_replicate]
    congr 2
    omega
  have tail : (zeroFilled bytes (start + buf.length)).drop (start + buf.length) =
      bytes.drop (start + buf.length) := by
    unfold zeroFilled
    rw [List.drop_append, List.drop_replicate]
    have none : start + buf.length - bytes.length - (start + buf.length - bytes.length) = 0 := by
      omega
    rw [none, List.replicate_zero, List.append_nil]
  rw [head, tail]

namespace Shared

theorem grow_ends (growth : Nat) (reserves : Bool) (file : Shared) :
    Ends (grow growth reserves) file (fun _ after => after.bytes = file.bytes)
      fun _ after => after = file := by
  unfold grow
  by_cases grows : 0 < growth
  · rw [if_pos grows]
    have took : Ends (take growth) file
        (fun _ after => after.bytes = file.bytes ∧ after.space.give growth = file.space)
        fun _ after => after = file := by
      unfold Ends take
      cases taken : file.space.take growth with
      | ok space => exact ⟨rfl, Budget.give_take taken⟩
      | error error => rfl
    refine took.bind fun _ after ⟨same, back⟩ => ?_
    cases reserves with
    | true => exact Ends.pure same
    | false =>
      show (⟨after.bytes, after.space.give growth⟩ : Shared) = file
      rw [same, back]
  · rw [if_neg grows]
    exact Ends.pure rfl

/-- A file resized is cut or filled with zeros, and a refusal leaves it and the space. -/
theorem resize_ends (length : Nat) (reserves : Bool) (file : Shared) :
    Ends (resize length reserves) file
      (fun _ after => after.bytes = arrayTruncate file.bytes length)
      fun _ after => after = file := by
  have got : (get : EStateM FsError Shared Shared) file = .ok file file := rfl
  unfold resize
  rw [Ends, bind_eq got, ← Ends]
  refine (grow_ends _ reserves file).bind fun _ after same => ?_
  show Heap.resized after.bytes length = _
  rw [same, resized_eq]

/-- A file extended is filled with zeros. -/
theorem extend_ends (upto : Nat) (reserves : Bool) (file : Shared) :
    Ends (extend upto reserves) file (fun _ after => after.bytes = zeroFilled file.bytes upto)
      fun _ after => after = file := by
  have got : (get : EStateM FsError Shared Shared) file = .ok file file := rfl
  unfold extend
  rw [Ends, bind_eq got, ← Ends]
  by_cases longer : file.bytes.length < upto
  · rw [if_pos longer]
    apply (resize_ends upto reserves file).mono
    · intro _ after same
      rw [same, arrayTruncate_of_le (Nat.le_of_lt longer)]
    · intro _ after same
      exact same
  · rw [if_neg longer]
    exact Ends.pure (zeroFilled_of_le (Nat.le_of_not_lt longer)).symm

/-- A write writes all it is handed, and a refusal leaves the file and the space. -/
theorem write_ends (buf : List UInt8) (start : Nat) (reserves : Bool) (file : Shared) :
    Ends (write buf start reserves) file
      (fun count after => count = buf.length ∧ after.bytes = arrayWrite file.bytes start buf)
      fun _ after => after = file := by
  unfold write
  by_cases nothing : buf = []
  · subst nothing
    rw [if_pos (by rfl)]
    refine Ends.pure ⟨rfl, ?_⟩
    rw [arrayWrite, if_pos rfl]
  · rw [if_neg (by simpa using nothing)]
    by_cases far : usizeMax < start + buf.length
    · rw [if_pos far]
      exact Ends.throw rfl
    · rw [if_neg far]
      refine (extend_ends _ reserves file).bind fun _ after same => ?_
      refine ⟨rfl, ?_⟩
      show Heap.overwritten after.bytes start buf = _
      rw [same, overwritten_zeroFilled _ _ nothing]

/-- A read reads what stands from the position on. -/
theorem readIter_eq (iocb : Kiocb) (length : Nat) (file : Shared) :
    readIter iocb length file =
      .ok ((file.bytes.drop iocb.pos).take length,
        iocb.pos + ((file.bytes.drop iocb.pos).take length).length) file := by
  have data : (file.bytes.drop (min iocb.pos file.bytes.length)).take
      (min length (file.bytes.length - min iocb.pos file.bytes.length)) =
      (file.bytes.drop iocb.pos).take length := by
    by_cases past : iocb.pos ≤ file.bytes.length
    · rw [Nat.min_eq_left past, ← List.length_drop, ← List.take_eq_take_min]
    · have end_ : file.bytes.length ≤ iocb.pos := by omega
      rw [Nat.min_eq_right end_, List.drop_length, List.drop_of_length_le end_]
      simp
  have count : ((file.bytes.drop iocb.pos).take length).length =
      min length (file.bytes.length - min iocb.pos file.bytes.length) := by
    rw [List.length_take, List.length_drop]
    omega
  rw [count, ← data]
  rfl

/-- A write lands where the array says and moves the position past what it wrote. -/
theorem writeIter_ends (iocb : Kiocb) (buf : List UInt8) (reserves : Bool) (file : Shared) :
    Ends (writeIter iocb buf reserves) file
      (fun answer after => answer.1 = buf.length ∧
        answer.2 = landsAt file.bytes iocb + answer.1 ∧
        after.bytes = arrayWrite file.bytes (landsAt file.bytes iocb) buf)
      fun _ after => after = file := by
  have got : (get : EStateM FsError Shared Shared) file = .ok file file := rfl
  unfold writeIter
  rw [Ends, bind_eq got, ← Ends]
  exact (write_ends buf (landsAt file.bytes iocb) reserves file).bind
    fun count after ⟨all, same⟩ => Ends.pure ⟨all, rfl, same⟩

theorem fallocate_ends (offset length : Nat) (reserves : Bool) (file : Shared) :
    Ends (fallocate offset length reserves) file
      (fun _ after => after.bytes = zeroFilled file.bytes (offset + length))
      fun _ after => after = file := by
  unfold fallocate
  by_cases far : usizeMax < offset + length
  · rw [if_pos far]
    exact Ends.throw rfl
  · rw [if_neg far]
    exact extend_ends _ reserves file

/-- One call is answered as the array would be, and leaves what that leaves. -/
theorem perform_answers (call : FileCall) (file : Shared) :
    Ends (perform call) file
      (fun answer after => Answers file.bytes ⟨call, answer, file.space, after.space⟩ ∧
        after.bytes = arrayAfter file.bytes call answer)
      fun error after => Answers file.bytes ⟨call, .refused error, file.space, after.space⟩ ∧
        after.bytes = file.bytes := by
  cases call with
  | read iocb length =>
    have reads : Ends (readIter iocb length) file
        (fun answer after => after = file ∧ answer.1 = (file.bytes.drop iocb.pos).take length ∧
          answer.2 = iocb.pos + answer.1.length) fun _ _ => False :=
      Ends.of_eq (readIter_eq iocb length file) ⟨rfl, rfl, rfl⟩
    refine (reads.mono (fun _ _ ended => ended) fun _ _ never => never.elim).bind
      fun answer after ⟨same, data, pos⟩ => Ends.pure ⟨⟨data, pos⟩, ?_⟩
    rw [same]
    rfl
  | write iocb buf reserves =>
    refine ((writeIter_ends iocb buf reserves file).mono (fun _ _ ended => ended)
      fun _ after same => ?_).bind fun answer after ⟨all, pos, same⟩ => Ends.pure ?_
    · subst same
      exact ⟨rfl, rfl⟩
    · exact ⟨⟨all, pos⟩, same⟩
  | truncate length reserves =>
    refine ((resize_ends length reserves file).mono (fun _ _ ended => ended)
      fun _ after same => ?_).bind fun _ after same => Ends.pure ⟨trivial, same⟩
    subst same
    exact ⟨rfl, rfl⟩
  | fallocate offset length reserves =>
    refine ((fallocate_ends offset length reserves file).mono (fun _ _ ended => ended)
      fun _ after same => ?_).bind fun _ after same => Ends.pure ⟨trivial, same⟩
    subst same
    exact ⟨rfl, rfl⟩
  | elsewhere space => exact ⟨trivial, rfl⟩

/-- Whatever calls are made through handles of a file, and whatever other files take of the space
between them, the file holds what an array filled with zeros would hold: every read answers from it,
every write lands in it and leaves the position past what it wrote, and what is refused changes
neither the file nor the space. -/
theorem content_refines_array (file : Shared) (calls : List FileCall) :
    AnswersAll file.bytes (file.serve calls) := by
  induction calls generalizing file with
  | nil => exact trivial
  | cons call rest ih =>
    have ended := perform_answers call file
    unfold Ends at ended
    unfold serve
    cases performed : perform call file with
    | ok answer after =>
      rw [performed] at ended
      refine ⟨ended.1, ?_⟩
      rw [← ended.2]
      exact ih after
    | error error after =>
      rw [performed] at ended
      refine ⟨ended.1, ?_⟩
      have same : arrayAfter file.bytes call (.refused error) = after.bytes := by
        rw [ended.2]
        cases call <;> rfl
      rw [same]
      exact ih after

end Shared

/-! ## In a Tmpfs -/

namespace Heap

variable {h : Heap} {id : Nat} {content : Content}

/-- A Tmpfs with a file's content and the space put back as calls on the file left them. -/
def withShared (h : Heap) (id : Nat) (content : Content) (file : Shared) : Heap :=
  { h with bytes := file.space }.setBody id (.file { content with bytes := file.bytes })

/-- A file's content put back holds the bytes put back. -/
theorem contentOf_withShared (has : h.contentOf id = some content) (file : Shared) :
    (h.withShared id content file).contentOf id = some { content with bytes := file.bytes } := by
  unfold contentOf at has
  split at has
  · rename_i strong own held
    simp [withShared, setBody, held, setObject, contentOf, OrderedMap.get_insert_self]
  · cases has

/-- A file of a Tmpfs is resized as its handles' is. -/
theorem resize_shared (length : Nat) (reserves : Bool) :
    Ends (Shared.resize length reserves) ⟨content.bytes, h.bytes⟩
      (fun _ file => h.resize id content length reserves = .ok (h.withShared id content file))
      fun error _ => h.resize id content length reserves = .error error := by
  have got : (get : EStateM FsError Shared Shared) ⟨content.bytes, h.bytes⟩ = .ok _ _ := rfl
  unfold Shared.resize Shared.grow resize
  rw [Ends, bind_eq got, ← Ends]
  dsimp only
  by_cases grows : 0 < length - content.bytes.length
  · rw [if_pos grows, if_pos grows]
    have took : Ends (Shared.take (length - content.bytes.length)) ⟨content.bytes, h.bytes⟩
        (fun _ file => file.bytes = content.bytes ∧
          h.bytes.take (length - content.bytes.length) = .ok file.space)
        fun error _ => h.bytes.take (length - content.bytes.length) = .error error := by
      unfold Ends Shared.take
      dsimp only
      cases taken : h.bytes.take (length - content.bytes.length) with
      | ok space => exact ⟨rfl, rfl⟩
      | error error => rfl
    have grown : Ends (do
        Shared.take (length - content.bytes.length)
        if reserves then pure ()
        else do
          Shared.give (length - content.bytes.length)
          throw .storageFull) ⟨content.bytes, h.bytes⟩
        (fun _ file => file.bytes = content.bytes ∧
          h.bytes.take (length - content.bytes.length) = .ok file.space ∧ reserves = true)
        fun error _ => h.bytes.take (length - content.bytes.length) = .error error ∨
          (∃ space, h.bytes.take (length - content.bytes.length) = .ok space) ∧
            reserves = false ∧ error = .storageFull := by
      refine (took.mono (fun _ _ ended => ended) fun _ _ taken => .inl taken).bind
        fun _ file ⟨same, taken⟩ => ?_
      cases reserves with
      | true => exact Ends.pure ⟨same, taken, rfl⟩
      | false => exact .inr ⟨⟨file.space, taken⟩, rfl, rfl⟩
    refine (grown.mono (fun _ _ ended => ended) fun error _ refused => ?_).bind
      fun _ file ⟨same, taken, reserved⟩ => ?_
    · cases refused with
      | inl refused => rw [refused]
      | inr refused =>
        obtain ⟨⟨space, taken⟩, unreserved, rfl⟩ := refused
        rw [taken, unreserved]
        rfl
    · rw [taken, reserved]
      show _ = Except.ok (h.withShared id content ⟨resized file.bytes length,
        file.space.give (file.bytes.length - length)⟩)
      rw [same]
      rfl
  · rw [if_neg grows, if_neg grows]
    rfl

/-- What a change of a file of a Tmpfs leaves is what its handles' calls left of it. -/
def Leaves (id : Nat) (content : Content) (changed : Except FsError Heap) (file : Shared) : Prop :=
  ∃ after, changed = .ok after ∧ after.contentOf id = some { content with bytes := file.bytes } ∧
    after.bytes = file.space

/-- Putting a file's content back leaves the space put back. -/
theorem bytes_setBody (h : Heap) (id : Nat) (body : Body) : (h.setBody id body).bytes = h.bytes := by
  unfold setBody
  split <;> rfl

/-- Where a file of a Tmpfs ends before a place, it is resized up to it. -/
theorem extend_shared (has : h.contentOf id = some content) (upto : Nat) (reserves : Bool) :
    Ends (Shared.extend upto reserves) ⟨content.bytes, h.bytes⟩
      (fun _ file => Leaves id content (if content.bytes.length < upto then
        h.resize id content upto reserves else .ok h) file)
      fun error _ => (if content.bytes.length < upto then
        h.resize id content upto reserves else .ok h) = .error error := by
  have got : (get : EStateM FsError Shared Shared) ⟨content.bytes, h.bytes⟩ = .ok _ _ := rfl
  unfold Shared.extend
  rw [Ends, bind_eq got, ← Ends]
  by_cases longer : content.bytes.length < upto
  · rw [if_pos longer, if_pos longer]
    apply (resize_shared upto reserves).mono
    · intro _ file resized
      exact ⟨_, resized, contentOf_withShared has file, bytes_setBody _ _ _⟩
    · intro error _ refused
      exact refused
  · rw [if_neg longer, if_neg longer]
    exact Ends.pure ⟨h, rfl, has, rfl⟩

/-- A write to a file of a Tmpfs is its handles' write. -/
theorem write_shared (has : h.contentOf id = some content) (start : Option Nat) (buf : List UInt8)
    (reserves : Bool) :
    Ends (Shared.write buf (start.getD content.bytes.length) reserves) ⟨content.bytes, h.bytes⟩
      (fun _ file => Leaves id content (h.write id content start buf reserves) file)
      fun error _ => h.write id content start buf reserves = .error error := by
  unfold Shared.write write
  dsimp only
  by_cases nothing : buf.isEmpty = true
  · rw [if_pos nothing, if_pos nothing]
    exact Ends.pure ⟨h, rfl, has, rfl⟩
  · rw [if_neg nothing, if_neg nothing]
    by_cases far : usizeMax < start.getD content.bytes.length + buf.length
    · rw [if_pos far, if_pos far]
      exact Ends.throw rfl
    · rw [if_neg far, if_neg far]
      refine ((extend_shared has _ reserves).mono (fun _ _ ended => ended)
        fun error _ refused => by rw [refused]).bind fun _ file ⟨grown, extended, kept, space⟩ => ?_
      rw [extended]
      dsimp only
      rw [kept]
      refine ⟨_, rfl, ?_, ?_⟩
      · exact contentOf_withShared kept ⟨overwritten file.bytes
          (start.getD content.bytes.length) buf, grown.bytes⟩
      · rw [bytes_setBody]
        exact space

/-- Room for a file of a Tmpfs is its handles' room. -/
theorem fallocate_shared (has : h.contentOf id = some content) (offset length : Nat)
    (reserves : Bool) :
    Ends (Shared.fallocate offset length reserves) ⟨content.bytes, h.bytes⟩
      (fun _ file => Leaves id content (h.fallocate id content offset length reserves) file)
      fun error _ => h.fallocate id content offset length reserves = .error error := by
  unfold Shared.fallocate fallocate
  by_cases far : usizeMax < offset + length
  · rw [if_pos far, if_pos far]
    exact Ends.throw rfl
  · rw [if_neg far, if_neg far]
    exact extend_shared has _ reserves

end Heap

end Kobako.Tmpfs
