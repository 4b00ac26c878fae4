import Kobako.Readdir.Preview1

/-!
# Filling a buffer

What `fd_readdir` writes is read back as the entries it fitted whole, each with the position of the
entry after it. `feed` is a listing of known entries: its actor is handed one after another until it
takes no more, and the buffer then holds those it took whole and what fits of the next.
-/

namespace Kobako.Readdir

open Vfs Bytes

/-! ## Memory -/

theorem splice_nil (memory : Memory) (start : Nat) : splice memory start [] = memory := by
  rw [splice, List.append_nil, List.length_nil, Nat.add_zero, List.take_append_drop]

variable {memory : Memory} {start : Nat}

theorem length_splice {bytes : List UInt8} (fits : start + bytes.length ≤ memory.length) :
    (splice memory start bytes).length = memory.length := by
  rw [splice, List.length_append, List.length_append, List.length_take, List.length_drop]
  omega

/-- Bytes written inside bytes just written. -/
theorem splice_middle {front old new back : List UInt8}
    (fits : start + (front ++ old ++ back).length ≤ memory.length)
    (same : new.length = old.length) :
    splice (splice memory start (front ++ old ++ back)) (start + front.length) new =
      splice memory start (front ++ new ++ back) := by
  have below : (memory.take start).length = start := by
    rw [List.length_take]
    simp only [List.length_append] at fits
    omega
  have before : (splice memory start (front ++ old ++ back)).take (start + front.length) =
      memory.take start ++ front := by
    rw [splice, List.append_assoc front, List.append_assoc (memory.take start),
      List.append_assoc front, ← List.append_assoc, List.take_left']
    rw [List.length_append, below]
  have after : (splice memory start (front ++ old ++ back)).drop
      (start + front.length + new.length) =
      back ++ memory.drop (start + (front ++ old ++ back).length) := by
    have split : splice memory start (front ++ old ++ back) = (memory.take start ++ front ++ old) ++
        (back ++ memory.drop (start + (front ++ old ++ back).length)) := by
      simp only [splice, List.append_assoc]
    rw [split, List.drop_left']
    rw [List.length_append, List.length_append, below, same]
  have length : (front ++ new ++ back).length = (front ++ old ++ back).length := by
    simp only [List.length_append, same]
  rw [splice, before, after, splice, length]
  simp only [List.append_assoc]

/-- Bytes written right behind bytes just written. -/
theorem splice_append {front more : List UInt8}
    (fits : start + (front ++ more).length ≤ memory.length) :
    splice (splice memory start front) (start + front.length) more =
      splice memory start (front ++ more) := by
  have below : (memory.take start).length = start := by
    rw [List.length_take]
    simp only [List.length_append] at fits
    omega
  have before : (splice memory start front).take (start + front.length) =
      memory.take start ++ front := by
    rw [splice, List.take_left']
    rw [List.length_append, below]
  have after : (splice memory start front).drop (start + front.length + more.length) =
      memory.drop (start + (front ++ more).length) := by
    rw [splice, ← List.drop_drop, List.drop_left', List.drop_drop, List.length_append]
    · rw [Nat.add_assoc]
    · rw [List.length_append, below]
  rw [splice, before, after, splice, List.append_assoc (memory.take start)]

/-- Bytes just written, read back. -/
theorem slice_splice {bytes : List UInt8} (fits : start + bytes.length ≤ memory.length) :
    slice (splice memory start bytes) start bytes.length = bytes := by
  have below : (memory.take start).length = start := by
    rw [List.length_take]
    omega
  rw [slice, splice, List.append_assoc, List.drop_left' below, List.take_left' rfl]

/-! ## Reading entries back -/

/-- An entry written whole. -/
def spelled (dirent : Dirent) : List UInt8 := toDirentHeader dirent ++ dirent.name

/-- An entry whose numbers fit their fields. -/
structure Fits (dirent : Dirent) : Prop where
  dNext : dirent.dNext < 256 ^ 8
  dIno : dirent.dIno < 256 ^ 8
  dType : dirent.dType < 256 ^ 1
  name : dirent.name.length < 256 ^ 4

@[simp] theorem length_toDirentHeader (dirent : Dirent) :
    (toDirentHeader dirent).length = headerSize := by
  simp [toDirentHeader, headerSize]

theorem length_spelled (dirent : Dirent) :
    (spelled dirent).length = headerSize + dirent.name.length := by
  rw [spelled, List.length_append, length_toDirentHeader]

/-- One field among others. -/
theorem slice_field {before field after : List UInt8} {start width : Nat}
    (place : before.length = start) (wide : field.length = width) :
    slice (before ++ (field ++ after)) start width = field := by
  rw [slice, List.drop_left' place, List.take_left' wide]

/-- The fields of a header, whatever follows it. -/
theorem slice_spelled (dirent : Dirent) (rest : List UInt8) :
    slice (spelled dirent ++ rest) 0 8 = toLe 8 dirent.dNext ∧
    slice (spelled dirent ++ rest) 8 8 = toLe 8 dirent.dIno ∧
    slice (spelled dirent ++ rest) 16 4 = toLe 4 dirent.name.length ∧
    slice (spelled dirent ++ rest) 20 1 = toLe 1 dirent.dType ∧
    slice (spelled dirent ++ rest) headerSize dirent.name.length = dirent.name := by
  refine ⟨?_, ?_, ?_, ?_, ?_⟩
  · rw [spelled, toDirentHeader]
    simp only [List.append_assoc]
    exact List.take_left' (length_toLe 8 _)
  · rw [spelled, toDirentHeader]
    simp only [List.append_assoc]
    exact slice_field (length_toLe 8 _) (length_toLe 8 _)
  · rw [spelled, toDirentHeader]
    simp only [List.append_assoc]
    rw [← List.append_assoc]
    exact slice_field (by simp) (length_toLe 4 _)
  · rw [spelled, toDirentHeader]
    simp only [List.append_assoc]
    rw [← List.append_assoc, ← List.append_assoc]
    exact slice_field (by simp) (length_toLe 1 _)
  · rw [spelled, List.append_assoc]
    exact slice_field (length_toDirentHeader dirent) rfl

/-- An entry written whole is read as it, whatever follows. -/
theorem dirents_spelled {dirent : Dirent} (fits : Fits dirent) (rest : List UInt8) :
    dirents (spelled dirent ++ rest) = dirent :: dirents rest := by
  obtain ⟨next, ino, length, kind, name⟩ := slice_spelled dirent rest
  have whole : headerSize + ofLe (slice (spelled dirent ++ rest) 16 4) ≤
      (spelled dirent ++ rest).length := by
    rw [length, ofLe_toLe _ _ fits.name, List.length_append, length_spelled]
    omega
  rw [dirents, dif_pos whole, next, ino, length, kind, ofLe_toLe _ _ fits.name,
    ofLe_toLe _ _ fits.dNext, ofLe_toLe _ _ fits.dIno, ofLe_toLe _ _ fits.dType, name]
  rw [List.drop_left' (length_spelled dirent)]

/-- An entry cut off is not read. -/
theorem dirents_cut {dirent : Dirent} (fits : Fits dirent) {length : Nat}
    (cut : length < (spelled dirent).length) : dirents ((spelled dirent).take length) = [] := by
  have short : ((spelled dirent).take length).length = length := by
    rw [List.length_take]
    omega
  rw [dirents, dif_neg]
  rw [short, Nat.not_le]
  by_cases header : length < headerSize
  · omega
  · have kept : slice ((spelled dirent).take length) 16 4 = slice (spelled dirent ++ []) 16 4 := by
      have wide : 16 + 4 ≤ length := by
        have size : headerSize = 24 := rfl
        omega
      rw [List.append_nil, slice, slice, List.drop_take, List.take_take]
      congr 1
      omega
    rw [kept, (slice_spelled dirent []).2.2.1, ofLe_toLe _ _ fits.name]
    rw [length_spelled] at cut
    exact cut

/-! ## Writing entries -/

section Writing

variable {guestIno : GuestIno} {memory : Memory} {start capacity : Nat}

/-- The buffer lies in guest memory, which a pointer reaches all of. -/
structure InMemory (memory : Memory) (start capacity : Nat) : Prop where
  buffer : start + capacity ≤ memory.length
  addressed : memory.length ≤ 2 ^ 32

/-- A part is written behind what was written, as far as the buffer goes. -/
theorem writePart_eq (inMemory : InMemory memory start capacity) {written : List UInt8}
    (within : written.length ≤ capacity) (part : List UInt8) :
    writePart start capacity (splice memory start written) written.length part =
      .ok (splice memory start (written ++ part.take (capacity - written.length)),
        (written ++ part.take (capacity - written.length)).length,
        decide (part.length ≤ capacity - written.length)) := by
  obtain ⟨buffer, addressed⟩ := inMemory
  have cut : part.take (min part.length (capacity - written.length)) =
      part.take (capacity - written.length) := by
    rw [Nat.min_comm, ← List.take_take, List.take_length]
  have length : (part.take (capacity - written.length)).length =
      min part.length (capacity - written.length) := by
    rw [List.length_take, Nat.min_comm]
  have fit : (min part.length (capacity - written.length) == part.length) =
      decide (part.length ≤ capacity - written.length) := by
    rw [Bool.eq_iff_iff, beq_iff_eq, decide_eq_true_iff]
    omega
  rw [writePart]
  by_cases some : 0 < min part.length (capacity - written.length)
  · have reached : start + written.length < 2 ^ 32 := by omega
    have inside : start + written.length +
        (part.take (min part.length (capacity - written.length))).length ≤
        (splice memory start written).length := by
      rw [length_splice (by omega), cut, length]
      omega
    have fits : start + (written ++ part.take (capacity - written.length)).length ≤
        memory.length := by
      rw [List.length_append, length]
      omega
    have wrote : writeBytes (splice memory start written) (start + written.length)
        (part.take (min part.length (capacity - written.length))) =
        .ok (splice memory start (written ++ part.take (capacity - written.length))) := by
      rw [writeBytes, if_pos inside, cut, splice_append fits]
    simp only [if_pos some, pointerAdd, if_pos reached, fit]
    show (writeBytes _ (start + written.length) _ >>= _) = _
    rw [wrote, List.length_append, length]
    rfl
  · have nothing : part.take (capacity - written.length) = [] := by
      apply List.eq_nil_of_length_eq_zero
      omega
    simp only [if_neg some, fit, nothing, List.append_nil]
    have zero : min part.length (capacity - written.length) = 0 := by omega
    rw [zero]
    rfl

/-- An entry is written behind what was written, as far as the buffer goes. -/
theorem writeDirent_eq (inMemory : InMemory memory start capacity) {written : List UInt8}
    (within : written.length ≤ capacity) (emit : DirEmit) :
    writeDirent start capacity guestIno emit (splice memory start written) written.length =
      .ok (splice memory start
          (written ++ (spelled (direntOf guestIno emit 0)).take (capacity - written.length)),
        (written ++ (spelled (direntOf guestIno emit 0)).take (capacity - written.length)).length,
        if (spelled (direntOf guestIno emit 0)).length ≤ capacity - written.length then
          some written.length else none) := by
  generalize entry : direntOf guestIno emit 0 = dirent
  have header := writePart_eq inMemory within (toDirentHeader dirent)
  have room : (written ++ (toDirentHeader dirent).take (capacity - written.length)).length ≤
      capacity := by
    rw [List.length_append, List.length_take]
    omega
  have name := writePart_eq inMemory room dirent.name
  have left : capacity -
      (written ++ (toDirentHeader dirent).take (capacity - written.length)).length =
      capacity - written.length - headerSize := by
    rw [List.length_append, List.length_take, length_toDirentHeader]
    omega
  have whole : written ++ (toDirentHeader dirent).take (capacity - written.length) ++
      dirent.name.take (capacity - written.length - headerSize) =
      written ++ (spelled dirent).take (capacity - written.length) := by
    rw [spelled, List.take_append, length_toDirentHeader, List.append_assoc]
  rw [left, whole] at name
  have both : (decide ((toDirentHeader dirent).length ≤ capacity - written.length) &&
      decide (dirent.name.length ≤ capacity - written.length - headerSize)) =
      decide ((spelled dirent).length ≤ capacity - written.length) := by
    rw [Bool.eq_iff_iff, Bool.and_eq_true, decide_eq_true_iff, decide_eq_true_iff,
      decide_eq_true_iff, length_toDirentHeader, length_spelled]
    omega
  rw [writeDirent, entry, header]
  dsimp only
  rw [name]
  dsimp only
  rw [both]
  simp only [decide_eq_true_iff]

/-- Where the listing goes on leads an entry, and nothing else of it depends on it. -/
theorem spelled_split (guestIno : GuestIno) (emit : DirEmit) :
    ∃ back, ∀ next, spelled (direntOf guestIno emit next) = toLe 8 next ++ back := by
  refine ⟨(spelled (direntOf guestIno emit 0)).drop 8, fun next => ?_⟩
  simp only [spelled, toDirentHeader, direntOf, List.append_assoc]
  rw [List.drop_left' (length_toLe 8 0)]

variable {front : List UInt8}

/-- Where the listing goes on is filled in at the head of an entry written whole. -/
theorem writeDNext_eq (inMemory : InMemory memory start capacity) {emit : DirEmit}
    (within : (front ++ spelled (direntOf guestIno emit 0)).length ≤ capacity) (next : Nat) :
    writeDNext start front.length next
        (splice memory start (front ++ spelled (direntOf guestIno emit 0))) =
      .ok (splice memory start (front ++ spelled (direntOf guestIno emit next))) := by
  obtain ⟨buffer, addressed⟩ := inMemory
  obtain ⟨back, split⟩ := spelled_split guestIno emit
  have long : 8 ≤ (spelled (direntOf guestIno emit 0)).length := by
    rw [split, List.length_append, length_toLe]
    omega
  rw [List.length_append] at within
  have reached : start + front.length < 2 ^ 32 := by omega
  have inside : start + front.length + (toLe 8 next).length ≤
      (splice memory start (front ++ spelled (direntOf guestIno emit 0))).length := by
    rw [length_splice (by rw [List.length_append]; omega), length_toLe]
    omega
  have fits : start + (front ++ toLe 8 0 ++ back).length ≤ memory.length := by
    rw [List.append_assoc, ← split, List.length_append]
    omega
  have placed : pointerAdd start front.length = .ok (start + front.length) := if_pos reached
  have onward : ∀ write : Nat → Except Failure Memory,
      (Except.ok (start + front.length) >>= write) = write (start + front.length) :=
    fun _ => rfl
  rw [writeDNext, placed, onward, writeBytes, if_pos inside, split 0, split next,
    ← List.append_assoc, ← List.append_assoc,
    splice_middle fits (by rw [length_toLe, length_toLe])]

/-- The bytes of an entry written whole, if one waits for where the listing goes on. -/
def waiting (guestIno : GuestIno) (pending : Option DirEmit) (next : Nat) : List UInt8 :=
  match pending with
  | some emit => spelled (direntOf guestIno emit next)
  | none => []

/-- What is filled in later is as long. -/
theorem length_waiting (pending : Option DirEmit) (next : Nat) :
    (waiting guestIno pending next).length = (waiting guestIno pending 0).length := by
  cases pending with
  | none => rfl
  | some emit => rw [waiting, waiting, length_spelled, length_spelled, direntOf, direntOf]

/-- A listing under way: the buffer holds entries read whole and one waiting for its `d_next`. -/
structure Written (guestIno : GuestIno) (memory : Memory) (start capacity : Nat)
    (front : List UInt8) (pending : Option DirEmit) (f : Filling) : Prop where
  memory : f.memory = splice memory start (front ++ waiting guestIno pending 0)
  used : f.used = (front ++ waiting guestIno pending 0).length
  failed : f.failed = none
  lastWhole : f.lastWhole = pending.map fun _ => front.length
  within : (front ++ waiting guestIno pending 0).length ≤ capacity

/-- The waiting entry is told where the listing goes on. -/
theorem Written.writeLast_eq (inMemory : InMemory memory start capacity) {pending : Option DirEmit}
    {f : Filling} (written : Written guestIno memory start capacity front pending f) (next : Nat) :
    writeLast start f.lastWhole next f.memory =
      .ok (splice memory start (front ++ waiting guestIno pending next)) := by
  rw [written.lastWhole, written.memory]
  cases pending with
  | none => rfl
  | some emit => exact writeDNext_eq inMemory written.within next

/-- An entry cut off: the buffer is full, and no entry waits. -/
structure CutOff (guestIno : GuestIno) (memory : Memory) (start capacity : Nat)
    (front : List UInt8) (emit : DirEmit) (f : Filling) : Prop where
  memory : f.memory = splice memory start
    (front ++ (spelled (direntOf guestIno emit 0)).take (capacity - front.length))
  used : f.used =
    (front ++ (spelled (direntOf guestIno emit 0)).take (capacity - front.length)).length
  failed : f.failed = none
  lastWhole : f.lastWhole = none
  within : front.length ≤ capacity
  short : capacity - front.length < (spelled (direntOf guestIno emit 0)).length

/-- One entry more is handed over: the waiting one is told where it stands, and it is written whole
and waits in turn, or is cut off. -/
theorem fill_eq (inMemory : InMemory memory start capacity) {pending : Option DirEmit} {f : Filling}
    (written : Written guestIno memory start capacity front pending f) {emit : DirEmit}
    (valid : verifyDirentName emit.name = .ok ()) :
    (f.used + (spelled (direntOf guestIno emit 0)).length ≤ capacity ∧
      ∃ after, fill start capacity guestIno emit f = (true, after) ∧
        Written guestIno memory start capacity (front ++ waiting guestIno pending emit.offset)
          (some emit) after) ∨
    (¬f.used + (spelled (direntOf guestIno emit 0)).length ≤ capacity ∧
      ∃ after, fill start capacity guestIno emit f = (false, after) ∧
        CutOff guestIno memory start capacity (front ++ waiting guestIno pending emit.offset)
          emit after) := by
  have told := written.writeLast_eq inMemory emit.offset
  have length : (front ++ waiting guestIno pending emit.offset).length = f.used := by
    rw [written.used, List.length_append, List.length_append, length_waiting]
  have within : (front ++ waiting guestIno pending emit.offset).length ≤ capacity := by
    rw [length, written.used]
    exact written.within
  have wrote := @writeDirent_eq guestIno _ _ _ inMemory _ within emit
  rw [length] at wrote
  -- what the actor keeps, whichever way the entry fits
  have filled : fill start capacity guestIno emit f =
      ((if (spelled (direntOf guestIno emit 0)).length ≤ capacity - f.used then some f.used
          else none).isSome,
        ⟨splice memory start (front ++ waiting guestIno pending emit.offset ++
            (spelled (direntOf guestIno emit 0)).take (capacity - f.used)),
          (front ++ waiting guestIno pending emit.offset ++
            (spelled (direntOf guestIno emit 0)).take (capacity - f.used)).length, f.failed,
          if (spelled (direntOf guestIno emit 0)).length ≤ capacity - f.used then some f.used
          else none⟩) := by
    rw [fill, valid]
    dsimp only
    rw [told]
    dsimp only
    rw [wrote]
  by_cases fits : f.used + (spelled (direntOf guestIno emit 0)).length ≤ capacity
  · have all : (spelled (direntOf guestIno emit 0)).take (capacity - f.used) =
        spelled (direntOf guestIno emit 0) := List.take_of_length_le (by omega)
    have room : (spelled (direntOf guestIno emit 0)).length ≤ capacity - f.used := by omega
    rw [if_pos room, all] at filled
    refine .inl ⟨fits, _, filled, rfl, rfl, written.failed, ?_, ?_⟩
    · rw [← length]
      rfl
    · rw [waiting, List.length_append, length]
      exact fits
  · have short : ¬(spelled (direntOf guestIno emit 0)).length ≤ capacity - f.used := by omega
    rw [if_neg short, ← length] at filled
    refine .inr ⟨fits, _, filled, rfl, rfl, written.failed, rfl, within, ?_⟩
    omega

end Writing

/-! ## A listing of known entries -/

/-- A listing of entries standing in order: where it stops, and what its actor keeps. -/
def feed {σ : Type} (actor : Actor σ) : List DirEmit → Nat → σ → Nat × σ
  | [], pos, kept => (pos, kept)
  | emit :: rest, _, kept =>
    match actor emit kept with
    | (true, kept) => feed actor rest (emit.offset + 1) kept
    | (false, kept) => (emit.offset, kept)

/-- Where a listing stands with these entries left, `ending` with none left. -/
def following (rest : List DirEmit) (ending : Nat) : Nat :=
  match rest with
  | [] => ending
  | emit :: _ => emit.offset

/-- Where a listing of these entries ends that stands at `pos`. -/
def endOf : List DirEmit → Nat → Nat
  | [], pos => pos
  | emit :: rest, _ => endOf rest (emit.offset + 1)

/-- The entries a guest is to read, each with where the listing goes on past it. -/
def expect (guestIno : GuestIno) : List DirEmit → Nat → List Dirent
  | [], _ => []
  | emit :: rest, ending =>
    direntOf guestIno emit (following rest ending) :: expect guestIno rest ending

section Feeding

variable {guestIno : GuestIno} {memory : Memory} {start capacity : Nat}

/-- What is left of the entry that did not fit, if one is left. -/
inductive CutFrom (guestIno : GuestIno) : List UInt8 → List DirEmit → Prop where
  | done : CutFrom guestIno [] []
  | cut {emit : DirEmit} {rest : List DirEmit} {length : Nat}
      (short : length < (spelled (direntOf guestIno emit 0)).length) :
      CutFrom guestIno ((spelled (direntOf guestIno emit 0)).take length) (emit :: rest)

/-- What a listing leaves in the buffer: the entries taken whole, each with where the listing goes
on past it, and what fits of the next. -/
structure Filled (guestIno : GuestIno) (memory : Memory) (start capacity : Nat)
    (front : List UInt8) (pending : Option DirEmit) (taken rest : List DirEmit)
    (cut : List UInt8) (ended : Nat × Filling) : Prop where
  failed : ended.2.failed = none
  told : writeLast start ended.2.lastWhole ended.1 ended.2.memory = .ok (splice memory start
    (front ++ (expect guestIno (pending.toList ++ taken) ended.1).flatMap spelled ++ cut))
  used : ended.2.used =
    (front ++ (expect guestIno (pending.toList ++ taken) ended.1).flatMap spelled ++ cut).length
  within : ended.2.used ≤ capacity
  cut : CutFrom guestIno cut rest

theorem expect_waiting (pending : Option DirEmit) (next : Nat) :
    (expect guestIno pending.toList next).flatMap spelled = waiting guestIno pending next := by
  cases pending with
  | none => rfl
  | some emit => exact List.append_nil _

theorem expect_pending (pending : Option DirEmit) (emit : DirEmit) (more : List DirEmit)
    (next : Nat) : (expect guestIno (pending.toList ++ emit :: more) next).flatMap spelled =
      waiting guestIno pending emit.offset ++
        (expect guestIno (emit :: more) next).flatMap spelled := by
  cases pending with
  | none => rw [waiting, Option.toList_none, List.nil_append, List.nil_append]
  | some first =>
    show (expect guestIno (first :: emit :: more) next).flatMap spelled = _
    rw [expect, List.flatMap_cons, following, waiting]

/-- A listing of known entries hands over all it can take, and stops at the first it cannot. -/
theorem feed_fill (inMemory : InMemory memory start capacity) (emits : List DirEmit)
    (front : List UInt8) (pending : Option DirEmit) (pos : Nat) (f : Filling)
    (written : Written guestIno memory start capacity front pending f)
    (valid : ∀ emit ∈ emits, verifyDirentName emit.name = .ok ()) :
    ∃ taken rest cut, emits = taken ++ rest ∧
      (feed (fill start capacity guestIno) emits pos f).1 = following rest (endOf emits pos) ∧
      Filled guestIno memory start capacity front pending taken rest cut
        (feed (fill start capacity guestIno) emits pos f) ∧
      ∀ emit, emits.head? = some emit →
        f.used + (spelled (direntOf guestIno emit 0)).length ≤ capacity → taken ≠ [] := by
  induction emits generalizing front pending pos f with
  | nil =>
    refine ⟨[], [], [], rfl, rfl, ⟨written.failed, ?_, ?_, ?_, .done⟩, nofun⟩
    · rw [List.append_nil, List.append_nil, expect_waiting]
      exact written.writeLast_eq inMemory pos
    · rw [List.append_nil, List.append_nil, expect_waiting, List.length_append, length_waiting,
        ← List.length_append]
      exact written.used
    · exact written.used ▸ written.within
  | cons emit rest ih =>
    obtain ⟨first, others⟩ := List.forall_mem_cons.mp valid
    rw [feed]
    rcases fill_eq inMemory written first with ⟨-, after, took, onward⟩ | ⟨short, after, took, cutOff⟩
    · rw [took]
      obtain ⟨taken, left, cut, split, stop, filled, -⟩ :=
        ih _ (some emit) (emit.offset + 1) after onward others
      refine ⟨emit :: taken, left, cut, by rw [split, List.cons_append], stop, ?_, nofun⟩
      obtain ⟨failed, told, used, within, cutFrom⟩ := filled
      refine ⟨failed, ?_, ?_, within, cutFrom⟩
      · rw [told, expect_pending, List.append_assoc front]
        rfl
      · rw [used, expect_pending, List.append_assoc front]
        rfl
    · rw [took]
      refine ⟨[], emit :: rest, _, rfl, rfl, ⟨cutOff.failed, ?_, ?_, ?_, .cut cutOff.short⟩, ?_⟩
      · rw [cutOff.lastWhole, List.append_nil, expect_waiting, ← cutOff.memory]
        rfl
      · rw [cutOff.used, List.append_nil, expect_waiting]
      · rw [cutOff.used, List.length_append, List.length_take]
        have within := cutOff.within
        omega
      · intro other same fits
        cases same
        exact absurd fits short

/-- An entry whose name a directory can hold fits the fields of a `dirent`. -/
theorem fits_direntOf {emit : DirEmit} (valid : verifyDirentName emit.name = .ok ()) {next : Nat}
    (inRange : next < 256 ^ 8) : Fits (direntOf guestIno emit next) := by
  have short : emit.name.utf8ByteSize < pathMax := by
    by_contra long
    rw [verifyDirentName, if_pos (.inr (.inl (by omega)))] at valid
    cases valid
  refine ⟨inRange, ?_, ?_, ?_⟩
  · exact (guestIno emit.identity).toNat_lt
  · show toFiletype emit.fileType < 256 ^ 1
    cases emit.fileType <;> decide
  · have length : (direntOf guestIno emit next).name.length = emit.name.utf8ByteSize := rfl
    rw [length]
    exact Nat.lt_trans short (by decide)

/-- Every entry a guest is to read fits the fields of a `dirent`. -/
theorem fits_expect {emits : List DirEmit} {ending : Nat}
    (valid : ∀ emit ∈ emits, verifyDirentName emit.name = .ok ())
    (offsets : ∀ emit ∈ emits, emit.offset < 256 ^ 8) (inRange : ending < 256 ^ 8) :
    ∀ dirent ∈ expect guestIno emits ending, Fits dirent := by
  induction emits with
  | nil => nofun
  | cons emit rest ih =>
    obtain ⟨first, others⟩ := List.forall_mem_cons.mp valid
    obtain ⟨-, onward⟩ := List.forall_mem_cons.mp offsets
    have next : following rest ending < 256 ^ 8 := by
      cases rest with
      | nil => exact inRange
      | cons second more => exact onward second List.mem_cons_self
    exact List.forall_mem_cons.mpr ⟨fits_direntOf first next, ih others onward⟩

/-- Entries written whole and one cut off are read as the entries written whole. -/
theorem dirents_filled {entries : List Dirent} (fits : ∀ dirent ∈ entries, Fits dirent)
    {cut : List UInt8} {rest : List DirEmit} (cutFrom : CutFrom guestIno cut rest)
    (valid : ∀ emit ∈ rest, verifyDirentName emit.name = .ok ()) :
    dirents (entries.flatMap spelled ++ cut) = entries := by
  induction entries with
  | nil =>
    rw [List.flatMap_nil, List.nil_append]
    cases cutFrom with
    | done =>
      rw [dirents, dif_neg]
      have positive : 0 < headerSize := by decide
      rw [List.length_nil]
      omega
    | cut short =>
      exact dirents_cut (fits_direntOf (valid _ List.mem_cons_self) (by decide)) short
  | cons dirent entries ih =>
    obtain ⟨first, others⟩ := List.forall_mem_cons.mp fits
    rw [List.flatMap_cons, List.append_assoc, dirents_spelled first, ih others]

end Feeding

end Kobako.Readdir
