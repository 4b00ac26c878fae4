import Mathlib.Data.List.Infix
import Mathlib.Data.List.TakeWhile

/-!
# Reading an `IO` by lines

The host keeps a file's position and may answer a read with fewer bytes than were asked for. A
line is read in chunks until one of them holds a newline; what was read past the newline is given
back by seeking. The lines read are the lines of the content from the position on, whichever way
the host cuts its answers, and each call leaves the position past the line it answers.
-/

namespace Kobako.Stream

/-- `CHUNK`: the most bytes one read asks the host for. -/
def chunk : Nat := 4096

/-- `b'\n'`. -/
def newline : UInt8 := 10

/-- How the host answers the reads made of it: at least one byte while there are any, and never
more than were asked for and remain. -/
structure Host where
  /-- The bytes the call of this number answers, of as many as it could. -/
  answer : Nat → Nat → Nat
  /-- A read is answered while bytes remain. -/
  answers : ∀ call room, 0 < room → 0 < answer call room
  /-- No read is answered more than there is. -/
  within : ∀ call room, answer call room ≤ room

/-- The host that answers all it could. -/
instance : Inhabited Host := ⟨fun _ room => room, fun _ _ left => left, fun _ _ => le_rfl⟩

/-- An open file, whose position the host keeps. -/
structure File where
  /-- What the file holds. -/
  content : List UInt8
  /-- Where the next read starts. -/
  pos : Nat
  /-- The reads made of it so far. -/
  calls : Nat
  deriving DecidableEq, Repr

namespace File

/-- What stands from the position to the end. -/
def rest (file : File) : List UInt8 := file.content.drop file.pos

/-- `File::read` of a buffer this long: the bytes it was answered. -/
def read (host : Host) (asked : Nat) (file : File) : List UInt8 × File :=
  let count := host.answer file.calls (min asked file.rest.length)
  (file.rest.take count, { file with pos := file.pos + count, calls := file.calls + 1 })

/-- `File::seek` by `SeekFrom::Current`, none where it is refused before the start. -/
def seekCurrent (offset : Int) (file : File) : Option File :=
  let target := (file.pos : Int) + offset
  if 0 ≤ target then some { file with pos := target.toNat } else none

end File

/-! ## One read -/

variable {file : File} {host : Host} {bytes : List UInt8}

/-- A read is answered nothing only at the end. -/
theorem read_empty {asked : Nat} (wants : 0 < asked) (empty : (file.read host asked).1 = []) :
    file.rest = [] := by
  by_contra left
  have some : 0 < min asked file.rest.length := by
    have long := List.length_pos_iff.mpr left
    omega
  have answered := host.answers file.calls _ some
  have short := congrArg List.length empty
  simp only [File.read, List.length_take, List.length_nil] at short
  omega

/-- A read answers what stands at the position and leaves the position past it. -/
theorem read_rest (host : Host) (file : File) (asked : Nat) :
    (file.read host asked).2.content = file.content ∧
      (file.read host asked).2.pos = file.pos + (file.read host asked).1.length ∧
      file.rest = (file.read host asked).1 ++ (file.read host asked).2.rest := by
  have within := host.within file.calls (min asked file.rest.length)
  have count : min (host.answer file.calls (min asked file.rest.length)) file.rest.length =
      host.answer file.calls (min asked file.rest.length) := by omega
  refine ⟨rfl, ?_, ?_⟩
  · simp only [File.read, List.length_take, count]
  · simp only [File.read, File.rest, ← List.drop_drop, List.take_append_drop]

/-- Giving back what was read last leaves the position before it. -/
theorem seekCurrent_back {back : Nat} (behind : back ≤ file.pos) :
    file.seekCurrent (-back) = some { file with pos := file.pos - back } := by
  have reached : (0 : Int) ≤ file.pos + -(back : Int) := by omega
  have lands : ((file.pos : Int) + -(back : Int)).toNat = file.pos - back := by omega
  simp only [File.seekCurrent, if_pos reached, lands]

/-- A read answered anything leaves less to read. -/
theorem read_shorter {asked : Nat} (some : (file.read host asked).1 ≠ []) :
    (file.read host asked).2.rest.length < file.rest.length := by
  have split := congrArg List.length (read_rest host file asked).2.2
  have long := List.length_pos_iff.mpr some
  rw [List.length_append] at split
  omega

/-! ## One line -/

/-- The loop of `read_line`, with what it holds of the line; none where a seek is refused. -/
def readLineLoop (host : Host) (file : File) (line : List UInt8) :
    Option (Option (List UInt8) × File) :=
  let answer := file.read host chunk
  if _ : answer.1 = [] then
    some (if line = [] then none else some line, answer.2)
  else
    match answer.1.findIdx? (· == newline) with
    | some at_ =>
      (answer.2.seekCurrent (-((answer.1.length - at_ - 1 : Nat) : Int))).map fun past =>
        (some (line ++ answer.1.take (at_ + 1)), past)
    | none => readLineLoop host answer.2 (line ++ answer.1)
termination_by file.rest.length
decreasing_by exact read_shorter ‹_›

/-- `read_line`: one line, its newline kept, or none at the end. -/
def readLine (host : Host) (file : File) : Option (Option (List UInt8) × File) :=
  readLineLoop host file []

/-- The first line of some bytes, its newline kept, and what stands past it. -/
def firstLine : List UInt8 → List UInt8 × List UInt8
  | [] => ([], [])
  | byte :: bytes =>
    if byte = newline then ([byte], bytes)
    else (byte :: (firstLine bytes).1, (firstLine bytes).2)

/-- The first line and what stands past it are the bytes. -/
theorem firstLine_append (bytes : List UInt8) :
    (firstLine bytes).1 ++ (firstLine bytes).2 = bytes := by
  induction bytes with
  | nil => rfl
  | cons byte bytes ih =>
    by_cases ends : byte = newline
    · simp [firstLine, ends]
    · simp [firstLine, ends, ih]

/-- Only no bytes have an empty first line. -/
theorem firstLine_eq_nil : (firstLine bytes).1 = [] ↔ bytes = [] := by
  cases bytes with
  | nil => simp [firstLine]
  | cons byte bytes =>
    by_cases ends : byte = newline
    · simp [firstLine, ends]
    · simp [firstLine, ends]

/-- Bytes without a newline belong to the first line of what they start. -/
theorem firstLine_through {front : List UInt8} (plain : newline ∉ front) (back : List UInt8) :
    firstLine (front ++ back) = (front ++ (firstLine back).1, (firstLine back).2) := by
  induction front with
  | nil => rfl
  | cons byte front ih =>
    have other : byte ≠ newline := fun same => plain (by simp [same])
    have later := ih fun mem => plain (List.mem_cons_of_mem _ mem)
    simp [firstLine, other, later]

/-- A first line ends at the first newline. -/
theorem firstLine_ends {front : List UInt8} (plain : newline ∉ front) (back : List UInt8) :
    firstLine (front ++ newline :: back) = (front ++ [newline], back) := by
  rw [firstLine_through plain]
  simp [firstLine]

/-- Where a chunk holds a newline, it is cut behind the first of them. -/
theorem findIdx?_newline {at_ : Nat} (found : bytes.findIdx? (· == newline) = some at_) :
    ∃ front back, bytes = front ++ newline :: back ∧ newline ∉ front ∧ front.length = at_ := by
  obtain ⟨within, here, before⟩ := List.findIdx?_eq_some_iff_getElem.mp found
  refine ⟨bytes.take at_, bytes.drop (at_ + 1), ?_, ?_, by simp; omega⟩
  · have same : bytes[at_] = newline := by simpa using here
    rw [← same, ← List.drop_eq_getElem_cons within, List.take_append_drop]
  · intro mem
    obtain ⟨place, early, same⟩ := List.mem_take_iff_getElem.mp mem
    have other := before place (by omega)
    simp [same] at other

/-- The loop answers what it held and the first line of the rest, and leaves the file past it. -/
theorem readLineLoop_eq (host : Host) (file : File) (line : List UInt8) :
    ∃ past, readLineLoop host file line =
        some (if line ++ (firstLine file.rest).1 = [] then none
          else some (line ++ (firstLine file.rest).1), past) ∧
      past.content = file.content ∧ past.pos = file.pos + (firstLine file.rest).1.length := by
  induction size : file.rest.length using Nat.strongRecOn generalizing file line with
  | _ size ih =>
    have reads := read_rest host file chunk
    rw [readLineLoop]
    by_cases ended : (file.read host chunk).1 = []
    · have nothing := read_empty (by decide) ended
      refine ⟨(file.read host chunk).2, ?_, reads.1, ?_⟩
      · simp [ended, nothing, firstLine]
      · rw [reads.2.1, ended, nothing]
        rfl
    · simp only [ended, ↓reduceDIte]
      cases found : (file.read host chunk).1.findIdx? (· == newline) with
      | none =>
        have plain : newline ∉ (file.read host chunk).1 := by
          intro mem
          have other := List.findIdx?_eq_none_iff.mp found _ mem
          simp at other
        obtain ⟨past, answers, content, pos⟩ :=
          ih _ (size ▸ read_shorter ended) (file.read host chunk).2
            (line ++ (file.read host chunk).1) rfl
        rw [reads.2.2, firstLine_through plain]
        refine ⟨past, ?_, by rw [content, reads.1], ?_⟩
        · simpa using answers
        · rw [pos, reads.2.1, List.length_append, Nat.add_assoc]
      | some at_ =>
        obtain ⟨front, back, cut, plain, long⟩ := findIdx?_newline found
        have total := congrArg List.length cut
        rw [List.length_append, List.length_cons] at total
        have behind : (file.read host chunk).1.length - at_ - 1 ≤
            (file.read host chunk).2.pos := by omega
        have line_ : firstLine file.rest =
            (front ++ [newline], back ++ (file.read host chunk).2.rest) := by
          rw [reads.2.2, cut, List.append_assoc, List.cons_append, firstLine_ends plain]
        have kept : (file.read host chunk).1.take (at_ + 1) = front ++ [newline] := by
          rw [cut, ← long, List.take_length_add_append]
          rfl
        rw [line_]
        simp only [seekCurrent_back behind, Option.map_some, kept]
        refine ⟨{ (file.read host chunk).2 with pos := (file.read host chunk).2.pos -
          ((file.read host chunk).1.length - at_ - 1) }, by simp, reads.1, ?_⟩
        simp only [List.length_append, List.length_singleton]
        omega

/-- The rest of the file past its first line. -/
theorem rest_past {file past : File} (content : past.content = file.content)
    (pos : past.pos = file.pos + (firstLine file.rest).1.length) :
    past.rest = (firstLine file.rest).2 := by
  have whole := firstLine_append file.rest
  rw [File.rest, content, pos, ← List.drop_drop]
  change file.rest.drop _ = _
  nth_rewrite 2 [← whole]
  rw [List.drop_left]

/-- `read_line` answers the first line of the rest, none at the end, and leaves the file past
it. -/
theorem readLine_eq (host : Host) (file : File) :
    ∃ past, readLine host file =
        some (if file.rest = [] then none else some (firstLine file.rest).1, past) ∧
      past.content = file.content ∧ past.pos = file.pos + (firstLine file.rest).1.length ∧
      past.rest = (firstLine file.rest).2 := by
  obtain ⟨past, answers, content, pos⟩ := readLineLoop_eq host file []
  refine ⟨past, ?_, content, pos, rest_past content pos⟩
  simpa only [readLine, List.nil_append, firstLine_eq_nil] using answers

/-! ## Every line -/

/-- The lines of some bytes, each with its newline. -/
def linesOf (bytes : List UInt8) : List (List UInt8) :=
  if _ : bytes = [] then [] else (firstLine bytes).1 :: linesOf (firstLine bytes).2
termination_by bytes.length
decreasing_by
  have whole := congrArg List.length (firstLine_append bytes)
  have some : 0 < (firstLine bytes).1.length :=
    List.length_pos_iff.mpr (mt firstLine_eq_nil.mp ‹_›)
  rw [List.length_append] at whole
  omega

/-- The loop of `io_each_line` with a block that leaves the file alone; none where a read fails
or the block raises. -/
def eachLine {σ : Type} (host : Host) (block : σ → List UInt8 → Option σ) (file : File)
    (state : σ) : Option (σ × File) :=
  match _ : readLine host file with
  | none => none
  | some (none, past) => some (state, past)
  | some (some line, past) =>
    match block state line with
    | none => none
    | some next => eachLine host block past next
termination_by file.rest.length
decreasing_by
  obtain ⟨last, answers, _, _, rest⟩ := readLine_eq host file
  have whole := congrArg List.length (firstLine_append file.rest)
  rename_i found _ _
  rw [answers] at found
  by_cases ended : file.rest = []
  · simp [ended] at found
  · have some : 0 < (firstLine file.rest).1.length :=
      List.length_pos_iff.mpr (mt firstLine_eq_nil.mp ended)
    simp only [ended, ↓reduceIte, Option.some.injEq, Prod.mk.injEq] at found
    rw [List.length_append] at whole
    rw [← found.2, rest]
    omega

/-- `io_readlines`. -/
def readlines (host : Host) (file : File) : Option (List (List UInt8) × File) :=
  eachLine host (fun lines line => some (lines ++ [line])) file []

/-- The answers of `read_line` called so many times. -/
def readLines (host : Host) : Nat → File → Option (List (Option (List UInt8)) × File)
  | 0, file => some ([], file)
  | calls + 1, file => do
    let (answer, past) ← readLine host file
    let (answers, last) ← readLines host calls past
    some (answer :: answers, last)

/-- A line that ends in its only newline. -/
def Ended (line : List UInt8) : Prop := ∃ text, newline ∉ text ∧ line = text ++ [newline]

/-- A first line ends in its only newline, or holds none and is all there is. -/
theorem firstLine_shape (bytes : List UInt8) :
    Ended (firstLine bytes).1 ∨ newline ∉ (firstLine bytes).1 ∧ (firstLine bytes).2 = [] := by
  by_cases plain : newline ∈ bytes
  · obtain ⟨front, back, rfl, before⟩ := List.eq_append_cons_of_mem plain
    rw [firstLine_ends before]
    exact Or.inl ⟨front, before, rfl⟩
  · have whole := firstLine_through plain []
    rw [List.append_nil] at whole
    rw [whole]
    exact Or.inr ⟨by simpa [firstLine] using plain, rfl⟩

theorem linesOf_nil : linesOf [] = [] := by
  rw [linesOf]
  simp

theorem linesOf_of_ne (some : bytes ≠ []) :
    linesOf bytes = (firstLine bytes).1 :: linesOf (firstLine bytes).2 := by
  rw [linesOf]
  simp [some]

/-- The lines put together are the bytes. -/
theorem linesOf_flatten (bytes : List UInt8) : (linesOf bytes).flatten = bytes := by
  induction bytes using linesOf.induct with
  | case1 => simp [linesOf_nil]
  | case2 bytes some ih => rw [linesOf_of_ne some, List.flatten_cons, ih, firstLine_append]

/-- No line is empty, and each holds no newline but at its end. -/
theorem linesOf_shape (bytes : List UInt8) :
    ∀ line ∈ linesOf bytes, line ≠ [] ∧ (Ended line ∨ newline ∉ line) := by
  induction bytes using linesOf.induct with
  | case1 => simp [linesOf_nil]
  | case2 bytes some ih =>
    rw [linesOf_of_ne some]
    intro line mem
    rcases List.mem_cons.mp mem with rfl | later
    · exact ⟨mt firstLine_eq_nil.mp some, (firstLine_shape bytes).imp_right And.left⟩
    · exact ih line later

/-- Each line but the last ends in a newline. -/
theorem linesOf_ended (bytes : List UInt8) : ∀ line ∈ (linesOf bytes).dropLast, Ended line := by
  induction bytes using linesOf.induct with
  | case1 => simp [linesOf_nil]
  | case2 bytes some ih =>
    rw [linesOf_of_ne some]
    rcases firstLine_shape bytes with ends | ⟨_, last⟩
    · cases later : linesOf (firstLine bytes).2 with
      | nil => simp
      | cons second lines =>
        rw [later] at ih
        rw [List.dropLast_cons_cons]
        intro line mem
        rcases List.mem_cons.mp mem with rfl | older
        · exact ends
        · exact ih line older
    · rw [last, linesOf_nil]
      simp

/-- The lines of what a file has left, by the line its next call answers. -/
theorem readLine_linesOf (host : Host) (file : File) :
    ∃ past, readLine host file = some ((linesOf file.rest).head?, past) ∧
      past.content = file.content ∧
      past.pos = file.pos + ((linesOf file.rest).take 1).flatten.length ∧
      linesOf past.rest = (linesOf file.rest).tail := by
  obtain ⟨past, answers, content, pos, rest⟩ := readLine_eq host file
  by_cases ended : file.rest = []
  · refine ⟨past, ?_, content, ?_, ?_⟩
    · simpa [ended, linesOf_nil] using answers
    · simpa [ended, linesOf_nil, firstLine] using pos
    · rw [rest, ended, linesOf_nil]
      exact linesOf_nil
  · refine ⟨past, ?_, content, ?_, ?_⟩
    · simpa [ended, linesOf_of_ne] using answers
    · simpa [linesOf_of_ne ended] using pos
    · rw [rest, linesOf_of_ne ended, List.tail_cons]

/-- The loop by the line its next call answers. -/
theorem eachLine_of {σ : Type} {file past : File} {answer : Option (List UInt8)}
    (answers : readLine host file = some (answer, past)) (block : σ → List UInt8 → Option σ)
    (state : σ) :
    eachLine host block file state =
      answer.elim (some (state, past)) fun line =>
        (block state line).bind (eachLine host block past) := by
  rw [eachLine]
  split <;> rename_i found <;> rw [answers] at found <;> cases found
  · rfl
  · rename_i line
    rw [Option.elim_some]
    cases block state line with
    | none => rfl
    | some next => rfl

/-- The block is handed the lines of the rest, in order. -/
theorem eachLine_eq {σ : Type} (host : Host) (block : σ → List UInt8 → Option σ) (file : File)
    (state : σ) :
    ∃ past, eachLine host block file state =
      ((linesOf file.rest).foldlM block state).map fun state => (state, past) := by
  induction lines : linesOf file.rest generalizing file state with
  | nil =>
    obtain ⟨past, answers, _⟩ := readLine_linesOf host file
    refine ⟨past, ?_⟩
    rw [eachLine_of answers, lines]
    rfl
  | cons line rest ih =>
    obtain ⟨past, answers, _, _, later⟩ := readLine_linesOf host file
    rw [lines, List.tail_cons] at later
    rw [eachLine_of answers, lines]
    simp only [List.head?_cons, Option.elim_some, List.foldlM_cons, Option.bind_eq_bind]
    cases given : block state line with
    | none => exact ⟨past, rfl⟩
    | some next =>
      obtain ⟨last, ends⟩ := ih past next later
      exact ⟨last, by simpa using ends⟩

/-- Collecting the lines one at a time collects them all. -/
theorem foldlM_push (lines before : List (List UInt8)) :
    lines.foldlM (fun lines line => some (lines ++ [line])) before = some (before ++ lines) := by
  induction lines generalizing before with
  | nil => simp
  | cons line lines ih => simp [ih]

/-- So many calls answer so many lines, then none, and leave the position past them. -/
theorem readLines_eq (host : Host) (calls : Nat) (file : File) :
    ∃ past, readLines host calls file =
        some (((linesOf file.rest).take calls).map some ++
          List.replicate (calls - (linesOf file.rest).length) none, past) ∧
      past.content = file.content ∧
      past.pos = file.pos + ((linesOf file.rest).take calls).flatten.length := by
  induction calls generalizing file with
  | zero => exact ⟨file, by simp [readLines], rfl, by simp⟩
  | succ calls ih =>
    obtain ⟨next, answers, content, pos, later⟩ := readLine_linesOf host file
    obtain ⟨past, rest, kept, lands⟩ := ih next
    refine ⟨past, ?_, by rw [kept, content], ?_⟩
    · rw [readLines, answers]
      simp only [Option.bind_eq_bind, Option.bind_some, rest, later]
      cases linesOf file.rest with
      | nil => simp [List.replicate_succ]
      | cons line lines => simp
    · rw [lands, pos, later]
      cases linesOf file.rest with
      | nil => simp
      | cons line lines => simp [Nat.add_assoc]

/-- Lines are read independently of how the host cuts its answers: the calls answer, in order, the
lines of the content from the position on, then none, and each leaves the position past what it
answered. -/
theorem readLines_lines (host : Host) (file : File) :
    ∃ lines : List (List UInt8), lines.flatten = file.content.drop file.pos ∧
      (∀ line ∈ lines, line ≠ [] ∧ (Ended line ∨ newline ∉ line)) ∧
      (∀ line ∈ lines.dropLast, Ended line) ∧
      (∃ past, readlines host file = some (lines, past)) ∧
      ∀ calls, ∃ past, readLines host calls file =
          some ((lines.take calls).map some ++ List.replicate (calls - lines.length) none, past) ∧
        past.content = file.content ∧
        past.pos = file.pos + (lines.take calls).flatten.length := by
  refine ⟨linesOf file.rest, linesOf_flatten _, linesOf_shape _, linesOf_ended _, ?_,
    fun calls => readLines_eq host calls file⟩
  obtain ⟨past, collects⟩ := eachLine_eq host (fun lines line => some (lines ++ [line])) file []
  exact ⟨past, by rw [readlines, collects, foldlM_push]; simp⟩

end Kobako.Stream
