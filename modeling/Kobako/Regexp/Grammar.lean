import Kobako.Regexp.Pieces

/-!
# The grammar of pieces

What one step of the reader can do, told by the characters it reads and with no place in bytes:
which stretch of the source each piece is, and what is left open behind it. `Pieces.next` never
panics and always makes such a step, from any reading whose outermost frame stands; so every step
reads at least one character and stops between two.
-/

namespace Kobako.Regexp

open Text

/-- A delimiter of a name and the one that closes it. -/
def Delimited (opens closes : Char) : Prop :=
  opens = '<' ∧ closes = '>' ∨ opens = '\'' ∧ closes = '\''

theorem Delimited.utf8Size {opens closes : Char} (delimited : Delimited opens closes) :
    opens.utf8Size = 1 ∧ closes.utf8Size = 1 := by
  rcases delimited with ⟨rfl, rfl⟩ | ⟨rfl, rfl⟩
  · exact ⟨rfl, rfl⟩
  · exact ⟨rfl, rfl⟩

/-- A comment in a group, behind `(?#`: up to the first `)` that no `\` takes. -/
def commentSplit : Text → Bool → Text × Text
  | [], _ => ([], [])
  | c :: rest, escaped =>
    if c = ')' ∧ escaped = false then ([c], rest)
    else
      let cut := commentSplit rest (c = '\\' && !escaped)
      (c :: cut.1, cut.2)

/-- What a step does to a class depth where it leaves one open. -/
def StaysInClass (depth : Nat) (c : Char) (after : Nat) : Prop :=
  c = '[' ∧ after = depth + 1 ∨ c = ']' ∧ after + 1 = depth ∧ 0 < after ∨
    c ≠ '[' ∧ c ≠ ']' ∧ after = depth

/-- Behind its letter an escape holds no backslash, or only one it takes another character with,
unless the source ends there. -/
def Paired (tail more : Text) : Prop :=
  '\\' ∉ tail ∨ (∃ front c, tail = front ++ ['\\', c] ∧ '\\' ∉ front) ∨ more = []

/-- One step of the reader: the piece read and what the reading is left as. -/
inductive Reads (p : Pieces) : Piece → Pieces → Prop where
  | trailing (rest : p.rest = ['\\']) : Reads p (.text ['\\']) { p with rest := [] }
  | property {letter : Char} {body more : Text} (kind : letter = 'p' ∨ letter = 'P')
      (rest : p.rest = '\\' :: letter :: '{' :: (body ++ '}' :: more)) (inside : '}' ∉ body) :
      Reads p (.property ('\\' :: letter :: '{' :: (body ++ ['}'])) (stripCaret body).2
        ((stripCaret body).1 != decide (letter = 'P')) (0 < p.classDepth)) { p with rest := more }
  | codePoints {body more : Text}
      (rest : p.rest = '\\' :: 'u' :: '{' :: (body ++ '}' :: more)) (inside : '}' ∉ body) :
      Reads p (.codePoints (trim body) (0 < p.classDepth)) { p with rest := more }
  | codePoint {body more : Text}
      (rest : p.rest = '\\' :: 'u' :: '{' :: (body ++ '}' :: more)) (inside : '}' ∉ body) :
      Reads p (.literal ('\\' :: 'u' :: '{' :: (body ++ ['}'])) (0 < p.classDepth))
        { p with rest := more }
  | char {taken more : Text} {value : Nat} (rest : p.rest = '\\' :: (taken ++ more))
      (filled : taken ≠ []) (small : value < 128) (paired : Paired taken.tail more) :
      Reads p (.char value (0 < p.classDepth)) { p with rest := more }
  | bare {letter : Char} {more : Text} (rest : p.rest = '\\' :: letter :: more)
      (plain : isAscii letter = false ∨ letter.isAlphanum = true) :
      Reads p (.literal [letter] (0 < p.classDepth)) { p with rest := more }
  | namedReference {letter opens closes : Char} {name more : Text}
      (outside : p.classDepth = 0) (kind : letter = 'k' ∨ letter = 'g')
      (rest : p.rest = '\\' :: letter :: opens :: (name ++ closes :: more))
      (delimited : Delimited opens closes) (inside : closes ∉ name) :
      Reads p (.namedReference ('\\' :: letter :: opens :: (name ++ [closes])) letter name)
        { p with rest := more }
  | numberedReference {digits more : Text} (outside : p.classDepth = 0) (filled : digits ≠ [])
      (rest : p.rest = '\\' :: (digits ++ more)) (numeric : ∀ c ∈ digits, c.isDigit = true) :
      Reads p (.numberedReference ('\\' :: digits)) { p with rest := more }
  | escape {letter : Char} {more : Text} {frame : Frame} (rest : p.rest = '\\' :: letter :: more)
      (ascii : isAscii letter = true) (framed : p.frames.head? = some frame)
      (named : letter ≠ 'k' ∧ letter ≠ 'g') :
      Reads p (.escape letter (0 < p.classDepth) frame.charset) { p with rest := more }
  | posixBracket {body more : Text} {frame : Frame} (inClass : 0 < p.classDepth)
      (rest : p.rest = '[' :: ':' :: (body ++ ':' :: ']' :: more))
      (known : (stripCaret body).2 ∈ posixBrackets) (framed : p.frames.head? = some frame) :
      Reads p (.posixBracket (stripCaret body).2 (stripCaret body).1 frame.charset)
        { p with rest := more }
  | classClose {more : Text} (inClass : p.classDepth = 1) (rest : p.rest = ']' :: more) :
      Reads p .classClose { p with rest := more, classDepth := 0 }
  | classText {c : Char} {more : Text} {depth : Nat} (inClass : 0 < p.classDepth)
      (rest : p.rest = c :: more) (unescaped : c ≠ '\\')
      (stays : StaysInClass p.classDepth c depth) :
      Reads p (.classText [c]) { p with rest := more, classDepth := depth }
  | classOpen {more : Text} (outside : p.classDepth = 0) (rest : p.rest = '[' :: more) :
      Reads p (.classOpen ['[']) { p with rest := more, classDepth := 1 }
  | close {more : Text} (outside : p.classDepth = 0) (rest : p.rest = ')' :: more) :
      Reads p .close { p.closeFrame with rest := more }
  | literalBrace {more : Text} (outside : p.classDepth = 0) (rest : p.rest = '{' :: more) :
      Reads p .literalBrace { p with rest := more }
  | interval {lower more : Text} {upper : Option Text} {taken : Text} (outside : p.classDepth = 0)
      (rest : p.rest = '{' :: (taken ++ '}' :: more))
      (numeric : lower.all Char.isDigit = true ∧ upper.all (·.all Char.isDigit) = true)
      (bounds : ∀ c ∈ taken, c.isDigit = true ∨ c = ',') :
      Reads p (.interval lower upper) { p with rest := more }
  | quantifier {c : Char} {more : Text} (outside : p.classDepth = 0) (rest : p.rest = c :: more)
      (kind : c = '?' ∨ c = '*' ∨ c = '+') : Reads p (.quantifier [c]) { p with rest := more }
  | lineComment {line more : Text} {frame : Frame} (outside : p.classDepth = 0)
      (framed : p.frames.head? = some frame) (extended : frame.extended = true)
      (rest : p.rest = '#' :: (line ++ more)) (ends : line.getLast? = some '\n' ∨ more = [])
      (inside : '\n' ∉ line.dropLast) :
      Reads p (.comment ('#' :: line)) { p with rest := more }
  | space {c : Char} {more : Text} {frame : Frame} (outside : p.classDepth = 0)
      (framed : p.frames.head? = some frame) (extended : frame.extended = true)
      (rest : p.rest = c :: more) (white : isAsciiWhitespace c = true) :
      Reads p (.comment [c]) { p with rest := more }
  | text {c : Char} {more : Text} {frame : Frame} (outside : p.classDepth = 0)
      (framed : p.frames.head? = some frame) (rest : p.rest = c :: more)
      (plain : c ∉ ['\\', '[', '(', ')', '{', '?', '*', '+'])
      (read : frame.extended = true → c ≠ '#' ∧ isAsciiWhitespace c = false) :
      Reads p (.text [c]) { p with rest := more }
  | plainGroup {more : Text} {frame : Frame} (outside : p.classDepth = 0)
      (framed : p.frames.head? = some frame) (rest : p.rest = '(' :: more)
      (plain : more.head? ≠ some '?') :
      Reads p (.plainGroup (frame.lookBehind = .negative))
        { p with rest := more, frames := frame :: p.frames }
  | groupComment {more : Text} (outside : p.classDepth = 0)
      (rest : p.rest = '(' :: '?' :: '#' :: more) :
      Reads p (.comment ('(' :: '?' :: '#' :: (commentSplit more false).1))
        { p with rest := (commentSplit more false).2 }
  | numberedCondition {digit : Char} {inside more closing : Text} {frame : Frame}
      (outside : p.classDepth = 0) (framed : p.frames.head? = some frame)
      (rest : p.rest = '(' :: '?' :: '(' :: digit :: (inside ++ closing ++ more))
      (numeric : digit.isDigit = true) (open_ : ')' ∉ inside)
      (ends : closing = [')'] ∨ closing = [] ∧ more = []) :
      Reads p (.numberedCondition ('(' :: '?' :: '(' :: digit :: (inside ++ closing)))
        { p with rest := more, frames := frame :: p.frames }
  | namedCondition {opens closes : Char} {name more : Text} {frame : Frame}
      (outside : p.classDepth = 0) (framed : p.frames.head? = some frame)
      (rest : p.rest = '(' :: '?' :: '(' :: opens :: (name ++ closes :: ')' :: more))
      (delimited : Delimited opens closes) (inside : closes ∉ name) :
      Reads p (.namedCondition ('(' :: '?' :: '(' :: opens :: (name ++ [closes, ')'])) name)
        { p with rest := more, frames := frame :: p.frames }
  | namedGroup {opens closes : Char} {name more : Text} {frame : Frame}
      (outside : p.classDepth = 0) (framed : p.frames.head? = some frame)
      (rest : p.rest = '(' :: '?' :: opens :: (name ++ closes :: more))
      (delimited : Delimited opens closes) (inside : closes ∉ name)
      (around : ¬['<', '='] <+: opens :: (name ++ closes :: more) ∧
        ¬['<', '!'] <+: opens :: (name ++ closes :: more)) :
      Reads p (.namedGroup ('(' :: '?' :: opens :: (name ++ [closes])) name)
        { p with rest := more, frames := frame :: p.frames }
  | options {letters more : Text} {closes : Char} {frame : Frame} {outer : List Frame}
      (outside : p.classDepth = 0) (framed : p.frames = frame :: outer)
      (rest : p.rest = '(' :: '?' :: (letters ++ closes :: more))
      (known : areKnownOptions letters = true)
      (ends : closes = ':' ∨ closes = ')' ∧ letters ≠ []) :
      Reads p (.options letters (closes = ':')) { p with
        rest := more
        frames := Pieces.optionLetters true frame letters ::
          if closes = ':' then frame :: outer else outer }
  | «open» {opener more : Text} {frame inner : Frame} (outside : p.classDepth = 0)
      (framed : p.frames.head? = some frame) (rest : p.rest = '(' :: '?' :: (opener ++ more))
      (kind : opener ∈ ([['<', '='], ['<', '!'], ['='], ['!'], ['>'], []] : List Text))
      (same : inner.extended = frame.extended ∧ inner.ignoreCase = frame.ignoreCase ∧
        inner.charset = frame.charset) :
      Reads p (.open ('(' :: '?' :: opener)) { p with rest := more, frames := inner :: p.frames }
  | refused {reason : String} {taken : Text} {after : Pieces} (filled : taken ≠ [])
      (rest : p.rest = taken ++ after.rest) (framed : after.frames ≠ []) :
      Reads p (.refused reason) after

/-! ## Characters and cuts -/

/-- The marks of the grammar are one byte each. -/
theorem marks_utf8Size : '\\'.utf8Size = 1 ∧ '('.utf8Size = 1 ∧ ')'.utf8Size = 1 ∧
    '['.utf8Size = 1 ∧ ']'.utf8Size = 1 ∧ '{'.utf8Size = 1 ∧ '}'.utf8Size = 1 ∧
    '?'.utf8Size = 1 ∧ ':'.utf8Size = 1 ∧ '#'.utf8Size = 1 ∧ '-'.utf8Size = 1 ∧
    '\n'.utf8Size = 1 := by decide

theorem utf8Size_ascii {c : Char} (ascii : isAscii c = true) : c.utf8Size = 1 := by
  have small : c.val < 128 := by simpa [isAscii] using ascii
  have bound : c.val ≤ 127 := by
    rw [UInt32.le_iff_toNat_le]
    rw [UInt32.lt_iff_toNat_lt] at small
    change c.val.toNat ≤ 127
    change c.val.toNat < 128 at small
    omega
  simp [Char.utf8Size, bound]

theorem isAscii_of_isDigit {c : Char} (digit : c.isDigit = true) : isAscii c = true := by
  simp only [Char.isDigit, Bool.and_eq_true, decide_eq_true_eq] at digit
  simp only [isAscii, decide_eq_true_eq]
  exact UInt32.lt_of_le_of_lt digit.2 (by decide)

/-- ASCII text is as long in bytes as in characters. -/
theorem len_ascii {text : Text} (ascii : ∀ c ∈ text, isAscii c = true) : len text = text.length := by
  induction text with
  | nil => rfl
  | cons c rest ih =>
    have first := utf8Size_ascii (ascii c List.mem_cons_self)
    have later := ih fun d mem => ascii d (List.mem_cons_of_mem _ mem)
    simp only [len_cons, List.length_cons]
    omega

namespace Pieces

variable {p : Pieces}

theorem take_append {front back : Text} {length : Nat} (rest : p.rest = front ++ back)
    (long : len front = length) : p.take length = some (front, { p with rest := back }) := by
  rw [take, rest, splitAt_iff.mpr ⟨rfl, long⟩]
  rfl

theorem takeAs_append {front back : Text} {length : Nat} {piece : Text → Piece}
    (rest : p.rest = front ++ back) (long : len front = length) :
    p.takeAs length piece = some (piece front, { p with rest := back }) := by
  rw [takeAs, take_append rest long]
  rfl

theorem take_one {c : Char} {back : Text} {length : Nat} (rest : p.rest = c :: back)
    (long : c.utf8Size = length) : p.take length = some ([c], { p with rest := back }) := by
  have split : p.rest = [c] ++ back := rest
  exact take_append split (by rw [len_cons, len_nil, long, Nat.add_zero])

theorem takeAs_one {c : Char} {back : Text} {length : Nat} {piece : Text → Piece}
    (rest : p.rest = c :: back) (long : c.utf8Size = length) :
    p.takeAs length piece = some (piece [c], { p with rest := back }) := by
  rw [takeAs, take_one rest long]
  rfl

end Pieces

/-- A step that is always made. -/
def Steps (p : Pieces) (answer : Option (Piece × Pieces)) : Prop :=
  ∃ piece after, answer = some (piece, after) ∧ Reads p piece after

/-- A step made or left to another reader, and never a panic. -/
def MaySteps (p : Pieces) (answer : Option (Option (Piece × Pieces))) : Prop :=
  answer = some none ∨ ∃ read, answer = some (some read) ∧ Reads p read.1 read.2

theorem Steps.mk {p : Pieces} {answer : Option (Piece × Pieces)} {piece : Piece} {after : Pieces}
    (same : answer = some (piece, after)) (reads : Reads p piece after) : Steps p answer :=
  ⟨piece, after, same, reads⟩

/-! ## Escapes -/

/-- After a delimiter, a name is read up to what closes it. -/
theorem readDelimited_opens {opens closes : Char} (delimited : Delimited opens closes)
    (rest : Text) :
    readDelimited (opens :: rest) = (do
      let inside ← sliceFrom (opens :: rest) 1
      let some len := find (· = closes) inside | some none
      let name ← slice (opens :: rest) 1 (len + 1)
      some (some (name, len + 2))) := by
  rcases delimited with ⟨rfl, rfl⟩ | ⟨rfl, rfl⟩
  · rfl
  · rfl

/-- What `read_delimited` answers: a name between delimiters, or nothing. -/
theorem readDelimited_cases (text : Text) :
    readDelimited text = some none ∨ ∃ opens name closes more,
      text = opens :: (name ++ closes :: more) ∧ Delimited opens closes ∧ closes ∉ name ∧
        readDelimited text = some (some (name, len name + 2)) := by
  have named : ∀ opens closes rest, text = opens :: rest → Delimited opens closes →
      readDelimited text = some none ∨ ∃ opens name closes more,
        text = opens :: (name ++ closes :: more) ∧ Delimited opens closes ∧ closes ∉ name ∧
          readDelimited text = some (some (name, len name + 2)) := by
    intro opens closes rest same delimited
    have unfolded := readDelimited_opens delimited rest
    rw [← same] at unfolded
    have short : opens.utf8Size = 1 := by
      rcases delimited with ⟨rfl, -⟩ | ⟨rfl, -⟩ <;> rfl
    have inside : sliceFrom text 1 = some rest := by rw [same, sliceFrom_one short]
    rw [inside, Option.bind_eq_bind, Option.bind_some] at unfolded
    cases found : find (· = closes) rest with
    | none =>
      rw [found] at unfolded
      exact .inl unfolded
    | some place =>
      obtain ⟨name, c, more, split, long, is, before⟩ := find_some found
      have closing : c = closes := by simpa using is
      subst closing
      rw [found] at unfolded
      have cut : slice text 1 (place + 1) = some name := by
        rw [same, split]
        have first : len [opens] = 1 := by rw [len_cons, len_nil, short]
        exact slice_append first (by rw [first]; omega)
      dsimp only at unfolded
      rw [cut] at unfolded
      refine .inr ⟨opens, name, c, more, by rw [same, split], delimited, ?_, ?_⟩
      · intro mem
        have not := before c mem
        simp at not
      · rw [unfolded, ← long]
        rfl
  cases text with
  | nil => exact .inl rfl
  | cons opens rest =>
    by_cases angle : opens = '<'
    · subst angle
      exact named '<' '>' rest rfl (.inl ⟨rfl, rfl⟩)
    · by_cases quote : opens = '\''
      · subst quote
        exact named '\'' '\'' rest rfl (.inr ⟨rfl, rfl⟩)
      · refine .inl ?_
        unfold readDelimited
        simp only [List.head?_cons]
        split
        · rename_i close found
          split at found
          · rename_i first
            exact absurd (Option.some.inj first) angle
          · rename_i first
            exact absurd (Option.some.inj first) quote
          · cases found
        · rfl

section Escapes

variable {p : Pieces} {letter : Char} {more : Text}

theorem braced_ascii (ascii : isAscii letter = true) :
    braced (letter :: more) = some (decide (more.head? = some '{')) := by
  rw [braced, sliceFrom_one (utf8Size_ascii ascii)]
  rfl

/-- A stretch in braces: where its brace closes, and what the slices of it answer. -/
theorem bracedBody (ascii : isAscii letter = true) (other : letter ≠ '}') {tail : Text}
    (rest : p.rest = '\\' :: letter :: '{' :: tail) :
    find (· = '}') (letter :: '{' :: tail) = none ∨ ∃ body more close,
      tail = body ++ '}' :: more ∧ '}' ∉ body ∧
      find (· = '}') (letter :: '{' :: tail) = some close ∧
      p.take (close + 2) =
        some ('\\' :: letter :: '{' :: (body ++ ['}']), { p with rest := more }) ∧
      slice ('\\' :: letter :: '{' :: (body ++ ['}'])) 3
        (len ('\\' :: letter :: '{' :: (body ++ ['}'])) - 1) = some body := by
  have one := utf8Size_ascii ascii
  have brace : ('{' : Char).utf8Size = 1 := rfl
  cases found : find (· = '}') tail with
  | none =>
    left
    simp [find, other, found]
  | some place =>
    obtain ⟨body, c, back, split, long, is, before⟩ := find_some found
    have closes : c = '}' := by simpa using is
    subst closes
    refine .inr ⟨body, back, 2 + place, split, ?_, ?_, ?_, ?_⟩
    · intro mem
      have not := before _ mem
      simp at not
    · simp only [find, other, found, decide_false, Bool.false_eq_true, if_false, Option.map_some,
        one, brace]
      simp
      omega
    · refine Pieces.take_append (by rw [rest, split]; simp) ?_
      simp only [len_cons, len_append, len_nil, marks_utf8Size]
      omega
    · have whole : '\\' :: letter :: '{' :: (body ++ ['}']) =
          ['\\', letter, '{'] ++ body ++ ['}'] := by simp
      rw [whole]
      refine slice_append ?_ ?_
      · simp only [len_cons, len_nil, marks_utf8Size]
        omega
      · simp only [len_cons, len_append, len_nil, marks_utf8Size]
        omega

theorem property_steps (kind : letter = 'p' ∨ letter = 'P') {tail : Text}
    (rest : p.rest = '\\' :: letter :: '{' :: tail) :
    MaySteps p (p.property letter (letter :: '{' :: tail) (0 < p.classDepth)) := by
  have ascii : isAscii letter = true := by rcases kind with rfl | rfl <;> rfl
  have other : letter ≠ '}' := by rcases kind with rfl | rfl <;> decide
  unfold Pieces.property
  rcases bracedBody ascii other rest with none | ⟨body, more, close, split, inside, found, taken, cut⟩
  · rw [none]
    exact .inl rfl
  · rw [found]
    dsimp only
    rw [taken, Option.bind_eq_bind, Option.bind_some]
    dsimp only
    rw [cut]
    exact .inr ⟨_, rfl, .property kind (by rw [rest, split]) inside⟩

theorem codePoints_steps {tail : Text} (rest : p.rest = '\\' :: 'u' :: '{' :: tail) :
    MaySteps p (p.codePoints ('u' :: '{' :: tail) (0 < p.classDepth)) := by
  unfold Pieces.codePoints
  rcases bracedBody rfl (by decide) rest with
    none | ⟨body, more, close, split, inside, found, taken, cut⟩
  · rw [none]
    exact .inl rfl
  · rw [found]
    dsimp only
    rw [taken, Option.bind_eq_bind, Option.bind_some]
    dsimp only
    rw [cut, Option.bind_eq_bind, Option.bind_some]
    split
    · exact .inr ⟨_, rfl, .codePoints (by rw [rest, split]) inside⟩
    · exact .inr ⟨_, rfl, .codePoint (by rw [rest, split]) inside⟩

theorem takeAs_refused {front back : Text} {length : Nat} {reason : String}
    (rest : p.rest = front ++ back) (long : len front = length) (filled : front ≠ [])
    (framed : p.frames ≠ []) : Steps p (p.takeAs length fun _ => .refused reason) :=
  .mk (Pieces.takeAs_append rest long) (.refused filled rest framed)

/-- The target of a control escape is read off the front of what stands there. -/
theorem controlTarget_some {target : Text} {byte size : Nat}
    (read : Pieces.controlTarget target = some (byte, size)) :
    ∃ taken back, target = taken ++ back ∧ len taken = size ∧ Paired taken back := by
  unfold Pieces.controlTarget at read
  split at read
  · rename_i escaped back
    obtain ⟨named, simple, same⟩ := Option.map_eq_some_iff.mp read
    cases same
    have short : escaped.utf8Size = 1 := by
      unfold simpleEscape at simple
      repeat' split at simple
      all_goals first
        | (rename_i is; subst is; rfl)
        | cases simple
    refine ⟨['\\', escaped], back, rfl, ?_, .inr (.inl ⟨[], escaped, rfl, List.not_mem_nil⟩)⟩
    simp only [len_cons, len_nil, short]
    rfl
  · rename_i c back unslashed
    split at read
    · rename_i ascii
      cases read
      refine ⟨[c], back, rfl, by rw [len_cons, len_nil, utf8Size_ascii ascii], ?_⟩
      by_cases slash : c = '\\'
      · -- A backslash is the target of its own only where nothing stands behind it.
        cases back with
        | nil => exact .inr (.inr rfl)
        | cons d back => exact absurd rfl (unslashed d back (by rw [slash]))
      · exact .inl (by simpa using fun same => slash same.symm)
    · cases read
  · cases read

/-- What a front two or three bytes long leaves of a control escape. -/
theorem control_target {front target : Text} {length : Nat}
    (rest : p.rest = '\\' :: (front ++ target)) (long : 1 + len front = length)
    (filled : front ≠ []) (plain : '\\' ∉ front) (framed : p.frames ≠ []) :
    Steps p (do
      let target ← sliceFrom p.rest length
      match Pieces.controlTarget target with
      | none => p.takeAs length fun _ => .refused "too short control escape"
      | some (byte, len) =>
        p.takeAs (length + len) fun _ => .char (byte % 32) (0 < p.classDepth)) := by
  have slash : ('\\' : Char).utf8Size = 1 := rfl
  have whole : p.rest = ('\\' :: front) ++ target := rest
  have fronted : len ('\\' :: front) = length := by rw [len_cons, slash, long]
  rw [show sliceFrom p.rest length = some target by rw [whole]; exact sliceFrom_append fronted]
  simp only [Option.bind_eq_bind, Option.bind_some]
  cases read : Pieces.controlTarget target with
  | none => exact takeAs_refused whole fronted (by simp) framed
  | some found =>
    obtain ⟨taken, back, split, sized, settled⟩ := controlTarget_some read
    have reads : p.rest = '\\' :: ((front ++ taken) ++ back) := by
      rw [rest, split, List.append_assoc]
    have long : len ('\\' :: (front ++ taken)) = length + found.2 := by
      simp only [len_cons, len_append]
      omega
    refine .mk (Pieces.takeAs_append reads long) (.char reads ?_ (by omega) ?_)
    · simp [filled]
    · obtain ⟨letter, front, rfl⟩ := List.exists_cons_of_ne_nil filled
      have quiet : '\\' ∉ front := fun mem => plain (List.mem_cons_of_mem _ mem)
      rw [List.cons_append, List.tail_cons]
      rcases settled with bare | ⟨before, c, rfl, bare⟩ | ends
      · exact .inl fun mem => (List.mem_append.mp mem).elim quiet bare
      · refine .inr (.inl ⟨front ++ before, c, (List.append_assoc ..).symm, ?_⟩)
        exact fun mem => (List.mem_append.mp mem).elim quiet bare
      · exact .inr (.inr ends)

theorem control_steps (kind : letter = 'c' ∨ letter = 'C' ∨ letter = 'M')
    (rest : p.rest = '\\' :: letter :: more) (framed : p.frames ≠ []) :
    Steps p (p.control letter (0 < p.classDepth)) := by
  have ascii : isAscii letter = true := by rcases kind with rfl | rfl | rfl <;> rfl
  have one := utf8Size_ascii ascii
  have two : len ['\\', letter] = 2 := by
    simp only [len_cons, len_nil, marks_utf8Size]
    omega
  have short : ∀ {reason : String}, Steps p (p.takeAs 2 fun _ => .refused reason) :=
    takeAs_refused (rest : p.rest = ['\\', letter] ++ more) two (by simp) framed
  unfold Pieces.control Pieces.controlPrefix
  by_cases plain : letter = 'c'
  · rw [if_pos plain]
    have split : p.rest = '\\' :: ([letter] ++ more) := rest
    have long : 1 + len [letter] = 2 := by rw [len_cons, len_nil, one]
    exact control_target split long (by simp) (by rw [plain]; decide) framed
  · rw [if_neg plain]
    by_cases upper : letter = 'C'
    · rw [if_pos upper, show sliceFrom p.rest 2 = some more by
        rw [rest]; exact sliceFrom_append two]
      simp only [Option.bind_eq_bind, Option.bind_some]
      by_cases dashed : more.head? = some '-'
      · rw [if_pos dashed]
        obtain ⟨target, rfl⟩ : ∃ target, more = '-' :: target := by
          cases more with
          | nil => cases dashed
          | cons c target =>
            cases dashed
            exact ⟨target, rfl⟩
        have split : p.rest = '\\' :: ([letter, '-'] ++ target) := rest
        have long : 1 + len [letter, '-'] = 3 := by
          simp only [len_cons, len_nil, marks_utf8Size]
          omega
        exact control_target split long (by simp) (by rw [upper]; decide) framed
      · rw [if_neg dashed]
        exact short
    · rw [if_neg upper]
      exact short

/-- The digits of an escape: all of them, and where they end. -/
theorem digits_run (digit : letter.isDigit = true) :
    ∃ digits tail, letter :: more = digits ++ tail ∧ digits ≠ [] ∧
      (∀ c ∈ digits, c.isDigit = true) ∧
      (find (fun c => !c.isDigit) (letter :: more)).getD (len (letter :: more)) = len digits := by
  obtain ⟨digits, tail, split, before, long, -⟩ :=
    find_getD (fun c => !c.isDigit) (letter :: more)
  refine ⟨digits, tail, split, ?_, ?_, long⟩
  · rintro rfl
    have one := letter.utf8Size_pos
    cases found : find (fun c => !c.isDigit) more with
    | none => simp [find, digit, found] at long; omega
    | some place => simp [find, digit, found] at long; omega
  · intro c mem
    simpa using before c mem

theorem octal_steps (digit : letter.isDigit = true) (rest : p.rest = '\\' :: letter :: more)
    (framed : p.frames ≠ []) : MaySteps p (p.octal (0 < p.classDepth)) := by
  have slash : ('\\' : Char).utf8Size = 1 := rfl
  obtain ⟨digits, tail, split, -, numeric, long⟩ :
      ∃ digits tail, letter :: more = digits ++ tail ∧ _ := digits_run digit
  have ascii : ∀ c ∈ digits, isAscii c = true := fun c mem => isAscii_of_isDigit (numeric c mem)
  have sized := len_ascii ascii
  have after : sliceFrom p.rest 1 = some (letter :: more) := by rw [rest, sliceFrom_one slash]
  have decimal : sliceTo (letter :: more) (len digits) = some digits := by
    rw [split]
    exact sliceTo_append rfl
  have firstLen : len (digits.take 3) = min (len digits) 3 := by
    rw [len_ascii fun c mem => ascii c (List.mem_of_mem_take mem), sized, List.length_take]
    omega
  have first : sliceTo (letter :: more) (min (len digits) 3) = some (digits.take 3) := by
    have cut : letter :: more = digits.take 3 ++ (digits.drop 3 ++ tail) := by
      rw [← List.append_assoc, List.take_append_drop, split]
    rw [cut]
    exact sliceTo_append firstLen
  unfold Pieces.octal
  simp only [Option.bind_eq_bind]
  rw [after, Option.bind_some, long, decimal, Option.bind_some]
  split
  · exact .inl rfl
  · rw [first, Option.bind_some]
    obtain ⟨octal, others, cut, octalDigits, octalLong, -⟩ :=
      find_getD (fun c => !(decide ('0' ≤ c) && decide (c ≤ '7'))) (digits.take 3)
    rw [firstLen] at octalLong
    rw [octalLong]
    have whole : letter :: more = octal ++ (others ++ (digits.drop 3 ++ tail)) := by
      rw [← List.append_assoc octal, ← cut, ← List.append_assoc, List.take_append_drop, split]
    split
    · have one := utf8Size_ascii (isAscii_of_isDigit digit)
      rw [Pieces.take_one rest slash, Option.bind_some, Pieces.takeAs_one rfl one]
      refine .inr ⟨_, rfl, .bare rest (.inr ?_)⟩
      simp [Char.isAlphanum, digit]
    · rename_i some
      have octalFilled : octal ≠ [] := by
        rintro rfl
        exact some rfl
      have reads : p.rest = '\\' :: (octal ++ (others ++ (digits.drop 3 ++ tail))) := by
        rw [rest, whole]
      have cutAt : sliceTo (letter :: more) (len octal) = .some octal := by
        rw [whole]
        exact sliceTo_append rfl
      rw [cutAt, Option.bind_some]
      have taken : len ('\\' :: octal) = 1 + len octal := by rw [len_cons, slash]
      have front : p.rest = '\\' :: octal ++ (others ++ (digits.drop 3 ++ tail)) := reads
      rw [Pieces.takeAs_append front taken]
      refine .inr ⟨_, rfl, ?_⟩
      dsimp only
      split
      · refine .char reads octalFilled (by omega) (.inl fun mem => ?_)
        have digit := octalDigits _ (List.mem_of_mem_tail mem)
        revert digit
        decide
      · split
        · exact .refused (by simp) front framed
        · exact .refused (by simp) front framed

theorem plainEscape_steps (rest : p.rest = '\\' :: letter :: more) (ascii : isAscii letter = true)
    (named : letter ≠ 'k' ∧ letter ≠ 'g') (framed : p.frames ≠ []) :
    Steps p (p.plainEscape letter (0 < p.classDepth)) := by
  obtain ⟨frame, outer, frames⟩ := List.exists_cons_of_ne_nil framed
  have head : p.frames.head? = some frame := by rw [frames, List.head?_cons]
  have split : p.rest = ['\\', letter] ++ more := rest
  have long : len ['\\', letter] = 1 + letter.utf8Size := by
    simp only [len_cons, len_nil, marks_utf8Size]
    omega
  unfold Pieces.plainEscape Pieces.frame
  simp only [Option.bind_eq_bind]
  rw [Pieces.take_append split long, Option.bind_some, head, Option.bind_some]
  exact .mk rfl (.escape rest ascii head named)

theorem namedReference_steps (outside : p.classDepth = 0) (kind : letter = 'k' ∨ letter = 'g')
    (rest : p.rest = '\\' :: letter :: more) (framed : p.frames ≠ []) :
    p.namedReference letter (letter :: more) = some none ∧ readDelimited more = some none ∨
      ∃ read, p.namedReference letter (letter :: more) = some (some read) ∧
        Reads p read.1 read.2 := by
  have one : letter.utf8Size = 1 := by rcases kind with rfl | rfl <;> rfl
  obtain ⟨frame, outer, frames⟩ := List.exists_cons_of_ne_nil framed
  have head : p.frames.head? = some frame := by rw [frames, List.head?_cons]
  unfold Pieces.namedReference Pieces.frame
  simp only [Option.bind_eq_bind]
  rw [sliceFrom_one one, Option.bind_some]
  rcases readDelimited_cases more with nothing | ⟨opens, name, closes, back, split, delimited,
    inside, read⟩
  · rw [nothing]
    exact .inl ⟨rfl, rfl⟩
  · have whole : p.rest = ('\\' :: letter :: opens :: (name ++ [closes])) ++ back := by
      rw [rest, split]
      simp
    obtain ⟨opening, closing⟩ := delimited.utf8Size
    have long : len ('\\' :: letter :: opens :: (name ++ [closes])) = 2 + (len name + 2) := by
      simp only [len_cons, len_append, len_nil, marks_utf8Size]
      omega
    rw [read, Option.bind_some]
    dsimp only
    rw [Pieces.take_append whole long, Option.bind_some]
    dsimp only
    rw [head, Option.bind_some]
    split
    · exact .inr ⟨_, rfl, .refused (by simp) whole framed⟩
    · exact .inr ⟨_, rfl, .namedReference outside kind (by rw [rest, split]) delimited inside⟩

theorem numberedReference_steps (outside : p.classDepth = 0) (digit : letter.isDigit = true)
    (rest : p.rest = '\\' :: letter :: more) (framed : p.frames ≠ []) :
    Steps p (p.numberedReference (letter :: more)) := by
  have slash : ('\\' : Char).utf8Size = 1 := rfl
  obtain ⟨frame, outer, frames⟩ := List.exists_cons_of_ne_nil framed
  have head : p.frames.head? = some frame := by rw [frames, List.head?_cons]
  obtain ⟨digits, tail, split, filled, numeric, long⟩ :
      ∃ digits tail, letter :: more = digits ++ tail ∧ _ := digits_run digit
  have whole : p.rest = '\\' :: digits ++ tail := by
    rw [rest, split]
    rfl
  have sized : len ('\\' :: digits) = 1 + len digits := by rw [len_cons, slash]
  unfold Pieces.numberedReference Pieces.frame
  simp only [Option.bind_eq_bind]
  rw [long, Pieces.take_append whole sized, Option.bind_some, head, Option.bind_some]
  split
  · exact .mk rfl (.refused (by simp) whole framed)
  · exact .mk rfl (.numberedReference outside filled whole numeric)

theorem reference_steps (rest : p.rest = '\\' :: letter :: more) (ascii : isAscii letter = true)
    (named : letter = 'k' ∨ letter = 'g' → p.classDepth = 0 ∧ readDelimited more ≠ some none)
    (framed : p.frames ≠ []) : Steps p (p.reference letter (letter :: more) (0 < p.classDepth)) := by
  unfold Pieces.reference
  by_cases inClass : 0 < p.classDepth
  · have other : letter ≠ 'k' ∧ letter ≠ 'g' := by
      constructor
      · intro is
        have outside := (named (.inl is)).1
        omega
      · intro is
        have outside := (named (.inr is)).1
        omega
    rw [if_pos (by simpa using inClass)]
    exact plainEscape_steps rest ascii other framed
  · have outside : p.classDepth = 0 := by omega
    rw [if_neg (by simpa using inClass)]
    by_cases kind : letter = 'k' ∨ letter = 'g'
    · rw [if_pos kind]
      rcases namedReference_steps outside kind rest framed with ⟨-, nothing⟩ | ⟨read, same, reads⟩
      · exact absurd nothing (named kind).2
      · rw [same]
        exact .mk rfl reads
    · rw [if_neg kind]
      by_cases digit : letter.isDigit = true
      · rw [if_pos digit]
        exact numberedReference_steps outside digit rest framed
      · rw [if_neg digit]
        exact plainEscape_steps rest ascii (not_or.mp kind) framed

/-- What an escape by name means is told by whether a name stands there. -/
theorem escapeHasMeaning_named (kind : letter = 'k' ∨ letter = 'g') {inClass meant : Bool}
    (told : escapeHasMeaning letter inClass (letter :: more) = some meant) :
    meant = true → inClass = false ∧ readDelimited more ≠ some none := by
  have one : letter.utf8Size = 1 := by rcases kind with rfl | rfl <;> rfl
  rintro rfl
  unfold escapeHasMeaning both at told
  rw [if_pos kind, sliceFrom_one one] at told
  cases inClass with
  | true => cases told
  | false =>
    refine ⟨rfl, fun nothing => ?_⟩
    simp only [Bool.not_false, if_true, Option.bind_eq_bind, Option.bind_some] at told
    rw [nothing] at told
    cases told

/-- The meaning of an escape is always told. -/
theorem escapeHasMeaning_total (ascii : isAscii letter = true) (inClass : Bool) :
    ∃ meant, escapeHasMeaning letter inClass (letter :: more) = some meant := by
  have one := utf8Size_ascii ascii
  unfold escapeHasMeaning both
  split
  · rw [sliceFrom_one one]
    split
    · rcases readDelimited_cases more with nothing | ⟨opens, name, closes, back, -, -, -, read⟩
      · exact ⟨false, by simp [nothing]⟩
      · exact ⟨true, by simp [read]⟩
    · exact ⟨false, rfl⟩
  · split
    · exact ⟨_, braced_ascii ascii⟩
    · split
      · exact ⟨_, rfl⟩
      · exact ⟨_, rfl⟩

theorem letterEscape_steps (rest : p.rest = '\\' :: letter :: more) (framed : p.frames ≠ []) :
    Steps p (p.letterEscape letter (letter :: more) (0 < p.classDepth)) := by
  have slash : ('\\' : Char).utf8Size = 1 := rfl
  have bare : isAscii letter = false ∨ letter.isAlphanum = true →
      Steps p ((p.take 1).bind fun taken =>
        taken.2.takeAs letter.utf8Size (.literal · (0 < p.classDepth))) := by
    intro plain
    rw [Pieces.take_one rest slash, Option.bind_some]
    rw [Pieces.takeAs_one rfl rfl]
    exact .mk rfl (.bare rest plain)
  unfold Pieces.letterEscape
  by_cases digit : letter.isDigit = true
  · have ascii := isAscii_of_isDigit digit
    have other : letter = 'k' ∨ letter = 'g' → p.classDepth = 0 ∧ readDelimited more ≠ some none := by
      rintro (rfl | rfl) <;> cases digit
    rw [if_pos digit]
    rcases octal_steps digit rest framed with nothing | ⟨read, same, reads⟩
    · rw [nothing]
      exact reference_steps rest ascii other framed
    · rw [same]
      exact .mk rfl reads
  · rw [if_neg digit]
    by_cases ascii : isAscii letter = true
    · simp only [ascii, Bool.not_true, Bool.false_eq_true, if_false]
      unfold both
      by_cases alpha : letter.isAlpha = true
      · obtain ⟨meant, told⟩ : ∃ meant,
            escapeHasMeaning letter (0 < p.classDepth) (letter :: more) = some meant :=
          escapeHasMeaning_total ascii _
        rw [if_pos alpha, told]
        cases meant with
        | false => exact bare (.inr (by simp [Char.isAlphanum, alpha]))
        | true =>
          refine reference_steps rest ascii (fun kind => ?_) framed
          have known := escapeHasMeaning_named kind told rfl
          have outside : ¬0 < p.classDepth := by simpa using known.1
          exact ⟨by omega, known.2⟩
      · have other : letter = 'k' ∨ letter = 'g' →
            p.classDepth = 0 ∧ readDelimited more ≠ some none := by
          rintro (rfl | rfl) <;> exact absurd rfl alpha
        rw [if_neg alpha]
        exact reference_steps rest ascii other framed
    · have plain : isAscii letter = false := by simpa using ascii
      simp only [plain]
      exact bare (.inl plain)

theorem escape_steps {tail : Text} (rest : p.rest = '\\' :: tail) (framed : p.frames ≠ []) :
    Steps p p.escape := by
  have slash : ('\\' : Char).utf8Size = 1 := rfl
  have after : sliceFrom p.rest 1 = some tail := by rw [rest, sliceFrom_one slash]
  unfold Pieces.escape
  simp only [Option.bind_eq_bind]
  rw [after, Option.bind_some]
  cases tail with
  | nil =>
    simp only [List.head?_nil]
    rw [Pieces.takeAs_one rest slash]
    exact .mk rfl (.trailing rest)
  | cons letter more =>
    simp only [List.head?_cons]
    have onward : Steps p (p.unbracedEscape letter (letter :: more) (0 < p.classDepth)) := by
      unfold Pieces.unbracedEscape
      split
      · rename_i kind
        exact control_steps kind rest framed
      · exact letterEscape_steps rest framed
    have question : ∀ (kind : Bool), (kind = true → isAscii letter = true) →
        both kind (braced (letter :: more)) = some (kind && decide (more.head? = some '{')) := by
      intro kind ascii
      cases kind with
      | false => rfl
      | true => exact braced_ascii (ascii rfl)
    have brace : more.head? = some '{' → ∃ back, more = '{' :: back := by
      intro is
      cases more with
      | nil => cases is
      | cons c back =>
        cases is
        exact ⟨back, rfl⟩
    rw [question (letter = 'x') (by intro is; simp at is; subst is; rfl), Option.bind_some]
    split
    · rename_i hex
      simp only [Bool.and_eq_true, decide_eq_true_eq] at hex
      have split : p.rest = ['\\', letter] ++ more := rest
      refine takeAs_refused split ?_ (by simp) framed
      rw [hex.1]
      rfl
    · rw [question (letter = 'p' ∨ letter = 'P') (by
        intro is; simp at is; rcases is with rfl | rfl <;> rfl), Option.bind_some]
      split
      · rename_i prop
        simp only [Bool.and_eq_true, decide_eq_true_eq] at prop
        obtain ⟨back, rfl⟩ := brace prop.2
        rcases property_steps prop.1 rest with nothing | ⟨read, same, reads⟩
        · rw [nothing, Option.bind_some]
          exact onward
        · rw [same, Option.bind_some]
          exact .mk rfl reads
      · rw [question (letter = 'u') (by intro is; simp at is; subst is; rfl), Option.bind_some]
        split
        · rename_i code
          simp only [Bool.and_eq_true, decide_eq_true_eq] at code
          obtain ⟨rfl, is⟩ := code
          obtain ⟨back, rfl⟩ := brace is
          rcases codePoints_steps rest with nothing | ⟨read, same, reads⟩
          · rw [nothing, Option.bind_some]
            exact onward
          · rw [same, Option.bind_some]
            exact .mk rfl reads
        · exact onward

end Escapes

/-! ## Groups -/

/-- Where a comment in a group ends. -/
theorem commentLenFrom_eq (text : Text) (escaped : Bool) (place : Nat) :
    text = (commentSplit text escaped).1 ++ (commentSplit text escaped).2 ∧
      commentLenFrom text escaped place = place + len (commentSplit text escaped).1 := by
  induction text generalizing escaped place with
  | nil => exact ⟨rfl, rfl⟩
  | cons c rest ih =>
    unfold commentSplit commentLenFrom
    by_cases ends : c = ')' ∧ escaped = false
    · obtain ⟨rfl, rfl⟩ := ends
      exact ⟨rfl, rfl⟩
    · by_cases slashed : c = '\\'
      · obtain ⟨whole, long⟩ := ih (!escaped) (place + c.utf8Size)
        simp only [slashed, decide_true, Bool.true_and, if_true]
        rw [if_neg fun both => absurd both.1 (by decide)]
        rw [slashed] at long
        exact ⟨by rw [List.cons_append, ← whole], by rw [long, len_cons]; omega⟩
      · obtain ⟨whole, long⟩ := ih false (place + c.utf8Size)
        rw [if_neg slashed, if_neg ends, if_neg ends]
        simp only [slashed, decide_false, Bool.false_and]
        exact ⟨by rw [List.cons_append, ← whole], by rw [long, len_cons]; omega⟩

section Groups

variable {p : Pieces} {frame : Frame} {outer : List Frame} {option : Text}

/-- The openings `Pieces::group` tells apart at its end are ASCII. -/
theorem openGroup_steps (outside : p.classDepth = 0) (framed : p.frames = frame :: outer)
    (rest : p.rest = '(' :: '?' :: option) : Steps p (p.openGroup option) := by
  have head : p.frames.head? = some frame := by rw [framed, List.head?_cons]
  let openers : List Text := [['<', '='], ['<', '!'], ['='], ['!'], ['>']]
  obtain ⟨opener, more, split, kind, long⟩ : ∃ opener more, option = opener ++ more ∧
      opener ∈ openers ++ [[]] ∧
      ((openers.find? (· <+: option)).map fun opener => 2 + len opener).getD 2 = 2 + len opener := by
    cases found : openers.find? (· <+: option) with
    | none => exact ⟨[], option, rfl, by simp, rfl⟩
    | some opener =>
      have starts : opener <+: option := by simpa using List.find?_some found
      obtain ⟨more, same⟩ := starts
      exact ⟨opener, more, same.symm,
        List.mem_append_left _ (List.mem_of_find?_eq_some found), rfl⟩
  have whole : p.rest = ('(' :: '?' :: opener) ++ more := by
    rw [rest, split]
    rfl
  have sized : len ('(' :: '?' :: opener) = 2 + len opener := by
    simp only [len_cons, marks_utf8Size]
    omega
  have cut : sliceTo option (2 + len opener - 2) = some opener := by
    rw [split]
    exact sliceTo_append (by omega)
  have opened : ∀ inner : Frame, inner.extended = frame.extended ∧
      inner.ignoreCase = frame.ignoreCase ∧ inner.charset = frame.charset →
      Steps p (Pieces.takeAs { p with frames := inner :: p.frames } (2 + len opener) .open) :=
    fun inner same => .mk (Pieces.takeAs_append whole sized)
      (.open outside head (by rw [rest, split]) kind same)
  unfold Pieces.openGroup Pieces.openFrame Pieces.frame
  simp only [Option.bind_eq_bind]
  rw [head, Option.bind_some, Option.map_some, Option.bind_some]
  change Steps p ((sliceTo option (((openers.find? (· <+: option)).map fun opener =>
    2 + len opener).getD 2 - 2)).bind _)
  rw [long, cut, Option.bind_some]
  split
  · exact opened _ ⟨rfl, rfl, rfl⟩
  · split
    · exact opened _ ⟨rfl, rfl, rfl⟩
    · split
      · refine .mk (Pieces.takeAs_append whole sized) (.refused (by simp) whole ?_)
        simp
      · exact opened frame ⟨rfl, rfl, rfl⟩

/-- What `read_option_letters` answers: letters before `:` or `)`, or nothing. -/
theorem readOptionLetters_cases (option : Text) :
    readOptionLetters option = some none ∨ ∃ letters closes more,
      option = letters ++ closes :: more ∧ (∀ c ∈ letters, c.isAlphanum = true ∨ c = '-') ∧
        (closes = ':' ∨ closes = ')' ∧ letters ≠ []) ∧
        readOptionLetters option = some (some letters) := by
  unfold readOptionLetters
  cases found : find (fun c => !c.isAlphanum && decide (c ≠ '-')) option with
  | none => exact .inl rfl
  | some place =>
    obtain ⟨letters, closes, more, split, long, -, before⟩ := find_some found
    have from_ : sliceFrom option place = some (closes :: more) := by
      rw [split]
      exact sliceFrom_append long
    have to_ : sliceTo option place = some letters := by
      rw [split]
      exact sliceTo_append long
    simp only [Option.bind_eq_bind]
    rw [from_, to_]
    simp only [Option.bind_some]
    by_cases ends : (decide ((closes :: more).head? = some ':') ||
        decide ((closes :: more).head? = some ')') && decide (0 < place)) = true
    · rw [if_pos ends]
      refine .inr ⟨letters, closes, more, split, ?_, ?_, rfl⟩
      · intro c mem
        have told := before c mem
        simp only [Bool.and_eq_false_iff, Bool.not_eq_false', decide_eq_false_iff_not,
          not_not] at told
        exact told
      · simp only [List.head?_cons, Option.some.injEq, Bool.or_eq_true, decide_eq_true_eq,
          Bool.and_eq_true] at ends
        rcases ends with colon | ⟨paren, filled⟩
        · exact .inl colon
        · refine .inr ⟨paren, ?_⟩
          rintro rfl
          rw [← long] at filled
          exact absurd filled (by simp)
    · rw [if_neg ends]
      exact .inl rfl

theorem applyOptions_steps {letters more : Text} {closes : Char} (outside : p.classDepth = 0)
    (framed : p.frames = frame :: outer)
    (rest : p.rest = '(' :: '?' :: (letters ++ closes :: more))
    (ends : closes = ':' ∨ closes = ')' ∧ letters ≠ []) : Steps p (p.applyOptions letters) := by
  have last : closes.utf8Size = 1 := by rcases ends with rfl | ⟨rfl, -⟩ <;> rfl
  have front : p.rest = ('(' :: '?' :: letters) ++ closes :: more := rest
  have whole : p.rest = ('(' :: '?' :: (letters ++ [closes])) ++ more := by
    rw [rest]
    simp
  have closed : sliceFrom p.rest (2 + len letters) = some (closes :: more) := by
    rw [front]
    exact sliceFrom_append (by simp only [len_cons, marks_utf8Size]; omega)
  have sized : len ('(' :: '?' :: (letters ++ [closes])) = 3 + len letters := by
    simp only [len_cons, len_append, len_nil, marks_utf8Size]
    omega
  unfold Pieces.applyOptions
  simp only [Option.bind_eq_bind]
  rw [closed]
  simp only [Option.bind_some, List.head?_cons]
  have settled : ∀ q : Pieces,
      q = { p with frames := frame :: if closes = ':' then frame :: outer else outer } →
      Steps p (if areKnownOptions letters = true then
        (q.setFrame fun frame => Pieces.optionLetters true frame letters).bind fun p =>
          p.takeAs (3 + len letters) fun _ => .options letters (closes = ':')
        else q.takeAs (3 + len letters) fun _ => .refused undefinedOption) := by
    rintro q rfl
    split
    · rename_i known
      unfold Pieces.setFrame
      dsimp only
      rw [Option.bind_some]
      exact .mk (Pieces.takeAs_append whole sized) (.options outside framed rest known ends)
    · refine .mk (Pieces.takeAs_append whole sized) (.refused (by simp) whole ?_)
      simp
  by_cases colon : closes = ':'
  · rw [if_pos (by simpa using colon), Pieces.openFrame, Pieces.frame, framed, List.head?_cons,
      Option.map_some, Option.bind_some]
    exact settled _ (by rw [if_pos colon])
  · rw [if_neg (by simpa using colon)]
    exact settled p (by rw [if_neg colon, ← framed])

theorem namedCondition_steps (outside : p.classDepth = 0) (framed : p.frames = frame :: outer)
    (rest : p.rest = '(' :: '?' :: option) : MaySteps p (p.namedCondition option) := by
  have head : p.frames.head? = some frame := by rw [framed, List.head?_cons]
  unfold Pieces.namedCondition Pieces.openFrame Pieces.frame
  simp only [Option.bind_eq_bind]
  cases stripped : stripPrefix ['('] option with
  | none => exact .inl rfl
  | some inside =>
    have opening : option = '(' :: inside := stripPrefix_iff.mp stripped
    dsimp only
    rcases readDelimited_cases inside with nothing | ⟨opens, name, closes, more, split, delimited,
      within_, read⟩
    · rw [nothing]
      exact .inl rfl
    · obtain ⟨one, two⟩ := delimited.utf8Size
      have cut : option = ('(' :: opens :: (name ++ [closes])) ++ more := by
        rw [opening, split]
        simp
      have behind : sliceFrom option (1 + (len name + 2)) = some more := by
        rw [cut]
        refine sliceFrom_append ?_
        simp only [len_cons, len_append, len_nil, marks_utf8Size]
        omega
      rw [read, Option.bind_some]
      dsimp only
      rw [behind, Option.bind_some]
      split
      · rename_i closed
        obtain ⟨back, rfl⟩ : ∃ back, more = ')' :: back := by
          cases more with
          | nil => cases closed
          | cons c back =>
            cases closed
            exact ⟨back, rfl⟩
        have whole : p.rest = ('(' :: '?' :: '(' :: opens :: (name ++ [closes, ')'])) ++ back := by
          rw [rest, cut]
          simp
        have sized : len ('(' :: '?' :: '(' :: opens :: (name ++ [closes, ')'])) =
            4 + (len name + 2) := by
          simp only [len_cons, len_append, len_nil, marks_utf8Size]
          omega
        rw [head, Option.map_some, Option.bind_some]
        have opened : { p with frames := frame :: p.frames }.rest =
            ('(' :: '?' :: '(' :: opens :: (name ++ [closes, ')'])) ++ back := whole
        rw [Pieces.takeAs_append opened sized]
        refine .inr ⟨_, rfl, .namedCondition outside head ?_ delimited within_⟩
        rw [rest, cut]
        simp
      · exact .inl rfl

theorem namedGroup_steps (outside : p.classDepth = 0) (framed : p.frames = frame :: outer)
    (rest : p.rest = '(' :: '?' :: option) : MaySteps p (p.namedGroup option) := by
  have head : p.frames.head? = some frame := by rw [framed, List.head?_cons]
  unfold Pieces.namedGroup Pieces.openFrame Pieces.frame
  simp only [Option.bind_eq_bind]
  split
  · exact .inl rfl
  · rename_i around
    rcases readDelimited_cases option with nothing | ⟨opens, name, closes, more, split, delimited,
      within_, read⟩
    · rw [nothing]
      exact .inl rfl
    · obtain ⟨one, two⟩ := delimited.utf8Size
      have whole : p.rest = ('(' :: '?' :: opens :: (name ++ [closes])) ++ more := by
        rw [rest, split]
        simp
      have sized : len ('(' :: '?' :: opens :: (name ++ [closes])) = 2 + (len name + 2) := by
        simp only [len_cons, len_append, len_nil, marks_utf8Size]
        omega
      rw [read, Option.bind_some]
      dsimp only
      rw [Pieces.take_append whole sized, Option.bind_some]
      dsimp only
      rw [head, Option.bind_some, Option.map_some, Option.bind_some]
      split
      · exact .inr ⟨_, rfl, .refused (by simp) whole (by simp)⟩
      · split
        · exact .inr ⟨_, rfl, .refused (by simp) whole (by simp)⟩
        · refine .inr ⟨_, rfl, .namedGroup outside head (by rw [rest, split]) delimited within_ ?_⟩
          rw [← split]
          exact not_or.mp around

theorem namedOrOptions_steps (outside : p.classDepth = 0) (framed : p.frames = frame :: outer)
    (rest : p.rest = '(' :: '?' :: option) : Steps p (p.namedOrOptions option) := by
  unfold Pieces.namedOrOptions
  simp only [Option.bind_eq_bind]
  rcases namedCondition_steps outside framed rest with nothing | ⟨read, same, reads⟩
  · rw [nothing, Option.bind_some]
    dsimp only
    rcases namedGroup_steps outside framed rest with nothing | ⟨read, same, reads⟩
    · rw [nothing, Option.bind_some]
      dsimp only
      rcases readOptionLetters_cases option with nothing | ⟨letters, closes, more, split, -, ends, read⟩
      · rw [nothing, Option.bind_some]
        exact openGroup_steps outside framed rest
      · rw [read, Option.bind_some]
        exact applyOptions_steps outside framed (by rw [rest, split]) ends
    · rw [same, Option.bind_some]
      exact .mk rfl reads
  · rw [same, Option.bind_some]
    exact .mk rfl reads

theorem group_steps {inside : Text} (outside : p.classDepth = 0) (framed : p.frames = frame :: outer)
    (rest : p.rest = '(' :: inside) : Steps p p.group := by
  have head : p.frames.head? = some frame := by rw [framed, List.head?_cons]
  have filled : p.frames ≠ [] := by simp [framed]
  have paren : ('(' : Char).utf8Size = 1 := rfl
  have mark : ('?' : Char).utf8Size = 1 := rfl
  unfold Pieces.group
  simp only [Option.bind_eq_bind]
  rw [show sliceFrom p.rest 1 = some inside by rw [rest, sliceFrom_one paren], Option.bind_some]
  cases stripped : stripPrefix ['?'] inside with
  | none =>
    dsimp only
    rw [Pieces.take_one rest paren, Option.bind_some]
    unfold Pieces.openFrame Pieces.frame
    dsimp only
    rw [head]
    refine .mk rfl (.plainGroup outside head rest fun is => ?_)
    cases inside with
    | nil => cases is
    | cons c back =>
      cases is
      cases stripped
  | some option =>
    have opening : inside = '?' :: option := stripPrefix_iff.mp stripped
    subst opening
    have one : ∀ {reason : String}, Steps p (p.takeAs 1 fun _ => .refused reason) := by
      intro reason
      have split : p.rest = ['('] ++ '?' :: option := rest
      exact takeAs_refused split rfl (by simp) filled
    dsimp only
    split
    · rename_i comment
      obtain ⟨more, rfl⟩ : ∃ more, option = '#' :: more := by
        cases option with
        | nil => cases comment
        | cons c back =>
          cases comment
          exact ⟨back, rfl⟩
      have hash : ('#' : Char).utf8Size = 1 := rfl
      obtain ⟨split, -⟩ := commentLenFrom_eq more false 0
      have long : commentLen p.rest = 3 + len (commentSplit more false).1 := by
        rw [commentLen, rest]
        exact (commentLenFrom_eq more false 3).2
      have whole : p.rest =
          ('(' :: '?' :: '#' :: (commentSplit more false).1) ++ (commentSplit more false).2 := by
        rw [rest]
        simp only [List.cons_append]
        rw [← split]
      rw [long]
      refine .mk (Pieces.takeAs_append whole ?_) (.groupComment outside rest)
      simp only [len_cons]
      omega
    · split
      · exact one
      · split
        · exact one
        · have question : ∃ answer, both (option.head? = some '(')
              ((sliceFrom option 1).map fun rest => rest.head?.any Char.isDigit) = some answer ∧
              (answer = true → ∃ digit back, option = '(' :: digit :: back ∧
                digit.isDigit = true) := by
            unfold both
            by_cases opens : option.head? = some '('
            · obtain ⟨back, rfl⟩ : ∃ back, option = '(' :: back := by
                cases option with
                | nil => cases opens
                | cons c back =>
                  cases opens
                  exact ⟨back, rfl⟩
              refine ⟨_, by rw [if_pos (by simp), sliceFrom_one paren, Option.map_some], ?_⟩
              intro digit
              cases back with
              | nil => cases digit
              | cons c more => exact ⟨c, more, rfl, digit⟩
            · exact ⟨false, by rw [if_neg (by simpa using opens)], by simp⟩
          obtain ⟨answer, told, meant⟩ := question
          rw [told, Option.bind_some]
          split
          · rename_i yes
            obtain ⟨digit, back, rfl, numeric⟩ := meant yes
            have small := utf8Size_ascii (isAscii_of_isDigit numeric)
            have other : digit ≠ ')' := by
              rintro rfl
              cases numeric
            unfold Pieces.openFrame Pieces.frame
            rw [head, Option.map_some, Option.bind_some]
            cases found : find (· = ')') back with
            | none =>
              have absent : ')' ∉ back := by
                intro mem
                have told := find_none.mp found _ mem
                simp at told
              have lost : find (· = ')') ('(' :: digit :: back) = none := by
                simp [find, other, found]
              rw [lost]
              have whole : p.rest = p.rest ++ [] := by simp
              have full : ('(' :: '?' :: '(' :: digit :: (back ++ [])) = p.rest := by simp [rest]
              refine .mk (Pieces.takeAs_append whole rfl) ?_
              rw [← full]
              exact .numberedCondition outside head (by simp [rest]) numeric absent (.inr ⟨rfl, rfl⟩)
            | some place =>
              obtain ⟨name, c, more, split, long, is, before⟩ := find_some found
              have closes : c = ')' := by simpa using is
              subst closes
              have absent : ')' ∉ name := by
                intro mem
                have told := before _ mem
                simp at told
              have lost : find (· = ')') ('(' :: digit :: back) = some (2 + place) := by
                simp only [find, other, found, decide_false, Bool.false_eq_true, if_false,
                  Option.map_some]
                simp
                omega
              rw [lost]
              have close : (')' : Char).utf8Size = 1 := rfl
              have whole : p.rest = ('(' :: '?' :: '(' :: digit :: (name ++ [')'])) ++ more := by
                rw [rest, split]
                simp
              refine .mk (Pieces.takeAs_append whole ?_)
                (.numberedCondition outside head (by rw [rest, split]; simp) numeric absent
                  (.inl rfl))
              simp only [len_cons, len_append, len_nil, Option.map_some, Option.getD_some]
              omega
          · exact namedOrOptions_steps outside framed rest

end Groups

/-! ## The step -/

section Steps

variable {p : Pieces} {frame : Frame} {outer : List Frame} {c : Char} {more : Text}

/-- What `read_posix_bracket` answers: a bracket that stands there, or nothing. -/
theorem readPosixBracket_cases (text : Text) :
    readPosixBracket text = some none ∨ ∃ body more,
      text = '[' :: ':' :: (body ++ ':' :: ']' :: more) ∧
        readPosixBracket text = some (some (body, len body + 4)) := by
  unfold readPosixBracket
  cases stripped : stripPrefix ['[', ':'] text with
  | none => exact .inl rfl
  | some rest =>
    have opening : text = '[' :: ':' :: rest := stripPrefix_iff.mp stripped
    dsimp only
    cases found : findText [':', ']'] rest with
    | none => exact .inl rfl
    | some place =>
      obtain ⟨body, back, split, long⟩ := findText_some found
      have cut : sliceTo rest place = some body := by
        rw [split, List.append_assoc]
        exact sliceTo_append long
      simp only [Option.bind_eq_bind]
      rw [cut, Option.bind_some]
      split
      · refine .inr ⟨body, back, ?_, by rw [long]⟩
        rw [opening, split]
        simp
      · exact .inl rfl

theorem classPiece_steps (inClass : 0 < p.classDepth) (framed : p.frames = frame :: outer)
    (rest : p.rest = c :: more) (unescaped : c ≠ '\\') : Steps p (p.classPiece c) := by
  have head : p.frames.head? = some frame := by rw [framed, List.head?_cons]
  unfold Pieces.classPiece Pieces.frame
  simp only [Option.bind_eq_bind]
  rcases readPosixBracket_cases p.rest with nothing | ⟨body, back, split, read⟩
  · rw [nothing, Option.bind_some]
    dsimp only
    unfold Pieces.classDepthAfter
    by_cases opens : c = '['
    · rw [if_pos opens, Option.bind_some, if_neg (by omega)]
      exact .mk (Pieces.takeAs_one rest rfl)
        (.classText inClass rest unescaped (.inl ⟨opens, rfl⟩))
    · rw [if_neg opens]
      by_cases closes : c = ']'
      · rw [if_pos closes, if_neg (by omega), Option.bind_some]
        split
        · rename_i last
          rw [closes] at rest
          exact .mk (Pieces.takeAs_one rest rfl) (by
            rw [last]
            exact .classClose (by omega) rest)
        · rename_i inner
          have stays : StaysInClass p.classDepth c (p.classDepth - 1) :=
            .inr (.inl ⟨closes, by omega, by omega⟩)
          exact .mk (Pieces.takeAs_one rest rfl) (.classText inClass rest unescaped stays)
      · rw [if_neg closes, Option.bind_some, if_neg (by omega)]
        exact .mk (Pieces.takeAs_one rest rfl)
          (.classText inClass rest unescaped (.inr (.inr ⟨opens, closes, rfl⟩)))
  · have whole : p.rest = ('[' :: ':' :: (body ++ [':', ']'])) ++ back := by
      rw [split]
      simp
    have sized : len ('[' :: ':' :: (body ++ [':', ']'])) = len body + 4 := by
      simp only [len_cons, len_append, len_nil, marks_utf8Size]
      omega
    rw [read, Option.bind_some]
    dsimp only
    rw [Pieces.take_append whole sized, Option.bind_some]
    dsimp only
    split
    · rename_i known
      rw [head, Option.bind_some]
      exact .mk rfl (.posixBracket inClass split known head)
    · exact .mk rfl (.refused (by simp) whole (by simp [framed]))

/-- Bounds of digits are written with digits and a comma. -/
theorem splitBounds_digits {body : Text} (lower : (splitBounds body).1.all Char.isDigit = true)
    (upper : (splitBounds body).2.all (·.all Char.isDigit) = true) :
    ∀ c ∈ body, c.isDigit = true ∨ c = ',' := by
  intro c mem
  unfold splitBounds at lower upper
  cases cut : splitOnce ',' body with
  | none =>
    rw [cut] at lower
    exact .inl (List.all_eq_true.mp lower c mem)
  | some parts =>
    obtain ⟨front, back⟩ := parts
    rw [cut] at lower upper
    obtain ⟨split, -⟩ := splitOnce_some cut
    rw [split] at mem
    rcases List.mem_append.mp mem with first | later
    · exact .inl (List.all_eq_true.mp lower c first)
    · rcases List.mem_cons.mp later with comma | second
      · exact .inr comma
      · exact .inl (List.all_eq_true.mp (by simpa using upper) c second)

theorem brace_steps (outside : p.classDepth = 0) (rest : p.rest = '{' :: more) :
    Steps p p.brace := by
  have brace : ('{' : Char).utf8Size = 1 := rfl
  have literal : Steps p (p.takeAs 1 fun _ => .literalBrace) :=
    .mk (Pieces.takeAs_one rest brace) (.literalBrace outside rest)
  unfold Pieces.brace readBounds
  simp only [Option.bind_eq_bind]
  cases found : find (· = '}') p.rest with
  | none => exact literal
  | some place =>
    obtain ⟨later, inner, rfl⟩ : ∃ later, find (· = '}') more = some later ∧ 1 + later = place := by
      rw [rest] at found
      simpa [find, brace] using found
    obtain ⟨body, d, back, split, long, is, -⟩ := find_some inner
    have closes : d = '}' := by simpa using is
    subst closes
    have whole : p.rest = ['{'] ++ body ++ '}' :: back := by
      rw [rest, split]
      simp
    have cut : slice p.rest 1 (1 + later) = some body := by
      rw [whole]
      exact slice_append rfl (by rw [long]; rfl)
    dsimp only
    rw [cut, Option.bind_some]
    split
    · rename_i bounds
      simp only [Bool.and_eq_true] at bounds
      rw [Option.bind_some]
      have front : p.rest = ('{' :: (body ++ ['}'])) ++ back := by
        rw [rest, split]
        simp
      refine .mk (Pieces.takeAs_append front ?_)
        (.interval outside (by rw [rest, split]) ⟨bounds.1.2, bounds.2⟩
          (splitBounds_digits bounds.1.2 bounds.2))
      simp only [len_cons, len_append, len_nil, marks_utf8Size]
      omega
    · exact literal

theorem outsidePiece_steps (outside : p.classDepth = 0) (framed : p.frames = frame :: outer)
    (rest : p.rest = c :: more) (unescaped : c ≠ '\\') : Steps p (p.outsidePiece c) := by
  have head : p.frames.head? = some frame := by rw [framed, List.head?_cons]
  unfold Pieces.outsidePiece Pieces.frame
  rw [head, Option.bind_eq_bind, Option.bind_some]
  by_cases opens : c = '['
  · rw [if_pos opens]
    rw [opens] at rest
    exact .mk (Pieces.takeAs_one rest rfl) (.classOpen outside rest)
  rw [if_neg opens]
  by_cases groups : c = '('
  · rw [if_pos groups]
    rw [groups] at rest
    exact group_steps outside framed rest
  rw [if_neg groups]
  by_cases closes : c = ')'
  · rw [if_pos closes]
    rw [closes] at rest
    have kept : p.closeFrame.rest = ')' :: more := by
      rw [← rest, Pieces.closeFrame]
      split <;> rfl
    exact .mk (Pieces.takeAs_one kept rfl) (.close outside rest)
  rw [if_neg closes]
  by_cases braces : c = '{'
  · rw [if_pos braces]
    rw [braces] at rest
    exact brace_steps outside rest
  rw [if_neg braces]
  by_cases repeats : c = '?' ∨ c = '*' ∨ c = '+'
  · rw [if_pos repeats]
    have one : c.utf8Size = 1 := by rcases repeats with rfl | rfl | rfl <;> rfl
    exact .mk (Pieces.takeAs_one rest one) (.quantifier outside rest repeats)
  rw [if_neg repeats]
  by_cases comments : c = '#' ∧ frame.extended = true
  · rw [if_pos comments]
    obtain ⟨rfl, extended⟩ := comments
    have hash : ('#' : Char).utf8Size = 1 := rfl
    cases found : find (· = '\n') more with
    | none =>
      have absent : '\n' ∉ more := by
        intro mem
        have told := find_none.mp found _ mem
        simp at told
      have lost : find (· = '\n') p.rest = none := by
        rw [rest]
        simp [find, found]
      rw [lost]
      have whole : p.rest = '#' :: more ++ [] := by simp [rest]
      refine .mk (Pieces.takeAs_append whole (by rw [rest]; rfl)) ?_
      exact .lineComment outside head extended whole (.inr rfl) fun mem =>
        absent (List.dropLast_subset _ mem)
    | some place =>
      obtain ⟨line, d, back, split, long, is, before⟩ := find_some found
      have ends : d = '\n' := by simpa using is
      subst ends
      have absent : '\n' ∉ line := by
        intro mem
        have told := before _ mem
        simp at told
      have lost : find (· = '\n') p.rest = some (1 + place) := by
        rw [rest]
        simp [find, found, hash]
      have newline : ('\n' : Char).utf8Size = 1 := rfl
      rw [lost]
      have whole : p.rest = '#' :: (line ++ ['\n']) ++ back := by
        rw [rest, split]
        simp
      refine .mk (Pieces.takeAs_append whole ?_)
        (.lineComment outside head extended whole (.inl (by simp)) (by simpa using absent))
      simp only [len_cons, len_append, len_nil, Option.map_some, Option.getD_some]
      omega
  rw [if_neg comments]
  by_cases white : frame.extended = true ∧ isAsciiWhitespace c = true
  · rw [if_pos white]
    have one : c.utf8Size = 1 := by
      have listed : c ∈ [' ', '\t', '\n', '\x0c', '\r'] := by
        simpa [isAsciiWhitespace] using white.2
      simp only [List.mem_cons, List.not_mem_nil, or_false] at listed
      rcases listed with rfl | rfl | rfl | rfl | rfl <;> rfl
    exact .mk (Pieces.takeAs_one rest one) (.space outside head white.1 rest white.2)
  rw [if_neg white]
  refine .mk (Pieces.takeAs_one rest rfl) (.text outside head rest ?_ ?_)
  · simp only [not_or] at repeats
    simp only [List.mem_cons, List.not_mem_nil, or_false, not_or]
    exact ⟨unescaped, opens, groups, closes, braces, repeats⟩
  · intro extended
    refine ⟨fun is => comments ⟨is, extended⟩, ?_⟩
    simpa using fun is => white ⟨extended, is⟩

/-- The reader never panics: where the source is not read to its end, it makes one step of the
grammar. -/
theorem next_steps (p : Pieces) (framed : p.frames ≠ []) :
    p.rest = [] ∧ p.next = some none ∨
      ∃ piece after, p.next = some (some (piece, after)) ∧ Reads p piece after := by
  obtain ⟨frame, outer, frames⟩ := List.exists_cons_of_ne_nil framed
  have some_ : ∀ {answer : Option (Piece × Pieces)}, Steps p answer →
      ∃ piece after, answer.map some = some (some (piece, after)) ∧ Reads p piece after := by
    rintro answer ⟨piece, after, rfl, reads⟩
    exact ⟨piece, after, rfl, reads⟩
  unfold Pieces.next
  cases rest : p.rest with
  | nil => exact .inl ⟨rfl, rfl⟩
  | cons c more =>
    simp only [List.head?_cons]
    right
    split
    · rename_i slash
      rw [slash] at rest
      exact some_ (escape_steps rest framed)
    · rename_i unescaped
      split
      · rename_i inClass
        exact some_ (classPiece_steps inClass frames rest unescaped)
      · rename_i outside
        exact some_ (outsidePiece_steps (by omega) frames rest unescaped)

end Steps

/-- A frame stands when another closes. -/
theorem closeFrame_frames {p : Pieces} (framed : p.frames ≠ []) : p.closeFrame.frames ≠ [] := by
  unfold Pieces.closeFrame
  split
  · rename_i several
    intro none
    have empty := congrArg List.length none
    simp only [List.length_tail, List.length_nil] at empty
    omega
  · exact framed

/-- A step reads at least one character and stops between two, and the outermost frame stands. -/
theorem Reads.advances {p after : Pieces} {piece : Piece} (reads : Reads p piece after)
    (framed : p.frames ≠ []) :
    (∃ taken, taken ≠ [] ∧ p.rest = taken ++ after.rest) ∧ after.frames ≠ [] := by
  cases reads with
  | trailing rest => exact ⟨⟨['\\'], by simp, rest⟩, framed⟩
  | @property letter body more kind rest inside =>
    exact ⟨⟨'\\' :: letter :: '{' :: (body ++ ['}']), by simp, by simp [rest]⟩, framed⟩
  | @codePoints body more rest inside =>
    exact ⟨⟨'\\' :: 'u' :: '{' :: (body ++ ['}']), by simp, by simp [rest]⟩, framed⟩
  | @codePoint body more rest inside =>
    exact ⟨⟨'\\' :: 'u' :: '{' :: (body ++ ['}']), by simp, by simp [rest]⟩, framed⟩
  | char rest filled small paired => exact ⟨⟨'\\' :: _, by simp, rest⟩, framed⟩
  | bare rest plain => exact ⟨⟨['\\', _], by simp, rest⟩, framed⟩
  | @namedReference letter opens closes name more outside kind rest delimited inside =>
    exact ⟨⟨'\\' :: letter :: opens :: (name ++ [closes]), by simp, by simp [rest]⟩, framed⟩
  | numberedReference outside filled rest numeric => exact ⟨⟨'\\' :: _, by simp, rest⟩, framed⟩
  | escape rest ascii head named => exact ⟨⟨['\\', _], by simp, rest⟩, framed⟩
  | @posixBracket body more frame inClass rest known head =>
    exact ⟨⟨'[' :: ':' :: (body ++ [':', ']']), by simp, by simp [rest]⟩, framed⟩
  | classClose inClass rest => exact ⟨⟨[']'], by simp, rest⟩, framed⟩
  | classText inClass rest unescaped stays => exact ⟨⟨[_], by simp, rest⟩, framed⟩
  | classOpen outside rest => exact ⟨⟨['['], by simp, rest⟩, framed⟩
  | close outside rest => exact ⟨⟨[')'], by simp, rest⟩, closeFrame_frames framed⟩
  | literalBrace outside rest => exact ⟨⟨['{'], by simp, rest⟩, framed⟩
  | @interval lower more upper taken outside rest numeric =>
    exact ⟨⟨'{' :: (taken ++ ['}']), by simp, by simp [rest]⟩, framed⟩
  | quantifier outside rest kind => exact ⟨⟨[_], by simp, rest⟩, framed⟩
  | lineComment outside head extended rest ends inside => exact ⟨⟨'#' :: _, by simp, rest⟩, framed⟩
  | space outside head extended rest white => exact ⟨⟨[_], by simp, rest⟩, framed⟩
  | text outside head rest plain read => exact ⟨⟨[_], by simp, rest⟩, framed⟩
  | plainGroup outside head rest plain => exact ⟨⟨['('], by simp, rest⟩, by simp⟩
  | groupComment outside rest =>
    rename_i more
    obtain ⟨split, -⟩ := commentLenFrom_eq more false 0
    refine ⟨⟨'(' :: '?' :: '#' :: (commentSplit more false).1, by simp, ?_⟩, framed⟩
    rw [rest]
    simp only [List.cons_append]
    rw [← split]
  | numberedCondition outside head rest numeric open_ ends =>
    exact ⟨⟨'(' :: '?' :: '(' :: _ :: (_ ++ _), by simp, rest⟩, by simp⟩
  | @namedCondition opens closes name more frame outside head rest delimited inside =>
    exact ⟨⟨'(' :: '?' :: '(' :: opens :: (name ++ [closes, ')']), by simp, by simp [rest]⟩,
      by simp⟩
  | @namedGroup opens closes name more frame outside head rest delimited inside around =>
    exact ⟨⟨'(' :: '?' :: opens :: (name ++ [closes]), by simp, by simp [rest]⟩, by simp⟩
  | @options letters more closes frame outer outside frames rest known ends =>
    exact ⟨⟨'(' :: '?' :: (letters ++ [closes]), by simp, by simp [rest]⟩, by simp⟩
  | «open» outside head rest kind same => exact ⟨⟨'(' :: '?' :: _, by simp, rest⟩, by simp⟩
  | refused filled rest frames => exact ⟨⟨_, filled, rest⟩, frames⟩

end Kobako.Regexp
