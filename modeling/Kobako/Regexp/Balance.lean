import Kobako.Regexp.Lift

/-!
# What the scanner counts

The scanner of `lift_inline_group` beside the reader of `Pieces`. Over a piece that holds no bracket
of its own the scanner is left where the reader is: as deep as there are groups open, and in a class
where the reader is in one. So where the scanner finds the closing of a group of such pieces at the
end of the source, the reader closes the group there too. A comment, a class or a POSIX bracket
within a class, a name, a condition, or what an escape holds behind its letter, with a bracket in
it, is what takes the two apart.
-/

namespace Kobako.Regexp

open Text

/-! ## Pieces that hold a bracket -/

/-- What the scanner counts or enters a class by. -/
def isBracket (c : Char) : Bool := c ∈ ['(', ')', '[', ']']

/-- A piece that is read by its text with a bracket in it that the scanner counts and the reader
does not: in a comment, a condition or a name, in a class, or behind the letter of an escape; and a
piece no pattern is made of. A backslash at the end of a condition by number takes its closing from
the scanner. -/
def Piece.misread : Piece → Text → Bool
  | .refused _, _ => true
  | .comment _, taken =>
    (if "(?#".toList <+: taken then (taken.drop 3).dropLast else taken).any isBracket
  | .namedCondition _ _, taken => (taken.drop 3).dropLast.any isBracket
  | .numberedCondition _, taken => (taken.drop 3).dropLast.any fun c => isBracket c || c = '\\'
  | .namedGroup _ _, taken => (taken.drop 1).any isBracket
  | .posixBracket .., _ => true
  | .classText _, taken => taken = ['['] || (taken.drop 2).any isBracket
  | .plainGroup _, _ | .open _, _ | .options _ _, _ => false
  | _, taken => (taken.drop 2).any isBracket

/-- The pieces a reading goes on to, each with the text it takes, at most `rounds` of them. -/
def Pieces.spell : Nat → Pieces → Option (List (Piece × Text))
  | 0, _ => none
  | rounds + 1, p => do
    match ← p.next with
    | none => some []
    | some (piece, after) =>
      let rest ← spell rounds after
      some ((piece, p.rest.take (p.rest.length - after.rest.length)) :: rest)

/-- A source none of whose pieces is misread. -/
def ReadPlainly (source : Text) (extended : Bool) (captures : Nat) : Prop :=
  ∃ pieces, (Pieces.new source extended captures).spell (source.length + 1) = some pieces ∧
    ∀ read ∈ pieces, read.1.misread read.2 = false

/-! ## The scanner over text without brackets -/

namespace Scanner

variable {s : Scanner} {c : Char} {text : Text}

theorem run_cons (s : Scanner) (c : Char) (text : Text) : s.run (c :: text) = (s.step c).run text :=
  rfl

theorem run_append (s : Scanner) (front back : Text) :
    s.run (front ++ back) = (s.run front).run back := List.foldl_append

/-- A bracket is one of four characters. -/
theorem ne_of_not_isBracket (plain : isBracket c = false) :
    c ≠ '(' ∧ c ≠ ')' ∧ c ≠ '[' ∧ c ≠ ']' := by
  simpa [isBracket] using plain

/-- A character that is no bracket opens and closes nothing. -/
theorem step_plain (s : Scanner) (plain : isBracket c = false) :
    (s.step c).depth = s.depth ∧ (s.step c).inClass = s.inClass := by
  obtain ⟨opens, closes, enters, leaves⟩ := ne_of_not_isBracket plain
  unfold step
  simp only [opens, closes, enters, leaves, false_and, if_false]
  split
  · exact ⟨rfl, rfl⟩
  · split
    · exact ⟨rfl, rfl⟩
    · exact ⟨rfl, rfl⟩

/-- Text without brackets opens and closes nothing. -/
theorem run_plain (s : Scanner) (plain : text.any isBracket = false) :
    (s.run text).depth = s.depth ∧ (s.run text).inClass = s.inClass := by
  induction text generalizing s with
  | nil => exact ⟨rfl, rfl⟩
  | cons c rest ih =>
    rw [List.any_cons, Bool.or_eq_false_iff] at plain
    obtain ⟨depth, inClass⟩ := s.step_plain plain.1
    obtain ⟨later, stays⟩ := ih (s.step c) plain.2
    rw [run_cons]
    exact ⟨later.trans depth, stays.trans inClass⟩

/-- Nothing is escaped behind a character that is no backslash. -/
theorem step_escaped (s : Scanner) (other : c ≠ '\\') : (s.step c).escaped = false := by
  unfold step
  split
  · rfl
  · rename_i unescaped
    have clear : s.escaped = false := by simpa using unescaped
    split
    · exact clear
    · split
      · exact clear
      · split
        · exact clear
        · split
          · exact clear
          · exact clear

/-- Text without brackets that ends in no backslash is passed over. -/
theorem run_passes (s : Scanner) (plain : (text ++ [c]).any isBracket = false)
    (other : c ≠ '\\') : s.run (text ++ [c]) = ⟨s.depth, s.inClass, false⟩ := by
  have same := s.run_plain plain
  have clear : (s.run (text ++ [c])).escaped = false := by
    rw [run_append]
    exact step_escaped _ other
  obtain ⟨depth, inClass⟩ := same
  cases ended : s.run (text ++ [c]) with
  | mk depth' inClass' escaped' =>
    rw [ended] at depth inClass clear
    cases depth
    cases inClass
    cases clear
    rfl

/-- A backslash takes the character behind it. -/
theorem run_escape (unescaped : s.escaped = false) (letter : Char) (tail : Text) :
    s.run ('\\' :: letter :: tail) = s.run tail := by
  obtain ⟨depth, inClass, escaped⟩ := s
  cases unescaped
  rfl

/-- Text without brackets or backslashes is passed over. -/
theorem run_bare (unescaped : s.escaped = false) (plain : text.any isBracket = false)
    (bare : '\\' ∉ text) : s.run text = s := by
  rcases List.eq_nil_or_concat text with rfl | ⟨front, c, rfl⟩
  · rfl
  · rw [List.concat_eq_append] at plain bare ⊢
    have other : c ≠ '\\' := by
      rintro rfl
      exact bare (List.mem_append_right _ List.mem_cons_self)
    rw [run_passes s plain other, ← unescaped]

/-- The depth falls by no more than one at a character. -/
theorem depth_step (s : Scanner) (c : Char) : s.depth - 1 ≤ (s.step c).depth := by
  cases s.step_depth c with
  | inl rises => omega
  | inr closing => omega

/-- The depth does not fall over text without a closing parenthesis. -/
theorem depth_run (s : Scanner) (open_ : ')' ∉ text) : s.depth ≤ (s.run text).depth := by
  induction text generalizing s with
  | nil => exact Int.le_refl _
  | cons c rest ih =>
    rw [List.mem_cons, not_or] at open_
    have first : s.depth ≤ (s.step c).depth := by
      cases s.step_depth c with
      | inl rises => exact rises
      | inr closing => exact absurd closing.1.symm open_.1
    rw [run_cons]
    exact Int.le_trans first (ih (s.step c) open_.2)

/-- What an escape holds behind its letter is passed over, unless the source ends there. -/
theorem run_paired {more : Text} (unescaped : s.escaped = false)
    (plain : text.any isBracket = false) (paired : Paired text more) :
    s.run text = s ∨ more = [] ∧ (s.run text).depth = s.depth := by
  rcases paired with bare | ⟨front, c, rfl, bare⟩ | ends
  · exact .inl (run_bare unescaped plain bare)
  · rw [List.any_append, Bool.or_eq_false_iff] at plain
    rw [run_append, run_bare unescaped plain.1 bare]
    exact .inl (run_escape unescaped c [])
  · exact .inr ⟨ends, (s.run_plain plain).1⟩

end Scanner

/-! ## The scanner beside the reader -/

/-- The scanner stands where the reader does, behind the opening of the group that is the `base`th
open one. -/
structure Tracks (base : Nat) (p : Pieces) (s : Scanner) : Prop where
  /-- The group is open. -/
  open_ : base ≤ p.frames.length
  /-- No class is open in a class. -/
  flat : p.classDepth ≤ 1
  /-- The scanner is as deep, in a class or not, with nothing escaped. -/
  same : s = ⟨(p.frames.length : Int) - base + 1, decide (0 < p.classDepth), false⟩

namespace Tracks

variable {base : Nat} {p after : Pieces} {s : Scanner} {text : Text}

/-- Nothing is escaped between two pieces. -/
theorem unescaped (tracks : Tracks base p s) : s.escaped = false := by
  rw [tracks.same]

/-- A group is open for the scanner. -/
theorem depth_pos (tracks : Tracks base p s) : 0 < s.depth := by
  have open_ := tracks.open_
  rw [tracks.same]
  show (0 : Int) < (p.frames.length : Int) - base + 1
  omega

/-- Outside classes the scanner is outside too. -/
theorem outside (tracks : Tracks base p s) (none : p.classDepth = 0) :
    s = ⟨(p.frames.length : Int) - base + 1, false, false⟩ := by
  have same := tracks.same
  rw [none] at same
  exact same

/-- Where the scanner is left as it was and the reader's groups and class are, it still stands where
the reader does. -/
theorem stays (tracks : Tracks base p s) (passed : s.run text = s)
    (frames : after.frames.length = p.frames.length) (depth : after.classDepth = p.classDepth) :
    Tracks base after (s.run text) := by
  refine ⟨by rw [frames]; exact tracks.open_, by rw [depth]; exact tracks.flat, ?_⟩
  rw [passed, frames, depth]
  exact tracks.same

/-- Where one more group is open for both, the scanner still stands where the reader does. -/
theorem opened (tracks : Tracks base p s) (none : p.classDepth = 0)
    (deeper : s.run text = ⟨s.depth + 1, false, false⟩)
    (frames : after.frames.length = p.frames.length + 1) (depth : after.classDepth = 0) :
    Tracks base after (s.run text) := by
  have open_ := tracks.open_
  refine ⟨by omega, by omega, ?_⟩
  rw [deeper, tracks.outside none, frames, depth]
  have count : ((p.frames.length : Int) - base + 1) + 1 =
      ((p.frames.length + 1 : Nat) : Int) - base + 1 := by omega
  simp only [count]
  rfl

end Tracks

/-- The text a step takes is told by what it leaves. -/
theorem taken_eq {p after : Pieces} {text : Text} (taken : Text)
    (rest : p.rest = taken ++ after.rest) (split : p.rest = text ++ after.rest) : text = taken :=
  List.append_cancel_right (split.symm.trans rest)

/-- Known options are written with letters and `-`. -/
theorem areKnownOptions_mem {letters : Text} (known : areKnownOptions letters = true) :
    ∀ c ∈ letters, c ∈ "imxdau-".toList := by
  intro c mem
  unfold areKnownOptions at known
  cases cut : splitOnce '-' letters with
  | none =>
    rw [cut, Option.getD_none] at known
    simp only [Bool.and_eq_true, List.all_eq_true, decide_eq_true_eq] at known
    exact List.mem_append_left ['-'] (known.1 c mem)
  | some parts =>
    obtain ⟨front, back⟩ := parts
    obtain ⟨split, -⟩ := splitOnce_some cut
    rw [cut, Option.getD_some] at known
    simp only [Bool.and_eq_true, List.all_eq_true, decide_eq_true_eq] at known
    rw [split] at mem
    rcases List.mem_append.mp mem with on | off
    · exact List.mem_append_left ['-'] (known.1 c on)
    · rcases List.mem_cons.mp off with dash | off
      · rw [dash]
        decide
      · have table : ∀ c ∈ "imx-".toList, c ∈ "imxdau-".toList := forall_mem (by decide)
        exact table c (known.2 c off)

/-- The options of a group hold no bracket and no backslash. -/
theorem letters_plain {letters : Text} (known : areKnownOptions letters = true) :
    letters.any isBracket = false ∧ '\\' ∉ letters := by
  have plain : ∀ c ∈ "imxdau-".toList, isBracket c = false := forall_mem (by decide)
  have bare : '\\' ∉ "imxdau-".toList := by decide
  refine ⟨?_, fun mem => bare (areKnownOptions_mem known _ mem)⟩
  rw [List.any_eq_false]
  intro c mem
  rw [plain c (areKnownOptions_mem known c mem)]
  decide

/-- A comment in a group is closed where no backslash takes its parenthesis, as the scanner has it,
or runs to the end of the source. -/
theorem commentSplit_cases (more : Text) (escaped : Bool) :
    (∃ inside, (commentSplit more escaped).1 = inside ++ [')'] ∧
      ∀ s : Scanner, s.inClass = false → s.escaped = escaped → inside.any isBracket = false →
        s.run inside = ⟨s.depth, false, false⟩) ∨
      (commentSplit more escaped).2 = [] := by
  induction more generalizing escaped with
  | nil => exact .inr rfl
  | cons c rest ih =>
    unfold commentSplit
    by_cases closes : c = ')' ∧ escaped = false
    · rw [if_pos closes]
      refine .inl ⟨[], by rw [closes.1]; rfl, ?_⟩
      rintro ⟨depth, inClass, was⟩ rfl same -
      have clear : was = false := same.trans closes.2
      subst clear
      rfl
    · rw [if_neg closes]
      rcases ih (c = '\\' && !escaped) with ⟨inside, split, passes⟩ | ends
      · refine .inl ⟨c :: inside, by simp only [split, List.cons_append], ?_⟩
        intro s outside same plain
        rw [List.any_cons, Bool.or_eq_false_iff] at plain
        obtain ⟨depth, stays⟩ := s.step_plain plain.1
        have flag : (s.step c).escaped = (decide (c = '\\') && !escaped) := by
          by_cases slash : c = '\\'
          · subst slash
            rw [← same]
            unfold Scanner.step
            cases was : s.escaped with
            | true => simp
            | false => simp
          · rw [Scanner.step_escaped s slash, decide_eq_false slash, Bool.false_and]
        rw [Scanner.run_cons, passes (s.step c) (stays.trans outside) flag plain.2, depth]
      · exact .inr ends

/-- Behind a step over a piece that is not misread, the scanner stands where the reader does, unless
the source ends there with the group open. -/
def StillTracks (base : Nat) (after : Pieces) (s : Scanner) : Prop :=
  Tracks base after s ∨ after.rest = [] ∧ 0 < s.depth

section Step

variable {base : Nat} {p after : Pieces} {s : Scanner}

/-- An escape takes its letter, and what it holds behind it is passed over. -/
theorem Tracks.escape (tracks : Tracks base p s) {letter : Char} {tail : Text}
    (plain : tail.any isBracket = false) (paired : Paired tail after.rest)
    (frames : after.frames = p.frames) (depth : after.classDepth = p.classDepth) :
    StillTracks base after (s.run ('\\' :: letter :: tail)) := by
  have behind := Scanner.run_escape tracks.unescaped letter tail
  rcases Scanner.run_paired tracks.unescaped plain paired with passed | ⟨ends, level⟩
  · exact .inl (tracks.stays (behind.trans passed) (by rw [frames]) depth)
  · refine .inr ⟨ends, ?_⟩
    rw [behind, level]
    exact tracks.depth_pos

/-- An escape of one character is passed over, whatever the character. -/
theorem Tracks.bareEscape (tracks : Tracks base p s) {letter : Char}
    (frames : after.frames = p.frames) (depth : after.classDepth = p.classDepth) :
    StillTracks base after (s.run ['\\', letter]) :=
  tracks.escape rfl (.inl List.not_mem_nil) frames depth

/-- What is read in braces or between delimiters behind the letter of an escape is passed over. -/
theorem Tracks.delimited (tracks : Tracks base p s) {letter closes : Char} (front : Text)
    (plain : (front ++ [closes]).any isBracket = false) (other : closes ≠ '\\')
    (frames : after.frames = p.frames) (depth : after.classDepth = p.classDepth) :
    StillTracks base after (s.run ('\\' :: letter :: (front ++ [closes]))) := by
  have behind := Scanner.run_escape tracks.unescaped letter (front ++ [closes])
  have passed : s.run (front ++ [closes]) = s := by
    rw [Scanner.run_passes s plain other, ← tracks.unescaped]
  exact .inl (tracks.stays (behind.trans passed) (by rw [frames]) depth)

/-- One character that is no bracket and no backslash is passed over. -/
theorem Tracks.one (tracks : Tracks base p s) {c : Char} (plain : isBracket c = false)
    (other : c ≠ '\\') (frames : after.frames = p.frames)
    (depth : after.classDepth = p.classDepth) : StillTracks base after (s.run [c]) := by
  have passed : s.run [c] = s := by
    refine Scanner.run_bare tracks.unescaped (by simpa using plain) ?_
    simpa using fun same => other same.symm
  exact .inl (tracks.stays passed (by rw [frames]) depth)

/-- The opening of a group is counted, and what stands in it without a bracket is passed over. -/
theorem Tracks.group (tracks : Tracks base p s) (none : p.classDepth = 0) (inside : Text)
    (passed : (⟨s.depth + 1, false, false⟩ : Scanner).run inside = ⟨s.depth + 1, false, false⟩)
    (frames : after.frames.length = p.frames.length + 1) (depth : after.classDepth = 0) :
    StillTracks base after (s.run ('(' :: inside)) := by
  have counted : s.step '(' = ⟨s.depth + 1, false, false⟩ := by
    rw [tracks.outside none]
    rfl
  refine .inl (tracks.opened none ?_ frames depth)
  rw [Scanner.run_cons, counted, passed]

/-- A closing parenthesis of a group within is counted. -/
theorem Tracks.closed (tracks : Tracks base p s) (none : p.classDepth = 0) {more : Text}
    (within_ : base < p.frames.length) (based : 0 < base) :
    StillTracks base { p.closeFrame with rest := more } (s.run [')']) := by
  have several : 1 < p.frames.length := by omega
  have frames : p.closeFrame.frames.length + 1 = p.frames.length := by
    unfold Pieces.closeFrame
    rw [if_pos several, List.length_tail]
    omega
  have classes : p.closeFrame.classDepth = 0 := by
    unfold Pieces.closeFrame
    rw [if_pos several]
    exact none
  refine .inl ⟨?_, ?_, ?_⟩
  · show base ≤ p.closeFrame.frames.length
    omega
  · show p.closeFrame.classDepth ≤ 1
    omega
  · rw [tracks.outside none]
    show (⟨(p.frames.length : Int) - base + 1 - 1, false, false⟩ : Scanner) =
      ⟨(p.closeFrame.frames.length : Int) - base + 1, decide (0 < p.closeFrame.classDepth), false⟩
    have count : (p.frames.length : Int) - base + 1 - 1 =
        (p.closeFrame.frames.length : Int) - base + 1 := by omega
    rw [count, classes]
    rfl

/-- A digit is no bracket and no backslash. -/
theorem digit_plain {c : Char} (digit : c.isDigit = true) : isBracket c = false ∧ c ≠ '\\' := by
  have table : ∀ d ∈ ['(', ')', '[', ']', '\\'], c ≠ d := by
    intro d mem same
    rw [same] at digit
    have other : ∀ d ∈ ['(', ')', '[', ']', '\\'], d.isDigit = false := forall_mem (by decide)
    rw [other d mem] at digit
    cases digit
  refine ⟨?_, table _ (by decide)⟩
  simp only [isBracket, List.mem_cons, List.not_mem_nil, or_false, decide_eq_false_iff_not, not_or]
  exact ⟨table _ (by decide), table _ (by decide), table _ (by decide), table _ (by decide)⟩

/-- An interval holds no bracket. -/
theorem Tracks.interval (tracks : Tracks base p s) {bounds : Text}
    (digits : ∀ c ∈ bounds, c.isDigit = true ∨ c = ',') (frames : after.frames = p.frames)
    (depth : after.classDepth = p.classDepth) :
    StillTracks base after (s.run ('{' :: bounds ++ ['}'])) := by
  have bare : ('{' :: bounds ++ ['}']).any isBracket = false := by
    rw [List.any_eq_false]
    intro c mem
    have each : isBracket c = false := by
      simp only [List.cons_append, List.mem_cons, List.mem_append, List.not_mem_nil,
        or_false] at mem
      rcases mem with rfl | inside | rfl
      · decide
      · rcases digits c inside with digit | rfl
        · exact (digit_plain digit).1
        · decide
      · decide
    rw [each]
    decide
  have passed : s.run ('{' :: bounds ++ ['}']) = s := by
    rw [Scanner.run_passes s bare (by decide), ← tracks.unescaped]
  exact .inl (tracks.stays passed (by rw [frames]) depth)

/-- A comment to the end of its line without a bracket is passed over. -/
theorem Tracks.lineComment (tracks : Tracks base p s) {line more : Text}
    (bare : ('#' :: line).any isBracket = false) (ends : line.getLast? = some '\n' ∨ more = []) :
    StillTracks base { p with rest := more } (s.run ('#' :: line)) := by
  rcases ends with last | none
  · obtain ⟨front, rfl⟩ := List.getLast?_eq_some_iff.mp last
    have passed : s.run ('#' :: (front ++ ['\n'])) = s := by
      have hashed : (('#' :: front) ++ ['\n']).any isBracket = false := bare
      have line := Scanner.run_passes s hashed (by decide)
      rw [← tracks.unescaped] at line
      exact line
    exact .inl (tracks.stays passed rfl rfl)
  · refine .inr ⟨none, ?_⟩
    rw [(s.run_plain bare).1]
    exact tracks.depth_pos

/-- A comment in a group is in balance, or runs to the end of the source. -/
theorem Tracks.groupComment (tracks : Tracks base p s) (none : p.classDepth = 0) {more : Text}
    (plain : (commentSplit more false).1.dropLast.any isBracket = false) :
    StillTracks base { p with rest := (commentSplit more false).2 }
      (s.run ('(' :: '?' :: '#' :: (commentSplit more false).1)) := by
  have outside := tracks.outside none
  have opened : s.run ['(', '?', '#'] = ⟨s.depth + 1, false, false⟩ := by
    rw [outside]
    rfl
  have first : s.run ('(' :: '?' :: '#' :: (commentSplit more false).1) =
      (⟨s.depth + 1, false, false⟩ : Scanner).run (commentSplit more false).1 := by
    rw [← opened, ← Scanner.run_append]
    rfl
  rw [first]
  rcases commentSplit_cases more false with ⟨inside, split, passes⟩ | ends
  · rw [split, List.dropLast_concat] at plain
    rw [split, Scanner.run_append, passes _ rfl rfl plain]
    have closed : (⟨s.depth + 1, false, false⟩ : Scanner).run [')'] = s := by
      rw [outside]
      show (⟨_ + 1 - 1, false, false⟩ : Scanner) = _
      rw [Int.add_sub_cancel]
    rw [closed]
    exact .inl ⟨tracks.open_, tracks.flat, tracks.same⟩
  · refine .inr ⟨ends, ?_⟩
    have level := tracks.depth_pos
    rcases List.eq_nil_or_concat (commentSplit more false).1 with empty | ⟨front, c, whole⟩
    · rw [empty]
      show 0 < s.depth + 1
      omega
    · rw [whole, List.concat_eq_append] at plain ⊢
      rw [List.dropLast_concat] at plain
      rw [Scanner.run_append]
      have inside := Scanner.run_plain ⟨s.depth + 1, false, false⟩ plain
      have last := Scanner.depth_step (Scanner.run ⟨s.depth + 1, false, false⟩ front) c
      have same : (Scanner.run ⟨s.depth + 1, false, false⟩ front).depth = s.depth + 1 := inside.1
      show 0 < ((Scanner.run ⟨s.depth + 1, false, false⟩ front).step c).depth
      omega

/-- The opening of a condition is counted twice. -/
theorem Tracks.run_condition (tracks : Tracks base p s) (none : p.classDepth = 0) :
    s.run ['(', '?', '('] = ⟨s.depth + 2, false, false⟩ := by
  rw [tracks.outside none]
  show (⟨_ + 1 + 1, false, false⟩ : Scanner) = _
  rw [Int.add_assoc]
  rfl

/-- A condition by number is in balance, or runs to the end of the source. -/
theorem Tracks.numberedCondition (tracks : Tracks base p s) (none : p.classDepth = 0)
    {inside closing : Text} (open_ : ')' ∉ inside)
    (ends : closing = [')'] ∨ closing = [] ∧ after.rest = [])
    (plain : ((inside ++ closing).dropLast.any fun c => isBracket c || c = '\\') = false)
    (frames : after.frames.length = p.frames.length + 1) (depth : after.classDepth = 0) :
    StillTracks base after (s.run ('(' :: '?' :: '(' :: (inside ++ closing))) := by
  have opened := tracks.run_condition none
  have first : s.run ('(' :: '?' :: '(' :: (inside ++ closing)) =
      (⟨s.depth + 2, false, false⟩ : Scanner).run (inside ++ closing) := by
    rw [← opened, ← Scanner.run_append]
    rfl
  rcases ends with rfl | ⟨rfl, ends⟩
  · rw [List.dropLast_concat] at plain
    have bare : inside.any isBracket = false ∧ '\\' ∉ inside := by
      rw [List.any_eq_false] at plain
      refine ⟨List.any_eq_false.mpr fun c mem => ?_, fun mem => ?_⟩
      · have neither := plain c mem
        simp only [Bool.or_eq_true, not_or] at neither
        exact neither.1
      · have neither := plain _ mem
        simp at neither
    refine .inl (tracks.opened none ?_ frames depth)
    rw [first, Scanner.run_append, Scanner.run_bare rfl bare.1 bare.2]
    show (⟨s.depth + 2 - 1, false, false⟩ : Scanner) = ⟨s.depth + 1, false, false⟩
    rw [show s.depth + 2 - 1 = s.depth + 1 by omega]
  · refine .inr ⟨ends, ?_⟩
    have level := tracks.depth_pos
    rw [List.append_nil] at first ⊢
    have rises := Scanner.depth_run ⟨s.depth + 2, false, false⟩ open_
    rw [first]
    have start : (⟨s.depth + 2, false, false⟩ : Scanner).depth = s.depth + 2 := rfl
    omega

/-- A condition by name is in balance. -/
theorem Tracks.namedCondition (tracks : Tracks base p s) (none : p.classDepth = 0) (name : Text)
    {closes : Char} (other : closes ≠ '\\') (plain : (name ++ [closes]).any isBracket = false)
    (frames : after.frames.length = p.frames.length + 1) (depth : after.classDepth = 0) :
    StillTracks base after (s.run ('(' :: '?' :: '(' :: (name ++ [closes, ')']))) := by
  have opened := tracks.run_condition none
  refine .inl (tracks.opened none ?_ frames depth)
  have split : '(' :: '?' :: '(' :: (name ++ [closes, ')']) =
      ['(', '?', '('] ++ ((name ++ [closes]) ++ [')']) := by simp
  rw [split, Scanner.run_append, opened, Scanner.run_append, Scanner.run_passes _ plain other]
  show (⟨s.depth + 2 - 1, false, false⟩ : Scanner) = ⟨s.depth + 1, false, false⟩
  rw [show s.depth + 2 - 1 = s.depth + 1 by omega]

/-- The options of a group are in balance, or open it. -/
theorem Tracks.options (tracks : Tracks base p s) (none : p.classDepth = 0) {letters : Text}
    {closes : Char} (known : areKnownOptions letters = true)
    (ends : closes = ':' ∨ closes = ')')
    (frames : after.frames.length = p.frames.length + if closes = ':' then 1 else 0)
    (depth : after.classDepth = 0) :
    StillTracks base after (s.run ('(' :: '?' :: (letters ++ [closes]))) := by
  obtain ⟨plain, bare⟩ := letters_plain known
  have opened : s.run ['(', '?'] = ⟨s.depth + 1, false, false⟩ := by
    rw [tracks.outside none]
    rfl
  have split : '(' :: '?' :: (letters ++ [closes]) = ['(', '?'] ++ (letters ++ [closes]) := rfl
  have first : s.run ('(' :: '?' :: (letters ++ [closes])) =
      (⟨s.depth + 1, false, false⟩ : Scanner).step closes := by
    rw [split, Scanner.run_append, opened, Scanner.run_append, Scanner.run_bare rfl plain bare]
    rfl
  rcases ends with rfl | rfl
  · exact .inl (tracks.opened none first (by rw [frames, if_pos rfl]) depth)
  · have closed : (⟨s.depth + 1, false, false⟩ : Scanner).step ')' = s := by
      rw [tracks.outside none]
      show (⟨_ + 1 - 1, false, false⟩ : Scanner) = _
      rw [Int.add_sub_cancel]
    have same : after.frames.length = p.frames.length := by
      rw [frames, if_neg (by decide)]
      rfl
    exact .inl (tracks.stays (first.trans closed) same (by rw [depth, none]))

/-- What closes a name is no backslash. -/
theorem Delimited.closes_ne {opens closes : Char} (delimited : Delimited opens closes) :
    closes ≠ '\\' := by
  rcases delimited with ⟨-, rfl⟩ | ⟨-, rfl⟩
  · decide
  · decide

/-- A literal is misread by what it holds behind the letter of its escape. -/
theorem literal_misread {written taken : Text} {inClass : Bool}
    (plain : (Piece.literal written inClass).misread taken = false) :
    (taken.drop 2).any isBracket = false := by
  unfold Piece.literal at plain
  cases inClass with
  | false => exact plain
  | true =>
    have both : (decide (taken = ['[']) || (taken.drop 2).any isBracket) = false := plain
    exact (Bool.or_eq_false_iff.mp both).2

/-- Over a piece that is not misread and does not close the group, the scanner goes where the reader
does. -/
theorem Reads.stillTracks {piece : Piece} {taken : Text} (reads : Reads p piece after)
    (tracks : Tracks base p s) (based : 0 < base) (split : p.rest = taken ++ after.rest)
    (plain : piece.misread taken = false)
    (inner : ¬(piece = .close ∧ p.frames.length = base)) :
    StillTracks base after (s.run taken) := by
  cases reads with
  | trailing rest =>
    cases taken_eq ['\\'] rest split
    refine .inr ⟨rfl, ?_⟩
    have plain : ['\\'].any isBracket = false := by decide
    rw [(s.run_plain plain).1]
    exact tracks.depth_pos
  | @property letter body more kind rest inside =>
    cases taken_eq ('\\' :: letter :: '{' :: (body ++ ['}'])) (by simp [rest]) split
    exact tracks.delimited ('{' :: body) plain (by decide) rfl rfl
  | @codePoints body more rest inside =>
    cases taken_eq ('\\' :: 'u' :: '{' :: (body ++ ['}'])) (by simp [rest]) split
    exact tracks.delimited ('{' :: body) plain (by decide) rfl rfl
  | @codePoint body more rest inside =>
    cases taken_eq ('\\' :: 'u' :: '{' :: (body ++ ['}'])) (by simp [rest]) split
    exact tracks.delimited ('{' :: body) (literal_misread plain) (by decide) rfl rfl
  | @char taken' more value rest filled small paired =>
    cases taken_eq ('\\' :: taken') rest split
    obtain ⟨letter, tail, rfl⟩ := List.exists_cons_of_ne_nil filled
    exact tracks.escape plain paired rfl rfl
  | @bare letter more rest unmarked =>
    cases taken_eq ['\\', letter] rest split
    exact tracks.bareEscape rfl rfl
  | @namedReference letter opens closes name more outside kind rest delimited inside =>
    cases taken_eq ('\\' :: letter :: opens :: (name ++ [closes])) (by simp [rest]) split
    exact tracks.delimited (opens :: name) plain delimited.closes_ne rfl rfl
  | @numberedReference digits more outside filled rest numeric =>
    cases taken_eq ('\\' :: digits) rest split
    obtain ⟨letter, tail, rfl⟩ := List.exists_cons_of_ne_nil filled
    refine tracks.escape plain (.inl fun mem => ?_) rfl rfl
    exact (digit_plain (numeric _ (List.mem_cons_of_mem _ mem))).2 rfl
  | @escape letter more frame rest ascii framed named =>
    cases taken_eq ['\\', letter] rest split
    exact tracks.bareEscape rfl rfl
  | posixBracket => cases plain
  | classClose inClass rest =>
    cases taken_eq [']'] rest split
    refine .inl ⟨tracks.open_, Nat.zero_le 1, ?_⟩
    have same := tracks.same
    rw [inClass] at same
    rw [same]
    rfl
  | @classText c more depth inClass rest unescaped stays =>
    cases taken_eq [c] rest split
    have flat := tracks.flat
    rcases stays with ⟨rfl, -⟩ | ⟨-, less, open_⟩ | ⟨enters, leaves, rfl⟩
    · cases plain
    · omega
    · refine .inl (tracks.stays ?_ rfl rfl)
      have same := tracks.same
      rw [decide_eq_true inClass] at same
      rw [same]
      simp [Scanner.run, Scanner.step, unescaped, leaves]
  | classOpen outside rest =>
    cases taken_eq ['['] rest split
    refine .inl ⟨tracks.open_, Nat.le_refl 1, ?_⟩
    rw [tracks.outside outside]
    rfl
  | close outside rest =>
    cases taken_eq [')'] rest split
    have open_ := tracks.open_
    refine tracks.closed outside ?_ based
    have other : p.frames.length ≠ base := fun same => inner ⟨rfl, same⟩
    omega
  | literalBrace outside rest =>
    cases taken_eq ['{'] rest split
    exact tracks.one (by decide) (by decide) rfl rfl
  | @interval lower more upper bounds outside rest numeric digits =>
    cases taken_eq ('{' :: bounds ++ ['}']) (by simp [rest]) split
    exact tracks.interval digits rfl rfl
  | @quantifier c more outside rest kind =>
    cases taken_eq [c] rest split
    rcases kind with rfl | rfl | rfl
    · exact tracks.one (by decide) (by decide) rfl rfl
    · exact tracks.one (by decide) (by decide) rfl rfl
    · exact tracks.one (by decide) (by decide) rfl rfl
  | @lineComment line more frame outside framed extended rest ends inside =>
    cases taken_eq ('#' :: line) rest split
    exact tracks.lineComment plain ends
  | @space c more frame outside framed extended rest white =>
    cases taken_eq [c] rest split
    have table : ∀ c ∈ [' ', '\t', '\n', '\x0c', '\r'], isBracket c = false ∧ c ≠ '\\' :=
      forall_mem (by decide)
    obtain ⟨bare, other⟩ := table c (by simpa [isAsciiWhitespace] using white)
    exact tracks.one bare other rfl rfl
  | @text c more frame outside framed rest unmarked read =>
    cases taken_eq [c] rest split
    simp only [List.mem_cons, List.not_mem_nil, or_false, not_or] at unmarked
    refine .inl (tracks.stays ?_ rfl rfl)
    rw [tracks.outside outside]
    simp [Scanner.run, Scanner.step, unmarked]
  | plainGroup outside framed rest =>
    cases taken_eq ['('] rest split
    exact tracks.group outside [] rfl rfl outside
  | @groupComment more outside rest =>
    have whole : more = (commentSplit more false).1 ++ (commentSplit more false).2 :=
      (commentLenFrom_eq more false 0).1
    cases taken_eq ('(' :: '?' :: '#' :: (commentSplit more false).1)
      (by rw [rest]; simp [← whole]) split
    exact tracks.groupComment outside plain
  | @numberedCondition digit inside more closing frame outside framed rest numeric open_ ends =>
    cases taken_eq ('(' :: '?' :: '(' :: digit :: (inside ++ closing))
      (by simp [rest]) split
    have none : ')' ∉ digit :: inside := by
      rintro (_ | ⟨_, mem⟩)
      · cases numeric
      · exact open_ mem
    exact tracks.numberedCondition outside none ends plain rfl outside
  | @namedCondition opens closes name more frame outside framed rest delimited inside =>
    cases taken_eq ('(' :: '?' :: '(' :: opens :: (name ++ [closes, ')']))
      (by simp [rest]) split
    have bare : ((opens :: name) ++ [closes]).any isBracket = false := by
      have dropped : (opens :: (name ++ [closes, ')'])).dropLast = (opens :: name) ++ [closes] := by
        rw [show opens :: (name ++ [closes, ')']) = ((opens :: name) ++ [closes]) ++ [')'] by simp,
          List.dropLast_concat]
      have held : (opens :: (name ++ [closes, ')'])).dropLast.any isBracket = false := plain
      rwa [dropped] at held
    exact tracks.namedCondition outside (opens :: name) delimited.closes_ne bare rfl outside
  | @namedGroup opens closes name more frame outside framed rest delimited inside around =>
    cases taken_eq ('(' :: '?' :: opens :: (name ++ [closes])) (by simp [rest]) split
    have bare : (('?' :: opens :: name) ++ [closes]).any isBracket = false := plain
    refine tracks.group outside (('?' :: opens :: name) ++ [closes]) ?_ rfl outside
    exact Scanner.run_passes _ bare delimited.closes_ne
  | @options letters more closes frame outer outside framed rest known ends =>
    cases taken_eq ('(' :: '?' :: (letters ++ [closes])) (by simp [rest]) split
    refine tracks.options outside known (ends.imp_right And.left) ?_ outside
    rw [framed]
    split
    · rfl
    · rfl
  | @«open» opener more frame inner' outside framed rest kind same =>
    cases taken_eq ('(' :: '?' :: opener) (by simp [rest]) split
    have table : ∀ opener ∈ ([['<', '='], ['<', '!'], ['='], ['!'], ['>'], []] : List Text),
        ('?' :: opener).any isBracket = false ∧ '\\' ∉ '?' :: opener := by decide
    obtain ⟨bare, unescaped⟩ := table opener kind
    exact tracks.group outside _ (Scanner.run_bare rfl bare unescaped) rfl outside
  | refused => cases plain

end Step

/-! ## The whole group -/

/-- One more piece spelled. -/
theorem spell_succ {rounds : Nat} {p after : Pieces} {piece : Piece} {taken : Text}
    {pieces : List (Piece × Text)} (next : p.next = some (some (piece, after)))
    (split : p.rest = taken ++ after.rest) (spelled : p.spell (rounds + 1) = some pieces) :
    ∃ rest, pieces = (piece, taken) :: rest ∧ after.spell rounds = some rest := by
  have cut : p.rest.take (p.rest.length - after.rest.length) = taken := by
    rw [split, List.length_append, Nat.add_sub_cancel, List.take_left]
  unfold Pieces.spell at spelled
  rw [next] at spelled
  simp only [Option.bind_eq_bind, Option.bind_some] at spelled
  obtain ⟨rest, onward, same⟩ := Option.bind_eq_some_iff.mp spelled
  rw [cut, Option.some.injEq] at same
  exact ⟨rest, same.symm, onward⟩

/-- A closing is read off a parenthesis outside classes. -/
theorem Reads.of_close {p after : Pieces} {piece : Piece} (reads : Reads p piece after)
    (closing : piece = .close) : p.classDepth = 0 ∧ p.rest = ')' :: after.rest := by
  have literal : ∀ written inClass, Piece.literal written inClass ≠ .close := by
    intro written inClass same
    cases inClass with
    | false => cases same
    | true => cases same
  cases reads with
  | close outside rest => exact ⟨outside, rest⟩
  | codePoint => exact absurd closing (literal _ _)
  | bare => exact absurd closing (literal _ _)
  | _ => cases closing

/-- From where the scanner stands where the reader does, over pieces that are not misread, the
reader closes the group where the scanner leaves it, or the scanner has it open at the end of the
source. -/
theorem groupEnd_or_open {base rounds more : Nat} {p : Pieces} {s : Scanner}
    {pieces : List (Piece × Text)} (based : 0 < base) (tracks : Tracks base p s)
    (spelled : p.spell rounds = some pieces)
    (plain : ∀ read ∈ pieces, read.1.misread read.2 = false) (enough : p.rest.length < more) :
    (∃ after enclosed, p.groupEnd base more = some after ∧
      p.rest = enclosed ++ ')' :: after.rest ∧ s.run enclosed = .inside) ∨
      0 < (s.run p.rest).depth := by
  induction rounds generalizing p s pieces more with
  | zero => cases spelled
  | succ rounds ih =>
    obtain ⟨more, rfl⟩ : ∃ fewer, more = fewer + 1 := ⟨more - 1, by omega⟩
    have framed : p.frames ≠ [] := by
      intro none
      have open_ := tracks.open_
      rw [none, List.length_nil] at open_
      omega
    rcases next_steps p framed with ⟨ended, -⟩ | ⟨piece, after, next, reads⟩
    · rw [ended]
      exact .inr tracks.depth_pos
    · obtain ⟨⟨taken, filled, split⟩, -⟩ := reads.advances framed
      obtain ⟨rest, rfl, onward⟩ := spell_succ next split spelled
      have here : piece.misread taken = false := plain _ List.mem_cons_self
      have later : ∀ read ∈ rest, read.1.misread read.2 = false :=
        fun read mem => plain read (List.mem_cons_of_mem _ mem)
      by_cases closes : piece = .close ∧ p.frames.length = base
      · -- The group closes here, and the scanner stands as it did behind its opening.
        obtain ⟨rfl, last⟩ := closes
        obtain ⟨outside, whole⟩ := reads.of_close rfl
        refine .inl ⟨after, [], ?_, whole, ?_⟩
        · rw [Pieces.groupEnd, next]
          exact if_pos ⟨rfl, last⟩
        · rw [tracks.outside outside, last, Int.sub_self]
          rfl
      · have further : p.groupEnd base (more + 1) = after.groupEnd base more := by
          rw [Pieces.groupEnd, next]
          exact if_neg closes
        have shorter : after.rest.length < more := by
          have long := congrArg List.length split
          rw [List.length_append] at long
          have one := List.length_pos_iff.mpr filled
          omega
        rcases reads.stillTracks tracks based split here closes with still | ⟨ended, open_⟩
        · rcases ih still onward later shorter with ⟨last, enclosed, ends, within_, inside⟩ | open_
          · refine .inl ⟨last, taken ++ enclosed, further.trans ends, ?_, ?_⟩
            · rw [split, within_, List.append_assoc]
            · rw [Scanner.run_append]
              exact inside
          · rw [split, Scanner.run_append]
            exact .inr open_
        · rw [split, ended, List.append_nil]
          exact .inr open_

/-- Where `lift_inline_group` answers of a source none of whose pieces is misread, the group it
answers with is the whole source, with these options and this text. -/
theorem spansWhole_of_readPlainly {source body : Text} {enabled disabled : BitVec 64}
    (extended : Bool) (captures : Nat)
    (lifted : liftInlineGroup source = some (enabled, disabled, body))
    (plainly : ReadPlainly source extended captures) :
    SpansWhole source extended captures enabled disabled body := by
  refine (spansWhole_iff_enclosesBalance extended captures lifted).mpr ?_
  obtain ⟨letters, split, known, -, found⟩ := liftInlineGroup_some lifted
  obtain ⟨inner, opens, rest, outside, two⟩ :=
    opens_of_liftLetters (body ++ [')']) known extended captures
  rw [← split] at opens
  obtain ⟨pieces, spelled, plain⟩ := plainly
  have opening : source = ('(' :: '?' :: (letters ++ [':'])) ++ inner.rest := by
    rw [split, rest]
    simp
  obtain ⟨others, rfl, onward⟩ := spell_succ opens opening spelled
  have tracks : Tracks inner.frames.length inner .inside := by
    refine ⟨Nat.le_refl _, by omega, ?_⟩
    rw [outside, Int.sub_self]
    rfl
  have shorter : inner.rest.length < source.length + 1 := by
    have long := congrArg List.length opening
    rw [List.length_append] at long
    omega
  rcases groupEnd_or_open (by omega) tracks onward
    (fun read mem => plain read (List.mem_cons_of_mem _ mem)) shorter with
    ⟨after, enclosed, ends, within_, inside⟩ | open_
  · exact ⟨letters, inner, after, enclosed, opens, ends, within_, inside⟩
  · -- The scanner has closed the group at the end of the source.
    obtain ⟨-, balanced⟩ := liftBody_some (by decide) found
    rw [rest, Scanner.run_append, balanced] at open_
    exact absurd open_ (by decide)

/-- A group with a parenthesis in a class, and an escape, a group and a comment in it. -/
def classed : Text := "(?i-m:a[(]\\)(b)(?#c))".toList

/-- That group is the whole source. -/
theorem spansWhole_of_readPlainly_classed :
    SpansWhole classed false 0 1 4 "a[(]\\)(b)(?#c)".toList :=
  spansWhole_of_readPlainly false 0 (by decide)
    ⟨[(.options "i-m".toList true, "(?i-m:".toList), (.text ['a'], ['a']),
        (.classOpen ['['], ['[']), (.classText ['('], ['(']), (.classClose, [']']),
        (.escape ')' false .default, "\\)".toList), (.plainGroup false, ['(']),
        (.text ['b'], ['b']), (.close, [')']),
        (.comment "(?#c)".toList, "(?#c)".toList), (.close, [')'])],
      by decide, by decide⟩

/-- `a` without regard to case, closed behind a comment, then `b` and another comment. -/
def commented : Text := "(?i:a#(\n)b#)".toList

/-- The reading of that source behind its opening. -/
def commentedInner : Pieces :=
  ⟨"a#(\n)b#)".toList, 0, [⟨true, true, .default, .outside⟩, ⟨true, false, .default, .outside⟩], 0⟩

/-- Under the extended option, a parenthesis in a comment is lost on the scanner: the group that is
lifted closes before the source does. -/
theorem not_spansWhole_commented :
    liftInlineGroup commented = some (1, 0, "a#(\n)b#".toList) ∧
      ¬SpansWhole commented true 0 1 0 "a#(\n)b#".toList := by
  refine ⟨by decide, ?_⟩
  rintro ⟨letters, inner, after, opens, -, -, closes, ended⟩
  have first : (Pieces.new commented true 0).next =
      some (some (.options ['i'] true, commentedInner)) := by decide
  have second : commentedInner.groupEnd 2 (commented.length + 1) =
      some ⟨"b#)".toList, 0, [⟨true, false, .default, .outside⟩], 0⟩ := by decide
  have same := first.symm.trans opens
  cases same
  have found := second.symm.trans closes
  cases found
  cases ended

end Kobako.Regexp
