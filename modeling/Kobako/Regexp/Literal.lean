import Kobako.Regexp.Total
import Kobako.Regexp.Reading

/-!
# Patterns of literal text

A `String` asked for as a pattern is escaped, as `regexp/render.rs` escapes it, and compiled like
any source. Read back, what was escaped is one piece for each character, whatever stands beside it,
and the pattern made of it reads as the text alone.
-/

namespace Kobako.Regexp

open Text

/-! ## Escaping -/

/-- What `escape_str` writes behind a backslash, where it writes one. -/
def escapedLetter (c : Char) : Option Char :=
  if c ∈ ".\\+*?()[]\x7b\x7d^$|-# ".toList then some c
  else if c = '\n' then some 'n'
  else if c = '\r' then some 'r'
  else if c = '\t' then some 't'
  else if c = '\x0c' then some 'f'
  else if c = '\x0b' then some 'v'
  else none

/-- One character of `escape_str`. -/
def escapeChar (c : Char) : Text :=
  match escapedLetter c with
  | some letter => ['\\', letter]
  | none => [c]

/-- `escape_str`. -/
def escapeStr (source : Text) : Text := source.flatMap escapeChar

/-- The character an escape of a letter stands for, where it stands for one. -/
def letterChar (letter : Char) : Option Char :=
  if letter = 'n' then some '\n'
  else if letter = 'r' then some '\r'
  else if letter = 't' then some '\t'
  else if letter = 'f' then some '\x0c'
  else if letter = 'v' then some '\x0b'
  else if isAscii letter && !letter.isAlphanum then some letter
  else none

/-- Whether a piece stands for a character: it is text of that character, or an escape outside
classes that names it. -/
def Piece.StandsFor : Piece → Char → Prop
  | .text read, c => read = [c]
  | .escape letter false _, c => letterChar letter = some c
  | _, _ => False

/-- The engine's reading of plain and escaped characters, refusing all else it knows. -/
def literalWord : Text → Option Text
  | [] => some []
  | '\\' :: letter :: rest => (letterChar letter).bind fun c => (literalWord rest).map (c :: ·)
  | c :: rest => if isMeta c then none else (literalWord rest).map (c :: ·)

/-- What a pattern of such characters matches, behind the flag every pattern begins with, which
bears on anchors alone. -/
def literalLanguage (pattern : Text) : Option (Language Char) :=
  ((stripPrefix "(?m)".toList pattern).bind literalWord).map fun word => {word}

/-! ## What is read back -/

/-- What `escape_str` writes behind a backslash. -/
def escapeLetters : Text := ".\\+*?()[]\x7b\x7d^$|-# nrtfv".toList

/-- What `escape_str` writes behind a backslash names the character it was written for. -/
theorem escapedLetter_names {c letter : Char} (escaped : escapedLetter c = some letter) :
    letter ∈ escapeLetters ∧ letterChar letter = some c := by
  have same : ∀ c ∈ ".\\+*?()[]\x7b\x7d^$|-# ".toList,
      c ∈ escapeLetters ∧ letterChar c = some c :=
    forall_mem (by decide)
  unfold escapedLetter at escaped
  repeat' split at escaped
  · rename_i member
    cases escaped
    exact same c member
  all_goals
    subst_vars
    cases escaped
    try decide

/-- What `escape_str` leaves as it is means itself in the source and in the engine's syntax. -/
theorem escapedLetter_none {c : Char} (plain : escapedLetter c = none) :
    isMeta c = false ∧ isAsciiWhitespace c = false ∧ c ≠ '#' := by
  have apart : ∀ d ∈ "\\.+*?()|[]\x7b\x7d^$".toList ++ [' ', '\t', '\n', '\x0c', '\r'] ++ ['#'],
      escapedLetter d ≠ none :=
    forall_mem (by decide)
  have absent : c ∉ "\\.+*?()|[]\x7b\x7d^$".toList ++ [' ', '\t', '\n', '\x0c', '\r'] ++ ['#'] := by
    intro member
    exact apart c member plain
  rw [List.mem_append, List.mem_append, not_or, not_or] at absent
  refine ⟨?_, ?_, ?_⟩
  · unfold isMeta
    exact decide_eq_false absent.1.1
  · unfold isAsciiWhitespace
    exact decide_eq_false absent.1.2
  · intro same
    exact absent.2 (same ▸ List.mem_singleton_self _)

/-- The piece a character is read back as. -/
def literalPiece (c : Char) : Piece :=
  match escapedLetter c with
  | some letter => .escape letter false .default
  | none => .text [c]

theorem literalPiece_standsFor (c : Char) : (literalPiece c).StandsFor c := by
  unfold literalPiece
  cases escaped : escapedLetter c with
  | none => rfl
  | some letter => exact (escapedLetter_names escaped).2

/-- A letter `escape_str` writes is read as a plain escape. -/
theorem escape_letter {letter : Char} (written : letter ∈ escapeLetters) (rest : Text)
    (extended : Bool) (captures : Nat) :
    (Pieces.new ('\\' :: letter :: rest) extended captures).escape =
      some (.escape letter false .default, Pieces.new rest extended captures) := by
  have table : ∀ letter ∈ escapeLetters, letter.utf8Size = 1 ∧ letter.isDigit = false ∧
      isAscii letter = true ∧ letter ∉ "xpPucCMkg".toList ∧
      (letter.isAlpha = true → letter ∈ "abdefhnrstuvwxzABDGHKRSWXZ".toList) :=
    forall_mem (by decide)
  obtain ⟨short, notDigit, ascii, other, meant⟩ := table letter written
  have apart : ∀ d ∈ "xpPucCMkg".toList, letter ≠ d := by
    intro d member same
    exact other (same ▸ member)
  have behind : sliceFrom ('\\' :: letter :: rest) 1 = some (letter :: rest) :=
    sliceFrom_one (by decide) _
  have read : (Pieces.new ('\\' :: letter :: rest) extended captures).plainEscape letter false =
      some (.escape letter false .default, Pieces.new rest extended captures) := by
    unfold Pieces.plainEscape
    have split : (Pieces.new ('\\' :: letter :: rest) extended captures).rest =
        ['\\', letter] ++ rest := rfl
    have long : len ['\\', letter] = 1 + letter.utf8Size := rfl
    rw [Pieces.take_append split long]
    rfl
  unfold Pieces.escape
  show (sliceFrom ('\\' :: letter :: rest) 1).bind _ = _
  rw [behind, Option.bind_some]
  have meaning : both letter.isAlpha
      ((escapeHasMeaning letter false (letter :: rest)).map (!·)) = some false := by
    cases alpha : letter.isAlpha with
    | false => rfl
    | true =>
      unfold escapeHasMeaning
      have named : ¬(letter = 'k' ∨ letter = 'g') := by
        simp [apart 'k' (by decide), apart 'g' (by decide)]
      have proper : ¬(letter = 'p' ∨ letter = 'P') := by
        simp [apart 'p' (by decide), apart 'P' (by decide)]
      rw [if_neg named, if_neg proper]
      simp only [both, if_true, Bool.false_eq_true, if_false, Option.map_some,
        decide_eq_true (meant alpha), Bool.not_true]
  simp only [List.head?_cons, both, apart 'x' (by decide), apart 'p' (by decide),
    apart 'P' (by decide), apart 'u' (by decide), or_self, decide_false, Bool.false_eq_true,
    if_false, Option.bind_eq_bind, Option.bind_some]
  show Pieces.unbracedEscape _ letter (letter :: rest) false = _
  have control : ¬(letter = 'c' ∨ letter = 'C' ∨ letter = 'M') := by
    simp [apart 'c' (by decide), apart 'C' (by decide), apart 'M' (by decide)]
  have named : ¬(letter = 'k' ∨ letter = 'g') := by
    simp [apart 'k' (by decide), apart 'g' (by decide)]
  unfold Pieces.unbracedEscape Pieces.letterEscape Pieces.reference
  rw [if_neg control]
  simp only [notDigit, ascii, meaning, named, Bool.not_true, Bool.false_eq_true, if_false,
    Option.bind_eq_bind, Option.bind_some]
  exact read

/-- A character of an escaped text is read as its piece, whatever follows. -/
theorem next_escapeChar (c : Char) (rest : Text) (extended : Bool) (captures : Nat) :
    (Pieces.new (escapeChar c ++ rest) extended captures).next =
      some (some (literalPiece c, Pieces.new rest extended captures)) := by
  unfold escapeChar literalPiece
  cases escaped : escapedLetter c with
  | some letter =>
    have read := escape_letter (escapedLetter_names escaped).1 rest extended captures
    show (Pieces.escape _).map some = _
    exact congrArg (Option.map some) read
  | none =>
    obtain ⟨plain, shown, notHash⟩ := escapedLetter_none escaped
    have apart : ∀ d ∈ "\\.+*?()|[]\x7b\x7d^$".toList, c ≠ d := by
      intro d member same
      unfold isMeta at plain
      exact of_decide_eq_false plain (same ▸ member)
    have notSlash := apart '\\' (by decide)
    have repeats : ¬(c = '?' ∨ c = '*' ∨ c = '+') := by
      simp [apart '?' (by decide), apart '*' (by decide), apart '+' (by decide)]
    have outside : (Pieces.new (c :: rest) extended captures).outsidePiece c =
        some (.text [c], Pieces.new rest extended captures) := by
      unfold Pieces.outsidePiece
      show Option.bind (some _) _ = _
      rw [Option.bind_some, if_neg (apart '[' (by decide)), if_neg (apart '(' (by decide)),
        if_neg (apart ')' (by decide)), if_neg (apart '\x7b' (by decide)), if_neg repeats,
        if_neg (by simp [notHash]), if_neg (by simp [shown])]
      exact Pieces.takeAs_one rfl rfl
    show (if c = '\\' then _ else _) = _
    rw [if_neg notSlash]
    exact congrArg (Option.map some) outside

/-- An escaped text is read as one piece for each character, none of them folding case. -/
theorem readAll_escapeStr (s : Text) (extended : Bool) (captures rounds : Nat)
    (enough : s.length < rounds) :
    (Pieces.new (escapeStr s) extended captures).readAll rounds =
      some (s.map fun c => (literalPiece c, false)) := by
  induction s generalizing rounds with
  | nil =>
    cases rounds with
    | zero => omega
    | succ rounds => rfl
  | cons c rest ih =>
    cases rounds with
    | zero => omega
    | succ rounds =>
      have read := next_escapeChar c (escapeStr rest) extended captures
      have later := ih rounds (by simpa using enough)
      show (Pieces.new (escapeChar c ++ escapeStr rest) extended captures).readAll _ = _
      unfold Pieces.readAll
      rw [read]
      simp only [Option.bind_eq_bind, Option.bind_some, later]
      rfl

/-- An escaped text is no shorter. -/
theorem length_le_escapeStr (s : Text) : s.length ≤ (escapeStr s).length := by
  induction s with
  | nil => exact Nat.le_refl 0
  | cons c rest ih =>
    have one : 1 ≤ (escapeChar c).length := by
      unfold escapeChar
      cases escapedLetter c <;> simp
    show rest.length + 1 ≤ (escapeChar c ++ escapeStr rest).length
    rw [List.length_append]
    omega

/-! ## What is written -/

/-- A letter `escape_str` writes is no shorthand. -/
theorem shorthand_letter (build : Build) {letter : Char} (written : letter ∈ escapeLetters) :
    shorthand build letter false .default = .ok none := by
  have table : ∀ letter ∈ escapeLetters, letter.toLower ∉ "wds".toList :=
    forall_mem (by decide)
  have other := table letter written
  have apart : ∀ d ∈ "wds".toList, letter.toLower ≠ d := by
    intro d member same
    exact other (same ▸ member)
  unfold shorthand shorthandItems
  simp [apart 'w' (by decide), apart 'd' (by decide), apart 's' (by decide)]
  rfl

/-- A piece that begins no run or class and is pushed as a unit is written behind the rest. -/
theorem rewrite_unit (build : Build) (r : Rewriter) {piece : Piece} {text : Text}
    (ran : r.runOn build piece false = .ok r)
    (noted : ∀ r : Rewriter, r.noteClass piece false = r) (open_ : piece ≠ .classClose)
    (pushed : ∀ r : Rewriter, r.folding = false →
      r.pushPiece build piece = .ok (.unit, r.push text)) :
    r.rewrite build piece false =
      .ok { (Rewriter.push { r with folding := false } text).forget with
        unitStart := some (len r.out) } := by
  unfold Rewriter.rewrite
  rw [ran, ok_bind]
  simp only [noted]
  rw [pushed _ rfl]
  simp only [ok_bind, Rewriter.closeClass, if_neg open_]
  rfl

/-- A character of an escaped text is written as it was. -/
theorem rewrite_literalPiece (build : Build) (r : Rewriter) (quiet : r.literalRun = []) (c : Char) :
    r.rewrite build (literalPiece c) false =
      .ok { (Rewriter.push { r with folding := false } (escapeChar c)).forget with
        unitStart := some (len r.out) } := by
  have closed : r.closeLiteralRun build false = .ok r := by
    unfold Rewriter.closeLiteralRun
    rw [if_pos quiet]
  unfold literalPiece escapeChar
  cases escaped : escapedLetter c with
  | none =>
    have notBar : [c] ≠ ['|'] := by
      intro same
      cases same
      cases escaped
    have ran : r.runOn build (.text [c]) false = .ok r := by
      have still : ¬(false = true ∧ isLiteralChar [c] = true) := by simp
      simp only [Rewriter.runOn, if_neg still]
      exact closed
    apply rewrite_unit build r ran (fun _ => rfl) (by simp)
    intro r _
    show Except.ok (if [c] = ['|'] then Role.boundary else .unit, r.push [c]) = _
    rw [if_neg notBar]
  | some letter =>
    have written := (escapedLetter_names escaped).1
    have table : ∀ letter ∈ escapeLetters, letter ≠ 'b' ∧ letter ≠ 'B' ∧
        isAsciiShorthand letter .default = false :=
    forall_mem (by decide)
    obtain ⟨notLower, notUpper, notShorthand⟩ := table letter written
    have notBoundary : ¬(letter = 'b' ∨ letter = 'B') := by simp [notLower, notUpper]
    have ran : r.runOn build (.escape letter false .default) false = .ok r := closed
    apply rewrite_unit build r ran (fun _ => rfl) (by simp)
    intro r _
    have escaped : r.pushEscape build letter false .default = .ok (r.push ['\\', letter]) := by
      unfold Rewriter.pushEscape
      rw [shorthand_letter build written, notShorthand]
      rfl
    simp only [Rewriter.pushPiece, if_neg notBoundary, escaped, ok_bind]

/-- An escaped text is written as it is. -/
theorem rewriteAll_escapeStr (build : Build) (s : Text) (captures rounds : Nat) (r : Rewriter)
    (quiet : r.literalRun = []) (enough : s.length < rounds) :
    ∃ after, rewriteAll build rounds (Pieces.new (escapeStr s) false captures) r = .ok after ∧
      after.out = r.out ++ escapeStr s ∧ after.literalRun = [] ∧ after.groups = r.groups := by
  induction s generalizing rounds r with
  | nil =>
    cases rounds with
    | zero => omega
    | succ rounds => exact ⟨r, rfl, (List.append_nil _).symm, quiet, rfl⟩
  | cons c rest ih =>
    cases rounds with
    | zero => omega
    | succ rounds =>
      have read := next_escapeChar c (escapeStr rest) false captures
      have sensitive : (build.unicode && (Pieces.new (escapeStr rest) false captures).ignoresCase) =
          false := Bool.and_false _
      have written := rewrite_literalPiece build r quiet c
      obtain ⟨after, rewritten, out, still, groups⟩ := ih rounds
        { (Rewriter.push { r with folding := false } (escapeChar c)).forget with
          unitStart := some (len r.out) } quiet (by simpa using enough)
      refine ⟨after, ?_, ?_, still, groups⟩
      · show rewriteAll build (rounds + 1)
          (Pieces.new (escapeChar c ++ escapeStr rest) false captures) r = _
        unfold rewriteAll
        rw [read]
        simp only [sliced, ok_bind, sensitive]
        rw [written, ok_bind, rewritten]
      · rw [out]
        exact List.append_assoc _ _ _

/-- The pattern of an escaped text is the text as escaped, behind its flag. -/
theorem buildPattern_escapeStr (build : Build) (s : Text) :
    buildPattern build (escapeStr s) 0 = .ok ("(?m)".toList ++ escapeStr s) := by
  have plain : hasOption 0 extendedBit = false ∧ hasOption 0 ignoreCaseBit = false ∧
      patternHead 0 = "(?m)".toList := by decide
  obtain ⟨extended, ignoreCase, head⟩ := plain
  obtain ⟨names, captures, hasCalls, scanned, -⟩ := scan_total (escapeStr s) false
  have enough : s.length < (escapeStr s).length + 1 := Nat.lt_succ_of_le (length_le_escapeStr s)
  obtain ⟨after, rewritten, out, quiet, groups⟩ := rewriteAll_escapeStr build s captures
    ((escapeStr s).length + 1) (.new names hasCalls "(?m)".toList) rfl enough
  unfold buildPattern
  rw [extended, ignoreCase, head]
  dsimp only
  rw [scanned, ok_bind, ignoringCase_new, sliced_some, ok_bind]
  show (rewriteAll build _ (Pieces.new (escapeStr s) false captures) _ >>= _) = _
  rw [rewritten, ok_bind]
  unfold Rewriter.finish Rewriter.closeLiteralRun
  rw [if_pos quiet, ok_bind, out, groups]
  exact congrArg Except.ok (List.append_nil _)

/-! ## What it denotes -/

/-- An escaped text reads as itself in the engine. -/
theorem literalWord_escapeStr (s : Text) : literalWord (escapeStr s) = some s := by
  induction s with
  | nil => rfl
  | cons c rest ih =>
    show literalWord (escapeChar c ++ escapeStr rest) = _
    unfold escapeChar
    cases escaped : escapedLetter c with
    | some letter =>
      have names := (escapedLetter_names escaped).2
      show literalWord ('\\' :: letter :: escapeStr rest) = _
      rw [literalWord, names, ih]
      rfl
    | none =>
      have plain := (escapedLetter_none escaped).1
      have notSlash : c ≠ '\\' := by
        intro same
        subst same
        cases escaped
      show literalWord (c :: escapeStr rest) = _
      rw [literalWord.eq_3 c (escapeStr rest) (fun _ _ same => absurd same notSlash), plain, ih]
      rfl

/-- Whatever a string holds, its escaped text is read as exactly one piece for each character, a
text or an escape that stands for it, with white space read or passed over; and the pattern made of
it, which scanning and substituting use for a `String`, matches the string alone. -/
theorem escapeStr_literal (build : Build) (s : Text) :
    (∀ (extended : Bool) (captures : Nat), ∃ pieces,
      (Pieces.new (escapeStr s) extended captures).readAll ((escapeStr s).length + 1) =
        some pieces ∧
      List.Forall₂ (fun (piece : Piece × Bool) c => piece.1.StandsFor c) pieces s) ∧
    ∃ pattern, buildPattern build (escapeStr s) 0 = .ok pattern ∧
      literalLanguage pattern = some {s} := by
  constructor
  · intro extended captures
    have enough : s.length < (escapeStr s).length + 1 := Nat.lt_succ_of_le (length_le_escapeStr s)
    refine ⟨_, readAll_escapeStr s extended captures _ enough, ?_⟩
    rw [List.forall₂_map_left_iff, List.forall₂_same]
    intro c _
    exact literalPiece_standsFor c
  · refine ⟨_, buildPattern_escapeStr build s, ?_⟩
    unfold literalLanguage
    rw [stripPrefix_iff.mpr rfl, Option.bind_some, literalWord_escapeStr]
    rfl

end Kobako.Regexp
