import Kobako.Text
import Mathlib.Algebra.Group.Int.Defs
import Mathlib.Algebra.GroupWithZero.Nat

/-!
# Pieces

How the translator reads a pattern's source, as `translate/pieces.rs` does: one meaningful stretch
at a time, an escape, a class or a comment never read as a group. Every slice and every place in
the source is taken as the code takes it, in bytes; a function answers none where the code panics.
-/

namespace Kobako.Regexp

open Text

/-! ## Characters -/

/-- `char::is_ascii`. -/
def isAscii (c : Char) : Bool := c.val < 128

/-- `char::is_ascii_whitespace`. -/
def isAsciiWhitespace (c : Char) : Bool := c ∈ [' ', '\t', '\n', '\x0c', '\r']

/-- `char::is_whitespace`. -/
def isWhitespace (c : Char) : Bool :=
  (0x9 ≤ c.toNat && c.toNat ≤ 0xd) || (0x2000 ≤ c.toNat && c.toNat ≤ 0x200a) ||
    c.toNat ∈ [0x20, 0x85, 0xa0, 0x1680, 0x2028, 0x2029, 0x202f, 0x205f, 0x3000]

/-- The value of a digit, in any base up to sixteen. -/
def digitValue (c : Char) : Nat :=
  if c.isDigit then c.toNat - '0'.toNat
  else if 'a' ≤ c ∧ c ≤ 'f' then c.toNat - 'a'.toNat + 10
  else c.toNat - 'A'.toNat + 10

/-- A number read from its digits. -/
def ofDigits (base : Nat) (digits : Text) : Nat :=
  digits.foldl (fun value c => value * base + digitValue c) 0

/-- `usize::MAX` of the guest. -/
def usizeMax : Nat := 2 ^ 32 - 1

variable (text : Text)

/-- `str::trim`. -/
def trim : Text :=
  ((text.dropWhile isWhitespace).reverse.dropWhile isWhitespace).reverse

/-! ## Pieces -/

/-- `Charset`. -/
inductive Charset where
  | default
  | ascii
  | unicode
deriving Repr, DecidableEq

/-- `Piece`. -/
inductive Piece where
  | text (text : Text)
  | comment (text : Text)
  | «open» (text : Text)
  | close
  | classOpen (text : Text)
  | classText (text : Text)
  | classClose
  | quantifier (text : Text)
  | interval (lower : Text) (upper : Option Text)
  | literalBrace
  | options (letters : Text) (isScoped : Bool)
  | escape (letter : Char) (inClass : Bool) (charset : Charset)
  | char (value : Nat) (inClass : Bool)
  | codePoints (body : Text) (inClass : Bool)
  | property (text name : Text) (negated inClass : Bool)
  | posixBracket (name : Text) (negated : Bool) (charset : Charset)
  | plainGroup (inNegativeLookBehind : Bool)
  | namedGroup (text name : Text)
  | numberedReference (text : Text)
  | namedReference (text : Text) (kind : Char) (name : Text)
  | numberedCondition (text : Text)
  | namedCondition (text name : Text)
  | refused (reason : String)
deriving Repr, DecidableEq

/-- `Piece::literal`. -/
def Piece.literal (inClass : Bool) : Piece :=
  if inClass then .classText text else .text text

/-- `LookBehind`. -/
inductive LookBehind where
  | outside
  | positive
  | negative
deriving Repr, DecidableEq

/-- `LOOK_BEHIND_REFUSAL`. -/
def lookBehindRefusal : String := "invalid pattern in look-behind"

/-- `UNDEFINED_OPTION`. -/
def undefinedOption : String := "undefined group option"

/-- `Frame`. -/
structure Frame where
  /-- Whether white space and `#` comments are passed over. -/
  extended : Bool
  /-- Whether case is ignored. -/
  ignoreCase : Bool
  /-- The character set option. -/
  charset : Charset
  /-- The enclosing look-behind. -/
  lookBehind : LookBehind
deriving Repr, DecidableEq

/-- `Pieces`, the innermost frame first. -/
structure Pieces where
  /-- The source not yet read. -/
  rest : Text
  /-- How many classes the reading stands in. -/
  classDepth : Nat
  /-- What holds in each open group. -/
  frames : List Frame
  /-- How many groups the whole source captures. -/
  captureCount : Nat
deriving Repr, DecidableEq

/-! ## Readers of text -/

/-- Whether a brace stands behind the letter of an escape: `after[1..].starts_with('{')`. -/
def braced (after : Text) : Option Bool := (sliceFrom after 1).map fun rest => rest.head? = some '{'

/-- The answer of the right side of `&&`, asked only where the left side holds. -/
def both (left : Bool) (right : Option Bool) : Option Bool := if left then right else some false

/-- `read_delimited`. -/
def readDelimited : Option (Option (Text × Nat)) := do
  let some close := (match text.head? with
    | some '<' => some '>'
    | some '\'' => some '\''
    | _ => none) | some none
  let inside ← sliceFrom text 1
  let some len := find (· = close) inside | some none
  let name ← slice text 1 (len + 1)
  some (some (name, len + 2))

/-- `escape_has_meaning`. -/
def escapeHasMeaning (letter : Char) (inClass : Bool) (after : Text) : Option Bool :=
  if letter = 'k' ∨ letter = 'g' then
    both (!inClass) do
      let named ← sliceFrom after 1
      let name ← readDelimited named
      some name.isSome
  else if letter = 'p' ∨ letter = 'P' then braced after
  else if inClass then some (letter ∈ "abdefhnrstuvwxDHSW".toList)
  else some (letter ∈ "abdefhnrstuvwxzABDGHKRSWXZ".toList)

/-- `simple_escape`. -/
def simpleEscape (letter : Char) : Option Nat :=
  if letter = '\\' then some 0x5c
  else if letter = 'n' then some 0x0a
  else if letter = 't' then some 0x09
  else if letter = 'r' then some 0x0d
  else if letter = 'f' then some 0x0c
  else if letter = 'v' then some 0x0b
  else if letter = 'a' then some 0x07
  else if letter = 'e' then some 0x1b
  else none

/-- `POSIX_BRACKETS`. -/
def posixBrackets : List Text :=
  ["alnum", "alpha", "ascii", "blank", "cntrl", "digit", "graph", "lower", "print", "punct",
    "space", "upper", "word", "xdigit"].map String.toList

/-- A body and whether it was written behind `^`, as `body.strip_prefix('^')` tells. -/
def stripCaret (body : Text) : Bool × Text :=
  match stripPrefix ['^'] body with
  | some name => (true, name)
  | none => (false, body)

/-- `read_posix_bracket`. -/
def readPosixBracket : Option (Option (Text × Nat)) := do
  let some rest := stripPrefix ['[', ':'] text | some none
  let some close := findText [':', ']'] rest | some none
  let body ← sliceTo rest close
  if (stripCaret body).2.all Char.isAlpha then some (some (body, close + 4)) else some none

/-- `are_known_options`. -/
def areKnownOptions (letters : Text) : Bool :=
  let (on, off) := (splitOnce '-' letters).getD (letters, [])
  on.all (· ∈ "imxdau".toList) && off.all (· ∈ "imx-".toList)

/-- The bounds an interval is written with, none for the upper one without a comma. -/
def splitBounds (body : Text) : Text × Option Text :=
  match splitOnce ',' body with
  | some (lower, upper) => (lower, some upper)
  | none => (body, none)

/-- `pieces::read_interval`. -/
def readBounds : Option (Option (Text × Option Text × Nat)) := do
  let some close := find (· = '}') text | some none
  let body ← slice text 1 close
  let (lower, upper) := splitBounds body
  let bounded := !lower.isEmpty || upper.any (!·.isEmpty)
  if bounded && lower.all Char.isDigit && upper.all (·.all Char.isDigit) then
    some (some (lower, upper, close + 1))
  else some none

/-- `read_option_letters`. -/
def readOptionLetters (option : Text) : Option (Option Text) := do
  let some len := find (fun c => !c.isAlphanum && c ≠ '-') option | some none
  let closed ← sliceFrom option len
  let letters ← sliceTo option len
  if closed.head? = some ':' || (closed.head? = some ')' && 0 < len) then some (some letters)
  else some none

/-- The loop of `comment_len`, from the place reached. -/
def commentLenFrom : Text → Bool → Nat → Nat
  | [], _, place => place
  | c :: rest, escaped, place =>
    if c = '\\' then commentLenFrom rest (!escaped) (place + c.utf8Size)
    else if c = ')' ∧ escaped = false then place + 1
    else commentLenFrom rest false (place + c.utf8Size)

/-- `comment_len`. -/
def commentLen : Nat := commentLenFrom text false 0

namespace Pieces

/-! ## Frames -/

/-- `Pieces::new`. -/
def new (source : Text) (extended : Bool) (captureCount : Nat) : Pieces :=
  ⟨source, 0, [⟨extended, false, .default, .outside⟩], captureCount⟩

variable (p : Pieces)

/-- `Pieces::take`. -/
def take (len : Nat) : Option (Text × Pieces) :=
  (splitAt p.rest len).map fun cut => (cut.1, { p with rest := cut.2 })

/-- `Pieces::take`, what was read answered as a piece. -/
def takeAs (len : Nat) (piece : Text → Piece) : Option (Piece × Pieces) :=
  (p.take len).map fun taken => (piece taken.1, taken.2)

/-- `Pieces::frame`, read. -/
def frame : Option Frame := p.frames.head?

/-- `Pieces::frame`, written. -/
def setFrame (change : Frame → Frame) : Option Pieces :=
  match p.frames with
  | [] => none
  | frame :: outer => some { p with frames := change frame :: outer }

/-- `Pieces::ignoring_case`. -/
def ignoringCase (ignoreCase : Bool) : Option Pieces :=
  p.setFrame fun frame => { frame with ignoreCase }

/-- `Pieces::ignores_case`. -/
def ignoresCase : Bool := p.frames.head?.any (·.ignoreCase)

/-- `Pieces::open_frame`. -/
def openFrame : Option Pieces :=
  p.frame.map fun inherited => { p with frames := inherited :: p.frames }

/-- `Pieces::close_frame`. -/
def closeFrame : Pieces :=
  if 1 < p.frames.length then { p with frames := p.frames.tail } else p

/-! ## Escapes -/

/-- The branch of `Pieces::escape` for a property. -/
def property (letter : Char) (after : Text) (inClass : Bool) :
    Option (Option (Piece × Pieces)) :=
  match find (· = '}') after with
  | none => some none
  | some close => do
    let (text, p) ← p.take (close + 2)
    let body ← slice text 3 (len text - 1)
    let (caret, name) := stripCaret body
    some (some (.property text name (caret != decide (letter = 'P')) inClass, p))

/-- The branch of `Pieces::escape` for code points in braces. -/
def codePoints (after : Text) (inClass : Bool) : Option (Option (Piece × Pieces)) :=
  match find (· = '}') after with
  | none => some none
  | some close => do
    let (text, p) ← p.take (close + 2)
    let body ← slice text 3 (len text - 1)
    let body := trim body
    if body.any isWhitespace then some (some (.codePoints body inClass, p))
    else some (some (.literal text inClass, p))

/-- How long the front of a control escape is, or none where it is too short. -/
def controlPrefix (letter : Char) : Option (Except String Nat) :=
  if letter = 'c' then some (.ok 2)
  else if letter = 'C' then do
    let rest ← sliceFrom p.rest 2
    if rest.head? = some '-' then some (.ok 3) else some (.error "too short control escape")
  else some (.error "too short meta escape")

/-- The byte a control escape is made of and how many bytes name it. A byte of the target is read
as its character, which is the same where the byte is ASCII. -/
def controlTarget : Text → Option (Nat × Nat)
  | '\\' :: escaped :: _ => (simpleEscape escaped).map fun byte => (byte, 2)
  | c :: _ => if isAscii c then some (c.toNat, 1) else none
  | [] => none

/-- `Pieces::control`. -/
def control (letter : Char) (inClass : Bool) : Option (Piece × Pieces) := do
  match ← p.controlPrefix letter with
  | .error reason => p.takeAs 2 fun _ => .refused reason
  | .ok front =>
    let target ← sliceFrom p.rest front
    match controlTarget target with
    | none => p.takeAs front fun _ => .refused "too short control escape"
    | some (byte, len) => p.takeAs (front + len) fun _ => .char (byte % 32) inClass

/-- `Pieces::octal`. -/
def octal (inClass : Bool) : Option (Option (Piece × Pieces)) := do
  let after ← sliceFrom p.rest 1
  let decimalLen := (find (fun c => !c.isDigit) after).getD (len after)
  let decimal ← sliceTo after decimalLen
  let number := min (ofDigits 10 decimal) usizeMax
  let isReference :=
    !inClass && after.head? ≠ some '0' && (number ≤ 9 || number ≤ p.captureCount)
  if isReference then some none
  else
    let first ← sliceTo after (min decimalLen 3)
    let octalLen := (find (fun c => !('0' ≤ c && c ≤ '7')) first).getD (min decimalLen 3)
    if octalLen = 0 then
      let (_, p) ← p.take 1
      (p.takeAs 1 (.literal · inClass)).map some
    else
      let digits ← sliceTo after octalLen
      let value := ofDigits 8 digits
      (p.takeAs (1 + octalLen) fun _ =>
        if value ≤ 0x7f then .char value inClass
        else if value ≤ 0xff then .refused "invalid multibyte escape"
        else .refused "invalid escape code").map some

/-- The branch of `Pieces::escape` for a reference by name. -/
def namedReference (letter : Char) (after : Text) :
    Option (Option (Piece × Pieces)) := do
  let named ← sliceFrom after 1
  let some (name, len) ← readDelimited named | some none
  let (text, p) ← p.take (2 + len)
  let frame ← p.frame
  if letter = 'k' ∧ frame.lookBehind ≠ .outside then some (some (.refused lookBehindRefusal, p))
  else some (some (.namedReference text letter name, p))

/-- The branch of `Pieces::escape` for a reference by number. -/
def numberedReference (after : Text) : Option (Piece × Pieces) := do
  let digits := (find (fun c => !c.isDigit) after).getD (len after)
  let (text, p) ← p.take (1 + digits)
  let frame ← p.frame
  if frame.lookBehind ≠ .outside then some (.refused lookBehindRefusal, p)
  else some (.numberedReference text, p)

/-- The end of `Pieces::escape`: `\` and a letter. -/
def plainEscape (letter : Char) (inClass : Bool) : Option (Piece × Pieces) := do
  let (_, p) ← p.take (1 + letter.utf8Size)
  let frame ← p.frame
  some (.escape letter inClass frame.charset, p)

/-- What is left of `Pieces::escape` once the letter has no rule of its own before references. -/
def reference (letter : Char) (after : Text) (inClass : Bool) :
    Option (Piece × Pieces) :=
  if inClass then p.plainEscape letter inClass
  else if letter = 'k' ∨ letter = 'g' then do
    match ← p.namedReference letter after with
    | some read => some read
    | none => p.plainEscape letter inClass
  else if letter.isDigit then p.numberedReference after
  else p.plainEscape letter inClass

/-- What is left of `Pieces::escape` once the letter begins no control escape. -/
def letterEscape (letter : Char) (after : Text) (inClass : Bool) :
    Option (Piece × Pieces) :=
  if letter.isDigit then do
    match ← p.octal inClass with
    | some read => some read
    | none => p.reference letter after inClass
  else do
    let bare ← if !isAscii letter then some true
      else both letter.isAlpha ((escapeHasMeaning letter inClass after).map (!·))
    if bare then
      let (_, p) ← p.take 1
      p.takeAs letter.utf8Size (.literal · inClass)
    else p.reference letter after inClass

/-- What is left of `Pieces::escape` once the letter begins no escape in braces. -/
def unbracedEscape (letter : Char) (after : Text) (inClass : Bool) :
    Option (Piece × Pieces) :=
  if letter = 'c' ∨ letter = 'C' ∨ letter = 'M' then p.control letter inClass
  else p.letterEscape letter after inClass

/-- `Pieces::escape`. -/
def escape : Option (Piece × Pieces) := do
  let after ← sliceFrom p.rest 1
  match after.head? with
  | none => p.takeAs 1 .text
  | some letter =>
    let inClass := decide (0 < p.classDepth)
    if ← both (letter = 'x') (braced after) then p.takeAs 2 fun _ => .refused "invalid hex escape"
    else if ← both (letter = 'p' ∨ letter = 'P') (braced after) then
      match ← p.property letter after inClass with
      | some read => some read
      | none => p.unbracedEscape letter after inClass
    else if ← both (letter = 'u') (braced after) then
      match ← p.codePoints after inClass with
      | some read => some read
      | none => p.unbracedEscape letter after inClass
    else p.unbracedEscape letter after inClass

/-! ## Groups -/

/-- What one letter of an option does to the frame it holds in, a letter behind `-` unsetting. -/
def optionLetter (setting : Bool) (frame : Frame) (letter : Char) : Frame :=
  if letter = 'x' then { frame with extended := setting }
  else if letter = 'i' then { frame with ignoreCase := setting }
  else if letter = 'd' then { frame with charset := .default }
  else if letter = 'a' then { frame with charset := .ascii }
  else if letter = 'u' then { frame with charset := .unicode }
  else frame

/-- The loop of `Pieces::apply_options`. -/
def optionLetters : Bool → Frame → Text → Frame
  | _, frame, [] => frame
  | setting, frame, letter :: rest =>
    if letter = '-' then optionLetters false frame rest
    else optionLetters setting (optionLetter setting frame letter) rest

/-- `Pieces::apply_options`. -/
def applyOptions (letters : Text) : Option (Piece × Pieces) := do
  let closed ← sliceFrom p.rest (2 + len letters)
  let close ← closed.head?
  let isScoped := decide (close = ':')
  let p ← if isScoped then p.openFrame else some p
  if areKnownOptions letters then
    let p ← p.setFrame (optionLetters true · letters)
    p.takeAs (3 + len letters) fun _ => .options letters isScoped
  else p.takeAs (3 + len letters) fun _ => .refused undefinedOption

/-- The branch of `Pieces::group` for a condition by name. -/
def namedCondition (option : Text) : Option (Option (Piece × Pieces)) := do
  let some inside := stripPrefix ['('] option | some none
  let some (name, len) ← readDelimited inside | some none
  let behind ← sliceFrom option (1 + len)
  if behind.head? = some ')' then
    let p ← p.openFrame
    (p.takeAs (4 + len) (.namedCondition · name)).map some
  else some none

/-- The branch of `Pieces::group` for a group by name. -/
def namedGroup (option : Text) : Option (Option (Piece × Pieces)) :=
  if ['<', '='] <+: option ∨ ['<', '!'] <+: option then some none
  else do
    let some (name, len) ← readDelimited option | some none
    let (text, p) ← p.take (2 + len)
    let frame ← p.frame
    let p ← p.openFrame
    if frame.lookBehind = .negative then some (some (.refused lookBehindRefusal, p))
    else if name.head?.any Char.isDigit then some (some (.refused "invalid group name", p))
    else some (some (.namedGroup text name, p))

/-- The end of `Pieces::group`: a look-around, an atomic group, or an opening with no rule. -/
def openGroup (option : Text) : Option (Piece × Pieces) := do
  let frame ← p.frame
  let outer := frame.lookBehind
  let p ← p.openFrame
  let openers : List Text := [['<', '='], ['<', '!'], ['='], ['!'], ['>']]
  let length := ((openers.find? (· <+: option)).map fun opener => 2 + len opener).getD 2
  let opener ← sliceTo option (length - 2)
  if opener = ['<', '='] ∧ outer = .outside then
    let p ← p.setFrame fun frame => { frame with lookBehind := .positive }
    p.takeAs length .open
  else if opener = ['<', '!'] then
    let p ← p.setFrame fun frame => { frame with lookBehind := .negative }
    p.takeAs length .open
  else if (opener = ['='] ∨ opener = ['!'] ∨ opener = ['>']) ∧ outer ≠ .outside then
    p.takeAs length fun _ => .refused lookBehindRefusal
  else p.takeAs length .open

/-- What is left of `Pieces::group` once the group is no condition by number. -/
def namedOrOptions (option : Text) : Option (Piece × Pieces) := do
  match ← p.namedCondition option with
  | some read => some read
  | none =>
    match ← p.namedGroup option with
    | some read => some read
    | none =>
      match ← readOptionLetters option with
      | some letters => p.applyOptions letters
      | none => p.openGroup option

/-- `Pieces::group`. -/
def group : Option (Piece × Pieces) := do
  let inside ← sliceFrom p.rest 1
  match stripPrefix ['?'] inside with
  | none =>
    let (_, p) ← p.take 1
    let p ← p.openFrame
    let frame ← p.frame
    some (.plainGroup (frame.lookBehind = .negative), p)
  | some option =>
    if option.head? = some '#' then p.takeAs (commentLen p.rest) .comment
    else if option.head? = some 'P' then p.takeAs 1 fun _ => .refused undefinedOption
    else if option.head? = some '~' then
      p.takeAs 1 fun _ => .refused "the absence operator is not supported"
    else if ← both (option.head? = some '(') ((sliceFrom option 1).map fun rest =>
        rest.head?.any Char.isDigit) then
      let length := ((find (· = ')') option).map (· + 3)).getD (len p.rest)
      let p ← p.openFrame
      p.takeAs length .numberedCondition
    else p.namedOrOptions option

/-! ## The reading -/

/-- `Pieces::brace`. -/
def brace : Option (Piece × Pieces) := do
  match ← readBounds p.rest with
  | none => p.takeAs 1 fun _ => .literalBrace
  | some (lower, upper, len) => p.takeAs len fun _ => .interval lower upper

/-- The depth of classes once `first` is read in one. -/
def classDepthAfter (depth : Nat) (first : Char) : Option Nat :=
  if first = '[' then some (depth + 1)
  else if first = ']' then if depth = 0 then none else some (depth - 1)
  else some depth

/-- `Pieces::class_piece`. -/
def classPiece (first : Char) : Option (Piece × Pieces) := do
  match ← readPosixBracket p.rest with
  | some (body, len) =>
    let (_, p) ← p.take len
    let (negated, name) := stripCaret body
    if name ∈ posixBrackets then
      let frame ← p.frame
      some (.posixBracket name negated frame.charset, p)
    else some (.refused "invalid POSIX bracket type", p)
  | none =>
    let depth ← classDepthAfter p.classDepth first
    let p := { p with classDepth := depth }
    if depth = 0 then p.takeAs 1 fun _ => .classClose
    else p.takeAs first.utf8Size .classText

/-- `Pieces::next` outside classes, for what is no escape. -/
def outsidePiece (first : Char) : Option (Piece × Pieces) := do
  let frame ← p.frame
  if first = '[' then takeAs { p with classDepth := 1 } 1 .classOpen
  else if first = '(' then p.group
  else if first = ')' then p.closeFrame.takeAs 1 fun _ => .close
  else if first = '{' then p.brace
  else if first = '?' ∨ first = '*' ∨ first = '+' then p.takeAs 1 .quantifier
  else if first = '#' ∧ frame.extended = true then
    p.takeAs (((find (· = '\n') p.rest).map (· + 1)).getD (len p.rest)) .comment
  else if frame.extended = true ∧ isAsciiWhitespace first = true then p.takeAs 1 .comment
  else p.takeAs first.utf8Size .text

/-- `Pieces::next`: none where it panics, and nothing where the source is read. -/
def next : Option (Option (Piece × Pieces)) :=
  match p.rest.head? with
  | none => some none
  | some first =>
    if first = '\\' then p.escape.map some
    else if 0 < p.classDepth then (p.classPiece first).map some
    else (p.outsidePiece first).map some

end Pieces

end Kobako.Regexp
