import Kobako.Regexp.Classes

/-!
# The rewriter

The translation of a pattern's source into the engine's, as `translate.rs` writes it, with the
quantifiers of `translate/repeat.rs`. The rewriter keeps places in what it has written, in bytes:
where the last repeatable unit starts, where each open group does, where a run of literal
characters and a class do. A later piece cuts the output there, and a cut that cannot be made is
where the code panics.
-/

namespace Kobako.Regexp

open Text

/-- How the translation of a source ends other than in a pattern. -/
inductive Stop where
  | panicked
  | refused (reason : String)
deriving Repr, DecidableEq

/-- What a slice or an index answers, panicking where there is nothing. -/
def sliced {α : Type} : Option α → Except Stop α
  | some a => .ok a
  | none => .error .panicked

/-- What a function that refuses by a reason answers. -/
def refusing {α : Type} : Except String α → Except Stop α
  | .ok a => .ok a
  | .error reason => .error (.refused reason)

/-! ## Quantities -/

/-- `Quantity`. -/
structure Quantity where
  /-- How often it repeats at least. -/
  lower : Nat
  /-- How often it repeats at most. -/
  upper : Option Nat
  /-- Whether it repeats as often as it can. -/
  isGreedy : Bool
  /-- Whether it gives nothing back. -/
  possessive : Bool
deriving Repr, DecidableEq

namespace Quantity

/-- `Quantity::greedy`. -/
def greedy (lower : Nat) (upper : Option Nat) : Quantity := ⟨lower, upper, true, false⟩

/-- `Quantity::lazy`. -/
def «lazy» (lower : Nat) (upper : Option Nat) : Quantity := { greedy lower upper with isGreedy := false }

/-- `Quantity::popular`. -/
def popular (q : Quantity) : Option Nat :=
  (match q.lower, q.upper with
    | 0, some 1 => some 0
    | 0, none => some 1
    | 1, none => some 2
    | _, _ => none).map fun base => if q.isGreedy then base else base + 3

/-- `Quantity::write`, as what it writes. -/
def text (q : Quantity) : Text :=
  (match q.lower, q.upper with
    | 0, some 1 => ['?']
    | 0, none => ['*']
    | 1, none => ['+']
    | lower, none => ['{'] ++ Nat.toDigits 10 lower ++ [',', '}']
    | lower, some upper =>
      if lower = upper then ['{'] ++ Nat.toDigits 10 lower ++ ['}']
      else ['{'] ++ Nat.toDigits 10 lower ++ [','] ++ Nat.toDigits 10 upper ++ ['}']) ++
    if q.isGreedy then [] else ['?']

end Quantity

/-- `Fold`. -/
inductive Fold where
  | asIs
  | inner
  | star
  | lazyStar
  | lazyOptional
  | lazyOptionalPlus
deriving Repr, DecidableEq

/-- `FOLDS`. -/
def folds : List (List Fold) :=
  [[.inner, .star, .star, .lazyOptional, .lazyStar, .asIs],
   [.inner, .inner, .inner, .lazyOptionalPlus, .lazyOptionalPlus, .inner],
   [.star, .star, .inner, .asIs, .lazyOptionalPlus, .inner],
   [.inner, .lazyStar, .lazyStar, .inner, .lazyStar, .lazyStar],
   [.inner, .inner, .inner, .inner, .inner, .inner],
   [.asIs, .asIs, .asIs, .lazyStar, .lazyStar, .inner]]

/-- `bound_by_inner_star`. -/
def boundByInnerStar (inner outer : Quantity) : Quantity :=
  let innerStar := inner.popular = some 1 ∨ inner.popular = some 2
  match outer.upper with
  | some upper =>
    if innerStar ∧ outer.isGreedy = true ∧ 1 < upper then
      { outer with upper := some (max outer.lower 1) }
    else outer
  | none => outer

/-- What the table says of two quantifiers. -/
def foldOf (inner outer : Quantity) : Except Stop Fold :=
  match inner.popular, outer.popular with
  | some row, some column => sliced ((folds[row]?).bind (·[column]?))
  | _, _ => .ok .asIs

variable (text : Text)

/-- `repeat::fold`, with the text it leaves. -/
def foldQuantity (inner outer : Quantity) : Except Stop (Text × Quantity) := do
  let outer := boundByInnerStar inner outer
  match ← foldOf inner outer with
  | .inner => .ok (text, inner)
  | .star => .ok (text, .greedy 0 none)
  | .lazyStar => .ok (text, .lazy 0 none)
  | .lazyOptional => .ok (text, .lazy 0 (some 1))
  | .lazyOptionalPlus => .ok ("(?:".toList ++ text ++ "+)".toList, .lazy 0 (some 1))
  | .asIs => .ok ("(?:".toList ++ (text ++ inner.text) ++ [')'], outer)

/-- A quantifier put on those written so far. -/
def stackQuantity (current : Option Quantity) (outer : Quantity) :
    Except Stop (Text × Quantity) :=
  match current with
  | none => .ok (text, outer)
  | some inner => foldQuantity text inner outer

/-- The loop of `repeat::write`. -/
def writeQuantities : Text → Option Quantity → List Quantity → Except Stop Text
  | text, current, [] => .ok (text ++ (current.map Quantity.text).getD [])
  | text, current, quantity :: rest => do
    let (text, folded) ← stackQuantity text current { quantity with possessive := false }
    if quantity.possessive then
      writeQuantities ("(?>".toList ++ (text ++ folded.text) ++ [')']) none rest
    else writeQuantities text (some folded) rest

/-- `repeat::write`. -/
def writeRepeat (unit : Text) (quantities : List Quantity) : Except Stop Text :=
  writeQuantities unit none quantities

/-! ## The state of the rewriter -/

/-- `OpenGroup`. -/
structure OpenGroup where
  /-- Where it starts in the output. -/
  start : Nat
  /-- The closings its isolated options owe. -/
  owedCloses : Nat
  /-- Whether it is a look-around. -/
  lookAround : Bool
deriving Repr, DecidableEq

/-- `Role`. -/
inductive Role where
  | inert
  | «repeat»
  | boundary
  | unit
  | opening (lookAround : Bool)
  | closing
deriving Repr, DecidableEq

/-- `Role::of_text`. -/
def Role.ofText (inClass : Bool) : Role := if inClass then .inert else .unit

/-- `Repeat`. -/
inductive Repeat where
  | none
  | greedy
  | interval (exact : Bool)
  | settled
deriving Repr, DecidableEq

/-- `FoldedClass`. -/
structure FoldedClass where
  /-- Where it starts in the output. -/
  start : Nat
  /-- The characters written inside it. -/
  written : Text
  /-- Where each class inside it the engine must not fold was written. -/
  unfoldedClasses : List (Nat × Nat)
deriving Repr, DecidableEq

/-- `Rewriter`, the innermost open group first. -/
structure Rewriter where
  /-- Each capture name with its group numbers. -/
  names : List (Text × List Nat)
  /-- Whether the source calls a subexpression. -/
  hasCalls : Bool
  /-- What was written. -/
  out : Text
  /-- The open groups. -/
  groups : List OpenGroup
  /-- Where the last repeatable unit starts. -/
  unitStart : Option Nat
  /-- Whether that unit is a look-around. -/
  unitIsLookAround : Bool
  /-- The look-around a quantifier turned into an alternative. -/
  optionalLookAround : Option Text
  /-- The last unit as written. -/
  quantifiedUnit : Text
  /-- The quantifiers stacked on it. -/
  quantities : List Quantity
  /-- How far those have gone. -/
  «repeat» : Repeat
  /-- The case-insensitive literal characters read in a row. -/
  literalRun : Text
  /-- Where they start. -/
  literalRunStart : Nat
  /-- Where the last of them starts. -/
  literalRunLast : Nat
  /-- The case-insensitive class being read. -/
  foldedClass : Option FoldedClass
  /-- Whether the piece being written reads case-insensitively. -/
  folding : Bool
deriving Repr, DecidableEq

/-- `NUMBERED_REFERENCE`. -/
def numberedReferenceRefusal : String := "numbered backref/call is not allowed. (use name)"

/-- `is_literal_char`. -/
def isLiteralChar : Bool :=
  match text with
  | [c] => c ∉ ['|', '.', '^', '$']
  | _ => false

/-- `MAX_REPEAT`. -/
def maxRepeat : Nat := 100000

/-- The closure `bound` of `read_interval`: all of `text` is digits. -/
def readBound : Except String Nat :=
  if text ≠ [] ∧ ofDigits 10 text ≤ maxRepeat then .ok (ofDigits 10 text)
  else .error "too big number for repeat range"

/-- `translate::read_interval`. -/
def readInterval (lower : Text) (upper : Option Text) : Except String Quantity := do
  let lowerBound ← if lower = [] then .ok 0 else readBound lower
  let upperBound ← match upper with
    | none => .ok (some lowerBound)
    | some [] => .ok none
    | some upper => (readBound upper).map some
  if upperBound.any (· < lowerBound) then .error "upper is smaller than lower in repeat range"
  else .ok (.greedy lowerBound upperBound)

/-- The closure `engine_letters` of `push_options`. -/
def engineLetters (letters : Text) : Text :=
  (letters.filter (· ∉ "-dau".toList)).map fun letter => if letter = 'm' then 's' else letter

/-- `push_options`, as what it writes. -/
def optionsText (letters : Text) : Text :=
  let (on, off) := (splitOnce '-' letters).getD (letters, [])
  let off := engineLetters off
  "(?".toList ++ engineLetters on ++ (if off = [] then [] else ['-'] ++ off) ++ [':']

/-- `find_shared_numbers`. -/
def findSharedNumbers (names : List (Text × List Nat)) (name : Text) : Option (List Nat) :=
  (names.find? fun (existing, numbers) => existing = name ∧ 1 < numbers.length).map (·.2)

/-- `push_each_group`, as what it writes. -/
def eachGroupText (numbers : List Nat) : Text :=
  "(?>".toList ++
    List.intercalate ['|'] (numbers.reverse.map fun number => ['\\'] ++ Nat.toDigits 10 number) ++
    [')']

/-- `split_level`. -/
def splitLevel (reference : Text) : Except Stop (Option (Text × Int)) := do
  let behind ← sliced (sliceFrom reference 1)
  match rfind (fun c => c = '+' ∨ c = '-') behind with
  | none => .ok none
  | some place =>
    let (name, level) ← sliced (splitAt reference (place + 1))
    let digits ← sliced (sliceFrom level 1)
    if digits = [] ∨ digits.all Char.isDigit = false then .ok none
    else if ofDigits 10 digits < 2 ^ 63 then
      let magnitude : Int := ofDigits 10 digits
      .ok (some (name, if level.head? = some '-' then -magnitude else magnitude))
    else .ok none

/-- `u32::from_str_radix` in base sixteen. -/
def fromHex (hex : Text) : Option Nat :=
  let digits := (stripPrefix ['+'] hex).getD hex
  let isHex (c : Char) : Bool := c.isDigit || ('a' ≤ c && c ≤ 'f') || ('A' ≤ c && c ≤ 'F')
  if digits ≠ [] ∧ digits.all isHex = true ∧ ofDigits 16 digits < 2 ^ 32 then
    some (ofDigits 16 digits)
  else none

/-- `is_group_number`. -/
def isGroupNumber (name : Text) : Bool :=
  let digits := (stripPrefix ['-'] name).getD name
  digits ≠ [] && digits.all Char.isDigit

/-- `String::truncate`, none where it panics. -/
def truncate (place : Nat) : Option Text :=
  if place ≤ len text then sliceTo text place else some text

namespace Rewriter

/-- `Rewriter::new`. -/
def new (names : List (Text × List Nat)) (hasCalls : Bool) (out : Text) : Rewriter :=
  ⟨names, hasCalls, out, [⟨0, 0, false⟩], none, false, none, [], [], .none, [], 0, 0, none, false⟩

/-- `out.push_str`. -/
def push (r : Rewriter) (text : Text) : Rewriter := { r with out := r.out ++ text }

/-- `Rewriter::keep_unfolded`. -/
def keepUnfolded (r : Rewriter) (start : Nat) (inClass : Bool) : Except Stop Rewriter := do
  if !r.folding then .ok r
  else if !inClass then
    let (front, back) ← sliced (splitAt r.out start)
    .ok { r with out := front ++ "(?-i:".toList ++ back ++ [')'] }
  else
    .ok { r with foldedClass := r.foldedClass.map fun open_ =>
      { open_ with unfoldedClasses := open_.unfoldedClasses ++ [(start, len r.out)] } }

/-- `Rewriter::keep_unfolded`, where what was written asks for it. -/
def keepUnfoldedIf (r : Rewriter) (asks : Bool) (start : Nat) (inClass : Bool) :
    Except Stop Rewriter := if asks then r.keepUnfolded start inClass else .ok r

variable (build : Build)

/-- `Rewriter::push_escape`. -/
def pushEscape (r : Rewriter) (letter : Char) (inClass : Bool) (charset : Charset) :
    Except Stop Rewriter := do
  let start := len r.out
  let replacement ← refusing (shorthand build letter inClass charset)
  (r.push (replacement.getD ['\\', letter])).keepUnfoldedIf (isAsciiShorthand letter charset)
    start inClass

/-- `Rewriter::write_quantified_unit`. -/
def writeQuantifiedUnit (r : Rewriter) (start : Nat) : Except Stop Rewriter := do
  let out ← sliced (truncate r.out start)
  let text ← writeRepeat r.quantifiedUnit r.quantities
  .ok { r with out := out ++ text }

/-- The unit a quantifier repeats: the one its first quantifier met. -/
def unitText (r : Rewriter) (start : Nat) : Except Stop Text :=
  if r.quantities = [] then sliced (sliceFrom r.out start) else .ok r.quantifiedUnit

/-- `Rewriter::repeat_unit`. -/
def repeatUnit (r : Rewriter) (quantity : Quantity) : Except Stop Rewriter := do
  let r := { r with optionalLookAround := none }
  match r.unitStart with
  | none => (writeRepeat [] [quantity]).map r.push
  | some start =>
    if r.unitIsLookAround then
      if quantity.lower = 0 then
        let (front, lookAround) ← sliced (splitAt r.out start)
        .ok { r with
          out := front ++ "(?:".toList ++ lookAround ++ "|)".toList
          optionalLookAround := some lookAround
          unitIsLookAround := false }
      else .ok r
    else
      let unit ← r.unitText start
      writeQuantifiedUnit { r with
        quantifiedUnit := unit
        quantities := r.quantities ++ [quantity] } start

/-- A quantity with a modifier on it. -/
def modified (modifier : Text) (quantity : Quantity) : Quantity :=
  if modifier = ['?'] then { quantity with isGreedy := false }
  else { quantity with possessive := true }

/-- `Rewriter::modify_repeat`. -/
def modifyRepeat (r : Rewriter) (modifier : Text) : Except Stop Rewriter := do
  let r := { r with «repeat» := .settled }
  if r.unitIsLookAround then .ok r
  else
    match r.unitStart with
    | none => .ok (r.push modifier)
    | some start =>
      match r.optionalLookAround with
      | some lookAround =>
        let out ← sliced (truncate r.out start)
        let form := if modifier = ['?'] then "(?:|".toList ++ lookAround ++ [')']
          else "(?>".toList ++ lookAround ++ "|)".toList
        .ok { r with out := out ++ form, optionalLookAround := none }
      | none =>
        match r.quantities.getLast? with
        | none => .ok r
        | some last =>
          writeQuantifiedUnit { r with
            quantities := r.quantities.dropLast ++ [modified modifier last] } start

/-- A run of literal characters and the last of it, apart where a quantifier follows. -/
def splitRun (run : Text) (splitLast : Bool) : Except Stop (Text × Text) :=
  let lastLen := (run.getLast?.map Char.utf8Size).getD 0
  if splitLast then sliced (splitAt run (len run - lastLen)) else .ok (run, [])

/-- What `Rewriter::close_literal_run` writes for the two parts of a run. -/
def spellRun (r : Rewriter) (splitLast : Bool) (head last : Text) :
    Except Stop Rewriter := do
  let headSpelled ← refusing (expandRun build head)
  let lastSpelled ← refusing (expandRun build last)
  if headSpelled = none ∧ lastSpelled = none then .ok r
  else
    let out ← sliced (truncate r.out r.literalRunStart)
    let out := out ++ headSpelled.getD head
    .ok { r with
      out := out ++ lastSpelled.getD last
      unitStart := some (if splitLast then len out else r.literalRunStart) }

/-- `Rewriter::close_literal_run`. -/
def closeLiteralRun (r : Rewriter) (splitLast : Bool) : Except Stop Rewriter :=
  if r.literalRun = [] then .ok r
  else do
    let (head, last) ← splitRun r.literalRun splitLast
    spellRun build { r with literalRun := [] } splitLast head last

/-- The loop of `Rewriter::close_folded_class`: what is left of the class and what is cut from it,
from the place reached. -/
def cutUnfolded (written : Text) (base : Nat) : Nat → List (Nat × Nat) → Except Stop (Text × Text)
  | place, [] => do
    let rest ← sliced (if base ≤ place then sliceFrom written (place - base) else none)
    .ok (rest, [])
  | place, (start, stop) :: more => do
    let kept ← sliced (if base ≤ place then slice written (place - base) (start - base) else none)
    let cut ← sliced (if base ≤ start then slice written (start - base) (stop - base) else none)
    let (rest, ascii) ← cutUnfolded written base stop more
    .ok (kept ++ rest, cut ++ ascii)

/-- The alternatives `Rewriter::close_folded_class` writes before the folds. -/
def classAlternatives (written : Text) (open_ : FoldedClass) : Except Stop (List Text) := do
  if open_.unfoldedClasses = [] then .ok [written]
  else
    let (rest, ascii) ← cutUnfolded written open_.start open_.start open_.unfoldedClasses
    let body ← sliced (slice rest 1 (len rest - 1))
    let body := (stripPrefix ['^'] body).getD body
    .ok ((if body = [] then [] else [['['] ++ body ++ [']']]) ++
      ["(?-i:[".toList ++ ascii ++ "])".toList])

/-- `Rewriter::close_folded_class`. -/
def closeFoldedClass (r : Rewriter) : Except Stop Rewriter := do
  match r.foldedClass with
  | none => .ok r
  | some open_ =>
    let r := { r with foldedClass := none }
    let negated := open_.written.head? = some '^'
    let folds := if negated then [] else classFolds build open_.written
    if folds = [] ∧ open_.unfoldedClasses = [] then .ok r
    else
      let (front, written) ← sliced (splitAt r.out open_.start)
      let alternatives ← classAlternatives written open_
      let positive := "(?:".toList ++ List.intercalate ['|'] (alternatives ++ folds) ++ [')']
      if negated ∧ open_.unfoldedClasses ≠ [] then
        .ok { r with out := front ++ "(?:(?!".toList ++ positive ++ ")(?s:.))".toList }
      else .ok { r with out := front ++ positive }

/-- `Rewriter::push_leveled_reference`. -/
def pushLeveledReference (r : Rewriter) (name : Text) (level : Int) : Except Stop Rewriter :=
  if r.hasCalls ∨ (findSharedNumbers r.names name).isSome = true then
    .error (.refused "a backreference with a level is not supported here")
  else if r.names ≠ [] ∧ isGroupNumber name = true then .error (.refused numberedReferenceRefusal)
  else if level = 0 then .ok (r.push ("\\k<".toList ++ name ++ ['>']))
  else .ok (r.push "(?!)".toList)

/-- The end of `Rewriter::push_piece` for a reference by name. -/
def pushNamedReference (r : Rewriter) (text : Text) (kind : Char) (name : Text) :
    Except Stop Rewriter :=
  if r.names ≠ [] ∧ isGroupNumber name = true then .error (.refused numberedReferenceRefusal)
  else
    match findSharedNumbers r.names name with
    | some numbers =>
      if kind = 'g' then
        .error (.refused ("multiplex definition name <" ++ String.ofList name ++ "> call"))
      else .ok (r.push (eachGroupText numbers))
    | none => .ok (r.push text)

/-- The level a reference by name is written with, asked of `\k` alone. -/
def levelOf (kind : Char) (name : Text) : Except Stop (Option (Text × Int)) :=
  if kind = 'k' then splitLevel name else .ok none

/-- The code points of `\u` in braces, one after another. -/
def pushCodePoints (r : Rewriter) : List Text → Except Stop Rewriter
  | [] => .ok r
  | hex :: rest =>
    match fromHex hex with
    | some value => pushCodePoints (r.push (codePointText value)) rest
    | none => .error (.refused "invalid Unicode escape")

/-- `str::split_whitespace`. -/
def splitWhitespace (text : Text) : List Text :=
  (text.splitBy fun a b => isWhitespace a == isWhitespace b).filter
    fun word => word.head?.any (!isWhitespace ·)

/-- Whether a quantifier modifies the one before it. -/
def modifies : Repeat → Text → Bool
  | .greedy, text => text = ['?'] || text = ['+']
  | .interval false, text => text = ['?']
  | _, _ => false

/-- The branch of `Rewriter::push_piece` for a quantifier. -/
def pushQuantifier (r : Rewriter) (text : Text) : Except Stop Rewriter := do
  if modifies r.repeat text then r.modifyRepeat text
  else
    let quantity : Quantity := if text = ['?'] then .greedy 0 (some 1)
      else if text = ['*'] then .greedy 0 none else .greedy 1 none
    let r ← r.repeatUnit quantity
    .ok { r with «repeat» := .greedy }

/-- `Rewriter::push_piece`. -/
def pushPiece (r : Rewriter) (piece : Piece) : Except Stop (Role × Rewriter) :=
  let named := r.names ≠ []
  match piece with
  | .comment text =>
    .ok (.inert, r.push (if text.head? = some '#' ∧ text.getLast? ≠ some '\n' then text ++ ['\n']
      else text))
  | .classText text => .ok (.inert, r.push text)
  | .classClose => .ok (.inert, r.push [']'])
  | .escape letter true charset => do
    let r ← r.pushEscape build letter true charset
    .ok (.inert, r)
  | .char value inClass => .ok (.ofText inClass, r.push (codePointText value))
  | .codePoints body inClass => do
    let r ← r.pushCodePoints (splitWhitespace body)
    .ok (.ofText inClass, r)
  | .property text name negated inClass =>
    .ok (.ofText inClass, r.push ((propertyClass build name negated).getD text))
  | .posixBracket name negated charset => do
    let start := len r.out
    let text ← refusing (posixBracket build name negated charset r.folding)
    let r ← (r.push text).keepUnfoldedIf
      (isUnfoldedPosixBracket name negated charset r.folding) start true
    .ok (.inert, r)
  | .quantifier text => do
    let r ← r.pushQuantifier text
    .ok (.repeat, r)
  | .interval lower upper => do
    let quantity ← refusing (readInterval lower upper)
    let r ← r.repeatUnit quantity
    .ok (.repeat, { r with «repeat» := .interval upper.isNone })
  | .close => .ok (.closing, r)
  | .options letters isScoped =>
    let r := r.push (optionsText letters)
    if isScoped then .ok (.opening false, r)
    else
      let groups := match r.groups with
        | [] => []
        | group :: outer => { group with owedCloses := group.owedCloses + 1 } :: outer
      .ok (.boundary, { r with groups })
  | .open text =>
    let openers : List Text := ["(?=".toList, "(?!".toList, "(?<=".toList, "(?<!".toList]
    .ok (.opening (openers.any (· <+: text)), r.push text)
  | .namedGroup text _ => .ok (.opening false, r.push text)
  | .plainGroup inNegativeLookBehind =>
    if inNegativeLookBehind = true ∧ ¬named then .error (.refused lookBehindRefusal)
    else .ok (.opening false, r.push (if named then "(?:".toList else ['(']))
  | .numberedCondition text =>
    if named then .error (.refused numberedReferenceRefusal)
    else .ok (.opening false, r.push text)
  | .namedCondition text name =>
    match r.names.find? (·.1 = name) with
    | some (_, numbers) => do
      let number ← sliced numbers.head?
      .ok (.opening false, r.push ("(?(".toList ++ Nat.toDigits 10 number ++ [')']))
    | none => .ok (.opening false, r.push text)
  | .text text => .ok (if text = ['|'] then .boundary else .unit, r.push text)
  | .classOpen text => .ok (.unit, r.push text)
  | .literalBrace => .ok (.unit, r.push ['\\', '{'])
  | .escape letter false charset =>
    if letter = 'b' ∨ letter = 'B' then do
      let start := len r.out
      let text ← refusing (wordBoundary build letter charset)
      let r ← (r.push text).keepUnfoldedIf (charset = .ascii) start false
      .ok (.unit, r)
    else do
      let r ← r.pushEscape build letter false charset
      .ok (.unit, r)
  | .numberedReference text =>
    if named then .error (.refused numberedReferenceRefusal) else .ok (.unit, r.push text)
  | .namedReference text kind name => do
    match ← levelOf kind name with
    | some (name, level) =>
      let r ← r.pushLeveledReference name level
      .ok (.unit, r)
    | none =>
      let r ← r.pushNamedReference text kind name
      .ok (.unit, r)
  | .refused reason => .error (.refused reason)

/-- Whether an open group holds nothing but the last unit. -/
def holdsOneUnit (r : Rewriter) (group : OpenGroup) : Except Stop Bool :=
  if group.owedCloses = 0 then do
    let inside ← sliced (sliceFrom r.out group.start)
    .ok (decide ("(?:".toList <+: inside ∧ r.unitStart = some (group.start + 3)))
  else .ok false

/-- `Rewriter::take_grouped_repeat`. -/
def takeGroupedRepeat (r : Rewriter) :
    Except Stop (Option (Text × List Quantity) × Rewriter) := do
  match r.groups with
  | group :: _ :: _ =>
    let holds ← r.holdsOneUnit group
    if holds = false ∨ r.quantities = [] then .ok (none, r)
    else .ok (some (r.quantifiedUnit, r.quantities), { r with quantifiedUnit := [], quantities := [] })
  | _ => .ok (none, r)

/-- What a piece of a role forgets of the quantifiers before it. -/
def forget (r : Rewriter) : Rewriter :=
  { r with
    «repeat» := .none
    unitIsLookAround := false
    optionalLookAround := none
    quantities := [] }

/-- The branch of `Rewriter::rewrite` for a closing. -/
def closeGroup (r : Rewriter) (groupedRepeat : Option (Text × List Quantity)) : Rewriter :=
  let (group, groups) := match r.groups with
    | group :: outer :: more => (some group, outer :: more)
    | groups => (none, groups)
  let owed := (group.map (·.owedCloses)).getD 0
  let r := { r with
    groups
    out := r.out ++ List.replicate (owed + 1) ')'
    unitIsLookAround := group.any (·.lookAround)
    unitStart := group.map (·.start) }
  match groupedRepeat with
  | some (unit, quantities) =>
    { r with quantifiedUnit := unit, quantities, «repeat» := .settled }
  | none => r

/-- What the first `match` of `Rewriter::rewrite` does: the literal run goes on, or is closed. -/
def runOn (r : Rewriter) (piece : Piece) (folding : Bool) :
    Except Stop Rewriter :=
  match piece with
  | .text text =>
    if folding = true ∧ isLiteralChar text = true then
      .ok { r with
        literalRunStart := if r.literalRun = [] then len r.out else r.literalRunStart
        literalRunLast := len r.out
        literalRun := r.literalRun ++ text }
    else r.closeLiteralRun build false
  | .quantifier _ | .interval _ _ => r.closeLiteralRun build true
  | _ => r.closeLiteralRun build false

/-- What the second `match` of `Rewriter::rewrite` does: a class that folds is begun, or written
in. -/
def noteClass (r : Rewriter) (piece : Piece) (folding : Bool) : Rewriter :=
  match piece with
  | .classOpen _ =>
    if folding then { r with foldedClass := some ⟨len r.out, [], []⟩ } else r
  | .classText text =>
    { r with foldedClass := r.foldedClass.map fun open_ =>
      { open_ with written := open_.written ++ text } }
  | _ => r

/-- What the roles of `Rewriter::rewrite` do, a unit starting at `start`. -/
def settle (r : Rewriter) (role : Role) (start : Nat) : Except Stop Rewriter := do
  match role with
  | .inert | .repeat => .ok r
  | .boundary => .ok { r.forget with unitStart := none }
  | .unit => .ok { r.forget with unitStart := some start }
  | .opening lookAround =>
    .ok { r.forget with groups := ⟨start, 0, lookAround⟩ :: r.groups, unitStart := none }
  | .closing =>
    let (groupedRepeat, r) ← r.takeGroupedRepeat
    .ok (r.forget.closeGroup groupedRepeat)

/-- A class that folds, closed with the piece that closes it. -/
def closeClass (r : Rewriter) (piece : Piece) : Except Stop Rewriter :=
  if piece = .classClose then r.closeFoldedClass build else .ok r

/-- `Rewriter::rewrite`. -/
def rewrite (r : Rewriter) (piece : Piece) (folding : Bool) :
    Except Stop Rewriter := do
  let r ← r.runOn build piece folding
  let r := { r with folding }.noteClass piece folding
  let start := len r.out
  let (role, r) ← r.pushPiece build piece
  let r ← r.closeClass build piece
  r.settle role start

/-- `Rewriter::finish`. -/
def finish (r : Rewriter) : Except Stop Text := do
  let r ← r.closeLiteralRun build false
  .ok (r.out ++ List.replicate (r.groups.map (·.owedCloses)).sum ')')

end Rewriter

/-! ## The pattern -/

/-- The pieces a reading goes on to, each with whether case is ignored there. It reads at most
`rounds` of them: none where it panics, or where it would go on. -/
def Pieces.readAll : Nat → Pieces → Option (List (Piece × Bool))
  | 0, _ => none
  | rounds + 1, p => do
    match ← p.next with
    | none => some []
    | some (piece, after) =>
      let rest ← readAll rounds after
      some ((piece, after.ignoresCase) :: rest)

/-- One piece of `collect_names`, with the number of groups named before it. -/
def collectName (names : List (Text × List Nat)) (number : Nat) (name : Text) :
    List (Text × List Nat) :=
  if names.any (·.1 = name) then
    names.map fun entry => if entry.1 = name then (entry.1, entry.2 ++ [number]) else entry
  else names ++ [(name, [number])]

/-- The loop of `collect_names`. -/
def collectNames : List (Text × List Nat) → Nat → List Piece → List (Text × List Nat)
  | names, _, [] => names
  | names, number, .namedGroup _ name :: rest =>
    collectNames (collectName names (number + 1) name) (number + 1) rest
  | names, number, _ :: rest => collectNames names number rest

/-- The loop of `build_pattern`. -/
def rewriteAll (build : Build) : Nat → Pieces → Rewriter → Except Stop Rewriter
  | 0, _, _ => .error .panicked
  | rounds + 1, p, r => do
    match ← sliced p.next with
    | none => .ok r
    | some (piece, after) =>
      let folding := build.unicode && after.ignoresCase
      let r ← r.rewrite build piece folding
      rewriteAll build rounds after r

/-- An option bit of the mask. -/
def hasOption (options : BitVec 64) (bit : BitVec 64) : Bool := options &&& bit ≠ 0

/-- `IGNORECASE`. -/
def ignoreCaseBit : BitVec 64 := 1

/-- `EXTENDED`. -/
def extendedBit : BitVec 64 := 2

/-- `MULTILINE`. -/
def multilineBit : BitVec 64 := 4

/-- What `build_pattern` writes before the source. -/
def patternHead (options : BitVec 64) : Text :=
  "(?m".toList ++ (if hasOption options ignoreCaseBit then ['i'] else []) ++
    (if hasOption options extendedBit then ['x'] else []) ++
    (if hasOption options multilineBit then ['s'] else []) ++ [')']

/-- The names of a source's groups, how many it captures and whether it calls one. -/
def scan (source : Text) (extended : Bool) :
    Except Stop (List (Text × List Nat) × Nat × Bool) := do
  let rounds := source.length + 1
  let pieces ← sliced ((Pieces.new source extended 0).readAll rounds)
  let names := collectNames [] 0 (pieces.map (·.1))
  let captures := if names = [] then pieces.countP fun piece => piece.1 matches .plainGroup _
    else (names.map fun entry => entry.2.length).sum
  let pieces ← sliced ((Pieces.new source extended captures).readAll rounds)
  let hasCalls := pieces.any fun piece => piece.1 matches .namedReference _ 'g' _
  .ok (names, captures, hasCalls)

/-- `build_pattern`, at most as many pieces read as the source is long. -/
def buildPattern (build : Build) (source : Text) (options : BitVec 64) : Except Stop Text := do
  let extended := hasOption options extendedBit
  let (names, captures, hasCalls) ← scan source extended
  let reading ← sliced ((Pieces.new source extended captures).ignoringCase
    (hasOption options ignoreCaseBit))
  let r ← rewriteAll build (source.length + 1) reading (.new names hasCalls (patternHead options))
  r.finish build

end Kobako.Regexp
