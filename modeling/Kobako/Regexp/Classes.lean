import Kobako.Regexp.Pieces

/-!
# Folds and classes

The tables the translator writes from, as `translate/fold.rs` and `translate/classes.rs` hold them:
the characters that fold to several and the ways a run of literal characters is spelled with them,
and what each shorthand, bracket and property reaches in the engine's syntax. What the standard
library knows of a character beyond ASCII is left to the build.
-/

namespace Kobako.Regexp

open Text

/-- The crate as it is built: its feature, and the tables of the standard library. -/
structure Build where
  /-- The feature `unicode`. -/
  unicode : Bool
  /-- `char::is_alphanumeric`. -/
  isAlphanumeric : Char → Bool
  /-- `char::is_lowercase`. -/
  isLowercase : Char → Bool
  /-- `char::is_uppercase`. -/
  isUppercase : Char → Bool
  /-- Among ASCII characters the letters and the digits are alphanumeric. -/
  isAlphanumeric_ascii : ∀ c, isAscii c = true → isAlphanumeric c = c.isAlphanum

/-- A code point in the engine's syntax, as `\x{{{:X}}}` writes it. -/
def codePointText (value : Nat) : Text :=
  "\\x\x7b".toList ++ (Nat.toDigits 16 value).map Char.toUpper ++ ['}']

/-! ## Folds -/

/-- `MULTI`. -/
def multi : List (Char × Text) :=
  [('\u00df', ['\u0073', '\u0073']), ('\u0130', ['\u0069', '\u0307']),
   ('\u0149', ['\u02bc', '\u006e']), ('\u01f0', ['\u006a', '\u030c']),
   ('\u0390', ['\u03b9', '\u0308', '\u0301']), ('\u03b0', ['\u03c5', '\u0308', '\u0301']),
   ('\u0587', ['\u0565', '\u0582']), ('\u1e96', ['\u0068', '\u0331']),
   ('\u1e97', ['\u0074', '\u0308']), ('\u1e98', ['\u0077', '\u030a']),
   ('\u1e99', ['\u0079', '\u030a']), ('\u1e9a', ['\u0061', '\u02be']),
   ('\u1e9e', ['\u0073', '\u0073']), ('\u1f50', ['\u03c5', '\u0313']),
   ('\u1f52', ['\u03c5', '\u0313', '\u0300']), ('\u1f54', ['\u03c5', '\u0313', '\u0301']),
   ('\u1f56', ['\u03c5', '\u0313', '\u0342']), ('\u1f80', ['\u1f00', '\u03b9']),
   ('\u1f81', ['\u1f01', '\u03b9']), ('\u1f82', ['\u1f02', '\u03b9']),
   ('\u1f83', ['\u1f03', '\u03b9']), ('\u1f84', ['\u1f04', '\u03b9']),
   ('\u1f85', ['\u1f05', '\u03b9']), ('\u1f86', ['\u1f06', '\u03b9']),
   ('\u1f87', ['\u1f07', '\u03b9']), ('\u1f88', ['\u1f00', '\u03b9']),
   ('\u1f89', ['\u1f01', '\u03b9']), ('\u1f8a', ['\u1f02', '\u03b9']),
   ('\u1f8b', ['\u1f03', '\u03b9']), ('\u1f8c', ['\u1f04', '\u03b9']),
   ('\u1f8d', ['\u1f05', '\u03b9']), ('\u1f8e', ['\u1f06', '\u03b9']),
   ('\u1f8f', ['\u1f07', '\u03b9']), ('\u1f90', ['\u1f20', '\u03b9']),
   ('\u1f91', ['\u1f21', '\u03b9']), ('\u1f92', ['\u1f22', '\u03b9']),
   ('\u1f93', ['\u1f23', '\u03b9']), ('\u1f94', ['\u1f24', '\u03b9']),
   ('\u1f95', ['\u1f25', '\u03b9']), ('\u1f96', ['\u1f26', '\u03b9']),
   ('\u1f97', ['\u1f27', '\u03b9']), ('\u1f98', ['\u1f20', '\u03b9']),
   ('\u1f99', ['\u1f21', '\u03b9']), ('\u1f9a', ['\u1f22', '\u03b9']),
   ('\u1f9b', ['\u1f23', '\u03b9']), ('\u1f9c', ['\u1f24', '\u03b9']),
   ('\u1f9d', ['\u1f25', '\u03b9']), ('\u1f9e', ['\u1f26', '\u03b9']),
   ('\u1f9f', ['\u1f27', '\u03b9']), ('\u1fa0', ['\u1f60', '\u03b9']),
   ('\u1fa1', ['\u1f61', '\u03b9']), ('\u1fa2', ['\u1f62', '\u03b9']),
   ('\u1fa3', ['\u1f63', '\u03b9']), ('\u1fa4', ['\u1f64', '\u03b9']),
   ('\u1fa5', ['\u1f65', '\u03b9']), ('\u1fa6', ['\u1f66', '\u03b9']),
   ('\u1fa7', ['\u1f67', '\u03b9']), ('\u1fa8', ['\u1f60', '\u03b9']),
   ('\u1fa9', ['\u1f61', '\u03b9']), ('\u1faa', ['\u1f62', '\u03b9']),
   ('\u1fab', ['\u1f63', '\u03b9']), ('\u1fac', ['\u1f64', '\u03b9']),
   ('\u1fad', ['\u1f65', '\u03b9']), ('\u1fae', ['\u1f66', '\u03b9']),
   ('\u1faf', ['\u1f67', '\u03b9']), ('\u1fb2', ['\u1f70', '\u03b9']),
   ('\u1fb3', ['\u03b1', '\u03b9']), ('\u1fb4', ['\u03ac', '\u03b9']),
   ('\u1fb6', ['\u03b1', '\u0342']), ('\u1fb7', ['\u03b1', '\u0342', '\u03b9']),
   ('\u1fbc', ['\u03b1', '\u03b9']), ('\u1fc2', ['\u1f74', '\u03b9']),
   ('\u1fc3', ['\u03b7', '\u03b9']), ('\u1fc4', ['\u03ae', '\u03b9']),
   ('\u1fc6', ['\u03b7', '\u0342']), ('\u1fc7', ['\u03b7', '\u0342', '\u03b9']),
   ('\u1fcc', ['\u03b7', '\u03b9']), ('\u1fd2', ['\u03b9', '\u0308', '\u0300']),
   ('\u1fd3', ['\u03b9', '\u0308', '\u0301']), ('\u1fd6', ['\u03b9', '\u0342']),
   ('\u1fd7', ['\u03b9', '\u0308', '\u0342']), ('\u1fe2', ['\u03c5', '\u0308', '\u0300']),
   ('\u1fe3', ['\u03c5', '\u0308', '\u0301']), ('\u1fe4', ['\u03c1', '\u0313']),
   ('\u1fe6', ['\u03c5', '\u0342']), ('\u1fe7', ['\u03c5', '\u0308', '\u0342']),
   ('\u1ff2', ['\u1f7c', '\u03b9']), ('\u1ff3', ['\u03c9', '\u03b9']),
   ('\u1ff4', ['\u03ce', '\u03b9']), ('\u1ff6', ['\u03c9', '\u0342']),
   ('\u1ff7', ['\u03c9', '\u0342', '\u03b9']), ('\u1ffc', ['\u03c9', '\u03b9']),
   ('\ufb00', ['\u0066', '\u0066']), ('\ufb01', ['\u0066', '\u0069']),
   ('\ufb02', ['\u0066', '\u006c']), ('\ufb03', ['\u0066', '\u0066', '\u0069']),
   ('\ufb04', ['\u0066', '\u0066', '\u006c']), ('\ufb05', ['\u0073', '\u0074']),
   ('\ufb06', ['\u0073', '\u0074']), ('\ufb13', ['\u0574', '\u0576']),
   ('\ufb14', ['\u0574', '\u0565']), ('\ufb15', ['\u0574', '\u056b']),
   ('\ufb16', ['\u057e', '\u0576']), ('\ufb17', ['\u0574', '\u056d'])]

/-- `SIMPLE`. -/
def simple : List (Char × Char) :=
  [('\u0041', '\u0061'), ('\u0046', '\u0066'), ('\u0048', '\u0068'), ('\u0049', '\u0069'),
   ('\u004a', '\u006a'), ('\u004c', '\u006c'), ('\u004e', '\u006e'), ('\u0053', '\u0073'),
   ('\u0054', '\u0074'), ('\u0057', '\u0077'), ('\u0059', '\u0079'), ('\u017f', '\u0073'),
   ('\u0345', '\u03b9'), ('\u0386', '\u03ac'), ('\u0389', '\u03ae'), ('\u038f', '\u03ce'),
   ('\u0391', '\u03b1'), ('\u0397', '\u03b7'), ('\u0399', '\u03b9'), ('\u03a1', '\u03c1'),
   ('\u03a5', '\u03c5'), ('\u03a9', '\u03c9'), ('\u03f1', '\u03c1'), ('\u0535', '\u0565'),
   ('\u053b', '\u056b'), ('\u053d', '\u056d'), ('\u0544', '\u0574'), ('\u0546', '\u0576'),
   ('\u054e', '\u057e'), ('\u0552', '\u0582'), ('\u1f08', '\u1f00'), ('\u1f09', '\u1f01'),
   ('\u1f0a', '\u1f02'), ('\u1f0b', '\u1f03'), ('\u1f0c', '\u1f04'), ('\u1f0d', '\u1f05'),
   ('\u1f0e', '\u1f06'), ('\u1f0f', '\u1f07'), ('\u1f28', '\u1f20'), ('\u1f29', '\u1f21'),
   ('\u1f2a', '\u1f22'), ('\u1f2b', '\u1f23'), ('\u1f2c', '\u1f24'), ('\u1f2d', '\u1f25'),
   ('\u1f2e', '\u1f26'), ('\u1f2f', '\u1f27'), ('\u1f68', '\u1f60'), ('\u1f69', '\u1f61'),
   ('\u1f6a', '\u1f62'), ('\u1f6b', '\u1f63'), ('\u1f6c', '\u1f64'), ('\u1f6d', '\u1f65'),
   ('\u1f6e', '\u1f66'), ('\u1f6f', '\u1f67'), ('\u1fba', '\u1f70'), ('\u1fbe', '\u03b9'),
   ('\u1fca', '\u1f74'), ('\u1ffa', '\u1f7c'), ('\u2126', '\u03c9')]

/-- `MAX_SPELLINGS_LEN`. -/
def maxSpellingsLen : Nat := 4096

/-- `multi_fold`. -/
def multiFold (c : Char) : Option Text := (multi.find? (·.1 = c)).map (·.2)

/-- `simple_fold`. -/
def simpleFold (c : Char) : Char := ((simple.find? (·.1 = c)).map (·.2)).getD c

/-- `joined_folds`, the run given from the place it is asked at. -/
def joinedFolds (run : Text) : List (Nat × Text) :=
  multi.foldl (fun joined (_, target) =>
    let spelled := decide (target.length ≤ run.length) &&
      ((run.take target.length).map simpleFold == target)
    if spelled && (target.length, target) ∉ joined then joined ++ [(target.length, target)]
    else joined) []

section

variable (build : Build)

/-- `push_literal`, as what it writes. -/
def literalText (c : Char) : Text := if build.isAlphanumeric c then [c] else codePointText c.toNat

/-- `push_fold`, as what it writes. -/
def foldText (folded : Text) : Text := folded.flatMap (literalText build)

/-- `sources_of`. -/
def sourcesOf (folded : Text) : Text :=
  ['['] ++ (multi.filter (·.2 = folded)).flatMap (fun entry => literalText build entry.1) ++ [']']

/-- `push_alone`, as what it writes. -/
def aloneText (c : Char) : Text :=
  match multiFold c with
  | some folded =>
    "(?:".toList ++ literalText build c ++ ['|'] ++ foldText build folded ++ [')']
  | none => literalText build c

/-- `write_spellings`, the run given from the place it is asked at and at most `rounds` deep: a
run is never spelled deeper than it is long. -/
def writeSpellings : Nat → Text → Text → Except String Text
  | rounds, run, out =>
    if maxSpellingsLen < len out then .error "too many case-insensitive spellings"
    else
      match rounds, run with
      | _, [] | 0, _ => .ok out
      | rounds + 1, c :: rest =>
        let joined := joinedFolds (c :: rest)
        if joined = [] then writeSpellings rounds rest (out ++ aloneText build c)
        else do
          let out ← writeSpellings rounds rest (out ++ "(?:".toList ++ aloneText build c)
          let out ← joined.foldlM (fun out (length, folded) =>
            writeSpellings rounds ((c :: rest).drop length) (out ++ ['|'] ++ sourcesOf build folded))
            out
          .ok (out ++ [')'])

/-- `expand_run`. -/
def expandRun (run : Text) : Except String (Option Text) :=
  let reaches := (List.range run.length).any fun place =>
    (run.drop place).head?.any (fun c => (multiFold c).isSome) ||
      !(joinedFolds (run.drop place)).isEmpty
  if reaches then (writeSpellings build run.length run []).map some else .ok none

/-- `class_folds`. -/
def classFolds (named : Text) : List Text :=
  named.foldl (fun folds c =>
    match multiFold c with
    | some folded =>
      if folds.contains (foldText build folded) then folds
      else folds ++ [foldText build folded]
    | none => folds) []

end

/-! ## Classes -/

/-- `ASCII_ONLY`. -/
def asciiOnly : String := "the Unicode build is needed for this class"

/-- `ASCII_WORD`. -/
def asciiWord : Text := "0-9A-Za-z_".toList

/-- `ASCII_DIGIT`. -/
def asciiDigit : Text := "0-9".toList

/-- `ASCII_SPACE`. -/
def asciiSpace : Text := "\\x20\\t\\n\\x0b\\x0c\\r".toList

/-- `UNICODE_WORD`. -/
def unicodeWord : Text :=
  "\\p\x7bAlphabetic\x7d\\p\x7bM\x7d\\p\x7bNd\x7d\\p\x7bPc\x7d\\p\x7bJoin_Control\x7d".toList

/-- `UNICODE_WORD_LATIN1`. -/
def unicodeWordLatin1 : Text :=
  unicodeWord ++
    "\\x\x7bB2\x7d\\x\x7bB3\x7d\\x\x7bB9\x7d\\x\x7bBC\x7d-\\x\x7bBE\x7d".toList

/-- `UNICODE_DIGIT`. -/
def unicodeDigit : Text := "\\p\x7bNd\x7d".toList

/-- `ASCII_HEX_DIGIT`. -/
def asciiHexDigit : Text := "0-9A-Fa-f".toList

/-- `PRINT_EXCLUDED`. -/
def printExcluded : Text :=
  "\\p\x7bZl\x7d\\p\x7bZp\x7d\\p\x7bCc\x7d\\p\x7bCn\x7d\\p\x7bCs\x7d".toList

/-- `GRAPH_EXCLUDED`. -/
def graphExcluded : Text := "\\p\x7bZs\x7d".toList ++ printExcluded

/-- `PUNCT`. -/
def punct : Text := "\\p\x7bP\x7d$+<=>\\^`|~".toList

/-- `UNICODE_SPACE`. -/
def unicodeSpace : Text :=
  "\\t\\n\\x0b\\x0c\\r\\x\x7b85\x7d\\p\x7bZs\x7d\\p\x7bZl\x7d\\p\x7bZp\x7d".toList

/-- `Set`. -/
structure ItemSet where
  /-- The items of a class. -/
  items : Text
  /-- Whether the items are what the set leaves out. -/
  complement : Bool

/-- `Set::of`. -/
def ItemSet.of (items : Text) : ItemSet := ⟨items, false⟩

/-- `Set::all_but`. -/
def ItemSet.allBut (items : Text) : ItemSet := ⟨items, true⟩

/-- `Set::class`. -/
def ItemSet.class (set : ItemSet) (negated : Bool) : Text :=
  ['['] ++ (if set.complement != negated then ['^'] else []) ++ set.items ++ [']']

/-- `is_ascii_shorthand`. -/
def isAsciiShorthand (letter : Char) (charset : Charset) : Bool :=
  charset ≠ .unicode && letter ∈ "wdsWDS".toList

/-- The items of a shorthand: none for any other escape. -/
def shorthandItems (build : Build) (letter : Char) (inClass : Bool) (charset : Charset) :
    Except String (Option Text) :=
  let unicode := decide (charset = .unicode)
  let lower := letter.toLower
  if lower = 'w' && !unicode then .ok (some asciiWord)
  else if lower = 'd' && !unicode then .ok (some asciiDigit)
  else if lower = 's' && !unicode then .ok (some asciiSpace)
  else if unicode && !build.unicode && letter ∈ "wdsWDS".toList then .error asciiOnly
  else if lower = 'w' && unicode && inClass then .ok (some unicodeWord)
  else if lower = 'w' && unicode then .ok (some unicodeWordLatin1)
  else if lower = 'd' && unicode then .ok (some unicodeDigit)
  else if lower = 's' && unicode then .ok (some unicodeSpace)
  else .ok none

/-- `shorthand`. -/
def shorthand (build : Build) (letter : Char) (inClass : Bool) (charset : Charset) :
    Except String (Option Text) := do
  let some items ← shorthandItems build letter inClass charset | .ok none
  let negated := letter.isUpper
  .ok (some (if inClass && !negated then items else (ItemSet.of items).class negated))

/-- `is_ascii_posix_bracket`. -/
def isAsciiPosixBracket (name : Text) (charset : Charset) : Bool :=
  charset = .ascii || name = "ascii".toList || name = "xdigit".toList

/-- `is_negated_case_bracket`. -/
def isNegatedCaseBracket (name : Text) (negated ignoreCase : Bool) : Bool :=
  ignoreCase && negated && (name = "lower".toList || name = "upper".toList)

/-- `is_unfolded_posix_bracket`. -/
def isUnfoldedPosixBracket (name : Text) (negated : Bool) (charset : Charset) (ignoreCase : Bool) :
    Bool :=
  isAsciiPosixBracket name charset || isNegatedCaseBracket name negated ignoreCase

/-- `unshared_folds`. -/
def unsharedFolds (chosen partner : Char → Bool) : Text :=
  (multi.filter fun (source, folded) =>
    chosen source && !multi.any fun (other, otherFolded) => partner other && otherFolded = folded).flatMap
      fun (source, _) => codePointText source.toNat

/-- `DOTLESS_I`. -/
def dotlessI : Text := "\\x\x7b131\x7d".toList

/-- `negated_case_folded`. -/
def negatedCaseFolded (build : Build) (lower : Bool) : Text :=
  let case := if lower then build.isLowercase else build.isUppercase
  let exceptions := unsharedFolds case (!case ·)
  let (class_, exceptions) :=
    if lower then
      ("[^\\p\x7bLowercase\x7d&&\\P\x7bChanges_When_Uppercased\x7d]".toList,
        exceptions ++ dotlessI)
    else
      ("[^\\p\x7bUppercase\x7d&&\\P\x7bChanges_When_Lowercased\x7d]".toList, exceptions)
  ['['] ++ class_ ++ "&&[^".toList ++ exceptions ++ "]]".toList

/-- `word_boundary`. -/
def wordBoundary (build : Build) (letter : Char) (charset : Charset) : Except String Text :=
  if charset = .ascii then
    let word := ['['] ++ asciiWord ++ [']']
    .ok (if letter = 'b' then
      "(?:(?<=".toList ++ word ++ ")(?!".toList ++ word ++ ")|(?<!".toList ++ word ++
        ")(?=".toList ++ word ++ "))".toList
    else
      "(?:(?<=".toList ++ word ++ ")(?=".toList ++ word ++ ")|(?<!".toList ++ word ++
        ")(?!".toList ++ word ++ "))".toList)
  else if !build.unicode then .error "a word boundary needs the Unicode build"
  else .ok ['\\', letter]

/-- The set a property names that the engine names differently or not at all. -/
def propertySet (build : Build) (name : Text) : Option ItemSet :=
  if name = "ascii".toList then some (.of "\\x00-\\x7F".toList)
  else if name = "xdigit".toList then some (.of asciiHexDigit)
  else if !build.unicode then none
  else if name = "graph".toList then some (.allBut graphExcluded)
  else if name = "print".toList then some (.allBut printExcluded)
  else if name = "xposixpunct".toList then some (.of punct)
  else if name = "unknown".toList || name = "zzzz".toList then
    some (.of "\\p\x7bCn\x7d\\p\x7bCo\x7d".toList)
  else none

/-- `classes::property`. -/
def propertyClass (build : Build) (name : Text) (negated : Bool) : Option Text :=
  (propertySet build ((name.filter (· ∉ ['_', ' ', '-'])).map Char.toLower)).map (·.class negated)

/-- The set a POSIX bracket names where it reads Unicode. -/
def posixSet (name : Text) : ItemSet :=
  if name = "alnum".toList then .of "\\p\x7bAlphabetic\x7d\\p\x7bNd\x7d".toList
  else if name = "alpha".toList then .of "\\p\x7bAlphabetic\x7d".toList
  else if name = "blank".toList then .of "\\p\x7bZs\x7d\\t".toList
  else if name = "cntrl".toList then .of "\\p\x7bCc\x7d".toList
  else if name = "digit".toList then .of unicodeDigit
  else if name = "graph".toList then .allBut graphExcluded
  else if name = "lower".toList then .of "\\p\x7bLowercase\x7d".toList
  else if name = "print".toList then .allBut printExcluded
  else if name = "punct".toList then .of punct
  else if name = "space".toList then .of unicodeSpace
  else if name = "upper".toList then .of "\\p\x7bUppercase\x7d".toList
  else .of unicodeWord

/-- `posix_bracket`. -/
def posixBracket (build : Build) (name : Text) (negated : Bool) (charset : Charset)
    (ignoreCase : Bool) : Except String Text :=
  if isAsciiPosixBracket name charset then
    let oneCase := name = "lower".toList || name = "upper".toList
    .ok (if ignoreCase && oneCase then
      if negated then "[\\x\x7b0\x7d-\\x\x7b10FFFF\x7d]".toList else "[[:alpha:]]".toList
    else if negated then "[[:^".toList ++ name ++ ":]]".toList
    else "[[:".toList ++ name ++ ":]]".toList)
  else if !build.unicode then .error asciiOnly
  else if isNegatedCaseBracket name negated ignoreCase then
    .ok (negatedCaseFolded build (name = "lower".toList))
  else .ok ((posixSet name).class negated)

end Kobako.Regexp
