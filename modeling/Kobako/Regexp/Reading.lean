import Kobako.Regexp.Classes
import Mathlib.Computability.Language

/-!
# Reading spelled characters

The engine's reading of the part of its syntax a spelled run is written in, one character at a time:
plain characters, characters by their code point, classes that name characters and groups of
alternatives. What is read denotes the words it matches, each character exactly. Everything else the
engine knows is refused here.
-/

namespace Kobako.Regexp

open Text

/-! ## The reader -/

/-- Where the engine stands between two characters. A code point stands in a class where the class's
characters so far are given. -/
inductive Mode where
  /-- Between two items. -/
  | items
  /-- Behind the opening of a group, and whether behind its `?`. -/
  | opening (asked : Bool)
  /-- In a class, with the characters it names so far. -/
  | naming (chars : Text)
  /-- Behind a backslash. -/
  | escape (inside : Option Text)
  /-- Behind the `x` of a code point, and its value so far within the braces. -/
  | code (inside : Option Text) (value : Option Nat)

/-- What was read of a pattern. -/
structure Reading where
  /-- The groups around, each with its alternatives so far and the items of the last. -/
  outer : List (Language Char × Language Char)
  /-- The alternatives read of the group. -/
  before : Language Char
  /-- The items read of its last alternative. -/
  current : Language Char
  /-- Where the engine stands. -/
  mode : Mode

/-- The words of one character. -/
def oneOf (chars : Text) : Language Char := {word | ∃ c ∈ chars, word = [c]}

/-- What the engine's syntax gives a meaning of its own. -/
def isMeta (c : Char) : Bool := c ∈ "\\.+*?()|[]\x7b\x7d^$".toList

/-- What a class gives a meaning of its own beside them. -/
def isClassMeta (c : Char) : Bool := isMeta c || c ∈ "-&~".toList

/-- The value of a hexadecimal digit. -/
def hexValue (c : Char) : Option Nat :=
  if '0' ≤ c ∧ c ≤ '9' then some (c.toNat - '0'.toNat)
  else if 'A' ≤ c ∧ c ≤ 'F' then some (c.toNat - 'A'.toNat + 10)
  else if 'a' ≤ c ∧ c ≤ 'f' then some (c.toNat - 'a'.toNat + 10)
  else none

namespace Reading

/-- A pattern from its start. -/
def start : Reading := ⟨[], 0, 1, .items⟩

variable (r : Reading)

/-- An item read. -/
def item (language : Language Char) : Reading :=
  { r with current := r.current * language, mode := .items }

/-- A character read, in a class or as an item. -/
def literal (inside : Option Text) (c : Char) : Reading :=
  match inside with
  | none => r.item {[c]}
  | some chars => { r with mode := .naming (chars ++ [c]) }

/-- A character between two items. -/
def readItem (c : Char) : Option Reading :=
  if c = '(' then some { r with mode := .opening false }
  else if c = ')' then
    match r.outer with
    | (before, current) :: outer => some ⟨outer, before, current * (r.before + r.current), .items⟩
    | [] => none
  else if c = '|' then some { r with before := r.before + r.current, current := 1 }
  else if c = '[' then some { r with mode := .naming [] }
  else if c = '\\' then some { r with mode := .escape none }
  else if isMeta c then none
  else some (r.literal none c)

/-- One character. -/
def step (c : Char) : Option Reading :=
  match r.mode with
  | .items => r.readItem c
  | .opening false => if c = '?' then some { r with mode := .opening true } else none
  | .opening true =>
    if c = ':' then some ⟨(r.before, r.current) :: r.outer, 0, 1, .items⟩ else none
  | .naming chars =>
    if c = ']' then if chars = [] then none else some (r.item (oneOf chars))
    else if c = '\\' then some { r with mode := .escape (some chars) }
    else if isClassMeta c then none
    else some (r.literal (some chars) c)
  | .escape inside => if c = 'x' then some { r with mode := .code inside none } else none
  | .code inside none =>
    if c = '\x7b' then some { r with mode := .code inside (some 0) } else none
  | .code inside (some value) =>
    if c = '\x7d' then
      if value.isValidChar then some (r.literal inside (Char.ofNat value)) else none
    else (hexValue c).map fun digit => { r with mode := .code inside (some (value * 16 + digit)) }

/-- What comes of a text. -/
def read (text : Text) : Option Reading := text.foldlM step r

/-- The language of a pattern read to its end. -/
def language : Option (Language Char) :=
  match r.outer, r.mode with
  | [], .items => some (r.before + r.current)
  | _, _ => none

/-- A text after another. -/
theorem read_append (first second : Text) :
    r.read (first ++ second) = (r.read first).bind fun next => next.read second :=
  List.foldlM_append

theorem read_cons (c : Char) (rest : Text) :
    r.read (c :: rest) = (r.step c).bind fun next => next.read rest := List.foldlM_cons

theorem read_nil : r.read [] = some r := rfl

end Reading

/-- The language of a pattern of spelled characters. -/
def spelledLanguage (text : Text) : Option (Language Char) :=
  (Reading.start.read text).bind Reading.language

/-! ## Characters -/

/-- Each digit reads as its own value. -/
theorem hexValue_digitChar : ∀ digit < 16,
    hexValue (Nat.digitChar digit).toUpper = some digit ∧ (Nat.digitChar digit).toUpper ≠ '\x7d' := by
  decide

/-- The digits of a number read as it. -/
theorem read_digits (outer : List (Language Char × Language Char)) (before current : Language Char)
    (inside : Option Text) (number : Nat) :
    Reading.read ⟨outer, before, current, .code inside (some 0)⟩
        ((Nat.toDigits 16 number).map Char.toUpper) =
      some ⟨outer, before, current, .code inside (some number)⟩ := by
  have digit : ∀ value small, small < 16 →
      Reading.step ⟨outer, before, current, .code inside (some value)⟩
        (Nat.digitChar small).toUpper =
        some ⟨outer, before, current, .code inside (some (value * 16 + small))⟩ := by
    intro value small less
    obtain ⟨same, other⟩ := hexValue_digitChar small less
    simp only [Reading.step, if_neg other, same, Option.map_some]
  induction number using Nat.strongRecOn with
  | ind number ih =>
    by_cases small : number < 16
    · rw [Nat.toDigits_of_lt_base small, List.map_singleton, Reading.read_cons, digit 0 _ small,
        Nat.zero_mul, Nat.zero_add]
      rfl
    · have less : number / 16 < number := Nat.div_lt_self (by omega) (by decide)
      rw [Nat.toDigits_of_base_le (by decide) (by omega), List.map_append, Reading.read_append,
        ih _ less, List.map_singleton, Option.bind_some, Reading.read_cons,
        digit _ _ (Nat.mod_lt _ (by decide))]
      have whole : number / 16 * 16 + number % 16 = number := by omega
      rw [whole]
      rfl

/-- Every character is one by its code point. -/
theorem isValidChar_toNat (c : Char) : c.toNat.isValidChar := by
  have valid := c.valid
  exact valid

/-- A character by its code point reads as it. -/
theorem read_code (r : Reading) (inside : Option Text) (c : Char)
    (escapes : r.step '\\' = some { r with mode := .escape inside }) :
    r.read (codePointText c.toNat) = some (r.literal inside c) := by
  obtain ⟨outer, before, current, mode⟩ := r
  unfold codePointText
  rw [show "\\x\x7b".toList = ['\\', 'x', '\x7b'] from by decide]
  rw [Reading.read_append, Reading.read_append, Reading.read_cons, escapes, Option.bind_some,
    Reading.read_cons]
  show ((Reading.read ⟨outer, before, current, .code inside (some 0)⟩ _).bind _) = _
  rw [read_digits, Option.bind_some, Reading.read_cons]
  simp only [Reading.step, if_true, isValidChar_toNat, Char.ofNat_toNat, Option.bind_some,
    Reading.read_nil]
  cases inside <;> rfl

variable (build : Build)

/-- What the standard library calls alphanumeric means itself in the engine's syntax. -/
theorem isClassMeta_of_isAlphanumeric {c : Char} (alphanumeric : build.isAlphanumeric c = true) :
    isClassMeta c = false := by
  have ascii : ∀ c ∈ "\\.+*?()|[]\x7b\x7d^$".toList ++ "-&~".toList,
      isAscii c = true ∧ c.isAlphanum = false :=
    forall_mem (by decide)
  by_contra other
  have member : c ∈ "\\.+*?()|[]\x7b\x7d^$".toList ++ "-&~".toList := by
    unfold isClassMeta isMeta at other
    rw [Bool.not_eq_false, Bool.or_eq_true, decide_eq_true_iff, decide_eq_true_iff] at other
    exact List.mem_append.mpr other
  obtain ⟨inAscii, not⟩ := ascii c member
  rw [build.isAlphanumeric_ascii c inAscii, not] at alphanumeric
  cases alphanumeric

/-- A literal character reads as an item. -/
theorem read_literalText (r : Reading) (between : r.mode = .items) (c : Char) :
    r.read (literalText build c) = some (r.item {[c]}) := by
  obtain ⟨outer, before, current, mode⟩ := r
  dsimp only at between
  subst between
  unfold literalText
  by_cases alphanumeric : build.isAlphanumeric c = true
  · have plain := isClassMeta_of_isAlphanumeric build alphanumeric
    unfold isClassMeta at plain
    rw [Bool.or_eq_false_iff] at plain
    have apart : ∀ other, isMeta other = true → c ≠ other := by
      intro other special same
      rw [same, special] at plain
      cases plain.1
    rw [if_pos alphanumeric, Reading.read_cons]
    simp only [Reading.step, Reading.readItem, if_neg (apart '(' rfl), if_neg (apart ')' rfl),
      if_neg (apart '|' rfl), if_neg (apart '[' rfl), if_neg (apart '\\' rfl), plain.1]
    rfl
  · rw [if_neg alphanumeric]
    exact read_code _ none c rfl

/-- A literal character in a class is one it names. -/
theorem read_literalText_naming (r : Reading) {chars : Text} (naming : r.mode = .naming chars)
    (c : Char) :
    r.read (literalText build c) = some { r with mode := .naming (chars ++ [c]) } := by
  obtain ⟨outer, before, current, mode⟩ := r
  dsimp only at naming
  subst naming
  unfold literalText
  by_cases alphanumeric : build.isAlphanumeric c = true
  · have plain := isClassMeta_of_isAlphanumeric build alphanumeric
    have apart : ∀ other, isClassMeta other = true → c ≠ other := by
      intro other special same
      rw [same, special] at plain
      cases plain
    rw [if_pos alphanumeric, Reading.read_cons]
    simp only [Reading.step, if_neg (apart ']' rfl), if_neg (apart '\\' rfl), plain]
    rfl
  · rw [if_neg alphanumeric]
    exact read_code _ (some chars) c rfl

/-- Characters one after the other. -/
theorem read_foldText (r : Reading) (between : r.mode = .items) (folded : Text) :
    r.read (foldText build folded) = some (r.item {folded}) := by
  induction folded generalizing r with
  | nil =>
    obtain ⟨outer, before, current, mode⟩ := r
    dsimp only at between
    subst between
    show some _ = some (Reading.item _ {[]})
    unfold Reading.item
    rw [show ({[]} : Language Char) = 1 from rfl, mul_one]
  | cons c rest ih =>
    show r.read (literalText build c ++ foldText build rest) = _
    rw [Reading.read_append, read_literalText build r between, Option.bind_some, ih _ rfl]
    unfold Reading.item
    rw [mul_assoc]
    congr 4
    ext word
    rw [Language.mem_mul]
    constructor
    · rintro ⟨first, rfl, second, rfl, rfl⟩
      rfl
    · intro same
      exact ⟨[c], rfl, rest, rfl, same.symm⟩

/-- A class of characters. -/
theorem read_class (r : Reading) (between : r.mode = .items) {chars : Text} (some_ : chars ≠ []) :
    r.read (['['] ++ chars.flatMap (literalText build) ++ [']']) = some (r.item (oneOf chars)) := by
  have names : ∀ (chars done : Text) (r : Reading), r.mode = .naming done →
      r.read (chars.flatMap (literalText build)) = some { r with mode := .naming (done ++ chars) } := by
    intro chars
    induction chars with
    | nil =>
      intro done r naming
      obtain ⟨outer, before, current, mode⟩ := r
      dsimp only at naming
      subst naming
      rw [List.append_nil]
      rfl
    | cons c rest ih =>
      intro done r naming
      rw [List.flatMap_cons, Reading.read_append, read_literalText_naming build r naming,
        Option.bind_some, ih (done ++ [c]) _ rfl, List.append_assoc]
      rfl
  obtain ⟨outer, before, current, mode⟩ := r
  dsimp only at between
  subst between
  rw [Reading.read_append, Reading.read_append]
  show ((Reading.read ⟨outer, before, current, .naming []⟩ _).bind _) = _
  rw [names chars [] _ rfl, Option.bind_some, List.nil_append, Reading.read_cons]
  simp only [Reading.step, if_true, if_neg some_]
  rfl

end Kobako.Regexp
