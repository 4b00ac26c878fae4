import Kobako.Repetition
import Kobako.Regexp.Places

/-!
# What stacked quantifiers denote

The pattern `repeat::write` puts around a unit, read back as the engine reads it: groups opened
before the unit, and after it quantifiers and the closings of those groups. What a pattern denotes
is the unit's language, repeated as the quantifiers read say, and folding leaves it what the
quantifiers denote as they were written.
-/

namespace Kobako.Regexp

open Text

variable {α : Type}

/-! ## The engine's reading -/

/-- A decimal number at the front of a text. -/
def readNumber (text : Text) : Option (Nat × Text) :=
  let digits := text.takeWhile Char.isDigit
  if digits = [] then none else some (Nat.ofDigitChars 10 digits 0, text.dropWhile Char.isDigit)

/-- What stands in an interval behind its lower bound. -/
def readUpper (lower : Nat) : Text → Option ((Nat × Option Nat) × Text)
  | '}' :: rest => some ((lower, some lower), rest)
  | ',' :: '}' :: rest => some ((lower, none), rest)
  | ',' :: rest =>
    match readNumber rest with
    | some (upper, '}' :: rest) => some ((lower, some upper), rest)
    | _ => none
  | _ => none

/-- The bounds at the front of a text: `?`, `*`, `+`, or an interval in braces. -/
def readCounts : Text → Option ((Nat × Option Nat) × Text)
  | '?' :: rest => some ((0, some 1), rest)
  | '*' :: rest => some ((0, none), rest)
  | '+' :: rest => some ((1, none), rest)
  | '{' :: rest => (readNumber rest).bind fun (lower, rest) => readUpper lower rest
  | _ => none

/-- A quantifier at the front of a text: its bounds, then `?` where it is lazy and `+` where it is
possessive. -/
def readQuantifier (text : Text) : Option (Quantity × Text) :=
  (readCounts text).map fun (bounds, rest) =>
    match rest with
    | '?' :: rest => (⟨bounds.1, bounds.2, false, false⟩, rest)
    | '+' :: rest => (⟨bounds.1, bounds.2, true, true⟩, rest)
    | rest => (⟨bounds.1, bounds.2, true, false⟩, rest)

/-- The groups opened by a text that opens groups only. -/
def readBefore : Text → Option Nat
  | [] => some 0
  | '(' :: '?' :: ':' :: rest => (readBefore rest).map (· + 1)
  | _ => none

/-- How often a quantifier repeats. -/
def Quantity.counts (q : Quantity) : Set Nat := countsBetween q.lower q.upper

/-- The language of an atom with the quantifier behind it, one at most. A possessive quantifier
does not repeat a language, so it denotes none here. -/
def readRepeated (atom : Language α) (text : Text) : Option (Language α × Text) :=
  match readQuantifier text with
  | some (q, rest) => if q.possessive then none else some (repeated atom q.counts, rest)
  | none => some (atom, text)

/-- The language read from an atom on within `depth` open groups: the atom repeated, then the end
of the pattern or the closing that makes an atom of the group. -/
def readAfter : Nat → Language α → Text → Option (Language α)
  | 0, atom, text =>
    match readRepeated atom text with
    | some (language, []) => some language
    | _ => none
  | depth + 1, atom, text =>
    match readRepeated atom text with
    | some (language, ')' :: rest) => readAfter depth language rest
    | _ => none

/-- What the pattern around a unit denotes, by what the unit does. -/
def languageAround (before : Text) (unit : Language α) (after : Text) : Option (Language α) :=
  (readBefore before).bind fun depth => readAfter depth unit after

/-- A unit repeated by each quantifier in turn, as they are written. -/
def nested (unit : Language α) (quantities : List Quantity) : Language α :=
  quantities.foldl (fun language q => repeated language q.counts) unit

/-! ## Reading what is written -/

/-- A number is read back where no digit follows it. -/
theorem readNumber_toDigits (number : Nat) (next : Char) (rest : Text)
    (ends : next.isDigit = false) :
    readNumber (Nat.toDigits 10 number ++ next :: rest) = some (number, next :: rest) := by
  have digits : ∀ c ∈ Nat.toDigits 10 number, c.isDigit = true := fun c has =>
    Nat.isDigit_of_mem_toDigits (by decide) (by decide) has
  have taken : (Nat.toDigits 10 number ++ next :: rest).takeWhile Char.isDigit =
      Nat.toDigits 10 number := by
    rw [List.takeWhile_append_of_pos digits]
    simp [ends]
  have dropped : (Nat.toDigits 10 number ++ next :: rest).dropWhile Char.isDigit =
      next :: rest := by
    rw [List.dropWhile_append_of_pos digits]
    simp [ends]
  unfold readNumber
  simp only [taken, dropped]
  rw [if_neg Nat.toDigits_ne_nil, Nat.ofDigitChars_ten_toDigits]

/-- The counts of a quantifier, as they are written. -/
def Quantity.countsText (q : Quantity) : Text := { q with isGreedy := true }.text

/-- A quantifier is its counts, and `?` where it is lazy. -/
theorem text_eq_countsText (q : Quantity) :
    q.text = q.countsText ++ if q.isGreedy then [] else ['?'] := by
  unfold Quantity.countsText Quantity.text
  simp

/-- How an interval other than `?` is written. -/
theorem countsText_some {lower upper : Nat} {greedy possessive : Bool}
    (other : ¬ (lower = 0 ∧ upper = 1)) :
    Quantity.countsText ⟨lower, some upper, greedy, possessive⟩ =
      '{' :: (if lower = upper then Nat.toDigits 10 lower ++ ['}']
        else Nat.toDigits 10 lower ++ ',' :: (Nat.toDigits 10 upper ++ ['}'])) := by
  unfold Quantity.countsText Quantity.text
  by_cases same : lower = upper
  · subst same
    match lower with
    | 0 => rfl
    | 1 => rfl
    | n + 2 => simp
  · rw [if_neg same]
    match lower, upper with
    | 0, 0 => exact absurd rfl same
    | 0, 1 => exact absurd ⟨rfl, rfl⟩ other
    | 0, n + 2 => simp
    | 1, n => simp [same]
    | m + 2, n => simp [same]

/-- The upper bound of an interval is read back. -/
theorem readUpper_toDigits (lower upper : Nat) (rest : Text) :
    readUpper lower (',' :: (Nat.toDigits 10 upper ++ '}' :: rest)) =
      some ((lower, some upper), rest) := by
  have number := readNumber_toDigits upper '}' rest rfl
  -- The bound starts with a digit, so the interval is not one without a bound.
  obtain ⟨first, digits, shape⟩ := List.exists_cons_of_ne_nil
    (Nat.toDigits_ne_nil : Nat.toDigits 10 upper ≠ [])
  have digit : first.isDigit = true := Nat.isDigit_of_mem_toDigits (b := 10) (n := upper)
    (by decide) (by decide) (by rw [shape]; exact List.mem_cons_self)
  have other : ∀ more, first :: (digits ++ '}' :: rest) = '}' :: more → False := by
    intro more same
    injection same with closing
    rw [closing] at digit
    exact absurd digit (by decide)
  rw [shape, List.cons_append] at number ⊢
  rw [readUpper.eq_3 _ _ other, number]
  rfl

/-- The counts written are read back. -/
theorem readCounts_countsText (q : Quantity) (rest : Text) :
    readCounts (q.countsText ++ rest) = some ((q.lower, q.upper), rest) := by
  obtain ⟨lower, upper, greedy, possessive⟩ := q
  cases upper with
  | none =>
    match lower with
    | 0 => rfl
    | 1 => rfl
    | n + 2 =>
      show readCounts ('{' :: Nat.toDigits 10 (n + 2) ++ [',', '}'] ++ [] ++ rest) = _
      simp only [List.append_nil, List.cons_append, List.nil_append, List.append_assoc,
        readCounts, readNumber_toDigits _ ',' _ rfl, Option.bind_some, readUpper]
  | some upper =>
    by_cases optional : lower = 0 ∧ upper = 1
    · rw [optional.1, optional.2]
      rfl
    · rw [countsText_some optional]
      by_cases same : lower = upper
      · rw [if_pos same]
        simp only [List.cons_append, List.nil_append, List.append_assoc, readCounts,
          readNumber_toDigits _ '}' _ rfl, Option.bind_some, readUpper, same]
      · rw [if_neg same]
        simp only [List.cons_append, List.nil_append, List.append_assoc, readCounts,
          readNumber_toDigits _ ',' _ rfl, Option.bind_some, readUpper_toDigits]

variable {q : Quantity} {inner outer : Quantity}

/-- A quantifier written is read back where neither `?` nor `+` follows it. -/
theorem readQuantifier_text (plain : q.possessive = false) (rest : Text)
    (ends : ∀ more, rest ≠ '?' :: more ∧ rest ≠ '+' :: more) :
    readQuantifier (q.text ++ rest) = some (q, rest) := by
  obtain ⟨lower, upper, greedy, possessive⟩ := q
  subst plain
  unfold readQuantifier
  rw [text_eq_countsText, List.append_assoc, readCounts_countsText]
  cases greedy with
  | false => rfl
  | true =>
    simp only [if_true, List.nil_append, Option.map_some]
    split
    · rename_i more
      exact absurd rfl (ends more).1
    · rename_i more
      exact absurd rfl (ends more).2
    · rfl

/-- An atom is read with the quantifier written behind it. -/
theorem readRepeated_text (atom : Language α) (plain : q.possessive = false) (rest : Text)
    (ends : ∀ more, rest ≠ '?' :: more ∧ rest ≠ '+' :: more) :
    readRepeated atom (q.text ++ rest) = some (repeated atom q.counts, rest) := by
  unfold readRepeated
  rw [readQuantifier_text plain rest ends]
  dsimp only
  rw [plain]
  rfl

/-- A quantifier at the end of a pattern. -/
theorem readAfter_text (atom : Language α) (plain : q.possessive = false) :
    readAfter 0 atom q.text = some (repeated atom q.counts) := by
  have read := readRepeated_text atom plain [] (fun more => ⟨nofun, nofun⟩)
  rw [List.append_nil] at read
  rw [readAfter, read]

/-- A quantifier at the end of a group. -/
theorem readAfter_close (depth : Nat) (atom : Language α) (plain : q.possessive = false)
    (rest : Text) :
    readAfter (depth + 1) atom (q.text ++ ')' :: rest) =
      readAfter depth (repeated atom q.counts) rest := by
  have read := readRepeated_text atom plain (')' :: rest) (fun more => ⟨nofun, nofun⟩)
  rw [readAfter, read]
  rfl

/-- The text around a unit makes one atom of it, which what follows repeats as a whole. -/
def IsAtom (before : Text) (unit : Language α) (after : Text) (atom : Language α) : Prop :=
  ∃ depth, readBefore before = some depth ∧
    ∀ around rest, readAfter (around + depth) unit (after ++ rest) = readAfter around atom rest

namespace IsAtom

variable {before after : Text} {unit atom : Language α}

/-- A unit alone is an atom. -/
theorem alone (unit : Language α) : IsAtom [] unit [] unit :=
  ⟨0, rfl, fun _ _ => rfl⟩

/-- A group around an atom and its quantifier is an atom. -/
theorem group (isAtom : IsAtom before unit after atom) {q : Quantity}
    (plain : q.possessive = false) :
    IsAtom ("(?:".toList ++ before) unit (after ++ q.text ++ [')']) (repeated atom q.counts) := by
  obtain ⟨depth, opened, read⟩ := isAtom
  refine ⟨depth + 1, ?_, ?_⟩
  · show (readBefore before).map (· + 1) = some (depth + 1)
    rw [opened]
    rfl
  · intro around rest
    have deeper : around + (depth + 1) = around + 1 + depth := by omega
    rw [deeper, List.append_assoc, List.append_assoc, read]
    exact readAfter_close around atom plain rest

/-- An atom at the end of a pattern. -/
theorem language (isAtom : IsAtom before unit after atom) :
    languageAround before unit after = some atom := by
  obtain ⟨depth, opened, read⟩ := isAtom
  have ended := read 0 []
  rw [Nat.zero_add, List.append_nil] at ended
  unfold languageAround
  rw [opened, Option.bind_some, ended]
  rfl

/-- An atom and its quantifier at the end of a pattern. -/
theorem language_text (isAtom : IsAtom before unit after atom) {q : Quantity}
    (plain : q.possessive = false) :
    languageAround before unit (after ++ q.text) = some (repeated atom q.counts) := by
  obtain ⟨depth, opened, read⟩ := isAtom
  have ended := read 0 q.text
  rw [Nat.zero_add] at ended
  unfold languageAround
  rw [opened, Option.bind_some, ended]
  exact readAfter_text atom plain

end IsAtom

/-! ## The table of folds -/

/-- What a popular quantifier repeats, greedy or lazy. -/
inductive Shape where
  | optional
  | star
  | plus
deriving Repr, DecidableEq

namespace Shape

/-- The counts of a shape. -/
def counts : Shape → Set Nat
  | .optional => countsBetween 0 (some 1)
  | .star => countsBetween 0 none
  | .plus => countsBetween 1 none

/-- The shape of a popular quantifier, by the number Onigmo gives it. -/
def ofPopular : Nat → Shape
  | 0 | 3 => .optional
  | 1 | 4 => .star
  | _ => .plus

/-- The shape that one over another makes. -/
def onto : Shape → Shape → Shape
  | .optional, .optional => .optional
  | .plus, .plus => .plus
  | _, _ => .star

/-- A shape over another repeats as the one they make does. -/
theorem repeated_over (language : Language α) (inner outer : Shape) :
    repeated (repeated language inner.counts) outer.counts =
      repeated language (inner.onto outer).counts := by
  rw [repeated_repeated]
  congr 1
  ext count
  rw [Set.mem_ofPred_eq]
  cases inner with
  | optional =>
    simp only [Shape.counts, mem_nsmul_some (Nat.zero_le 1)]
    cases outer <;> simp only [onto, mem_countsBetween_some, mem_countsBetween_none]
    · exact ⟨fun ⟨times, _, _⟩ => by omega, fun _ => ⟨1, by omega, by omega⟩⟩
    · exact ⟨fun _ => by omega, fun _ => ⟨count, by omega, by omega⟩⟩
    · exact ⟨fun _ => by omega, fun _ => ⟨count + 1, by omega, by omega⟩⟩
  | star =>
    simp only [Shape.counts, mem_nsmul_none]
    cases outer <;> simp only [onto, mem_countsBetween_some, mem_countsBetween_none] <;>
      exact ⟨fun _ => by omega, fun _ => ⟨1, by omega, by omega⟩⟩
  | plus =>
    simp only [Shape.counts, mem_nsmul_none]
    cases outer <;> simp only [onto, mem_countsBetween_some, mem_countsBetween_none]
    · refine ⟨fun _ => by omega, fun _ => ?_⟩
      by_cases empty : count = 0
      · exact ⟨0, by omega, by omega⟩
      · exact ⟨1, by omega, by omega⟩
    · refine ⟨fun _ => by omega, fun _ => ?_⟩
      by_cases empty : count = 0
      · exact ⟨0, by omega, by omega⟩
      · exact ⟨1, by omega, by omega⟩
    · exact ⟨fun ⟨times, _, _⟩ => by omega, fun _ => ⟨1, by omega, by omega⟩⟩

end Shape

/-- A popular quantifier repeats as its shape does. -/
theorem counts_of_popular {number : Nat} (popular : q.popular = some number) :
    q.counts = (Shape.ofPopular number).counts := by
  obtain ⟨lower, upper, greedy, possessive⟩ := q
  unfold Quantity.popular at popular
  obtain ⟨base, found, rfl⟩ := Option.map_eq_some_iff.mp popular
  dsimp only at found
  split at found
  · cases found
    cases greedy <;> rfl
  · cases found
    cases greedy <;> rfl
  · cases found
    cases greedy <;> rfl
  · cases found

/-- The shape a fold leaves over the one it starts from, none where it leaves both. -/
def Fold.shape (inner : Shape) : Fold → Option Shape
  | .asIs => none
  | .inner => some inner
  | .star | .lazyStar => some .star
  | .lazyOptional => some .optional
  | .lazyOptionalPlus => some (Shape.onto .plus .optional)

/-- Every fold of the table leaves the shape that the outer quantifier makes of the inner one. -/
theorem folds_sound : ∀ row < 6, ∀ column < 6, ∀ fold ∈ (folds[row]?).bind (·[column]?),
    fold = .asIs ∨ fold.shape (Shape.ofPopular row) =
      some ((Shape.ofPopular row).onto (Shape.ofPopular column)) := by
  decide

/-- A fold other than the one that leaves both quantifiers repeats as they do. -/
theorem foldOf_sound {fold : Fold} (found : foldOf inner outer = .ok fold) (folded : fold ≠ .asIs) :
    ∃ shape other, inner.counts = shape.counts ∧ outer.counts = other.counts ∧
      fold.shape shape = some (shape.onto other) := by
  unfold foldOf at found
  cases first : inner.popular with
  | none =>
    rw [first] at found
    cases found
    exact absurd rfl folded
  | some row =>
    cases second : outer.popular with
    | none =>
      rw [first, second] at found
      cases found
      exact absurd rfl folded
    | some column =>
      rw [first, second] at found
      dsimp only at found
      have stands : fold ∈ (folds[row]?).bind (·[column]?) := by
        cases cell : (folds[row]?).bind (·[column]?) with
        | none =>
          rw [cell] at found
          cases found
        | some other =>
          rw [cell] at found
          cases found
          rfl
      have sound := folds_sound row (popular_lt first) column (popular_lt second) fold stands
      exact ⟨.ofPopular row, .ofPopular column, counts_of_popular first, counts_of_popular second,
        sound.resolve_left folded⟩

/-! ## Folding -/

/-- The upper bound of a quantifier is no lower than its lower one. -/
def Quantity.Ordered (q : Quantity) : Prop := ∀ upper ∈ q.upper, q.lower ≤ upper

instance (q : Quantity) : Decidable q.Ordered :=
  inferInstanceAs (Decidable (∀ upper ∈ q.upper, q.lower ≤ upper))

/-- A bounded interval over `*` or `+` repeats it as the shortened one does. -/
theorem repeated_boundByInnerStar (language : Language α) (inner outer : Quantity)
    (ordered : outer.Ordered) :
    repeated (repeated language inner.counts) (boundByInnerStar inner outer).counts =
      repeated (repeated language inner.counts) outer.counts := by
  unfold boundByInnerStar
  cases bounded : outer.upper with
  | none => rfl
  | some upper =>
    dsimp only
    by_cases shortens : (inner.popular = some 1 ∨ inner.popular = some 2) ∧
        outer.isGreedy = true ∧ 1 < upper
    · rw [if_pos shortens]
      have least : outer.lower ≤ upper := ordered upper bounded
      have starry : ∃ least, inner.counts = countsBetween least none := by
        cases shortens.1 with
        | inl star => exact ⟨0, counts_of_popular star⟩
        | inr plus => exact ⟨1, counts_of_popular plus⟩
      obtain ⟨least, starry⟩ := starry
      rw [starry, repeated_repeated, repeated_repeated]
      congr 1
      ext count
      simp only [Set.mem_ofPred_eq, mem_nsmul_none, Quantity.counts, bounded,
        mem_countsBetween_some]
      constructor
      · intro summed
        obtain ⟨times, within, summed⟩ := summed
        exact ⟨times, by omega, summed⟩
      · intro summed
        obtain ⟨times, within, sum, never⟩ := summed
        by_cases none : times = 0
        · exact ⟨0, by omega, by omega, fun _ => never none⟩
        · -- As few repetitions as the interval asks for, at least one, reach the same count.
          have fewer : max outer.lower 1 * least ≤ times * least :=
            Nat.mul_le_mul_right least (by omega)
          exact ⟨max outer.lower 1, by omega, by omega, by omega⟩
    · rw [if_neg shortens]

/-- What a fold leaves of a text and two quantifiers. -/
def Fold.leaves (text : Text) (inner outer : Quantity) : Fold → Text × Quantity
  | .inner => (text, inner)
  | .star => (text, .greedy 0 none)
  | .lazyStar => (text, .lazy 0 none)
  | .lazyOptional => (text, .lazy 0 (some 1))
  | .lazyOptionalPlus => ("(?:".toList ++ text ++ "+)".toList, .lazy 0 (some 1))
  | .asIs => ("(?:".toList ++ (text ++ inner.text) ++ [')'], outer)

/-- `repeat::fold` leaves what the fold found does. -/
theorem foldQuantity_eq {fold : Fold}
    (found : foldOf inner (boundByInnerStar inner outer) = .ok fold) (text : Text) :
    foldQuantity text inner outer = .ok (fold.leaves text inner (boundByInnerStar inner outer)) := by
  unfold foldQuantity
  dsimp only
  rw [found]
  cases fold <;> rfl

/-- A shortened interval is no more possessive, and its bounds are in order. -/
theorem boundByInnerStar_ordered (inner : Quantity) {outer : Quantity} (ordered : outer.Ordered) :
    (boundByInnerStar inner outer).possessive = outer.possessive ∧
      (boundByInnerStar inner outer).Ordered := by
  unfold boundByInnerStar
  cases outer.upper with
  | none => exact ⟨rfl, ordered⟩
  | some upper =>
    dsimp only
    split
    · refine ⟨rfl, ?_⟩
      intro upper same
      cases same
      exact Nat.le_max_left _ _
    · exact ⟨rfl, ordered⟩

/-- A fold puts around the unit what repeats as both quantifiers do. -/
theorem foldQuantity_denotes {before after : Text} {unit atom : Language α}
    (isAtom : IsAtom before unit after atom) (innerPlain : inner.possessive = false)
    (innerOrdered : inner.Ordered) (outerPlain : outer.possessive = false)
    (outerOrdered : outer.Ordered) :
    ∃ before' after' atom' folded,
      (∀ text, foldQuantity (before ++ text ++ after) inner outer =
        .ok (before' ++ text ++ after', folded)) ∧
      IsAtom before' unit after' atom' ∧ folded.possessive = false ∧ folded.Ordered ∧
      repeated atom' folded.counts = repeated (repeated atom inner.counts) outer.counts := by
  obtain ⟨fold, found⟩ := foldOf_total inner (boundByInnerStar inner outer)
  rw [← repeated_boundByInnerStar atom inner outer outerOrdered]
  have writes := fun text => foldQuantity_eq found (before ++ text ++ after)
  by_cases asIs : fold = .asIs
  · subst asIs
    obtain ⟨plain, ordered⟩ := boundByInnerStar_ordered inner outerOrdered
    refine ⟨_, _, _, _, fun text => ?_, isAtom.group innerPlain, plain.trans outerPlain,
      ordered, rfl⟩
    rw [writes]
    simp only [Fold.leaves, List.append_assoc]
  · obtain ⟨shape, other, innerCounts, outerCounts, same⟩ := foldOf_sound found asIs
    rw [innerCounts, outerCounts, Shape.repeated_over]
    cases fold with
    | asIs => exact absurd rfl asIs
    | inner =>
      have made : shape = shape.onto other := Option.some.inj same
      refine ⟨before, after, atom, inner, writes, isAtom, innerPlain, innerOrdered, ?_⟩
      rw [← made, innerCounts]
    | star =>
      have made : Shape.star = shape.onto other := Option.some.inj same
      refine ⟨before, after, atom, .greedy 0 none, writes, isAtom, rfl, nofun, ?_⟩
      rw [← made]
      rfl
    | lazyStar =>
      have made : Shape.star = shape.onto other := Option.some.inj same
      refine ⟨before, after, atom, .lazy 0 none, writes, isAtom, rfl, nofun, ?_⟩
      rw [← made]
      rfl
    | lazyOptional =>
      have made : Shape.optional = shape.onto other := Option.some.inj same
      refine ⟨before, after, atom, .lazy 0 (some 1), writes, isAtom, rfl, ?_, ?_⟩
      · exact fun _ _ => Nat.zero_le _
      · rw [← made]
        rfl
    | lazyOptionalPlus =>
      have made : Shape.onto .plus .optional = shape.onto other := Option.some.inj same
      refine ⟨_, _, _, .lazy 0 (some 1), fun text => ?_, isAtom.group (q := .greedy 1 none) rfl,
        rfl, ?_, ?_⟩
      · rw [writes]
        simp [Fold.leaves, Quantity.text, Quantity.greedy]
      · exact fun _ _ => Nat.zero_le _
      · rw [← made, ← Shape.repeated_over]
        rfl

/-- The loop of `repeat::write` puts around the unit what repeats as every quantifier does. -/
theorem writeQuantities_denotes {unit : Language α} (quantities : List Quantity)
    (plain : ∀ q ∈ quantities, q.possessive = false) (ordered : ∀ q ∈ quantities, q.Ordered)
    {before after : Text} {atom : Language α} (isAtom : IsAtom before unit after atom)
    (current : Quantity) (currentPlain : current.possessive = false)
    (currentOrdered : current.Ordered) :
    ∃ before' after',
      (∀ text, writeQuantities (before ++ text ++ after) (some current) quantities =
        .ok (before' ++ text ++ after')) ∧
      languageAround before' unit after' =
        some (nested (repeated atom current.counts) quantities) := by
  induction quantities generalizing before after atom current with
  | nil =>
    refine ⟨before, after ++ current.text, fun text => ?_, isAtom.language_text currentPlain⟩
    show Except.ok (before ++ text ++ after ++ current.text) = _
    rw [List.append_assoc (before ++ text)]
  | cons quantity rest ih =>
    have quantityPlain := plain quantity List.mem_cons_self
    have quantityOrdered := ordered quantity List.mem_cons_self
    obtain ⟨before', after', atom', folded, writes, isAtom', foldedPlain, foldedOrdered, same⟩ :=
      foldQuantity_denotes isAtom currentPlain currentOrdered quantityPlain quantityOrdered
    obtain ⟨before'', after'', writesRest, denotes⟩ :=
      ih (fun q has => plain q (List.mem_cons_of_mem _ has))
        (fun q has => ordered q (List.mem_cons_of_mem _ has)) isAtom' folded foldedPlain
        foldedOrdered
    refine ⟨before'', after'', fun text => ?_, ?_⟩
    · have made : { quantity with possessive := false } = quantity := by
        rw [← quantityPlain]
      rw [writeQuantities, made]
      show (foldQuantity (before ++ text ++ after) current quantity >>= _) = _
      rw [writes, ok_bind]
      dsimp only
      rw [quantityPlain]
      exact writesRest text
    · rw [denotes, same]
      rfl

/-- What `repeat::write` emits denotes the unit repeated by each quantifier in turn. -/
theorem writeRepeat_denotes (quantities : List Quantity)
    (plain : ∀ q ∈ quantities, q.possessive = false) (ordered : ∀ q ∈ quantities, q.Ordered)
    (unit : Language α) :
    ∃ before after, (∀ text, writeRepeat text quantities = .ok (before ++ text ++ after)) ∧
      languageAround before unit after = some (nested unit quantities) := by
  unfold writeRepeat
  cases quantities with
  | nil =>
    refine ⟨[], [], fun text => ?_, (IsAtom.alone unit).language⟩
    rw [List.nil_append]
    rfl
  | cons quantity rest =>
    have quantityPlain := plain quantity List.mem_cons_self
    have made : { quantity with possessive := false } = quantity := by
      rw [← quantityPlain]
    obtain ⟨before, after, writes, denotes⟩ :=
      writeQuantities_denotes rest (fun q has => plain q (List.mem_cons_of_mem _ has))
        (fun q has => ordered q (List.mem_cons_of_mem _ has)) (IsAtom.alone unit) quantity
        quantityPlain (ordered quantity List.mem_cons_self)
    refine ⟨before, after, fun text => ?_, denotes⟩
    rw [writeQuantities, made]
    show (Except.ok (text, quantity) >>= _) = _
    rw [ok_bind]
    dsimp only
    rw [quantityPlain]
    have written := writes text
    rw [List.nil_append, List.append_nil] at written
    exact written

/-- An interval shortened over a star, then folded away by a lazy plus. -/
theorem writeRepeat_denotes_shortened :
    ∃ before after, (∀ text, writeRepeat text
        [.greedy 0 none, .greedy 0 (some 3), .lazy 1 none] = .ok (before ++ text ++ after)) ∧
      languageAround before ({['a']} : Language Char) after =
        some (nested {['a']} [.greedy 0 none, .greedy 0 (some 3), .lazy 1 none]) :=
  writeRepeat_denotes _ (by decide) (by decide) _

end Kobako.Regexp
