import Kobako.Codec.Decoder
import Kobako.Outcome

/-!
# The value budget

A decode may be given the number of values it may read. Reading spends one for every value, so a
budget refuses exactly the inputs whose value holds more, and what it refuses was never built: the
decode counted as it goes, a value counted once it is whole, never gets past its budget.
-/

namespace Kobako.Codec

open Kobako.Bytes

namespace Value

mutual

/-- The values a value holds: each array, map, key, element and leaf, itself among them. -/
def count : Value → Nat
  | array items => countItems items + 1
  | map pairs => countPairs pairs + 1
  | _ => 1

/-- The values a list of values holds. -/
def countItems : List Value → Nat
  | [] => 0
  | item :: items => count item + countItems items

/-- The values a list of pairs holds. -/
def countPairs : List (Value × Value) → Nat
  | [] => 0
  | (key, value) :: pairs => count key + count value + countPairs pairs

end

end Value

namespace Decoder

variable {α β : Type}

/-! ## Frames by shape -/

/-- What a marker announces: a value without members, or the members of an array or a map, their
number read first. -/
inductive Shape where
  | leaf (read : Reader Value)
  | array (len : Reader Nat)
  | map (len : Reader Nat)

namespace Shape

/-- The reader of a shape, `item` reading a nested value. -/
def read (item : Reader Value) : Shape → Reader Value
  | leaf read => read
  | array len => len >>= readArrayBody item
  | map len => len >>= readMapBody item

end Shape

/-- The shape a marker announces. A leaf asks for no nested value, so any reader of one will do. -/
def shapeOf : Marker → Shape
  | .fixArray len => .array (pure len)
  | .array16 => .array (readData 2)
  | .array32 => .array (readData 4)
  | .fixMap len => .map (pure len)
  | .map16 => .map (readData 2)
  | .map32 => .map (readData 4)
  | marker => .leaf (readBody (throw .truncated) marker)

/-- A body is read by the shape its marker announces. -/
theorem readBody_shape (item : Reader Value) (marker : Marker) :
    readBody item marker = (shapeOf marker).read item := by
  cases marker <;> rfl

/-- `decoder::read_ext` past the type byte. -/
def readExtOf (ty : UInt8) (len : Nat) : Reader Value :=
  if ty = extSymbol then do
    return .sym (← fromUtf8 (← take len))
  else if ty = extHandle then
    if len ≠ 4 then throw .invalidHandle
    else do
      let id := UInt32.ofNat (ofBe (← take 4))
      if id = 0 ∨ id > maxHandleId then throw .invalidHandle else return .handle id
  else throw .invalidType

theorem readExt_cons (len : Nat) (ty : UInt8) (rest : List UInt8) (budget : Option Nat) :
    readExt len ⟨ty :: rest, budget⟩ = readExtOf ty len ⟨rest, budget⟩ := by
  show (if ty = extSymbol then _ else _ : Reader Value) ⟨rest, budget⟩ = _
  unfold readExtOf
  rfl

/-- A value without members that a marker and a word spell, as the decoder answers it: an unsigned
one is past the `i64` range. -/
inductive Scalar : Value → Prop where
  | nil : Scalar .nil
  | bool (b : Bool) : Scalar (.bool b)
  | int (n : Int64) : Scalar (.int n)
  | uint {n : UInt64} (above : ¬n ≤ i64Max) : Scalar (.uint n)
  | float (bits : UInt64) : Scalar (.float bits)

/-- How the length of a text, a binary or an ext is read: off the marker, or a word after it. -/
inductive Length : Reader Nat → Prop where
  | own {len : Nat} (fits : len < 256) : Length (pure len)
  | word {width : Nat} (fits : width ≤ 4) : Length (readData width)

/-- How a value without members is read. -/
inductive Leaf : Reader Value → Prop where
  | scalar {value : Value} (scalar : Scalar value) : Leaf (pure value)
  | refused (e : Error) : Leaf (throw e)
  | word (width : Nat) {value : Nat → Value} (scalar : ∀ n, Scalar (value n)) :
      Leaf (readData width >>= fun n => pure (value n))
  | signed (width : Nat) {value : Int → Value} (scalar : ∀ n, Scalar (value n)) :
      Leaf (readSigned width >>= fun n => pure (value n))
  | text {len : Reader Nat} (length : Length len) : Leaf (len >>= readStrBody)
  | binary {len : Reader Nat} (length : Length len) : Leaf (len >>= readBinBody)
  | ext {len : Reader Nat} (length : Length len) : Leaf (len >>= readExt)

/-- A `u64` frame's value: signed where it fits. -/
def unsigned (word : Nat) : Value :=
  if UInt64.ofNat word ≤ i64Max then .int (UInt64.ofNat word).toInt64 else .uint (UInt64.ofNat word)

/-- A number is a scalar. -/
theorem scalar_unsigned (word : Nat) : Scalar (unsigned word) := by
  unfold unsigned
  split
  · exact .int _
  · rename_i above
    exact .uint above

theorem readBody_u64 (item : Reader Value) :
    readBody item .u64 = readData 8 >>= fun word => pure (unsigned word) := by
  unfold readBody unsigned
  apply congrArg (readData 8 >>= ·)
  funext word
  dsimp only
  split
  · rfl
  · rfl

variable {marker : Marker} {read : Reader Value} {len : Reader Nat}

/-- Every marker without members is read in one of these ways. -/
theorem shapeOf_leaf (leaf : shapeOf marker = .leaf read) : Leaf read := by
  cases marker with
  | null => cases leaf; exact .scalar .nil
  | reserved => cases leaf; exact .refused _
  | ff => cases leaf; exact .scalar (.bool _)
  | tt => cases leaf; exact .scalar (.bool _)
  | fixPos n => cases leaf; exact .scalar (.int _)
  | fixNeg n => cases leaf; exact .scalar (.int _)
  | u8 => cases leaf; exact .word 1 fun _ => .int _
  | u16 => cases leaf; exact .word 2 fun _ => .int _
  | u32 => cases leaf; exact .word 4 fun _ => .int _
  | u64 =>
    cases leaf
    rw [readBody_u64]
    exact .word 8 scalar_unsigned
  | i8 => cases leaf; exact .signed 1 fun _ => .int _
  | i16 => cases leaf; exact .signed 2 fun _ => .int _
  | i32 => cases leaf; exact .signed 4 fun _ => .int _
  | i64 => cases leaf; exact .signed 8 fun _ => .int _
  | f32 => cases leaf; exact .word 4 fun _ => .float _
  | f64 => cases leaf; exact .word 8 fun _ => .float _
  | fixStr len => cases leaf; exact .text (.own (show len.val < 256 by omega))
  | str8 => cases leaf; exact .text (.word (by decide))
  | str16 => cases leaf; exact .text (.word (by decide))
  | str32 => cases leaf; exact .text (.word (by decide))
  | bin8 => cases leaf; exact .binary (.word (by decide))
  | bin16 => cases leaf; exact .binary (.word (by decide))
  | bin32 => cases leaf; exact .binary (.word (by decide))
  | fixExt1 => cases leaf; exact .ext (.own (by decide : 1 < 256))
  | fixExt2 => cases leaf; exact .ext (.own (by decide : 2 < 256))
  | fixExt4 => cases leaf; exact .ext (.own (by decide : 4 < 256))
  | fixExt8 => cases leaf; exact .ext (.own (by decide : 8 < 256))
  | fixExt16 => cases leaf; exact .ext (.own (by decide : 16 < 256))
  | ext8 => cases leaf; exact .ext (.word (by decide))
  | ext16 => cases leaf; exact .ext (.word (by decide))
  | ext32 => cases leaf; exact .ext (.word (by decide))
  | fixArray len => cases leaf
  | array16 => cases leaf
  | array32 => cases leaf
  | fixMap len => cases leaf
  | map16 => cases leaf
  | map32 => cases leaf

/-! ## Readers that spend nothing -/

/-- A reader that neither looks at the budget nor spends any of it. -/
def Free (read : Reader α) : Prop :=
  ∀ bytes budget, read ⟨bytes, budget⟩ =
    match read ⟨bytes, none⟩ with
    | .ok a after => .ok a ⟨after.bytes, budget⟩
    | .error e after => .error e ⟨after.bytes, budget⟩

namespace Free

theorem pure (a : α) : Free (pure a : Reader α) := fun _ _ => rfl

theorem throw (e : Error) : Free (throw e : Reader α) := fun _ _ => rfl

theorem bind {first : Reader α} {next : α → Reader β} (start : Free first)
    (onward : ∀ a, Free (next a)) : Free (first >>= next) := by
  intro bytes budget
  show EStateM.bind first next ⟨bytes, budget⟩ =
    match EStateM.bind first next ⟨bytes, none⟩ with
    | .ok a after => .ok a ⟨after.bytes, budget⟩
    | .error e after => .error e ⟨after.bytes, budget⟩
  unfold EStateM.bind
  have given := start bytes budget
  have unbudgeted := start bytes none
  cases read : first ⟨bytes, none⟩ with
  | ok a after =>
    rw [read] at given unbudgeted
    have bare : after = ⟨after.bytes, none⟩ := (EStateM.Result.ok.inj unbudgeted).2
    rw [given, bare]
    exact onward a after.bytes budget
  | error e after =>
    rw [read] at given
    rw [given]

theorem take (n : Nat) : Free (take n) := by
  intro bytes budget
  rw [take_eq, take_eq]
  split
  · rfl
  · rfl

theorem fromUtf8 (bytes : List UInt8) : Free (fromUtf8 bytes) := by
  unfold Decoder.fromUtf8
  split
  · exact Free.pure _
  · exact Free.throw _

theorem readData (width : Nat) : Free (readData width) :=
  (Free.take width).bind fun _ => Free.pure _

theorem readSigned (width : Nat) : Free (readSigned width) :=
  (Free.readData width).bind fun _ => Free.pure _

theorem readStrBody (len : Nat) : Free (readStrBody len) :=
  (Free.take len).bind fun bytes => (Free.fromUtf8 bytes).bind fun _ => Free.pure _

theorem readBinBody (len : Nat) : Free (readBinBody len) :=
  (Free.take len).bind fun _ => Free.pure _

theorem readExtOf (ty : UInt8) (len : Nat) : Free (readExtOf ty len) := by
  unfold Decoder.readExtOf
  split
  · exact (Free.take len).bind fun bytes => (Free.fromUtf8 bytes).bind fun _ => Free.pure _
  · split
    · split
      · exact Free.throw _
      · apply (Free.take 4).bind
        intro bytes
        dsimp only
        split
        · exact Free.throw _
        · exact Free.pure _
    · exact Free.throw _

theorem readExt (len : Nat) : Free (readExt len) := by
  intro bytes budget
  cases bytes with
  | nil => rfl
  | cons ty rest =>
    rw [readExt_cons, readExt_cons]
    exact Free.readExtOf ty len rest budget

end Free

/-- A length is free. -/
theorem Length.free (length : Length len) : Free len := by
  cases length with
  | own fits => exact Free.pure _
  | word fits => exact Free.readData _

/-- A value without members spends nothing past its own. -/
theorem free_leaf (leaf : shapeOf marker = .leaf read) :
    Free read := by
  cases shapeOf_leaf leaf with
  | scalar scalar => exact Free.pure _
  | refused e => exact Free.throw e
  | word width scalar => exact (Free.readData width).bind fun _ => Free.pure _
  | signed width scalar => exact (Free.readSigned width).bind fun _ => Free.pure _
  | text length => exact length.free.bind Free.readStrBody
  | binary length => exact length.free.bind Free.readBinBody
  | ext length => exact length.free.bind Free.readExt

/-- Reading a number of members spends nothing. -/
theorem free_array (array : shapeOf marker = .array len) :
    Free len := by
  cases marker <;> cases array <;> first | exact Free.pure _ | exact Free.readData _

/-- A map's length is free. -/
theorem free_map (map : shapeOf marker = .map len) :
    Free len := by
  cases marker <;> cases map <;> first | exact Free.pure _ | exact Free.readData _

/-- A reader that answers single values only. -/
abbrev Single (read : Reader Value) : Prop :=
  Keeps (fun _ => True) read fun value => value.count = 1

theorem keeps_any (read : Reader α) : Keeps (fun _ => True) read fun _ => True := by
  intro cursor _
  unfold Ends
  cases read cursor with
  | ok a after => exact ⟨trivial, trivial⟩
  | error e after => trivial

theorem single_readStrBody (len : Nat) : Single (readStrBody len) :=
  (keeps_any _).bind fun _ _ => (keeps_any _).bind fun _ _ => Keeps.pure rfl

theorem single_readBinBody (len : Nat) : Single (readBinBody len) :=
  (keeps_any _).bind fun _ _ => Keeps.pure rfl

theorem single_readExtOf (ty : UInt8) (len : Nat) : Single (readExtOf ty len) := by
  unfold readExtOf
  split
  · exact (keeps_any _).bind fun _ _ => (keeps_any _).bind fun _ _ => Keeps.pure rfl
  · split
    · split
      · exact Keeps.throw
      · apply (keeps_any _).bind
        intro bytes _
        dsimp only
        split
        · exact Keeps.throw
        · exact Keeps.pure rfl
    · exact Keeps.throw

theorem single_readExt (len : Nat) : Single (readExt len) := by
  rintro ⟨bytes, budget⟩ held
  cases bytes with
  | nil => exact held
  | cons ty rest =>
    unfold Ends
    rw [readExt_cons]
    exact single_readExtOf ty len ⟨rest, budget⟩ held

/-- A scalar counts once. -/
theorem Scalar.count {value : Value} (scalar : Scalar value) : value.count = 1 := by
  cases scalar <;> rfl

/-- A marker that announces no members is read as one value. -/
theorem leaf_count {cursor after : Cursor} {value : Value} (leaf : shapeOf marker = .leaf read)
    (answered : read cursor = .ok value after) :
    value.count = 1 := by
  have single : Single read := by
    cases shapeOf_leaf leaf with
    | scalar scalar => exact Keeps.pure scalar.count
    | refused e => exact Keeps.throw
    | word width scalar => exact (keeps_any _).bind fun n _ => Keeps.pure (scalar n).count
    | signed width scalar => exact (keeps_any _).bind fun n _ => Keeps.pure (scalar n).count
    | text length => exact (keeps_any _).bind fun len _ => single_readStrBody len
    | binary length => exact (keeps_any _).bind fun len _ => single_readBinBody len
    | ext length => exact (keeps_any _).bind fun len _ => single_readExt len
  have ended := single cursor trivial
  unfold Ends at ended
  rw [answered] at ended
  exact ended.2

/-! ## What a reader spends -/

/-- The input is refused, whatever for. -/
def Refuses (read : Reader α) (cursor : Cursor) : Prop := ∃ e after, read cursor = .error e after

/-- Begun with `base` values spent, a reader has spent `total a` once it answers `a`: a budget that
allows as many changes nothing, and one that allows fewer refuses. -/
def Spends (base : Nat) (read : Reader α) (total : α → Nat) : Prop :=
  ∀ bytes left, match read ⟨bytes, none⟩ with
    | .ok a after => after.budget = none ∧ base ≤ total a ∧
        (total a ≤ base + left →
          read ⟨bytes, some left⟩ = .ok a ⟨after.bytes, some (base + left - total a)⟩) ∧
        (base + left < total a → Refuses read ⟨bytes, some left⟩)
    | .error _ _ => Refuses read ⟨bytes, some left⟩

namespace Spends

/-- What is free spends nothing. -/
theorem ofFree {read : Reader α} (free : Free read) (base : Nat) :
    Spends base read fun _ => base := by
  intro bytes left
  have given := free bytes (some left)
  have unbudgeted := free bytes none
  cases answered : read ⟨bytes, none⟩ with
  | ok a after =>
    rw [answered] at given unbudgeted
    have bare : after = ⟨after.bytes, none⟩ := (EStateM.Result.ok.inj unbudgeted).2
    refine ⟨by rw [bare], Nat.le_refl base, ?_, ?_⟩
    · intro _
      rw [given, Nat.add_sub_cancel_left]
    · intro overspent
      exact absurd overspent (Nat.not_lt.mpr (Nat.le_add_right base left))
  | error e after =>
    rw [answered] at given
    exact ⟨e, ⟨after.bytes, some left⟩, given⟩

variable {base : Nat}

theorem pure {a : α} {total : α → Nat} (spent : base = total a) :
    Spends base (pure a : Reader α) total := by
  subst spent
  intro bytes left
  refine ⟨rfl, Nat.le_refl _, ?_, ?_⟩
  · intro _
    rw [Nat.add_sub_cancel_left]
    rfl
  · intro overspent
    omega

/-- What is spent may be told of the answers alone that a reader gives. -/
theorem congr {read : Reader α} {total total' : α → Nat} (spends : Spends base read total)
    (same : ∀ cursor a after, read cursor = .ok a after → total a = total' a) :
    Spends base read total' := by
  intro bytes left
  have spent := spends bytes left
  cases answered : read ⟨bytes, none⟩ with
  | error e after =>
    rw [answered] at spent
    exact spent
  | ok a after =>
    rw [answered] at spent
    dsimp only at spent ⊢
    rw [← same _ _ _ answered]
    exact spent

/-- One reader, then another that goes on from what it spent. -/
theorem bind {first : Reader α} {next : α → Reader β} {middle : α → Nat} {total : β → Nat}
    (start : Spends base first middle) (onward : ∀ a, Spends (middle a) (next a) total) :
    Spends base (first >>= next) total := by
  intro bytes left
  have begun := start bytes left
  have refused : Refuses first ⟨bytes, some left⟩ → Refuses (first >>= next) ⟨bytes, some left⟩ := by
    rintro ⟨e, after, failed⟩
    refine ⟨e, after, ?_⟩
    show EStateM.bind first next _ = _
    unfold EStateM.bind
    rw [failed]
  cases answered : first ⟨bytes, none⟩ with
  | error e after =>
    rw [answered] at begun
    have failed : (first >>= next) ⟨bytes, none⟩ = .error e after := by
      show EStateM.bind first next _ = _
      unfold EStateM.bind
      rw [answered]
    rw [failed]
    exact refused begun
  | ok a after =>
    rw [answered] at begun
    obtain ⟨bare, rises, within, overspent⟩ := begun
    have plain : (first >>= next) ⟨bytes, none⟩ = next a ⟨after.bytes, none⟩ := by
      rw [bind_eq answered, ← bare]
    by_cases enough : middle a ≤ base + left
    · have given : (first >>= next) ⟨bytes, some left⟩ =
          next a ⟨after.bytes, some (base + left - middle a)⟩ := bind_eq (within enough)
      have same : middle a + (base + left - middle a) = base + left := by omega
      have rest := onward a after.bytes (base + left - middle a)
      unfold Refuses at rest ⊢
      rw [same] at rest
      rw [plain, given]
      cases ended : next a ⟨after.bytes, none⟩ with
      | error e last =>
        rw [ended] at rest
        exact rest
      | ok b last =>
        rw [ended] at rest
        exact ⟨rest.1, rises.trans rest.2.1, rest.2.2⟩
    · have poor := refused (overspent (by omega))
      have rest := onward a after.bytes 0
      rw [plain]
      cases ended : next a ⟨after.bytes, none⟩ with
      | error e last => exact poor
      | ok b last =>
        rw [ended] at rest
        have more : middle a ≤ total b := rest.2.1
        refine ⟨rest.1, by omega, ?_, fun _ => poor⟩
        intro fits
        omega

/-- The one value a reader of one starts with. -/
theorem spend (base : Nat) : Spends base spend fun _ => base + 1 := by
  intro bytes left
  refine ⟨rfl, Nat.le_succ base, ?_, ?_⟩
  · intro fits
    cases left with
    | zero => exact absurd fits (Nat.not_succ_le_self base)
    | succ left =>
      have same : base + (left + 1) - (base + 1) = left := by omega
      rw [same]
      rfl
  · intro overspent
    cases left with
    | zero => exact ⟨_, _, rfl⟩
    | succ left => exact absurd overspent (by dsimp only; omega)

end Spends

section Bodies

variable {item : Reader Value} (reads : ∀ base, Spends base item fun value => base + value.count)

include reads

/-- The elements of an array spend what they hold. -/
theorem spends_readItems (len base : Nat) :
    Spends base (readItems item len) fun items => base + Value.countItems items := by
  induction len generalizing base with
  | zero => exact Spends.pure rfl
  | succ len ih =>
    apply (reads base).bind
    intro first
    apply (ih (base + first.count)).bind
    intro others
    apply Spends.pure
    rw [Value.countItems, Nat.add_assoc]

/-- The pairs of a map spend what they hold. -/
theorem spends_readPairs (len base : Nat) :
    Spends base (readPairs item len) fun pairs => base + Value.countPairs pairs := by
  induction len generalizing base with
  | zero => exact Spends.pure rfl
  | succ len ih =>
    apply (reads base).bind
    intro key
    apply (reads (base + key.count)).bind
    intro value
    apply (ih (base + key.count + value.count)).bind
    intro others
    apply Spends.pure
    rw [Value.countPairs]
    omega

/-- A body spends what its value holds beyond itself. -/
theorem spends_readBody (marker : Marker) (base : Nat) :
    Spends (base + 1) (readBody item marker) fun value => base + value.count := by
  rw [readBody_shape]
  cases shape : shapeOf marker with
  | leaf read =>
    apply (Spends.ofFree (free_leaf shape) (base + 1)).congr
    intro cursor value after answered
    rw [leaf_count shape answered]
  | array len =>
    apply (Spends.ofFree (free_array shape) (base + 1)).bind
    intro number
    apply (spends_readItems reads number (base + 1)).bind
    intro items
    apply Spends.pure
    rw [Value.count]
    omega
  | map len =>
    apply (Spends.ofFree (free_map shape) (base + 1)).bind
    intro number
    apply (spends_readPairs reads number (base + 1)).bind
    intro pairs
    apply Spends.pure
    rw [Value.count]
    omega

end Bodies

/-- A marker is free. -/
theorem free_readMarker : Free readMarker := by
  intro bytes budget
  cases bytes with
  | nil => rfl
  | cons byte rest => rfl

/-- Reading a value spends what it holds. -/
theorem spends_readWithin (levels base : Nat) :
    Spends base (readWithin levels) fun value => base + value.count := by
  induction levels generalizing base with
  | zero => exact (Spends.ofFree (Free.throw _) base).congr fun _ _ _ answered => by cases answered
  | succ levels ih =>
    apply (Spends.spend base).bind
    intro _
    apply (Spends.ofFree free_readMarker (base + 1)).bind
    intro marker
    exact spends_readBody ih marker base

/-! ## The values a decode builds -/

/-- A decode counted as it goes: what it has left, and the values it has built. -/
structure Tally where
  /-- What the decode has left. -/
  cursor : Cursor
  /-- The values built so far. -/
  built : Nat
deriving Repr, DecidableEq

namespace Tally

/-- A step that builds no value. -/
def onCursor (read : Reader α) : EStateM Error Tally α := fun tally =>
  match read tally.cursor with
  | .ok a after => .ok a { tally with cursor := after }
  | .error e after => .error e { tally with cursor := after }

/-- The loop of `decoder::read_array_body`, counted. -/
def items (item : EStateM Error Tally Value) : Nat → EStateM Error Tally (List Value)
  | 0 => return []
  | len + 1 => do
    let first ← item
    return first :: (← items item len)

/-- The loop of `decoder::read_map_body`, counted. -/
def pairs (item : EStateM Error Tally Value) : Nat → EStateM Error Tally (List (Value × Value))
  | 0 => return []
  | len + 1 => do
    let key ← item
    let value ← item
    return (key, value) :: (← pairs item len)

/-- The body a shape announces, counted. -/
def body (item : EStateM Error Tally Value) : Shape → EStateM Error Tally Value
  | .leaf read => onCursor read
  | .array len => do return .array (← items item (← onCursor len))
  | .map len => do return .map (← pairs item (← onCursor len))

/-- `decoder::read_value_from`, each value counted once it is whole. -/
def readWithin : Nat → EStateM Error Tally Value
  | 0 => throw (.malformed "nesting exceeds maximum depth")
  | levels + 1 => do
    onCursor spend
    let marker ← onCursor readMarker
    let value ← body (readWithin levels) (shapeOf marker)
    modify fun tally => { tally with built := tally.built + 1 }
    return value

/-- `decoder::read_value_from` at `depth`, counted. -/
def readValueFrom (depth : Nat) : EStateM Error Tally Value :=
  readWithin (maxNestingDepth + 1 - depth)

/-- A result with the count left out. -/
def forget : EStateM.Result Error Tally α → EStateM.Result Error Cursor α
  | .ok a tally => .ok a tally.cursor
  | .error e tally => .error e tally.cursor

/-- Where a counted decode stopped, answered or refused. -/
def last : EStateM.Result Error Tally α → Tally
  | .ok _ tally => tally
  | .error _ tally => tally

/-- A counted reader reads as `read` does. -/
def Counts (counted : EStateM Error Tally α) (read : Reader α) : Prop :=
  ∀ tally, forget (counted tally) = read tally.cursor

namespace Counts

theorem onCursor (read : Reader α) : Counts (onCursor read) read := by
  intro tally
  unfold Tally.onCursor
  cases read tally.cursor with
  | ok a after => rfl
  | error e after => rfl

theorem pure (a : α) : Counts (pure a) (pure a) := fun _ => rfl

theorem bind {counted : EStateM Error Tally α} {first : Reader α}
    {onward : α → EStateM Error Tally β} {next : α → Reader β} (start : Counts counted first)
    (goes : ∀ a, Counts (onward a) (next a)) : Counts (counted >>= onward) (first >>= next) := by
  intro tally
  have begun := start tally
  show forget (EStateM.bind counted onward tally) = EStateM.bind first next tally.cursor
  unfold EStateM.bind
  rw [← begun]
  cases counted tally with
  | ok a after => exact goes a after
  | error e after => rfl

variable {counted : EStateM Error Tally Value} {item : Reader Value}

theorem items (same : Counts counted item) (len : Nat) :
    Counts (items counted len) (readItems item len) := by
  induction len with
  | zero => exact Counts.pure []
  | succ len ih => exact same.bind fun _ => ih.bind fun _ => Counts.pure _

theorem pairs (same : Counts counted item) (len : Nat) :
    Counts (pairs counted len) (readPairs item len) := by
  induction len with
  | zero => exact Counts.pure []
  | succ len ih => exact same.bind fun _ => same.bind fun _ => ih.bind fun _ => Counts.pure _

theorem body (same : Counts counted item) (shape : Shape) :
    Counts (body counted shape) (shape.read item) := by
  cases shape with
  | leaf read => exact Counts.onCursor read
  | array len =>
    exact (Counts.onCursor len).bind fun number => (same.items number).bind fun _ => Counts.pure _
  | map len =>
    exact (Counts.onCursor len).bind fun number => (same.pairs number).bind fun _ => Counts.pure _

/-- The counted decode is the decode. -/
theorem readWithin (levels : Nat) : Counts (readWithin levels) (Decoder.readWithin levels) := by
  induction levels with
  | zero => exact fun _ => rfl
  | succ levels ih =>
    apply (Counts.onCursor spend).bind
    intro _
    apply (Counts.onCursor readMarker).bind
    intro marker
    rw [readBody_shape]
    intro tally
    rw [← ih.body (shapeOf marker) tally]
    show forget (EStateM.bind (Tally.body _ _) _ tally) = _
    unfold EStateM.bind
    cases Tally.body (Tally.readWithin levels) (shapeOf marker) tally with
    | ok value after => rfl
    | error e after => rfl

end Counts

/-- The values built and those that may still be read are no more than `allowed`. -/
def Within (allowed : Nat) (tally : Tally) : Prop :=
  ∃ left, tally.cursor.budget = some left ∧ tally.built + left ≤ allowed

/-- More may be allowed. -/
theorem Within.mono {allowed more : Nat} {tally : Tally} (within : Within allowed tally)
    (fewer : allowed ≤ more) : Within more tally := by
  obtain ⟨left, budget, fits⟩ := within
  exact ⟨left, budget, fits.trans fewer⟩

/-- A step that spends nothing keeps within what is allowed. -/
theorem keeps_onCursor (allowed : Nat) {read : Reader α} (free : Free read) :
    Keeps (Within allowed) (onCursor read) fun _ => True := by
  intro tally within
  have given := free tally.cursor.bytes tally.cursor.budget
  unfold Ends onCursor
  rw [show tally.cursor = ⟨tally.cursor.bytes, tally.cursor.budget⟩ from rfl, given]
  cases read ⟨tally.cursor.bytes, none⟩ with
  | ok a after => exact ⟨within, trivial⟩
  | error e after => exact within

/-- Starting a value takes one of those allowed, or is refused with none left. -/
theorem ends_spend {allowed : Nat} {tally : Tally} (within : Within allowed tally) :
    Ends (onCursor spend) tally (fun _ after => 1 ≤ allowed ∧ Within (allowed - 1) after)
      fun _ after => Within allowed after := by
  obtain ⟨⟨bytes, budget⟩, built⟩ := tally
  obtain ⟨left, given, fits⟩ := within
  dsimp only at given fits
  subst given
  cases left with
  | zero => exact ⟨0, rfl, fits⟩
  | succ left => exact ⟨by omega, left, rfl, by dsimp only; omega⟩

section Bodies

variable {item : EStateM Error Tally Value} {allowed : Nat}
  (kept : Keeps (Within allowed) item fun _ => True)

include kept

theorem keeps_items (len : Nat) : Keeps (Within allowed) (items item len) fun _ => True := by
  induction len with
  | zero => exact Keeps.pure trivial
  | succ len ih => exact kept.bind fun _ _ => ih.bind fun _ _ => Keeps.pure trivial

theorem keeps_pairs (len : Nat) : Keeps (Within allowed) (pairs item len) fun _ => True := by
  induction len with
  | zero => exact Keeps.pure trivial
  | succ len ih =>
    exact kept.bind fun _ _ => kept.bind fun _ _ => ih.bind fun _ _ => Keeps.pure trivial

theorem keeps_body (marker : Marker) :
    Keeps (Within allowed) (body item (shapeOf marker)) fun _ => True := by
  cases shape : shapeOf marker with
  | leaf read => exact keeps_onCursor allowed (free_leaf shape)
  | array len =>
    exact (keeps_onCursor allowed (free_array shape)).bind fun number _ =>
      (keeps_items kept number).bind fun _ _ => Keeps.pure trivial
  | map len =>
    exact (keeps_onCursor allowed (free_map shape)).bind fun number _ =>
      (keeps_pairs kept number).bind fun _ _ => Keeps.pure trivial

end Bodies

/-- A counted decode keeps within what it was allowed, wherever it stops. -/
theorem keeps_readWithin (levels allowed : Nat) :
    Keeps (Within allowed) (readWithin levels) fun _ => True := by
  induction levels generalizing allowed with
  | zero => exact Keeps.throw
  | succ levels ih =>
    intro tally within
    apply (ends_spend within).bind
    rintro _ started ⟨some, spent⟩
    have fewer : ∀ after, Within (allowed - 1) after → Within allowed after :=
      fun after fits => fits.mono (Nat.sub_le allowed 1)
    apply ((keeps_onCursor (allowed - 1) free_readMarker) started spent).mono
      (fun _ _ read => read) (fun _ after => fewer after) |>.bind
    rintro marker read ⟨marked, -⟩
    apply ((keeps_body (ih (allowed - 1)) marker) read marked).mono
      (fun _ _ held => held) (fun _ after => fewer after) |>.bind
    rintro value whole ⟨⟨left, budget, fits⟩, -⟩
    apply (Ends.modify ⟨left, budget, ?_⟩ : Ends _ whole (fun _ => Within allowed) _).bind
    · intro _ counted kept
      exact Ends.pure ⟨kept, trivial⟩
    · dsimp only
      omega

end Tally

/-! ## The budget as a whole -/

/-- No value is read off no bytes. -/
theorem readValueFrom_nil (budget : Option Nat) : Refuses (readValueFrom 0) ⟨[], budget⟩ := by
  cases budget with
  | none => exact ⟨_, _, rfl⟩
  | some left =>
    cases left with
    | zero => exact ⟨_, _, rfl⟩
    | succ left => exact ⟨_, _, rfl⟩

/-- The sole value of an input is one read from its start that leaves nothing. -/
theorem readSoleValue_ok (bytes : List UInt8) (budget : Option Nat) (value : Value) :
    ((new bytes).withValueBudget budget).readSoleValue.1 = .ok value ↔
      ∃ left, readValueFrom 0 ⟨bytes, budget⟩ = .ok value ⟨[], left⟩ := by
  cases answered : readValueFrom 0 ⟨bytes, budget⟩ with
  | error e after => simp [readSoleValue, readValue, new, withValueBudget, answered]
  | ok found after =>
    have held : bytes ≠ [] := by
      rintro rfl
      obtain ⟨e, refused, failed⟩ := readValueFrom_nil budget
      rw [failed] at answered
      cases answered
    have positive : 0 < bytes.length := List.length_pos_iff.mpr held
    have ended : bytes.length ≤ bytes.length - after.bytes.length ↔ after.bytes = [] := by
      rw [← List.length_eq_zero_iff]
      omega
    obtain ⟨rest, left⟩ := after
    dsimp only at ended
    by_cases whole : rest = []
    · simp [readSoleValue, readValue, new, withValueBudget, answered, isAtEnd, whole]
    · simp [readSoleValue, readValue, new, withValueBudget, answered, isAtEnd, ended, whole]

/-- A budget refuses exactly the inputs whose value holds more than it allows. -/
theorem readSoleValue_within (bytes : List UInt8) (n : Nat) (value : Value) :
    ((new bytes).withValueBudget (some n)).readSoleValue.1 = .ok value ↔
      (new bytes).readSoleValue.1 = .ok value ∧ value.count ≤ n := by
  have plain := readSoleValue_ok bytes none value
  have spent := spends_readWithin (maxNestingDepth + 1) 0 bytes n
  rw [readSoleValue_ok]
  rw [show (new bytes).withValueBudget none = new bytes from rfl] at plain
  rw [plain]
  unfold readValueFrom
  rw [Nat.sub_zero]
  cases answered : readWithin (maxNestingDepth + 1) ⟨bytes, none⟩ with
  | error e after =>
    rw [answered] at spent
    obtain ⟨e', after', refused⟩ := spent
    simp [refused]
  | ok found after =>
    rw [answered] at spent
    obtain ⟨bare, -, within, overspent⟩ := spent
    simp only [Nat.zero_add] at within overspent
    obtain ⟨rest, budget⟩ := after
    dsimp only at bare within
    by_cases fits : found.count ≤ n
    · rw [within fits]
      simp only [EStateM.Result.ok.injEq, Cursor.mk.injEq]
      constructor
      · rintro ⟨left, same, whole, -⟩
        exact ⟨⟨budget, same, whole, rfl⟩, same ▸ fits⟩
      · rintro ⟨⟨left, same, whole, -⟩, -⟩
        exact ⟨_, same, whole, rfl⟩
    · obtain ⟨e', after', refused⟩ := overspent (by omega)
      simp only [refused, EStateM.Result.ok.injEq, reduceCtorEq, exists_false, false_iff]
      rintro ⟨⟨left, same, -⟩, few⟩
      exact fits (same ▸ few)

/-- A budget refuses exactly the inputs whose value holds more than it allows, changes no other
answer, and bounds what the decode builds on any input at all. -/
theorem readSoleValue_withValueBudget (bytes : List UInt8) (n : Nat) :
    (∀ value, ((new bytes).withValueBudget (some n)).readSoleValue.1 = .ok value ↔
        (new bytes).readSoleValue.1 = .ok value ∧ value.count ≤ n) ∧
      Tally.forget (Tally.readValueFrom 0 ⟨⟨bytes, some n⟩, 0⟩) =
        readValueFrom 0 ⟨bytes, some n⟩ ∧
      (Tally.last (Tally.readValueFrom 0 ⟨⟨bytes, some n⟩, 0⟩)).built ≤ n := by
  refine ⟨readSoleValue_within bytes n, Tally.Counts.readWithin _ _, ?_⟩
  · have start : Tally.Within n ⟨⟨bytes, some n⟩, 0⟩ := ⟨n, rfl, by dsimp only; omega⟩
    have ended := Tally.keeps_readWithin (maxNestingDepth + 1 - 0) n _ start
    unfold Ends at ended
    unfold Tally.readValueFrom
    cases answered : Tally.readWithin (maxNestingDepth + 1 - 0) ⟨⟨bytes, some n⟩, 0⟩ with
    | ok value last =>
      rw [answered] at ended
      obtain ⟨⟨left, -, fits⟩, -⟩ := ended
      show last.built ≤ n
      omega
    | error e last =>
      rw [answered] at ended
      obtain ⟨left, -, fits⟩ := ended
      show last.built ≤ n
      omega

end Decoder

end Kobako.Codec
