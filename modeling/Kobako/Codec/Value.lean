import Mathlib.Data.List.Basic

/-!
# Codec values

The eleven types the payload codec carries, the errors it answers, and the limits of the wire. A
position of a value is the value itself or anything nested in it, with its depth below the root;
what the wire can carry, and what the encoder checks of it, are conditions on every position.
-/

namespace Kobako.Codec

/-- `codec::MAX_NESTING_DEPTH`. -/
def maxNestingDepth : Nat := 128

/-- `codec::MAX_HANDLE_ID`: ids are positive in the `i32` range. -/
def maxHandleId : UInt32 := 0x7fffffff

/-- `codec::EXT_SYMBOL`, the ext type byte of a Symbol. -/
def extSymbol : UInt8 := 0x00

/-- `codec::EXT_HANDLE`, the ext type byte of a Capability Handle. -/
def extHandle : UInt8 := 0x01

/-- `u32::MAX`, the longest length any frame spells. -/
def u32Max : Nat := 0xffffffff

/-- `i64::MAX` as the decoder compares a `u64` with it. -/
def i64Max : UInt64 := 0x7fffffffffffffff

/-- `codec::Error`, with the messages its `Malformed` arms carry. -/
inductive Error where
  | truncated
  | invalidType
  | utf8
  | invalidHandle
  | payloadTooLarge
  | malformed (message : String)
deriving Repr, DecidableEq

/-- `codec::Value`. A float is its bits, so a NaN keeps its payload and a zero its sign. -/
inductive Value where
  | nil
  | bool (b : Bool)
  | int (n : Int64)
  | uint (n : UInt64)
  | float (bits : UInt64)
  | str (s : String)
  | bin (bytes : List UInt8)
  | array (items : List Value)
  | map (pairs : List (Value × Value))
  | sym (name : String)
  | handle (id : UInt32)
deriving Repr

namespace Value

mutual

/-- Every position of a value standing at `depth`, with the depth it stands at. -/
def positions (depth : Nat) : Value → List (Nat × Value)
  | array items => (depth, array items) :: itemPositions (depth + 1) items
  | map pairs => (depth, map pairs) :: pairPositions (depth + 1) pairs
  | leaf => [(depth, leaf)]

/-- The positions of a list of values, each standing at `depth`. -/
def itemPositions (depth : Nat) : List Value → List (Nat × Value)
  | [] => []
  | item :: items => positions depth item ++ itemPositions depth items

/-- The positions of a list of pairs, each key and value standing at `depth`. -/
def pairPositions (depth : Nat) : List (Value × Value) → List (Nat × Value)
  | [] => []
  | (key, value) :: pairs =>
    positions depth key ++ positions depth value ++ pairPositions depth pairs

end

/-- The length of a `Str` or a `Bin`, the two the encoder hands `rmp` unchecked, fits a frame. -/
def TextFits : Value → Prop
  | str s => s.utf8ByteSize ≤ u32Max
  | bin bytes => bytes.length ≤ u32Max
  | _ => True

/-- The limits the encoder checks of one value: a counted length fits a frame, an id is in range. -/
def CountFits : Value → Prop
  | array items => items.length ≤ u32Max
  | map pairs => pairs.length ≤ u32Max
  | sym name => name.utf8ByteSize ≤ u32Max
  | handle id => 1 ≤ id ∧ id ≤ maxHandleId
  | _ => True

/-- Every `Str` and `Bin` of a value is at most `u32::MAX` bytes long. -/
def Texts (value : Value) : Prop := ∀ position ∈ value.positions 0, position.2.TextFits

/-- The limits the encoder checks, kept by every position of a list. -/
def Checked (positions : List (Nat × Value)) : Prop :=
  ∀ position ∈ positions, position.1 ≤ maxNestingDepth ∧ position.2.CountFits

@[simp] theorem checked_nil : Checked [] := by simp [Checked]

@[simp] theorem checked_cons (position : Nat × Value) (positions : List (Nat × Value)) :
    Checked (position :: positions) ↔
      (position.1 ≤ maxNestingDepth ∧ position.2.CountFits) ∧ Checked positions := by
  simp [Checked]

@[simp] theorem checked_append (front back : List (Nat × Value)) :
    Checked (front ++ back) ↔ Checked front ∧ Checked back :=
  List.forall_mem_append

/-- A value, standing at `depth`, keeps every other limit of the wire: nesting, ids, and the
counts of its arrays, maps and symbols. -/
def CheckedAt (depth : Nat) (value : Value) : Prop :=
  Checked (value.positions depth)

/-- Every position of a list is within what the wire can carry. -/
def Carried (positions : List (Nat × Value)) : Prop :=
  ∀ position ∈ positions,
    position.1 ≤ maxNestingDepth ∧ position.2.CountFits ∧ position.2.TextFits

/-- What the wire can carry: no position nested deeper than `maxNestingDepth`, every Handle id in
range, and every length at most `u32::MAX`. -/
def Carries (value : Value) : Prop := Carried (value.positions 0)

theorem carries_iff (value : Value) : value.Carries ↔ value.CheckedAt 0 ∧ value.Texts := by
  constructor
  · intro carries
    exact ⟨fun position found => ⟨(carries position found).1, (carries position found).2.1⟩,
      fun position found => (carries position found).2.2⟩
  · rintro ⟨checked, texts⟩ position found
    exact ⟨(checked position found).1, (checked position found).2, texts position found⟩

mutual

/-- The value the decoder answers for an encoded one: a `UInt` in the `i64` range reads back as an
`Int`, and nothing else changes. -/
def norm : Value → Value
  | uint n => if n ≤ i64Max then int n.toInt64 else uint n
  | array items => array (normItems items)
  | map pairs => map (normPairs pairs)
  | leaf => leaf

/-- `norm` of every element. -/
def normItems : List Value → List Value
  | [] => []
  | item :: items => norm item :: normItems items

/-- `norm` of every key and value. -/
def normPairs : List (Value × Value) → List (Value × Value)
  | [] => []
  | (key, value) :: pairs => (norm key, norm value) :: normPairs pairs

end

end Value

end Kobako.Codec
