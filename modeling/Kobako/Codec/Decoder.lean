import Kobako.Codec.Encoder

/-!
# The decoder

`Decoder`: wire bytes back to a value tree. A value is read off a cursor with the nesting it may
still take and the values it may still spend; a frame's body is read by a reader of what it
holds, so each marker is one case. The decoder's own position moves only when a whole value was
read, while the budget stays spent.
-/

namespace Kobako.Codec

open Kobako.Bytes

namespace Decoder

/-- `f32 as f64` on bits: the value is kept, a subnormal normalised, and a NaN quieted with its
payload moved up. -/
def f32AsF64 (bits : Nat) : UInt64 :=
  let sign := bits / 2 ^ 31 % 2
  let exponent := bits / 2 ^ 23 % 2 ^ 8
  let mantissa := bits % 2 ^ 23
  let magnitude : Nat :=
    if exponent = 255 then
      2047 * 2 ^ 52 + (if mantissa = 0 then 0 else 2 ^ 51 ||| mantissa * 2 ^ 29)
    else if exponent = 0 then
      if mantissa = 0 then 0
      else (874 + mantissa.log2) * 2 ^ 52 +
        (mantissa - 2 ^ mantissa.log2) * 2 ^ (52 - mantissa.log2)
    else (exponent + 896) * 2 ^ 52 + mantissa * 2 ^ 29
  UInt64.ofNat (sign * 2 ^ 63 + magnitude)

/-- One value off the budget, when there is one. -/
def spend : Reader Unit := do
  let cursor ← get
  match cursor.budget with
  | none => return ()
  | some 0 => throw (.malformed "payload holds more values than its budget")
  | some (left + 1) => set { cursor with budget := some left }

/-- `String::from_utf8`. -/
def fromUtf8 (bytes : List UInt8) : Reader String :=
  match String.fromUTF8? ⟨bytes.toArray⟩ with
  | some s => return s
  | none => throw .utf8

/-- `decoder::read_str_body`. -/
def readStrBody (len : Nat) : Reader Value := do
  return .str (← fromUtf8 (← take len))

/-- `decoder::read_bin_body`. -/
def readBinBody (len : Nat) : Reader Value := do
  return .bin (← take len)

/-- The loop of `decoder::read_array_body`, `item` reading one element. -/
def readItems (item : Reader Value) : Nat → Reader (List Value)
  | 0 => return []
  | len + 1 => do
    let first ← item
    return first :: (← readItems item len)

/-- `decoder::read_array_body`. -/
def readArrayBody (item : Reader Value) (len : Nat) : Reader Value := do
  return .array (← readItems item len)

/-- The loop of `decoder::read_map_body`, `item` reading one key or value. -/
def readPairs (item : Reader Value) : Nat → Reader (List (Value × Value))
  | 0 => return []
  | len + 1 => do
    let key ← item
    let value ← item
    return (key, value) :: (← readPairs item len)

/-- `decoder::read_map_body`. -/
def readMapBody (item : Reader Value) (len : Nat) : Reader Value := do
  return .map (← readPairs item len)

/-- `decoder::read_ext`. -/
def readExt (len : Nat) : Reader Value := do
  let cursor ← get
  match cursor.bytes with
  | [] => throw .truncated
  | ty :: rest =>
    set { cursor with bytes := rest }
    if ty = extSymbol then
      return .sym (← fromUtf8 (← take len))
    else if ty = extHandle then
      if len ≠ 4 then throw .invalidHandle
      else do
        let id := UInt32.ofNat (ofBe (← take 4))
        if id = 0 ∨ id > maxHandleId then throw .invalidHandle else return .handle id
    else throw .invalidType

/-- The `match` of `decoder::read_value_from` on the marker, `item` reading a nested value. -/
def readBody (item : Reader Value) : Marker → Reader Value
  | .null => return .nil
  | .tt => return .bool true
  | .ff => return .bool false
  | .fixPos n => return .int (Int64.ofNat n)
  | .fixNeg n => return .int (Int64.ofInt ((n : Int) - 32))
  | .u8 => return .int (Int64.ofNat (← readData 1))
  | .u16 => return .int (Int64.ofNat (← readData 2))
  | .u32 => return .int (Int64.ofNat (← readData 4))
  | .u64 => do
    let n := UInt64.ofNat (← readData 8)
    if n ≤ i64Max then return .int n.toInt64 else return .uint n
  | .i8 => return .int (Int64.ofInt (← readSigned 1))
  | .i16 => return .int (Int64.ofInt (← readSigned 2))
  | .i32 => return .int (Int64.ofInt (← readSigned 4))
  | .i64 => return .int (Int64.ofInt (← readSigned 8))
  | .f32 => return .float (f32AsF64 (← readData 4))
  | .f64 => return .float (UInt64.ofNat (← readData 8))
  | .fixStr len => readStrBody len
  | .str8 => do readStrBody (← readData 1)
  | .str16 => do readStrBody (← readData 2)
  | .str32 => do readStrBody (← readData 4)
  | .bin8 => do readBinBody (← readData 1)
  | .bin16 => do readBinBody (← readData 2)
  | .bin32 => do readBinBody (← readData 4)
  | .fixArray len => readArrayBody item len
  | .array16 => do readArrayBody item (← readData 2)
  | .array32 => do readArrayBody item (← readData 4)
  | .fixMap len => readMapBody item len
  | .map16 => do readMapBody item (← readData 2)
  | .map32 => do readMapBody item (← readData 4)
  | .fixExt1 => readExt 1
  | .fixExt2 => readExt 2
  | .fixExt4 => readExt 4
  | .fixExt8 => readExt 8
  | .fixExt16 => readExt 16
  | .ext8 => do readExt (← readData 1)
  | .ext16 => do readExt (← readData 2)
  | .ext32 => do readExt (← readData 4)
  | .reserved => throw .invalidType

/-- The recursion of `decoder::read_value_from` on the levels of nesting it may still take, the
first `0` the depth it refuses. -/
def readWithin : Nat → Reader Value
  | 0 => throw (.malformed "nesting exceeds maximum depth")
  | levels + 1 => do
    spend
    let marker ← readMarker
    readBody (readWithin levels) marker

/-- `decoder::read_value_from` at `depth`. -/
def readValueFrom (depth : Nat) : Reader Value := readWithin (maxNestingDepth + 1 - depth)

/-- The guard and the body of `decoder::read_value_from`, as the source writes them. -/
theorem readValueFrom_eq (depth : Nat) :
    readValueFrom depth =
      if depth > maxNestingDepth then throw (.malformed "nesting exceeds maximum depth")
      else spend >>= fun _ => readMarker >>= readBody (readValueFrom (depth + 1)) := by
  by_cases deep : depth > maxNestingDepth
  · have spent : maxNestingDepth + 1 - depth = 0 := by omega
    rw [if_pos deep, readValueFrom, spent, readWithin]
  · have left : maxNestingDepth + 1 - depth = maxNestingDepth + 1 - (depth + 1) + 1 := by omega
    rw [if_neg deep, readValueFrom, left, readWithin]
    rfl

end Decoder

/-- `Decoder`: the input, how far into it the last whole value ended, and the budget left. -/
structure Decoder where
  /-- The bytes being read. -/
  input : List UInt8
  /-- Where the next value starts. -/
  pos : Nat
  /-- The values it may still read, without bound for `none`. -/
  budget : Option Nat
deriving Repr, DecidableEq

namespace Decoder

/-- `Decoder::new`. -/
def new (input : List UInt8) : Decoder := ⟨input, 0, none⟩

/-- `Decoder::with_value_budget`. -/
def withValueBudget (decoder : Decoder) (budget : Option Nat) : Decoder :=
  { decoder with budget }

/-- `Decoder::is_at_end`. -/
def isAtEnd (decoder : Decoder) : Bool := decoder.pos ≥ decoder.input.length

/-- `Decoder::read_value`: the position is left alone when the value is refused. -/
def readValue (decoder : Decoder) : Except Error Value × Decoder :=
  match readValueFrom 0 ⟨decoder.input.drop decoder.pos, decoder.budget⟩ with
  | .ok value cursor =>
    (.ok value,
      { decoder with pos := decoder.input.length - cursor.bytes.length, budget := cursor.budget })
  | .error error cursor => (.error error, { decoder with budget := cursor.budget })

/-- `Decoder::read_sole_value`: the value must be the whole input. -/
def readSoleValue (decoder : Decoder) : Except Error Value × Decoder :=
  match decoder.readValue with
  | (.ok value, decoder) =>
    if decoder.isAtEnd then (.ok value, decoder)
    else (.error (.malformed "trailing bytes after the payload value"), decoder)
  | refused => refused

end Decoder

end Kobako.Codec
