import Kobako.Bytes
import Kobako.Codec.Value

/-!
# MessagePack frames

The marker bytes, and the narrowest-frame writers and fixed-width readers the codec reaches
through `rmp`. Writing into a byte vector never fails, so a writer here is the bytes it appends.
A reader is handed the bytes left and how many more values may be read; both stand as the last
step left them when one fails.
-/

namespace Kobako.Codec

open Kobako.Bytes

/-- `rmp::Marker`. The counts a marker byte carries itself are bounded by its type; `fixNeg n`
stands for the value `n - 32`. -/
inductive Marker where
  | fixPos (n : Fin 128)
  | fixNeg (n : Fin 32)
  | fixMap (len : Fin 16)
  | fixArray (len : Fin 16)
  | fixStr (len : Fin 32)
  | null | reserved | ff | tt
  | bin8 | bin16 | bin32
  | ext8 | ext16 | ext32
  | f32 | f64
  | u8 | u16 | u32 | u64
  | i8 | i16 | i32 | i64
  | fixExt1 | fixExt2 | fixExt4 | fixExt8 | fixExt16
  | str8 | str16 | str32
  | array16 | array32
  | map16 | map32
deriving Repr, DecidableEq

namespace Marker

/-- The byte a marker is written as. -/
def toU8 : Marker → UInt8
  | fixPos n => UInt8.ofNat n
  | fixMap len => UInt8.ofNat (0x80 + len)
  | fixArray len => UInt8.ofNat (0x90 + len)
  | fixStr len => UInt8.ofNat (0xa0 + len)
  | null => 0xc0 | reserved => 0xc1 | ff => 0xc2 | tt => 0xc3
  | bin8 => 0xc4 | bin16 => 0xc5 | bin32 => 0xc6
  | ext8 => 0xc7 | ext16 => 0xc8 | ext32 => 0xc9
  | f32 => 0xca | f64 => 0xcb
  | u8 => 0xcc | u16 => 0xcd | u32 => 0xce | u64 => 0xcf
  | i8 => 0xd0 | i16 => 0xd1 | i32 => 0xd2 | i64 => 0xd3
  | fixExt1 => 0xd4 | fixExt2 => 0xd5 | fixExt4 => 0xd6 | fixExt8 => 0xd7 | fixExt16 => 0xd8
  | str8 => 0xd9 | str16 => 0xda | str32 => 0xdb
  | array16 => 0xdc | array32 => 0xdd
  | map16 => 0xde | map32 => 0xdf
  | fixNeg n => UInt8.ofNat (0xe0 + n)

/-- The marker a byte is read as: every byte is one, `0xc1` the one MessagePack never assigns. -/
def fromU8 (byte : UInt8) : Marker :=
  let n := byte.toNat
  if pos : n < 0x80 then fixPos ⟨n, pos⟩
  else if n < 0x90 then fixMap (Fin.ofNat 16 n)
  else if n < 0xa0 then fixArray (Fin.ofNat 16 n)
  else if n < 0xc0 then fixStr (Fin.ofNat 32 n)
  else if 0xe0 ≤ n then fixNeg (Fin.ofNat 32 n)
  else match n - 0xc0 with
    | 0 => null | 1 => reserved | 2 => ff | 3 => tt
    | 4 => bin8 | 5 => bin16 | 6 => bin32
    | 7 => ext8 | 8 => ext16 | 9 => ext32
    | 10 => f32 | 11 => f64
    | 12 => u8 | 13 => u16 | 14 => u32 | 15 => u64
    | 16 => i8 | 17 => i16 | 18 => i32 | 19 => i64
    | 20 => fixExt1 | 21 => fixExt2 | 22 => fixExt4 | 23 => fixExt8 | 24 => fixExt16
    | 25 => str8 | 26 => str16 | 27 => str32
    | 28 => array16 | 29 => array32
    | 30 => map16 | _ => map32

/-- Every marker is read back from its own byte. -/
@[simp] theorem fromU8_toU8 (marker : Marker) : fromU8 marker.toU8 = marker := by
  cases marker with
  | fixPos n => revert n; decide
  | fixNeg n => revert n; decide
  | fixMap len => revert len; decide
  | fixArray len => revert len; decide
  | fixStr len => revert len; decide
  | _ => rfl

end Marker

/-! ## Writers -/

/-- `rmp::encode::write_nil`. -/
def writeNil : List UInt8 := [Marker.null.toU8]

/-- `rmp::encode::write_bool`. -/
def writeBool (b : Bool) : List UInt8 := [if b then Marker.tt.toU8 else Marker.ff.toU8]

/-- `rmp::encode::write_uint`: the narrowest frame an unsigned value fits. -/
def writeUint (value : Nat) : List UInt8 :=
  if small : value < 128 then [(Marker.fixPos ⟨value, small⟩).toU8]
  else if value < 256 then Marker.u8.toU8 :: toBe 1 value
  else if value < 65536 then Marker.u16.toU8 :: toBe 2 value
  else if value < 4294967296 then Marker.u32.toU8 :: toBe 4 value
  else Marker.u64.toU8 :: toBe 8 value

/-- `rmp::encode::write_sint`: the narrowest frame a signed value fits, an unsigned one for a
value that is not negative. -/
def writeSint (value : Int64) : List UInt8 :=
  let n := value.toInt
  if 0 ≤ n then writeUint n.toNat
  else if -32 ≤ n then [(Marker.fixNeg (Fin.ofNat 32 (n + 32).toNat)).toU8]
  else if -128 ≤ n then Marker.i8.toU8 :: toBe 1 (ofSigned 1 n)
  else if -32768 ≤ n then Marker.i16.toU8 :: toBe 2 (ofSigned 2 n)
  else if -2147483648 ≤ n then Marker.i32.toU8 :: toBe 4 (ofSigned 4 n)
  else Marker.i64.toU8 :: toBe 8 (ofSigned 8 n)

/-- `rmp::encode::write_f64`. -/
def writeF64 (bits : UInt64) : List UInt8 := Marker.f64.toU8 :: toBe 8 bits.toNat

/-- `rmp::encode::write_str_len`. -/
def writeStrLen (len : Nat) : List UInt8 :=
  if short : len < 32 then [(Marker.fixStr ⟨len, short⟩).toU8]
  else if len < 256 then Marker.str8.toU8 :: toBe 1 len
  else if len < 65536 then Marker.str16.toU8 :: toBe 2 len
  else Marker.str32.toU8 :: toBe 4 len

/-- `rmp::encode::write_bin_len`. -/
def writeBinLen (len : Nat) : List UInt8 :=
  if len < 256 then Marker.bin8.toU8 :: toBe 1 len
  else if len < 65536 then Marker.bin16.toU8 :: toBe 2 len
  else Marker.bin32.toU8 :: toBe 4 len

/-- `rmp::encode::write_array_len`. -/
def writeArrayLen (len : Nat) : List UInt8 :=
  if short : len < 16 then [(Marker.fixArray ⟨len, short⟩).toU8]
  else if len < 65536 then Marker.array16.toU8 :: toBe 2 len
  else Marker.array32.toU8 :: toBe 4 len

/-- `rmp::encode::write_map_len`. -/
def writeMapLen (len : Nat) : List UInt8 :=
  if short : len < 16 then [(Marker.fixMap ⟨len, short⟩).toU8]
  else if len < 65536 then Marker.map16.toU8 :: toBe 2 len
  else Marker.map32.toU8 :: toBe 4 len

/-- `rmp::encode::write_ext_meta`: the frame of an ext of `len` bytes, then its type. -/
def writeExtMeta (len : Nat) (ty : UInt8) : List UInt8 :=
  (if len = 1 then [Marker.fixExt1.toU8]
  else if len = 2 then [Marker.fixExt2.toU8]
  else if len = 4 then [Marker.fixExt4.toU8]
  else if len = 8 then [Marker.fixExt8.toU8]
  else if len = 16 then [Marker.fixExt16.toU8]
  else if len < 256 then Marker.ext8.toU8 :: toBe 1 len
  else if len < 65536 then Marker.ext16.toU8 :: toBe 2 len
  else Marker.ext32.toU8 :: toBe 4 len) ++ [ty]

/-- A `usize` cast to `u32`, which drops the bits above the low 32. -/
def asU32 (len : Nat) : Nat := len % 2 ^ 32

/-- `str::as_bytes`. -/
def strBytes (s : String) : List UInt8 := s.toByteArray.data.toList

@[simp] theorem length_strBytes (s : String) : (strBytes s).length = s.utf8ByteSize := rfl

/-- A text's own bytes are read back as it. -/
theorem fromUTF8?_strBytes (s : String) : String.fromUTF8? ⟨(strBytes s).toArray⟩ = some s := by
  have array : (⟨(strBytes s).toArray⟩ : ByteArray) = s.toByteArray := by
    rw [strBytes, Array.toArray_toList]
  rw [array, String.fromUTF8?, dif_pos s.isValidUTF8]
  rfl

/-- Bytes read as a text are the text's own. -/
theorem strBytes_of_fromUTF8? {bytes : List UInt8} {s : String}
    (read : String.fromUTF8? ⟨bytes.toArray⟩ = some s) : strBytes s = bytes := by
  unfold String.fromUTF8? at read
  split at read
  · cases read
    rfl
  · cases read

/-- `rmp::encode::write_str`: the length cast to a `u32`, then every byte. -/
def writeStr (s : String) : List UInt8 :=
  writeStrLen (asU32 s.utf8ByteSize) ++ strBytes s

/-- `rmp::encode::write_bin`: the length cast to a `u32`, then every byte. -/
def writeBin (bytes : List UInt8) : List UInt8 := writeBinLen (asU32 bytes.length) ++ bytes

/-! ## Readers -/

/-- What a decode has left: the bytes, and how many more values it may read. -/
structure Cursor where
  /-- The bytes not read yet. -/
  bytes : List UInt8
  /-- The values it may still read, without bound for `none`. -/
  budget : Option Nat
deriving Repr, DecidableEq

/-- A step of a decode. -/
abbrev Reader := EStateM Error Cursor

/-- `rmp::decode::read_marker`, a missing byte answered as truncated. -/
def readMarker : Reader Marker := do
  let cursor ← get
  match cursor.bytes with
  | [] => throw .truncated
  | byte :: rest =>
    set { cursor with bytes := rest }
    return .fromU8 byte

/-- `decoder::take`. -/
def take (n : Nat) : Reader (List UInt8) := do
  let cursor ← get
  if cursor.bytes.length < n then throw .truncated
  set { cursor with bytes := cursor.bytes.drop n }
  return cursor.bytes.take n

/-- `rmp`'s `read_data_u8`, `u16`, `u32` and `u64`: a big-endian word of `width` bytes, truncated
input answered as the codec maps it. -/
def readData (width : Nat) : Reader Nat := do
  return ofBe (← take width)

/-- `rmp`'s `read_data_i8`, `i16`, `i32` and `i64`. -/
def readSigned (width : Nat) : Reader Int := do
  return toSigned width (← readData width)

/-- Bytes are taken off the front, or none when too few are left. -/
theorem take_eq (n : Nat) (bytes : List UInt8) (budget : Option Nat) :
    take n ⟨bytes, budget⟩ =
      if bytes.length < n then .error .truncated ⟨bytes, budget⟩
      else .ok (bytes.take n) ⟨bytes.drop n, budget⟩ := by
  let onward : Unit → Reader (List UInt8) := fun _ => do
    set (⟨bytes.drop n, budget⟩ : Cursor)
    return bytes.take n
  show (if bytes.length < n then (do throw Error.truncated; onward ()) else onward () :
    Reader (List UInt8)) ⟨bytes, budget⟩ = _
  split
  · rfl
  · rfl

section Reads

variable (rest : List UInt8) (budget : Option Nat)

/-- A marker is read off its own byte. -/
@[simp] theorem readMarker_toU8 (marker : Marker) :
    readMarker ⟨marker.toU8 :: rest, budget⟩ = .ok marker ⟨rest, budget⟩ := by
  change EStateM.Result.ok (Marker.fromU8 marker.toU8) _ = _
  rw [Marker.fromU8_toU8]

/-- Exactly the bytes asked for are taken. -/
theorem take_append {bytes : List UInt8} {n : Nat} (length : bytes.length = n) :
    take n ⟨bytes ++ rest, budget⟩ = .ok bytes ⟨rest, budget⟩ := by
  have enough : ¬(bytes ++ rest).length < n := by
    rw [List.length_append]
    omega
  rw [take_eq, if_neg enough, List.take_left' length, List.drop_left' length]

/-- A word in range is read back as itself. -/
theorem readData_toBe (width value : Nat) (inRange : value < 256 ^ width) :
    readData width ⟨toBe width value ++ rest, budget⟩ = .ok value ⟨rest, budget⟩ := by
  simp only [readData, bind, EStateM.bind, take_append rest budget (length_toBe width value),
    ofBe_toBe width value inRange]
  rfl

/-- A signed word in range is read back as itself. -/
theorem readSigned_toBe (width : Nat) (value : Int)
    (above : -((256 ^ width : Nat) : Int) ≤ 2 * value) (below : 2 * value < (256 ^ width : Nat)) :
    readSigned width ⟨toBe width (ofSigned width value) ++ rest, budget⟩ =
      .ok value ⟨rest, budget⟩ := by
  simp only [readSigned, bind, EStateM.bind,
    readData_toBe rest budget width _ (ofSigned_lt width value),
    toSigned_ofSigned width value above below]
  rfl

end Reads

end Kobako.Codec
