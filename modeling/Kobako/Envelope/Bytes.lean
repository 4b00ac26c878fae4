import Kobako.Codec.Wire
import Kobako.Layout

/-!
# Envelope bytes

The byte primitives of the Envelope: big-endian words, length-prefixed byte strings, counted lists
and the trailing remainder. A reader is handed the bytes left; every read takes a whole field or
fails. A writer here is the bytes it appends.
-/

namespace Kobako.Envelope

open Kobako.Bytes
open Kobako.Codec (strBytes)

/-- `envelope::DecodeError`: a fixed reason. -/
structure DecodeError where
  /-- `DecodeError::message`. -/
  message : String
deriving Repr, DecidableEq

/-- `bytes::MALFORMED`. -/
def MALFORMED : DecodeError := ⟨"Envelope ended before its declared length"⟩

/-- `bytes::Reader`, over the bytes left. -/
abbrev Reader := Reading DecodeError UInt8

namespace Reader

/-- `Reader::read_u8`. -/
def readU8 : Reader UInt8 := fun bytes =>
  match bytes with
  | [] => .error MALFORMED bytes
  | byte :: rest => .ok byte rest

/-- As many bytes as asked for. -/
def take (n : Nat) : Reader (List UInt8) := fun bytes =>
  if bytes.length < n then .error MALFORMED bytes else .ok (bytes.take n) (bytes.drop n)

/-- `Reader::read_u32`. -/
def readU32 : Reader UInt32 := do
  return UInt32.ofNat (ofBe (← take 4))

/-- `Reader::read_bytes`. -/
def readBytes : Reader (List UInt8) := do
  let len ← readU32
  take len.toNat

/-- `str::from_utf8`, refused as the Envelope's text fields are. -/
def fromUtf8 (bytes : List UInt8) : Reader String :=
  match String.fromUTF8? ⟨bytes.toArray⟩ with
  | some s => return s
  | none => throw ⟨"Envelope text field is not valid UTF-8"⟩

/-- `Reader::read_text`. -/
def readText : Reader String := do
  fromUtf8 (← readBytes)

/-- `Reader::remaining`: the bytes left, which stay. -/
def remaining : Reader (List UInt8) := get

/-- `Reader::read_list`: a count past what the bytes left can hold is refused first. -/
def readList {α : Type} (element : Reader α) : Reader (List α) := do
  let count ← readU32
  let left ← remaining
  if count.toNat > left.length / 4 then throw MALFORMED
  else times element count.toNat

/-- `Reader::read_text_list`. -/
def readTextList : Reader (List String) := readList readText

/-- `Reader::read_bytes_list`. -/
def readBytesList : Reader (List (List UInt8)) := readList readBytes

/-- `Reader::skip_unknown_fields`. -/
def skipUnknownFields : Reader Unit := set ([] : List UInt8)

/-- `Reader::finish`. -/
def finish : Reader Unit := do
  if (← remaining).isEmpty then return ()
  else throw ⟨"Envelope carries bytes past its last field"⟩

/-- A message read from its first byte. -/
def run {α : Type} (reader : Reader α) (bytes : List UInt8) : Except DecodeError α :=
  match reader bytes with
  | .ok a _ => .ok a
  | .error e _ => .error e

end Reader

namespace Writer

/-- `Writer::u8`. -/
def u8 (byte : UInt8) : List UInt8 := [byte]

/-- `Writer::u32`. -/
def u32 (value : UInt32) : List UInt8 := toBe 4 value.toNat

/-- `Writer::bytes`: the length cast to a `u32`, then every byte. -/
def bytes (bytes : List UInt8) : List UInt8 := u32 (UInt32.ofNat bytes.length) ++ bytes

/-- A text field. -/
def text (s : String) : List UInt8 := bytes (strBytes s)

/-- `Writer::list`: the count cast to a `u32`, then every item. -/
def list (items : List (List UInt8)) : List UInt8 :=
  u32 (UInt32.ofNat items.length) ++ items.flatMap bytes

/-- A list of texts. -/
def textList (items : List String) : List UInt8 := list (items.map strBytes)

end Writer

/-! ## Fields -/

/-- A number a `u32` holds. -/
def FitsU32 (n : Nat) : Prop := n < 2 ^ 32

namespace Reader

open Writer

theorem take_append {spelled : List UInt8} {n : Nat} (length : spelled.length = n) :
    Reads (take n) spelled spelled := by
  intro rest
  subst length
  simp [take]

theorem take_exact (n : Nat) : Exact (take n) id := by
  intro input a rest answered
  unfold take at answered
  split at answered
  · cases answered
  · cases answered
    exact (List.take_append_drop n input).symm

theorem take_length {n : Nat} {input a rest : List UInt8} (answered : take n input = .ok a rest) :
    a.length = n := by
  unfold take at answered
  split at answered
  · cases answered
  · cases answered
    rw [List.length_take]
    omega

theorem readU8_reads (byte : UInt8) : Reads readU8 (u8 byte) byte := fun _ => rfl

theorem readU8_exact : Exact readU8 u8 := by
  intro input byte rest answered
  cases input with
  | nil => cases answered
  | cons first others =>
    cases answered
    rfl

theorem readU32_reads (n : UInt32) : Reads readU32 (u32 n) n := by
  have wide : n.toNat < 256 ^ 4 := n.toNat_lt
  apply (take_append (length_toBe 4 n.toNat)).map
  rw [ofBe_toBe 4 n.toNat wide, UInt32.ofNat_toNat]

theorem readU32_exact : Exact readU32 u32 := by
  intro input n rest answered
  obtain ⟨word, middle, taken, ended⟩ := bind_answered answered
  cases ended
  have length : word.length = 4 := take_length taken
  have below : ofBe word < 2 ^ 32 := by
    have bound := ofBe_lt word
    rw [length] at bound
    exact bound
  have spelled : u32 (UInt32.ofNat (ofBe word)) = word := by
    rw [u32, UInt32.toNat_ofNat_of_lt' below, ← length]
    exact toBe_ofBe word
  rw [take_exact 4 _ _ _ taken, spelled]
  rfl

/-- A byte string whose length a `u32` holds is read back. -/
theorem readBytes_reads {field : List UInt8} (fits : FitsU32 field.length) :
    Reads readBytes (bytes field) field := by
  apply (readU32_reads _).bind
  apply take_append
  rw [UInt32.toNat_ofNat_of_lt' fits]

theorem readBytes_exact : Exact readBytes bytes := by
  intro input field rest answered
  obtain ⟨len, middle, counted, taken⟩ := bind_answered answered
  have length : field.length = len.toNat := take_length taken
  rw [readU32_exact _ _ _ counted, take_exact _ _ _ _ taken, bytes, length, UInt32.ofNat_toNat,
    List.append_assoc]
  rfl

theorem fromUtf8_strBytes (s : String) : fromUtf8 (strBytes s) = pure s := by
  rw [fromUtf8, Codec.fromUTF8?_strBytes]

theorem fromUtf8_answered {field input rest : List UInt8} {s : String}
    (answered : fromUtf8 field input = .ok s rest) : strBytes s = field ∧ rest = input := by
  unfold fromUtf8 at answered
  cases read : String.fromUTF8? ⟨field.toArray⟩ with
  | none =>
    rw [read] at answered
    cases answered
  | some found =>
    rw [read] at answered
    cases answered
    exact ⟨Codec.strBytes_of_fromUTF8? read, rfl⟩

/-- A text whose length a `u32` holds is read back. -/
theorem readText_reads {s : String} (fits : FitsU32 s.utf8ByteSize) :
    Reads readText (text s) s :=
  (readBytes_reads fits).map (fromUtf8_strBytes s)

theorem readText_exact : Exact readText text := by
  intro input s rest answered
  obtain ⟨field, middle, read, ended⟩ := bind_answered answered
  obtain ⟨rfl, rfl⟩ := fromUtf8_answered ended
  exact readBytes_exact _ _ _ read

/-- A byte string takes its length's four bytes at least. -/
theorem four_le_bytes (field : List UInt8) : 4 ≤ (bytes field).length := by
  rw [bytes, u32, List.length_append, length_toBe]
  omega

/-- What is spelled in a row is as long as the shortest of it, as often as there are items. -/
theorem mul_le_length_flatMap {α : Type} {spell : α → List UInt8} {least : Nat} {items : List α}
    (each : ∀ a ∈ items, least ≤ (spell a).length) :
    least * items.length ≤ (items.flatMap spell).length := by
  induction items with
  | nil => simp
  | cons item items ih =>
    obtain ⟨first, others⟩ := List.forall_mem_cons.mp each
    have rest := ih others
    rw [List.flatMap_cons, List.length_append, List.length_cons, Nat.mul_succ]
    omega

/-- A counted list is read back: its count never passes what the bytes left can hold. -/
theorem readList_reads {α : Type} {element : Reader α} {spell : α → List UInt8} {items : List α}
    (fits : FitsU32 items.length) (each : ∀ a ∈ items, Reads element (spell a) a)
    (wide : ∀ a ∈ items, 4 ≤ (spell a).length) :
    Reads (readList element) (u32 (UInt32.ofNat items.length) ++ items.flatMap spell) items := by
  have count : (UInt32.ofNat items.length).toNat = items.length := UInt32.toNat_ofNat_of_lt' fits
  intro rest
  have enough : ¬ items.length > (items.flatMap spell ++ rest).length / 4 := by
    have bound := mul_le_length_flatMap wide
    rw [List.length_append]
    omega
  have read := Reads.times each rest
  unfold readList
  rw [List.append_assoc, bind_eq (readU32_reads _ _)]
  show (if (UInt32.ofNat items.length).toNat > _ then _ else _ : Reader (List α)) _ = _
  rw [count, if_neg enough]
  exact read

theorem readList_exact {α : Type} {element : Reader α} {spell : α → List UInt8}
    (each : Exact element spell) :
    Exact (readList element) fun items =>
      u32 (UInt32.ofNat items.length) ++ items.flatMap spell := by
  intro input items rest answered
  obtain ⟨count, middle, counted, more⟩ := bind_answered answered
  change (if count.toNat > middle.length / 4 then _ else _ : Reader (List α)) middle = _ at more
  split at more
  · cases more
  · obtain ⟨spelled, length⟩ := each.times more
    dsimp only
    rw [readU32_exact _ _ _ counted, spelled, length, UInt32.ofNat_toNat, List.append_assoc]

theorem readTextList_reads {items : List String} (fits : FitsU32 items.length)
    (each : ∀ s ∈ items, FitsU32 s.utf8ByteSize) : Reads readTextList (textList items) items := by
  have spelled : textList items = u32 (UInt32.ofNat items.length) ++ items.flatMap text := by
    rw [textList, list, List.length_map, List.flatMap_map]
    rfl
  rw [spelled]
  exact readList_reads fits (fun s member => readText_reads (each s member))
    fun s _ => four_le_bytes (strBytes s)

theorem readTextList_exact : Exact readTextList textList := by
  intro input items rest answered
  have spelled : textList items = u32 (UInt32.ofNat items.length) ++ items.flatMap text := by
    rw [textList, list, List.length_map, List.flatMap_map]
    rfl
  rw [spelled]
  exact readList_exact readText_exact _ _ _ answered

theorem readBytesList_reads {items : List (List UInt8)} (fits : FitsU32 items.length)
    (each : ∀ field ∈ items, FitsU32 field.length) : Reads readBytesList (list items) items :=
  readList_reads fits (fun field member => readBytes_reads (each field member))
    fun field _ => four_le_bytes field

/-- Nothing is left once a reader that must finish has. -/
theorem finish_answered {input rest : List UInt8} (answered : finish input = .ok () rest) :
    input = [] := by
  cases input with
  | nil => rfl
  | cons byte input => cases answered

end Reader

end Kobako.Envelope
