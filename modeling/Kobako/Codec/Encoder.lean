import Kobako.Codec.Wire

/-!
# The encoder

`Encoder::encode`: a value tree to its bytes. The writer carries the buffer through the tree and
checks, at each position, the nesting, the counts of arrays, maps and symbols, and the range of a
Handle id. What it writes for a position does not depend on where the position stands, so a value
has one spelling, and the writer answers it exactly when every check passes.
-/

namespace Kobako.Codec

open Kobako.Bytes

namespace Encoder

/-- `u32::try_from` of a length, refused as a payload too large. -/
def tryU32 (len : Nat) : Except Error Nat :=
  if len ≤ u32Max then .ok len else .error .payloadTooLarge

mutual

/-- `Encoder::write_value_at`, the buffer passed along. -/
def writeValueAt (buf : List UInt8) (value : Value) (depth : Nat) : Except Error (List UInt8) :=
  if depth > maxNestingDepth then .error (.malformed "nesting exceeds maximum depth")
  else match value with
    | .nil => .ok (buf ++ writeNil)
    | .bool b => .ok (buf ++ writeBool b)
    | .int n => .ok (buf ++ writeSint n)
    | .uint n => .ok (buf ++ writeUint n.toNat)
    | .float bits => .ok (buf ++ writeF64 bits)
    | .str s => .ok (buf ++ writeStr s)
    | .bin bytes => .ok (buf ++ writeBin bytes)
    | .array items => do
      let len ← tryU32 items.length
      writeItemsAt (buf ++ writeArrayLen len) items (depth + 1)
    | .map pairs => do
      let len ← tryU32 pairs.length
      writePairsAt (buf ++ writeMapLen len) pairs (depth + 1)
    | .sym name => do
      let bytes := strBytes name
      let len ← tryU32 bytes.length
      .ok (buf ++ writeExtMeta len extSymbol ++ bytes)
    | .handle id =>
      if id = 0 ∨ id > maxHandleId then .error .invalidHandle
      else .ok (buf ++ writeExtMeta 4 extHandle ++ toBe 4 id.toNat)

/-- The loop of `Encoder::write_value_at` over the items of an array. -/
def writeItemsAt (buf : List UInt8) (items : List Value) (depth : Nat) :
    Except Error (List UInt8) :=
  match items with
  | [] => .ok buf
  | item :: items => do
    let buf ← writeValueAt buf item depth
    writeItemsAt buf items depth

/-- The loop of `Encoder::write_value_at` over the pairs of a map. -/
def writePairsAt (buf : List UInt8) (pairs : List (Value × Value)) (depth : Nat) :
    Except Error (List UInt8) :=
  match pairs with
  | [] => .ok buf
  | (key, value) :: pairs => do
    let buf ← writeValueAt buf key depth
    let buf ← writeValueAt buf value depth
    writePairsAt buf pairs depth

end

/-- `Encoder::write_value`. -/
def writeValue (buf : List UInt8) (value : Value) : Except Error (List UInt8) :=
  writeValueAt buf value 0

/-- `Encoder::encode`. A refused value answers no bytes: the encoder goes with its buffer. -/
def encode (value : Value) : Except Error (List UInt8) := writeValue [] value

end Encoder

namespace Value

mutual

/-- The bytes of a value the encoder accepts. -/
def wire : Value → List UInt8
  | nil => writeNil
  | bool b => writeBool b
  | int n => writeSint n
  | uint n => writeUint n.toNat
  | float bits => writeF64 bits
  | str s => writeStr s
  | bin bytes => writeBin bytes
  | array items => writeArrayLen items.length ++ wireItems items
  | map pairs => writeMapLen pairs.length ++ wirePairs pairs
  | sym name => writeExtMeta name.utf8ByteSize extSymbol ++ strBytes name
  | handle id => writeExtMeta 4 extHandle ++ toBe 4 id.toNat

/-- The bytes of every item, in order. -/
def wireItems : List Value → List UInt8
  | [] => []
  | item :: items => wire item ++ wireItems items

/-- The bytes of every key and value, in order. -/
def wirePairs : List (Value × Value) → List UInt8
  | [] => []
  | (key, value) :: pairs => wire key ++ wire value ++ wirePairs pairs

end

end Value

namespace Encoder

open Value

theorem tryU32_bind {α : Type} (len : Nat) (next : Nat → Except Error α) (out : α) :
    (tryU32 len >>= next) = .ok out ↔ len ≤ u32Max ∧ next len = .ok out := by
  unfold tryU32
  split
  · simp_all [bind, Except.bind]
  · simp_all [bind, Except.bind]

theorem except_bind_ok {α β : Type} (first : Except Error α) (next : α → Except Error β) (out : β) :
    (first >>= next) = .ok out ↔ ∃ middle, first = .ok middle ∧ next middle = .ok out := by
  cases first <;> simp [bind, Except.bind]

mutual

/-- The writer accepts a value exactly when every check passes, and appends its spelling. -/
theorem writeValueAt_ok (buf : List UInt8) (value : Value) (depth : Nat) (out : List UInt8) :
    writeValueAt buf value depth = .ok out ↔
      Checked (positions depth value) ∧ out = buf ++ wire value := by
  rw [writeValueAt.eq_def]
  by_cases deep : depth > maxNestingDepth
  · rw [if_pos deep]
    have unchecked : ¬ Checked (positions depth value) := by
      intro checked
      have inside : (depth, value) ∈ positions depth value := by cases value <;> simp [positions]
      exact absurd (checked _ inside).1 (by omega)
    simp [unchecked]
  · rw [if_neg deep]
    have shallow : depth ≤ maxNestingDepth := by omega
    cases value with
    | array items =>
      simp only [tryU32_bind, writeItemsAt_ok, positions, checked_cons, CountFits, wire,
        List.append_assoc]
      tauto
    | map pairs =>
      simp only [tryU32_bind, writePairsAt_ok, positions, checked_cons, CountFits, wire,
        List.append_assoc]
      tauto
    | sym name =>
      simp only [tryU32_bind, length_strBytes, positions, checked_cons, CountFits, wire,
        List.append_assoc, Except.ok.injEq, checked_nil]
      tauto
    | handle id =>
      have range : (id = 0 ∨ id > maxHandleId) ↔ ¬ (1 ≤ id ∧ id ≤ maxHandleId) := by
        rw [← UInt32.toNat_inj, gt_iff_lt, UInt32.lt_iff_toNat_lt, UInt32.le_iff_toNat_le,
          UInt32.le_iff_toNat_le]
        simp
        omega
      by_cases bad : id = 0 ∨ id > maxHandleId
      · simp only [if_pos bad, positions, checked_cons, CountFits, range.mp bad]
        simp
      · have good : 1 ≤ id ∧ id ≤ maxHandleId := by tauto
        simp only [if_neg bad, positions, checked_cons, CountFits, good, shallow, wire,
          List.append_assoc, Except.ok.injEq, checked_nil, true_and]
        exact eq_comm
    | _ =>
      simp only [positions, checked_cons, checked_nil, CountFits, shallow, wire, Except.ok.injEq,
        true_and]
      exact eq_comm

theorem writeItemsAt_ok (buf : List UInt8) (items : List Value) (depth : Nat) (out : List UInt8) :
    writeItemsAt buf items depth = .ok out ↔
      Checked (itemPositions depth items) ∧ out = buf ++ wireItems items := by
  cases items with
  | nil => simp [writeItemsAt, itemPositions, wireItems, eq_comm]
  | cons item items =>
    simp only [writeItemsAt, except_bind_ok, writeValueAt_ok, writeItemsAt_ok, itemPositions,
      checked_append, wireItems]
    constructor
    · rintro ⟨middle, ⟨head, rfl⟩, tail, rfl⟩
      exact ⟨⟨head, tail⟩, by simp⟩
    · rintro ⟨⟨head, tail⟩, rfl⟩
      exact ⟨_, ⟨head, rfl⟩, tail, by simp⟩

theorem writePairsAt_ok (buf : List UInt8) (pairs : List (Value × Value)) (depth : Nat)
    (out : List UInt8) :
    writePairsAt buf pairs depth = .ok out ↔
      Checked (pairPositions depth pairs) ∧ out = buf ++ wirePairs pairs := by
  match pairs with
  | [] => simp [writePairsAt, pairPositions, wirePairs, eq_comm]
  | (key, value) :: pairs =>
    simp only [writePairsAt, except_bind_ok, writeValueAt_ok, writePairsAt_ok, pairPositions,
      checked_append, wirePairs]
    constructor
    · rintro ⟨_, ⟨first, rfl⟩, _, ⟨second, rfl⟩, tail, rfl⟩
      exact ⟨⟨⟨first, second⟩, tail⟩, by simp⟩
    · rintro ⟨⟨⟨first, second⟩, tail⟩, rfl⟩
      exact ⟨_, ⟨first, rfl⟩, _, ⟨second, rfl⟩, tail, by simp⟩

end

/-- What `encode` accepts, and the bytes it answers. -/
theorem encode_ok (value : Value) (bytes : List UInt8) :
    encode value = .ok bytes ↔ value.CheckedAt 0 ∧ bytes = value.wire := by
  rw [encode, writeValue, writeValueAt_ok, List.nil_append, CheckedAt]

end Encoder

end Kobako.Codec
