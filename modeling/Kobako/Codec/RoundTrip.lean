import Kobako.Codec.Decoder

/-!
# Round trip

Reading what the encoder wrote. Each writer's frame is read by the body it names, whatever bytes
follow it, and a value tree whose every position the wire can carry is read back as itself, but
for the unsigned integers that fit a signed one. The two texts whose length the encoder leaves
unchecked are the only values it accepts and cannot be read back.
-/

namespace Kobako.Codec

open Kobako.Bytes

namespace Decoder

/-- A value past the guard and the budget: its marker, then its body. -/
def readFrame (item : Reader Value) : Reader Value := readMarker >>= readBody item

theorem bind_ok {α β : Type} {first : Reader α} {next : α → Reader β} {before after : Cursor}
    {value : α} (read : first before = .ok value after) :
    (first >>= next) before = next value after := by
  simp only [bind, EStateM.bind, read]

section Frames

variable (item : Reader Value) (rest : List UInt8) (budget : Option Nat)

/-- A frame is read by the body its marker names. -/
theorem readFrame_marker (marker : Marker) :
    readFrame item ⟨marker.toU8 :: rest, budget⟩ = readBody item marker ⟨rest, budget⟩ :=
  bind_ok (readMarker_toU8 rest budget marker)

/-- A frame whose marker is followed by a word hands the word to its body. -/
theorem readFrame_word (marker : Marker) (width value : Nat) (body : Nat → Reader Value)
    (reads : readBody item marker = (readData width >>= body)) (inRange : value < 256 ^ width) :
    readFrame item ⟨marker.toU8 :: toBe width value ++ rest, budget⟩ =
      body value ⟨rest, budget⟩ := by
  rw [List.cons_append, readFrame_marker, reads]
  exact bind_ok (readData_toBe rest budget width value inRange)

/-- A frame whose marker is followed by a signed word hands its value to its body. -/
theorem readFrame_signed (marker : Marker) (width : Nat) (value : Int) (body : Int → Reader Value)
    (reads : readBody item marker = (readSigned width >>= body))
    (above : -((256 ^ width : Nat) : Int) ≤ 2 * value) (below : 2 * value < (256 ^ width : Nat)) :
    readFrame item ⟨marker.toU8 :: toBe width (ofSigned width value) ++ rest, budget⟩ =
      body value ⟨rest, budget⟩ := by
  rw [List.cons_append, readFrame_marker, reads]
  exact bind_ok (readSigned_toBe rest budget width value above below)

omit item rest budget in
/-- A `u64` cast to `i64` is the number it holds. -/
theorem ofNat_toNat_eq_toInt64 (n : UInt64) : Int64.ofNat n.toNat = n.toInt64 :=
  Int64.ofNat_bitVecToNat n.toBitVec

/-- An unsigned integer is read back, as a signed one where it fits. -/
theorem readFrame_writeUint (n : UInt64) :
    readFrame item ⟨writeUint n.toNat ++ rest, budget⟩ =
      .ok (Value.uint n).norm ⟨rest, budget⟩ := by
  have range : n ≤ i64Max ↔ n.toNat ≤ 9223372036854775807 := UInt64.le_iff_toNat_le
  have wide : n.toNat < 256 ^ 8 := n.toNat_lt
  have normal : n.toNat < 4294967296 → (Value.uint n).norm = .int n.toInt64 := by
    intro small
    rw [Value.norm, if_pos (range.mpr (by omega))]
  unfold writeUint
  split
  · rename_i small
    rw [List.singleton_append, readFrame_marker, normal (by omega),
      ← ofNat_toNat_eq_toInt64]
    rfl
  · split
    · rw [readFrame_word item rest budget .u8 1 n.toNat _ rfl (by omega), normal (by omega),
        ← ofNat_toNat_eq_toInt64]
      rfl
    · split
      · rw [readFrame_word item rest budget .u16 2 n.toNat _ rfl (by omega), normal (by omega),
          ← ofNat_toNat_eq_toInt64]
        rfl
      · split
        · rw [readFrame_word item rest budget .u32 4 n.toNat _ rfl (by omega), normal (by omega),
            ← ofNat_toNat_eq_toInt64]
          rfl
        · rw [readFrame_word item rest budget .u64 8 n.toNat _ rfl wide]
          simp only [UInt64.ofNat_toNat, Value.norm]
          split <;> rfl

/-- A signed integer is read back. -/
theorem readFrame_writeSint (n : Int64) :
    readFrame item ⟨writeSint n ++ rest, budget⟩ = .ok (.int n) ⟨rest, budget⟩ := by
  have low : -2 ^ 63 ≤ n.toInt := n.le_toInt
  have high : n.toInt < 2 ^ 63 := n.toInt_lt
  have back : Int64.ofInt n.toInt = n := Int64.ofInt_toInt n
  unfold writeSint
  dsimp only
  split
  · rename_i nonneg
    -- A value that is not negative is written as the unsigned one it equals.
    have size : n.toInt.toNat < 2 ^ 64 := by omega
    have spelled : n.toInt.toNat = (UInt64.ofNat n.toInt.toNat).toNat := by
      rw [UInt64.toNat_ofNat_of_lt' size]
    have fits : UInt64.ofNat n.toInt.toNat ≤ i64Max := by
      rw [UInt64.le_iff_toNat_le, ← spelled]
      change n.toInt.toNat ≤ 9223372036854775807
      omega
    have signed : (UInt64.ofNat n.toInt.toNat).toInt64 = n := by
      rw [← ofNat_toNat_eq_toInt64, ← spelled, ← Int64.ofInt_eq_ofNat, Int.toNat_of_nonneg nonneg, back]
    rw [spelled, readFrame_writeUint, Value.norm, if_pos fits, signed]
  · rename_i negative
    split
    · rename_i short
      have residue : (n.toInt + 32).toNat % 32 = (n.toInt + 32).toNat := by omega
      have value : (((n.toInt + 32).toNat % 32 : Nat) : Int) - 32 = n.toInt := by omega
      rw [List.singleton_append, readFrame_marker]
      change EStateM.Result.ok
        (Value.int (Int64.ofInt ((((n.toInt + 32).toNat % 32 : Nat) : Int) - 32))) _ = _
      rw [value, back]
    · split
      · rw [readFrame_signed item rest budget .i8 1 n.toInt _ rfl (by omega) (by omega), back]
        rfl
      · split
        · rw [readFrame_signed item rest budget .i16 2 n.toInt _ rfl (by omega) (by omega), back]
          rfl
        · split
          · rw [readFrame_signed item rest budget .i32 4 n.toInt _ rfl (by omega) (by omega), back]
            rfl
          · rw [readFrame_signed item rest budget .i64 8 n.toInt _ rfl (by omega) (by omega), back]
            rfl

/-- A float is read back bit for bit. -/
theorem readFrame_writeF64 (bits : UInt64) :
    readFrame item ⟨writeF64 bits ++ rest, budget⟩ = .ok (.float bits) ⟨rest, budget⟩ := by
  have wide : bits.toNat < 256 ^ 8 := bits.toNat_lt
  rw [writeF64, readFrame_word item rest budget .f64 8 bits.toNat _ rfl wide, UInt64.ofNat_toNat]
  rfl

section Lengths

variable (len : Nat) (fits : len ≤ u32Max)

include fits

/-- A text's frame hands its length to the text reader. -/
theorem readFrame_writeStrLen :
    readFrame item ⟨writeStrLen len ++ rest, budget⟩ = readStrBody len ⟨rest, budget⟩ := by
  unfold u32Max at fits
  unfold writeStrLen
  split
  · rw [List.singleton_append, readFrame_marker]
    rfl
  · split
    · exact readFrame_word item rest budget .str8 1 len readStrBody rfl (by omega)
    · split
      · exact readFrame_word item rest budget .str16 2 len readStrBody rfl (by omega)
      · exact readFrame_word item rest budget .str32 4 len readStrBody rfl (by omega)

/-- A binary's frame hands its length to the binary reader. -/
theorem readFrame_writeBinLen :
    readFrame item ⟨writeBinLen len ++ rest, budget⟩ = readBinBody len ⟨rest, budget⟩ := by
  unfold u32Max at fits
  unfold writeBinLen
  split
  · exact readFrame_word item rest budget .bin8 1 len readBinBody rfl (by omega)
  · split
    · exact readFrame_word item rest budget .bin16 2 len readBinBody rfl (by omega)
    · exact readFrame_word item rest budget .bin32 4 len readBinBody rfl (by omega)

/-- An array's frame hands its length to the array reader. -/
theorem readFrame_writeArrayLen :
    readFrame item ⟨writeArrayLen len ++ rest, budget⟩ =
      readArrayBody item len ⟨rest, budget⟩ := by
  unfold u32Max at fits
  unfold writeArrayLen
  split
  · rw [List.singleton_append, readFrame_marker]
    rfl
  · split
    · exact readFrame_word item rest budget .array16 2 len (readArrayBody item) rfl (by omega)
    · exact readFrame_word item rest budget .array32 4 len (readArrayBody item) rfl (by omega)

/-- A map's frame hands its length to the map reader. -/
theorem readFrame_writeMapLen :
    readFrame item ⟨writeMapLen len ++ rest, budget⟩ = readMapBody item len ⟨rest, budget⟩ := by
  unfold u32Max at fits
  unfold writeMapLen
  split
  · rw [List.singleton_append, readFrame_marker]
    rfl
  · split
    · exact readFrame_word item rest budget .map16 2 len (readMapBody item) rfl (by omega)
    · exact readFrame_word item rest budget .map32 4 len (readMapBody item) rfl (by omega)

/-- An ext's frame hands its length to the ext reader, its type byte next. -/
theorem readFrame_writeExtMeta (ty : UInt8) :
    readFrame item ⟨writeExtMeta len ty ++ rest, budget⟩ = readExt len ⟨ty :: rest, budget⟩ := by
  unfold u32Max at fits
  unfold writeExtMeta
  rw [List.append_assoc, List.singleton_append]
  -- one marker for each of the five fixed lengths, else a length in a word
  split_ifs
  iterate 5
    · subst_vars
      rw [List.singleton_append, readFrame_marker]
      rfl
  · exact readFrame_word item (ty :: rest) budget .ext8 1 len readExt rfl (by omega)
  · exact readFrame_word item (ty :: rest) budget .ext16 2 len readExt rfl (by omega)
  · exact readFrame_word item (ty :: rest) budget .ext32 4 len readExt rfl (by omega)

end Lengths

/-- A text's own bytes are read back as it. -/
theorem fromUtf8_strBytes (s : String) :
    fromUtf8 (strBytes s) ⟨rest, budget⟩ = .ok s ⟨rest, budget⟩ := by
  rw [fromUtf8, fromUTF8?_strBytes]
  rfl

/-- A text's body is read back. -/
theorem readStrBody_strBytes (s : String) :
    readStrBody s.utf8ByteSize ⟨strBytes s ++ rest, budget⟩ = .ok (.str s) ⟨rest, budget⟩ := by
  unfold readStrBody
  rw [bind_ok (take_append rest budget (length_strBytes s)),
    bind_ok (fromUtf8_strBytes rest budget s)]
  rfl

/-- A binary's body is read back. -/
theorem readBinBody_append (bytes : List UInt8) :
    readBinBody bytes.length ⟨bytes ++ rest, budget⟩ = .ok (.bin bytes) ⟨rest, budget⟩ := by
  unfold readBinBody
  rw [bind_ok (take_append rest budget rfl)]
  rfl

/-- A symbol's ext is read back. -/
theorem readExt_symbol (name : String) :
    readExt name.utf8ByteSize ⟨extSymbol :: (strBytes name ++ rest), budget⟩ =
      .ok (.sym name) ⟨rest, budget⟩ := by
  change (take name.utf8ByteSize >>= fun bytes => fromUtf8 bytes >>= fun s => pure (Value.sym s))
    ⟨strBytes name ++ rest, budget⟩ = _
  rw [bind_ok (take_append rest budget (length_strBytes name)),
    bind_ok (fromUtf8_strBytes rest budget name)]
  rfl

/-- A Handle's ext is read back when its id is in range. -/
theorem readExt_handle (id : UInt32) (positive : 1 ≤ id) (inRange : id ≤ maxHandleId) :
    readExt 4 ⟨extHandle :: (toBe 4 id.toNat ++ rest), budget⟩ =
      .ok (.handle id) ⟨rest, budget⟩ := by
  have wide : id.toNat < 256 ^ 4 := id.toNat_lt
  have accepted : ¬ (id = 0 ∨ id > maxHandleId) := by
    rw [UInt32.le_iff_toNat_le] at positive inRange
    rw [← UInt32.toNat_inj, gt_iff_lt, UInt32.lt_iff_toNat_lt]
    simp only [UInt32.toNat_one, UInt32.toNat_zero] at positive ⊢
    omega
  change (take 4 >>= fun bytes =>
    if UInt32.ofNat (ofBe bytes) = 0 ∨ UInt32.ofNat (ofBe bytes) > maxHandleId then
      throw .invalidHandle
    else pure (Value.handle (UInt32.ofNat (ofBe bytes)))) ⟨toBe 4 id.toNat ++ rest, budget⟩ = _
  rw [bind_ok (take_append rest budget (length_toBe 4 id.toNat)), ofBe_toBe 4 id.toNat wide,
    UInt32.ofNat_toNat, if_neg accepted]
  rfl

end Frames

/-- A value without a budget is read through the guard as one frame. -/
theorem readValueFrom_frame (depth : Nat) (bytes : List UInt8)
    (shallow : depth ≤ maxNestingDepth) :
    readValueFrom depth ⟨bytes, none⟩ = readFrame (readValueFrom (depth + 1)) ⟨bytes, none⟩ := by
  rw [readValueFrom_eq, if_neg (by omega)]
  rfl

/-! ## Value trees -/

mutual

/-- A value tree the wire can carry is read back, whatever bytes follow it. -/
theorem readValueFrom_wire (value : Value) (depth : Nat) (rest : List UInt8)
    (carried : Value.Carried (value.positions depth)) :
    readValueFrom depth ⟨value.wire ++ rest, none⟩ = .ok value.norm ⟨rest, none⟩ := by
  have inside : (depth, value) ∈ value.positions depth := by cases value <;> simp [Value.positions]
  obtain ⟨shallow, counted, texts⟩ := carried _ inside
  rw [readValueFrom_frame depth _ shallow]
  cases value with
  | nil => rfl
  | bool b => cases b <;> rfl
  | int n => exact readFrame_writeSint _ rest none n
  | uint n => exact readFrame_writeUint _ rest none n
  | float bits => exact readFrame_writeF64 _ rest none bits
  | str s =>
    have kept : asU32 s.utf8ByteSize = s.utf8ByteSize := Nat.mod_eq_of_lt (Nat.lt_succ_of_le texts)
    rw [Value.wire, writeStr, kept, List.append_assoc, readFrame_writeStrLen _ _ _ _ texts]
    exact readStrBody_strBytes rest none s
  | bin bytes =>
    have kept : asU32 bytes.length = bytes.length := Nat.mod_eq_of_lt (Nat.lt_succ_of_le texts)
    rw [Value.wire, writeBin, kept, List.append_assoc, readFrame_writeBinLen _ _ _ _ texts]
    exact readBinBody_append rest none bytes
  | array items =>
    have nested : Value.Carried (Value.itemPositions (depth + 1) items) :=
      (List.forall_mem_cons.mp carried).2
    rw [Value.wire, List.append_assoc, readFrame_writeArrayLen _ _ _ _ counted, readArrayBody,
      bind_ok (readItems_wire items (depth + 1) rest nested)]
    rfl
  | map pairs =>
    have nested : Value.Carried (Value.pairPositions (depth + 1) pairs) :=
      (List.forall_mem_cons.mp carried).2
    rw [Value.wire, List.append_assoc, readFrame_writeMapLen _ _ _ _ counted, readMapBody,
      bind_ok (readPairs_wire pairs (depth + 1) rest nested)]
    rfl
  | sym name =>
    rw [Value.wire, List.append_assoc, readFrame_writeExtMeta _ _ _ _ counted]
    exact readExt_symbol rest none name
  | handle id =>
    rw [Value.wire, List.append_assoc, readFrame_writeExtMeta _ _ _ _ (by decide)]
    exact readExt_handle rest none id counted.1 counted.2

theorem readItems_wire (items : List Value) (depth : Nat) (rest : List UInt8)
    (carried : Value.Carried (Value.itemPositions depth items)) :
    readItems (readValueFrom depth) items.length ⟨Value.wireItems items ++ rest, none⟩ =
      .ok (Value.normItems items) ⟨rest, none⟩ := by
  match items with
  | [] => rfl
  | item :: items =>
    obtain ⟨first, others⟩ := List.forall_mem_append.mp carried
    simp only [List.length_cons, readItems, Value.wireItems, Value.normItems, List.append_assoc]
    rw [bind_ok (readValueFrom_wire item depth _ first),
      bind_ok (readItems_wire items depth rest others)]
    rfl

theorem readPairs_wire (pairs : List (Value × Value)) (depth : Nat) (rest : List UInt8)
    (carried : Value.Carried (Value.pairPositions depth pairs)) :
    readPairs (readValueFrom depth) pairs.length ⟨Value.wirePairs pairs ++ rest, none⟩ =
      .ok (Value.normPairs pairs) ⟨rest, none⟩ := by
  match pairs with
  | [] => rfl
  | (key, value) :: pairs =>
    obtain ⟨pair, others⟩ := List.forall_mem_append.mp carried
    obtain ⟨first, second⟩ := List.forall_mem_append.mp pair
    simp only [List.length_cons, readPairs, Value.wirePairs, Value.normPairs, List.append_assoc]
    rw [bind_ok (readValueFrom_wire key depth _ first),
      bind_ok (readValueFrom_wire value depth _ second),
      bind_ok (readPairs_wire pairs depth rest others)]
    rfl

end

/-- A whole value at the start of the input moves the position past it, and nothing else. -/
theorem readValue_wire (value : Value) (carries : value.Carries) (trailing : List UInt8) :
    (new (value.wire ++ trailing)).readValue =
      (.ok value.norm, { new (value.wire ++ trailing) with pos := value.wire.length }) := by
  have read : readValueFrom 0 ⟨value.wire ++ trailing, none⟩ = .ok value.norm ⟨trailing, none⟩ :=
    readValueFrom_wire value 0 trailing carries
  have consumed : (value.wire ++ trailing).length - trailing.length = value.wire.length := by
    rw [List.length_append]
    omega
  simp only [readValue, new, List.drop_zero, read, consumed]

/-- The whole input read as its sole value. -/
theorem readSoleValue_wire (value : Value) (carries : value.Carries) :
    (new value.wire).readSoleValue.1 = .ok value.norm := by
  have read := readValue_wire value carries []
  rw [List.append_nil] at read
  have ended : ({ new value.wire with pos := value.wire.length } : Decoder).isAtEnd = true := by
    simp [isAtEnd, new]
  simp only [readSoleValue, read, ended, if_true]

/-- Bytes left over after the value refuse the input. -/
theorem readSoleValue_trailing (value : Value) (carries : value.Carries) (trailing : List UInt8)
    (left : trailing ≠ []) :
    (new (value.wire ++ trailing)).readSoleValue.1 =
      .error (.malformed "trailing bytes after the payload value") := by
  have read := readValue_wire value carries trailing
  have positive : 0 < trailing.length := List.length_pos_iff.mpr left
  have before : ({ new (value.wire ++ trailing) with pos := value.wire.length } :
      Decoder).isAtEnd = false := by
    simp only [isAtEnd, new, List.length_append, decide_eq_false_iff_not]
    omega
  simp only [readSoleValue, read, before]
  rfl

end Decoder

/-! ## The codec as a whole -/

/-- A value the encoder accepts, its texts short enough for a frame, is read back off the front of
any input, the position left at its end, and read as the sole value of its own bytes. -/
theorem decode_encode (value : Value) (bytes trailing : List UInt8)
    (accepted : Encoder.encode value = .ok bytes) (texts : value.Texts) :
    (Decoder.new (bytes ++ trailing)).readValue =
        (.ok value.norm, { Decoder.new (bytes ++ trailing) with pos := bytes.length }) ∧
      (Decoder.new bytes).readSoleValue.1 = .ok value.norm := by
  obtain ⟨checked, rfl⟩ := (Encoder.encode_ok value bytes).mp accepted
  have carries : value.Carries := (Value.carries_iff value).mpr ⟨checked, texts⟩
  exact ⟨Decoder.readValue_wire value carries trailing, Decoder.readSoleValue_wire value carries⟩

/-- A map with a symbol key over an unsigned and a Handle, followed by a stray byte. -/
theorem decode_encode_map :
    (Decoder.new ([0x81, 0xd5, 0x00, 0x6f, 0x6b, 0x92, 0x05, 0xd6, 0x01, 0, 0, 0, 7] ++
        [0xc0])).readValue =
      (.ok (.map [(.sym "ok", .array [.int 5, .handle 7])]),
        ⟨[0x81, 0xd5, 0x00, 0x6f, 0x6b, 0x92, 0x05, 0xd6, 0x01, 0, 0, 0, 7] ++ [0xc0],
          13, none⟩) := by
  have accepted : Encoder.encode (.map [(.sym "ok", .array [.uint 5, .handle 7])]) =
      .ok [0x81, 0xd5, 0x00, 0x6f, 0x6b, 0x92, 0x05, 0xd6, 0x01, 0, 0, 0, 7] := by decide
  have texts : (Value.map [(.sym "ok", .array [.uint 5, .handle 7])]).Texts := by
    simp [Value.Texts, Value.positions, Value.pairPositions, Value.itemPositions, Value.TextFits]
  exact (decode_encode _ _ [0xc0] accepted texts).1

/-- The encoder accepts a value exactly when the wire can carry it, and what it accepts is read
back. -/
def EncodesExactly (value : Value) : Prop :=
  ((∃ bytes, Encoder.encode value = .ok bytes) ↔ value.Carries) ∧
    ∀ bytes, Encoder.encode value = .ok bytes →
      (Decoder.new bytes).readSoleValue.1 = .ok value.norm

/-- The encoder is exact on a value whose texts fit a frame, and on one that another check
refuses; a text past `u32::MAX` bytes is accepted with its length cut to the low 32 bits. -/
theorem encodesExactly_iff (value : Value) :
    EncodesExactly value ↔ value.Texts ∨ ¬ value.CheckedAt 0 := by
  constructor
  · rintro ⟨exact, -⟩
    by_cases checked : value.CheckedAt 0
    · have accepted : Encoder.encode value = .ok value.wire :=
        (Encoder.encode_ok value value.wire).mpr ⟨checked, rfl⟩
      have carries : value.Carries := exact.mp ⟨value.wire, accepted⟩
      exact .inl ((Value.carries_iff value).mp carries).2
    · exact .inr checked
  · intro condition
    refine ⟨⟨?_, ?_⟩, ?_⟩
    · rintro ⟨bytes, accepted⟩
      have checked : value.CheckedAt 0 := ((Encoder.encode_ok value bytes).mp accepted).1
      have texts : value.Texts := condition.resolve_right (fun refused => refused checked)
      exact (Value.carries_iff value).mpr ⟨checked, texts⟩
    · intro carries
      have checked : value.CheckedAt 0 := ((Value.carries_iff value).mp carries).1
      exact ⟨value.wire, (Encoder.encode_ok value value.wire).mpr ⟨checked, rfl⟩⟩
    · intro bytes accepted
      obtain ⟨checked, rfl⟩ := (Encoder.encode_ok value bytes).mp accepted
      have texts : value.Texts := condition.resolve_right (fun refused => refused checked)
      exact Decoder.readSoleValue_wire value ((Value.carries_iff value).mpr ⟨checked, texts⟩)

/-- A binary of `2 ^ 32` bytes is spelled as an empty one, its bytes left over. -/
theorem wire_overlong (bytes : List UInt8) (length : bytes.length = 2 ^ 32) :
    (Value.bin bytes).wire = (Value.bin []).wire ++ bytes := by
  have cut : asU32 bytes.length = 0 := by rw [length]; rfl
  rw [Value.wire, Value.wire, writeBin, writeBin, cut]
  rfl

/-- A binary of `2 ^ 32` zero bytes is accepted, is not within what the wire can carry, and its
bytes are refused. -/
theorem encode_overlong_bin :
    (∃ bytes, Encoder.encode (.bin (List.replicate (2 ^ 32) 0)) = .ok bytes ∧
      (Decoder.new bytes).readSoleValue.1 =
        .error (.malformed "trailing bytes after the payload value")) ∧
      ¬ (Value.bin (List.replicate (2 ^ 32) 0)).Carries ∧
      ¬ EncodesExactly (.bin (List.replicate (2 ^ 32) 0)) := by
  generalize zeros : List.replicate (2 ^ 32) (0 : UInt8) = bytes
  have length : bytes.length = 2 ^ 32 := by rw [← zeros, List.length_replicate]
  have left : bytes ≠ [] := List.ne_nil_of_length_pos (by rw [length]; decide)
  have checked : (Value.bin bytes).CheckedAt 0 := by
    simp [Value.CheckedAt, Value.positions, Value.CountFits]
  have unfit : ¬ (Value.bin bytes).Texts := by
    intro texts
    have fits : bytes.length ≤ u32Max := texts (0, .bin bytes) (by simp [Value.positions])
    rw [length] at fits
    exact absurd fits (by decide)
  have empty : (Value.bin []).Carries := by
    simp [Value.Carries, Value.Carried, Value.positions, Value.CountFits, Value.TextFits]
  refine ⟨⟨(Value.bin bytes).wire, (Encoder.encode_ok _ _).mpr ⟨checked, rfl⟩, ?_⟩, ?_, ?_⟩
  · rw [wire_overlong bytes length]
    exact Decoder.readSoleValue_trailing (.bin []) empty bytes left
  · exact fun carries => unfit ((Value.carries_iff _).mp carries).2
  · rintro ⟨exact, -⟩
    have carries := exact.mp ⟨_, (Encoder.encode_ok _ _).mpr ⟨checked, rfl⟩⟩
    exact unfit ((Value.carries_iff _).mp carries).2

end Kobako.Codec
