import Kobako.Codec.Budget
import Kobako.Codec.RoundTrip

/-!
# Canonical values

Peers write lengths and numbers in frames wider than they need, so many payloads are read as one
value. Whatever the decoder answers lies within what the wire carries and is its own normal form:
every length came off a word of four bytes at most, every id was checked, every position was
counted against the nesting the encoder allows. So it is encoded again, and read back as itself.
-/

namespace Kobako.Codec

open Kobako.Bytes

namespace Value

/-- A value the decoder can answer at `depth`: the wire carries it, and reading it back changes
nothing. -/
def CanonicalAt (depth : Nat) (value : Value) : Prop :=
  Carried (value.positions depth) ∧ value.norm = value

/-- A single position within the limits is canonical. -/
theorem canonicalAt_single {depth : Nat} {value : Value} (shallow : depth ≤ maxNestingDepth)
    (single : value.positions depth = [(depth, value)]) (counted : value.CountFits)
    (texts : value.TextFits) (normal : value.norm = value) : value.CanonicalAt depth := by
  refine ⟨?_, normal⟩
  intro position found
  rw [single, List.mem_singleton] at found
  rw [found]
  exact ⟨shallow, counted, texts⟩

theorem canonicalAt_array {depth : Nat} {items : List Value} (shallow : depth ≤ maxNestingDepth)
    (length : items.length ≤ u32Max) (nested : Carried (itemPositions (depth + 1) items))
    (normal : normItems items = items) : (array items).CanonicalAt depth := by
  refine ⟨?_, ?_⟩
  · rw [positions]
    exact List.forall_mem_cons.mpr ⟨⟨shallow, length, trivial⟩, nested⟩
  · rw [norm, normal]

theorem canonicalAt_map {depth : Nat} {pairs : List (Value × Value)}
    (shallow : depth ≤ maxNestingDepth) (length : pairs.length ≤ u32Max)
    (nested : Carried (pairPositions (depth + 1) pairs)) (normal : normPairs pairs = pairs) :
    (map pairs).CanonicalAt depth := by
  refine ⟨?_, ?_⟩
  · rw [positions]
    exact List.forall_mem_cons.mpr ⟨⟨shallow, length, trivial⟩, nested⟩
  · rw [norm, normal]

end Value

namespace Decoder

open Value

/-- Whatever a reader answers is as `answers` says. -/
abbrev Answers {α : Type} (read : Reader α) (answers : α → Prop) : Prop :=
  Keeps (fun _ => True) read answers

theorem Answers.of_ok {α : Type} {read : Reader α} {answers : α → Prop}
    (known : Answers read answers) {cursor after : Cursor} {a : α}
    (answered : read cursor = .ok a after) : answers a := by
  have ended := known cursor trivial
  unfold Ends at ended
  rw [answered] at ended
  exact ended.2

/-! ## Fields -/

theorem answers_take (n : Nat) : Answers (take n) fun bytes => bytes.length = n := by
  rintro ⟨bytes, budget⟩ held
  unfold Ends
  rw [take_eq]
  by_cases short : bytes.length < n
  · rw [if_pos short]
    exact held
  · rw [if_neg short]
    have length : (bytes.take n).length = n := by
      rw [List.length_take]
      omega
    exact ⟨held, length⟩

theorem answers_readData (width : Nat) : Answers (readData width) fun word => word < 256 ^ width := by
  apply (answers_take width).bind
  intro bytes length
  have bound := ofBe_lt bytes
  rw [length] at bound
  exact Keeps.pure bound

theorem answers_fromUtf8 (bytes : List UInt8) :
    Answers (fromUtf8 bytes) fun s => s.utf8ByteSize = bytes.length := by
  unfold fromUtf8
  cases read : String.fromUTF8? ⟨bytes.toArray⟩ with
  | none => exact Keeps.throw
  | some s =>
    have spelled := strBytes_of_fromUTF8? read
    have size : s.utf8ByteSize = bytes.length := by
      rw [← spelled, length_strBytes]
    exact Keeps.pure size

/-- A length is read off four bytes at most. -/
theorem Length.answers {len : Reader Nat} (length : Length len) :
    Answers len fun n => n ≤ u32Max := by
  cases length with
  | own fits => exact Keeps.pure (by unfold u32Max; omega)
  | word fits =>
    apply (answers_readData _).mono
    intro word below
    have widest : 256 ^ _ ≤ 256 ^ 4 := Nat.pow_le_pow_right (by decide) fits
    unfold u32Max
    omega

/-! ## Values without members -/

section Leaves

variable {depth : Nat} (shallow : depth ≤ maxNestingDepth)

include shallow

theorem Scalar.canonicalAt {value : Value} (scalar : Scalar value) : value.CanonicalAt depth := by
  cases scalar with
  | nil => exact canonicalAt_single shallow rfl trivial trivial rfl
  | bool b => exact canonicalAt_single shallow rfl trivial trivial rfl
  | int n => exact canonicalAt_single shallow rfl trivial trivial rfl
  | @uint n above =>
    have normal : (Value.uint n).norm = .uint n := by rw [Value.norm, if_neg above]
    exact canonicalAt_single shallow rfl trivial trivial normal
  | float bits => exact canonicalAt_single shallow rfl trivial trivial rfl

theorem answers_readStrBody {len : Nat} (fits : len ≤ u32Max) :
    Answers (readStrBody len) (CanonicalAt depth) := by
  apply (answers_take len).bind
  intro bytes length
  apply (answers_fromUtf8 bytes).bind
  intro s size
  have texts : (Value.str s).TextFits := by
    show s.utf8ByteSize ≤ u32Max
    omega
  exact Keeps.pure (canonicalAt_single shallow rfl trivial texts rfl)

theorem answers_readBinBody {len : Nat} (fits : len ≤ u32Max) :
    Answers (readBinBody len) (CanonicalAt depth) := by
  apply (answers_take len).bind
  intro bytes length
  have texts : (Value.bin bytes).TextFits := by
    show bytes.length ≤ u32Max
    omega
  exact Keeps.pure (canonicalAt_single shallow rfl trivial texts rfl)

theorem answers_readExtOf (ty : UInt8) {len : Nat} (fits : len ≤ u32Max) :
    Answers (readExtOf ty len) (CanonicalAt depth) := by
  unfold readExtOf
  split
  · apply (answers_take len).bind
    intro bytes length
    apply (answers_fromUtf8 bytes).bind
    intro s size
    have counted : (Value.sym s).CountFits := by
      show s.utf8ByteSize ≤ u32Max
      omega
    exact Keeps.pure (canonicalAt_single shallow rfl counted trivial rfl)
  · split
    · split
      · exact Keeps.throw
      · apply (answers_take 4).bind
        intro bytes length
        dsimp only
        split
        · exact Keeps.throw
        · rename_i good
          have counted : (Value.handle (UInt32.ofNat (ofBe bytes))).CountFits := by
            rw [not_or, ← UInt32.toNat_inj, gt_iff_lt, UInt32.lt_iff_toNat_lt] at good
            rw [CountFits, UInt32.le_iff_toNat_le, UInt32.le_iff_toNat_le, UInt32.toNat_one]
            rw [UInt32.toNat_zero] at good
            omega
          exact Keeps.pure (canonicalAt_single shallow rfl counted trivial rfl)
    · exact Keeps.throw

theorem answers_readExt {len : Nat} (fits : len ≤ u32Max) :
    Answers (readExt len) (CanonicalAt depth) := by
  rintro ⟨bytes, budget⟩ held
  cases bytes with
  | nil => exact held
  | cons ty rest =>
    unfold Ends
    rw [readExt_cons]
    exact answers_readExtOf shallow ty fits ⟨rest, budget⟩ held

/-- A value without members is answered within the limits. -/
theorem Leaf.answers {read : Reader Value} (leaf : Leaf read) :
    Answers read (CanonicalAt depth) := by
  cases leaf with
  | scalar scalar => exact Keeps.pure (scalar.canonicalAt shallow)
  | refused e => exact Keeps.throw
  | word width scalar =>
    exact (keeps_any _).bind fun n _ => Keeps.pure ((scalar n).canonicalAt shallow)
  | signed width scalar =>
    exact (keeps_any _).bind fun n _ => Keeps.pure ((scalar n).canonicalAt shallow)
  | text length => exact length.answers.bind fun len fits => answers_readStrBody shallow fits
  | binary length => exact length.answers.bind fun len fits => answers_readBinBody shallow fits
  | ext length => exact length.answers.bind fun len fits => answers_readExt shallow fits

end Leaves

/-! ## Value trees -/

/-- The number of members is read off the marker, or a word after it. -/
theorem shapeOf_array {marker : Marker} {len : Reader Nat} (array : shapeOf marker = .array len) :
    Length len := by
  cases marker <;> cases array
  case fixArray len => exact .own (show len.val < 256 by omega)
  case array16 => exact .word (by decide)
  case array32 => exact .word (by decide)

theorem shapeOf_map {marker : Marker} {len : Reader Nat} (map : shapeOf marker = .map len) :
    Length len := by
  cases marker <;> cases map
  case fixMap len => exact .own (show len.val < 256 by omega)
  case map16 => exact .word (by decide)
  case map32 => exact .word (by decide)

section Members

variable {item : Reader Value} {depth : Nat} (nested : Answers item (CanonicalAt depth))

include nested

theorem answers_readItems (len : Nat) :
    Answers (readItems item len) fun items =>
      items.length = len ∧ Carried (itemPositions depth items) ∧ normItems items = items := by
  induction len with
  | zero =>
    have empty : Carried (itemPositions depth []) := nofun
    exact Keeps.pure ⟨rfl, empty, rfl⟩
  | succ len ih =>
    apply nested.bind
    intro first canonical
    apply ih.bind
    rintro items ⟨length, carried, normal⟩
    refine Keeps.pure ⟨?_, ?_, ?_⟩
    · rw [List.length_cons, length]
    · exact List.forall_mem_append.mpr ⟨canonical.1, carried⟩
    · rw [normItems, canonical.2, normal]

theorem answers_readPairs (len : Nat) :
    Answers (readPairs item len) fun pairs =>
      pairs.length = len ∧ Carried (pairPositions depth pairs) ∧ normPairs pairs = pairs := by
  induction len with
  | zero =>
    have empty : Carried (pairPositions depth []) := nofun
    exact Keeps.pure ⟨rfl, empty, rfl⟩
  | succ len ih =>
    apply nested.bind
    intro key keyCanonical
    apply nested.bind
    intro value valueCanonical
    apply ih.bind
    rintro pairs ⟨length, carried, normal⟩
    refine Keeps.pure ⟨?_, ?_, ?_⟩
    · rw [List.length_cons, length]
    · have pair := List.forall_mem_append.mpr ⟨keyCanonical.1, valueCanonical.1⟩
      exact List.forall_mem_append.mpr ⟨pair, carried⟩
    · rw [normPairs, keyCanonical.2, valueCanonical.2, normal]

end Members

/-- A frame whose members are read as canonical is read as canonical. -/
theorem answers_readBody {item : Reader Value} {depth : Nat} (shallow : depth ≤ maxNestingDepth)
    (nested : Answers item (CanonicalAt (depth + 1))) (marker : Marker) :
    Answers (readBody item marker) (CanonicalAt depth) := by
  rw [readBody_shape]
  cases shape : shapeOf marker with
  | leaf read => exact (shapeOf_leaf shape).answers shallow
  | array len =>
    apply (shapeOf_array shape).answers.bind
    intro number fits
    apply (answers_readItems nested number).bind
    rintro items ⟨length, carried, normal⟩
    exact Keeps.pure (canonicalAt_array shallow (length ▸ fits) carried normal)
  | map len =>
    apply (shapeOf_map shape).answers.bind
    intro number fits
    apply (answers_readPairs nested number).bind
    rintro pairs ⟨length, carried, normal⟩
    exact Keeps.pure (canonicalAt_map shallow (length ▸ fits) carried normal)

/-- What is read within the levels left stands as deep as the levels taken. -/
theorem answers_readWithin {levels depth : Nat} (below : depth + levels = maxNestingDepth + 1) :
    Answers (readWithin levels) (CanonicalAt depth) := by
  induction levels generalizing depth with
  | zero => exact Keeps.throw
  | succ levels ih =>
    have shallow : depth ≤ maxNestingDepth := by omega
    have nested : Answers (readWithin levels) (CanonicalAt (depth + 1)) := ih (by omega)
    apply (keeps_any spend).bind
    intro _ _
    apply (keeps_any readMarker).bind
    intro marker _
    exact answers_readBody shallow nested marker

/-- Whatever the decoder reads as the sole value of an input is canonical. -/
theorem canonical_of_readSoleValue {bytes : List UInt8} {budget : Option Nat} {value : Value}
    (accepted : ((new bytes).withValueBudget budget).readSoleValue.1 = .ok value) :
    value.CanonicalAt 0 := by
  obtain ⟨left, answered⟩ := (readSoleValue_ok bytes budget value).mp accepted
  have known : Answers (readValueFrom 0) (CanonicalAt 0) := answers_readWithin rfl
  exact known.of_ok answered

end Decoder

/-- Whatever a peer's bytes are read as is encoded again, and read back as itself: by a decoder
without a budget, and by one with the budget it was read within. -/
theorem encode_decoded (bytes : List UInt8) (budget : Option Nat) (value : Value)
    (accepted : ((Decoder.new bytes).withValueBudget budget).readSoleValue.1 = .ok value) :
    ∃ out, Encoder.encode value = .ok out ∧
      (Decoder.new out).readSoleValue.1 = .ok value ∧
      ((Decoder.new out).withValueBudget budget).readSoleValue.1 = .ok value := by
  obtain ⟨carries, normal⟩ := Decoder.canonical_of_readSoleValue accepted
  have checked : value.CheckedAt 0 := ((Value.carries_iff value).mp carries).1
  have readBack : (Decoder.new value.wire).readSoleValue.1 = .ok value := by
    rw [Decoder.readSoleValue_wire value carries, normal]
  refine ⟨value.wire, (Encoder.encode_ok value value.wire).mpr ⟨checked, rfl⟩, readBack, ?_⟩
  cases budget with
  | none => exact readBack
  | some n =>
    obtain ⟨-, within⟩ := (Decoder.readSoleValue_within bytes n value).mp accepted
    exact (Decoder.readSoleValue_within value.wire n value).mpr ⟨readBack, within⟩

/-- An array of a wide `7` and a float32, its length spelled in four bytes, is read and written
again. -/
theorem encode_decoded_wide :
    ∃ out, Encoder.encode (.array [.int 7, .float 0x3ff8000000000000]) = .ok out ∧
      (Decoder.new out).readSoleValue.1 = .ok (.array [.int 7, .float 0x3ff8000000000000]) := by
  have accepted : ((Decoder.new [0xdd, 0, 0, 0, 2, 0xcf, 0, 0, 0, 0, 0, 0, 0, 7, 0xca, 0x3f, 0xc0,
      0, 0]).withValueBudget none).readSoleValue.1 =
      .ok (.array [.int 7, .float 0x3ff8000000000000]) := by rfl
  obtain ⟨out, encoded, readBack, -⟩ := encode_decoded _ _ _ accepted
  exact ⟨out, encoded, readBack⟩

end Kobako.Codec
