import Kobako.Codec.Budget
import Kobako.Layout

/-!
# The host's count of a payload

`Kobako::Codec::ValueBudget`: the host counts the values of a payload over its raw bytes, before
it decodes any, with a running number of values still to come. Both the count and the decoder go
by frames: a frame is a marker with its length field and the body of a value without members, and
it says how many values follow as members.
-/

namespace Kobako.Codec

open Kobako.Bytes

/-! ## Frames -/

/-- How a marker's frame is laid out. -/
structure Frame where
  /-- The bytes of the length field, none where the marker carries the length itself. -/
  width : Nat
  /-- The length of a marker that carries it. -/
  own : Nat
  /-- The bytes of an ext's type. -/
  tag : Nat
  /-- The values one entry of a container holds, none where the length counts bytes. -/
  per : Nat
deriving Repr, DecidableEq

namespace Frame

/-- The length a frame spells, in front of `bytes`. -/
def len (frame : Frame) (bytes : List UInt8) : Nat :=
  if frame.width = 0 then frame.own else ofBe (bytes.take frame.width)

/-- The members a frame announces in front of `bytes` and the bytes after it, unless it is cut
short. -/
def split (frame : Frame) (bytes : List UInt8) : Option (Nat × List UInt8) :=
  if bytes.length < frame.width then none
  else if frame.per = 0 then
    if (bytes.drop frame.width).length < frame.tag + frame.len bytes then none
    else some (0, (bytes.drop frame.width).drop (frame.tag + frame.len bytes))
  else some (frame.len bytes * frame.per, bytes.drop frame.width)

end Frame

namespace Marker

/-- A marker whose body is `own` bytes. -/
def scalar (own : Nat) : Option Frame := some ⟨0, own, 0, 0⟩

/-- The frame of each marker; the reserved one has none. -/
def frame : Marker → Option Frame
  | fixPos _ | fixNeg _ | null | ff | tt => scalar 0
  | u8 | i8 => scalar 1
  | u16 | i16 => scalar 2
  | u32 | i32 | f32 => scalar 4
  | u64 | i64 | f64 => scalar 8
  | fixStr len => scalar len
  | str8 | bin8 => some ⟨1, 0, 0, 0⟩
  | str16 | bin16 => some ⟨2, 0, 0, 0⟩
  | str32 | bin32 => some ⟨4, 0, 0, 0⟩
  | fixExt1 => some ⟨0, 1, 1, 0⟩
  | fixExt2 => some ⟨0, 2, 1, 0⟩
  | fixExt4 => some ⟨0, 4, 1, 0⟩
  | fixExt8 => some ⟨0, 8, 1, 0⟩
  | fixExt16 => some ⟨0, 16, 1, 0⟩
  | ext8 => some ⟨1, 0, 1, 0⟩
  | ext16 => some ⟨2, 0, 1, 0⟩
  | ext32 => some ⟨4, 0, 1, 0⟩
  | fixArray len => some ⟨0, len, 0, 1⟩
  | array16 => some ⟨2, 0, 0, 1⟩
  | array32 => some ⟨4, 0, 0, 1⟩
  | fixMap len => some ⟨0, len, 0, 2⟩
  | map16 => some ⟨2, 0, 0, 2⟩
  | map32 => some ⟨4, 0, 0, 2⟩
  | reserved => none

/-- Every byte is written back by the marker it is read as. -/
theorem toU8_fromU8 (byte : UInt8) : (fromU8 byte).toU8 = byte := by
  have every : ∀ n : Fin 256, (fromU8 (UInt8.ofNat n)).toU8 = UInt8.ofNat n := by
    decide +kernel
  have same := every ⟨byte.toNat, byte.toNat_lt⟩
  rwa [UInt8.ofNat_toNat] at same

end Marker

/-- The frame at the start of the bytes: the members it announces and the bytes after it, nothing
where no frame stands whole. -/
def headOf : List UInt8 → Option (Nat × List UInt8)
  | [] => none
  | byte :: bytes => (Marker.fromU8 byte).frame.bind fun frame => frame.split bytes

/-- The frames a run of values holds whole, `value` telling those of one, and the bytes after the
run unless it is broken off. -/
def walkMembers (value : List UInt8 → Nat × Option (List UInt8)) :
    Nat → List UInt8 → Nat × Option (List UInt8)
  | 0, bytes => (0, some bytes)
  | members + 1, bytes =>
    match value bytes with
    | (held, none) => (held, none)
    | (held, some rest) =>
      ((walkMembers value members rest).1 + held, (walkMembers value members rest).2)

/-- The values the first value of the bytes holds whole, to a number of levels, and the bytes
after it unless it is broken off. A container counts once its own frame is whole, so the values
complete with every member are among them. -/
def walk : Nat → List UInt8 → Nat × Option (List UInt8)
  | 0, _ => (0, none)
  | levels + 1, bytes =>
    match headOf bytes with
    | none => (0, none)
    | some (members, rest) =>
      ((walkMembers (walk levels) members rest).1 + 1,
        (walkMembers (walk levels) members rest).2)

/-! ## The decoder goes by frames -/

namespace Decoder

variable {α β : Type}

/-- A reader that takes exactly `n` bytes whenever it answers. -/
def Consumes (n : Nat) (read : Reader α) : Prop :=
  ∀ cursor a after, read cursor = .ok a after →
    n ≤ cursor.bytes.length ∧ after.bytes = cursor.bytes.drop n

namespace Consumes

theorem pure (a : α) : Consumes 0 (pure a : Reader α) := by
  intro cursor b after answered
  cases answered
  exact ⟨Nat.zero_le _, rfl⟩

theorem throw (n : Nat) (e : Error) : Consumes n (throw e : Reader α) := by
  intro cursor a after answered
  cases answered

theorem bind {n m : Nat} {first : Reader α} {next : α → Reader β} (start : Consumes n first)
    (onward : ∀ a, Consumes m (next a)) : Consumes (n + m) (first >>= next) := by
  intro cursor b last answered
  obtain ⟨a, middle, begun, ended⟩ := bind_answered answered
  obtain ⟨enough, dropped⟩ := start cursor a middle begun
  obtain ⟨more, left⟩ := onward a middle b last ended
  rw [dropped] at more left
  rw [List.length_drop] at more
  rw [List.drop_drop] at left
  exact ⟨by omega, left⟩

/-- What follows takes nothing. -/
theorem then_pure {n : Nat} {first : Reader α} {next : α → Reader β} (start : Consumes n first)
    (onward : ∀ a, Consumes 0 (next a)) : Consumes n (first >>= next) := start.bind onward

theorem take (n : Nat) : Consumes n (take n) := by
  rintro ⟨bytes, budget⟩ a after answered
  rw [take_eq] at answered
  split at answered
  · cases answered
  · rename_i enough
    cases answered
    exact ⟨Nat.not_lt.mp enough, rfl⟩

theorem fromUtf8 (bytes : List UInt8) : Consumes 0 (fromUtf8 bytes) := by
  unfold Decoder.fromUtf8
  split
  · exact Consumes.pure _
  · exact Consumes.throw 0 _

theorem readData (width : Nat) : Consumes width (readData width) :=
  (Consumes.take width).then_pure fun _ => Consumes.pure _

theorem readSigned (width : Nat) : Consumes width (readSigned width) :=
  (Consumes.readData width).then_pure fun _ => Consumes.pure _

theorem readStrBody (len : Nat) : Consumes len (readStrBody len) :=
  (Consumes.take len).then_pure fun bytes =>
    (Consumes.fromUtf8 bytes).then_pure fun _ => Consumes.pure _

theorem readBinBody (len : Nat) : Consumes len (readBinBody len) :=
  (Consumes.take len).then_pure fun _ => Consumes.pure _

theorem readExtOf (ty : UInt8) (len : Nat) : Consumes len (readExtOf ty len) := by
  unfold Decoder.readExtOf
  split
  · exact (Consumes.take len).then_pure fun bytes =>
      (Consumes.fromUtf8 bytes).then_pure fun _ => Consumes.pure _
  · split
    · split
      · exact Consumes.throw len _
      · rename_i four
        have four : len = 4 := Decidable.not_not.mp four
        subst four
        apply (Consumes.take 4).then_pure
        intro bytes
        dsimp only
        split
        · exact Consumes.throw 0 _
        · exact Consumes.pure _
    · exact Consumes.throw len _

theorem readExt (len : Nat) : Consumes (1 + len) (readExt len) := by
  rintro ⟨bytes, budget⟩ value after answered
  cases bytes with
  | nil => cases answered
  | cons ty rest =>
    rw [readExt_cons] at answered
    obtain ⟨enough, left⟩ := Consumes.readExtOf ty len ⟨rest, budget⟩ value after answered
    refine ⟨?_, ?_⟩
    · show 1 + len ≤ rest.length + 1
      dsimp only at enough
      omega
    · rw [left, Nat.add_comm, List.drop_succ_cons]

end Consumes

variable {a : α} {cursor after : Cursor} {marker : Marker}

/-- A frame that carries its own length is split where its reader ends. -/
theorem split_own {own tag : Nat} {read : Reader α} (consumes : Consumes (tag + own) read)
    (answered : read cursor = .ok a after) :
    (⟨0, own, tag, 0⟩ : Frame).split cursor.bytes = some (0, after.bytes) := by
  obtain ⟨enough, left⟩ := consumes cursor a after answered
  have whole : ¬ cursor.bytes.length < tag + own := by omega
  simp [Frame.split, Frame.len, whole, left]

/-- A word is read off as many bytes as it is wide. -/
theorem readData_answered {width len : Nat} (answered : readData width cursor = .ok len after) :
    len = ofBe (cursor.bytes.take width) := by
  obtain ⟨bytes, middle, taken, ended⟩ := bind_answered answered
  obtain ⟨input, budget⟩ := cursor
  rw [take_eq] at taken
  split at taken
  · cases taken
  · cases taken
    cases ended
    rfl

/-- A frame with a length field is split where its reader ends. -/
theorem split_word {width tag : Nat} {body : Nat → Reader α} (field : width ≠ 0)
    (consumes : ∀ len, Consumes (tag + len) (body len))
    (answered : (readData width >>= body) cursor = .ok a after) :
    (⟨width, 0, tag, 0⟩ : Frame).split cursor.bytes = some (0, after.bytes) := by
  obtain ⟨len, middle, read, ended⟩ := bind_answered answered
  obtain ⟨enough, dropped⟩ := Consumes.readData width cursor len middle read
  obtain ⟨more, left⟩ := consumes len middle a after ended
  have spelled : len = ofBe (cursor.bytes.take width) := readData_answered read
  have wide : ¬ cursor.bytes.length < width := by omega
  rw [dropped] at more left
  have whole : ¬ (cursor.bytes.drop width).length < tag + ofBe (cursor.bytes.take width) := by
    rw [← spelled]
    omega
  unfold Frame.split Frame.len
  dsimp only
  rw [if_neg wide, if_neg field, if_pos rfl, if_neg whole, left, spelled]

/-- A body of its own number of bytes, and no type. -/
theorem split_body {own : Nat} {read : Reader α} (consumes : Consumes own read)
    (answered : read cursor = .ok a after) :
    (⟨0, own, 0, 0⟩ : Frame).split cursor.bytes = some (0, after.bytes) := by
  have untagged : Consumes (0 + own) read := by rw [Nat.zero_add]; exact consumes
  exact split_own untagged answered

/-- A body a length field counts, and no type. -/
theorem split_counted {width : Nat} {body : Nat → Reader α} (field : width ≠ 0)
    (consumes : ∀ len, Consumes len (body len))
    (answered : (readData width >>= body) cursor = .ok a after) :
    (⟨width, 0, 0, 0⟩ : Frame).split cursor.bytes = some (0, after.bytes) := by
  have untagged : ∀ len, Consumes (0 + len) (body len) := by
    intro len
    rw [Nat.zero_add]
    exact consumes len
  exact split_word field untagged answered

/-- A container's frame is split in front of its members. -/
theorem split_members {width per len : Nat} (field : width ≠ 0) (holds : per ≠ 0)
    (answered : readData width cursor = .ok len after) :
    (⟨width, 0, 0, per⟩ : Frame).split cursor.bytes = some (len * per, after.bytes) := by
  obtain ⟨enough, dropped⟩ := Consumes.readData width cursor len after answered
  have spelled : len = ofBe (cursor.bytes.take width) := readData_answered answered
  have wide : ¬ cursor.bytes.length < width := by omega
  unfold Frame.split Frame.len
  dsimp only
  rw [if_neg wide, if_neg holds, if_neg field, dropped, spelled]

/-- The frame of a value without members ends where its reader does. -/
theorem split_leaf {read : Reader Value} {value : Value} (leaf : shapeOf marker = .leaf read)
    (answered : read cursor = .ok value after) :
    marker.frame.bind (·.split cursor.bytes) = some (0, after.bytes) := by
  cases marker <;> cases leaf <;> unfold readBody at answered
  case reserved => cases answered
  case u64 =>
    have consumes : Consumes 8 (readData 8 >>= fun word =>
        if UInt64.ofNat word ≤ i64Max then (pure (.int (UInt64.ofNat word).toInt64) : Reader Value)
        else pure (.uint (UInt64.ofNat word))) := by
      apply (Consumes.readData 8).then_pure
      intro word
      split
      · exact Consumes.pure _
      · exact Consumes.pure _
    exact split_body consumes answered
  case fixPos | fixNeg | null | ff | tt => exact split_body (Consumes.pure _) answered
  case f32 | f64 | u8 | u16 | u32 =>
    exact split_body ((Consumes.readData _).then_pure fun _ => Consumes.pure _) answered
  case i8 | i16 | i32 | i64 =>
    exact split_body ((Consumes.readSigned _).then_pure fun _ => Consumes.pure _) answered
  case fixStr => exact split_body (Consumes.readStrBody _) answered
  case str8 | str16 | str32 => exact split_counted (by decide) Consumes.readStrBody answered
  case bin8 | bin16 | bin32 => exact split_counted (by decide) Consumes.readBinBody answered
  case fixExt1 | fixExt2 | fixExt4 | fixExt8 | fixExt16 =>
    exact split_own (Consumes.readExt _) answered
  case ext8 | ext16 | ext32 => exact split_word (by decide) Consumes.readExt answered

/-- The frame of an array ends where its elements start. -/
theorem split_array {len : Reader Nat} {number : Nat} (array : shapeOf marker = .array len)
    (answered : len cursor = .ok number after) :
    marker.frame.bind (·.split cursor.bytes) = some (number, after.bytes) := by
  cases marker <;> cases array
  case fixArray =>
    cases answered
    simp [Marker.frame, Frame.split, Frame.len]
  all_goals
    have split := split_members (by decide) Nat.one_ne_zero answered
    rw [Nat.mul_one] at split
    exact split

/-- The frame of a map ends where its pairs start. -/
theorem split_map {len : Reader Nat} {number : Nat} (map : shapeOf marker = .map len)
    (answered : len cursor = .ok number after) :
    marker.frame.bind (·.split cursor.bytes) = some (number * 2, after.bytes) := by
  cases marker <;> cases map
  case fixMap =>
    cases answered
    simp [Marker.frame, Frame.split, Frame.len]
  all_goals exact split_members (by decide) (by decide) answered

section Walked

variable {item : Reader Value} {value : List UInt8 → Nat × Option (List UInt8)}
  (walked : ∀ cursor v after, item cursor = .ok v after →
    value cursor.bytes = (v.count, some after.bytes))

include walked

theorem walkMembers_items {len : Nat} {cursor after : Cursor} {items : List Value}
    (answered : readItems item len cursor = .ok items after) :
    walkMembers value len cursor.bytes = (Value.countItems items, some after.bytes) := by
  induction len generalizing cursor items with
  | zero => cases answered; rfl
  | succ len ih =>
    obtain ⟨first, middle, begun, more⟩ := bind_answered answered
    obtain ⟨others, last, rest, ended⟩ := bind_answered more
    cases ended
    rw [walkMembers, walked _ _ _ begun]
    dsimp only
    rw [ih rest, Value.countItems, Nat.add_comm]

theorem walkMembers_pairs {len : Nat} {cursor after : Cursor} {pairs : List (Value × Value)}
    (answered : readPairs item len cursor = .ok pairs after) :
    walkMembers value (len * 2) cursor.bytes = (Value.countPairs pairs, some after.bytes) := by
  induction len generalizing cursor pairs with
  | zero => cases answered; rfl
  | succ len ih =>
    obtain ⟨key, keyed, begun, more⟩ := bind_answered answered
    obtain ⟨held, middle, valued, still⟩ := bind_answered more
    obtain ⟨others, last, rest, ended⟩ := bind_answered still
    cases ended
    rw [Nat.succ_mul, walkMembers, walked _ _ _ begun]
    dsimp only
    rw [walkMembers, walked _ _ _ valued]
    dsimp only
    rw [ih rest, Value.countPairs]
    dsimp only
    rw [show Value.countPairs others + held.count + key.count =
      key.count + held.count + Value.countPairs others by omega]

end Walked

/-- Spending leaves the bytes alone. -/
theorem spend_bytes (answered : spend cursor = .ok () after) :
    after.bytes = cursor.bytes := by
  obtain ⟨bytes, budget⟩ := cursor
  match budget with
  | none => cases answered; rfl
  | some 0 => cases answered
  | some (left + 1) => cases answered; rfl

/-- A value the decoder reads is walked to its end, counting what it holds. -/
theorem walk_readWithin {levels : Nat} {value : Value}
    (answered : readWithin levels cursor = .ok value after) :
    walk levels cursor.bytes = (value.count, some after.bytes) := by
  induction levels generalizing cursor after value with
  | zero => cases answered
  | succ levels ih =>
    obtain ⟨_, spent, paid, read⟩ := bind_answered answered
    obtain ⟨marker, marked, first, body⟩ := bind_answered read
    have kept : spent.bytes = cursor.bytes := spend_bytes paid
    obtain ⟨input, budget⟩ := spent
    dsimp only at kept
    subst kept
    cases bytes : cursor.bytes with
    | nil =>
      rw [bytes] at first
      cases first
    | cons byte rest =>
      rw [bytes] at first
      have found : Marker.fromU8 byte = marker ∧ marked = ⟨rest, budget⟩ := by
        cases first
        exact ⟨rfl, rfl⟩
      obtain ⟨rfl, rfl⟩ := found
      have walked : ∀ (next : Cursor) v last, readWithin levels next = .ok v last →
          walk levels next.bytes = (v.count, some last.bytes) := fun _ _ _ => ih
      rw [readBody_shape] at body
      unfold walk headOf
      cases shape : shapeOf (Marker.fromU8 byte) with
      | leaf reader =>
        rw [shape] at body
        have single := leaf_count shape body
        have split := split_leaf shape body
        dsimp only at split ⊢
        rw [split, single]
        rfl
      | array len =>
        rw [shape] at body
        obtain ⟨number, middle, counted, more⟩ := bind_answered body
        obtain ⟨items, last, held, ended⟩ := bind_answered more
        cases ended
        have split := split_array shape counted
        dsimp only at split ⊢
        rw [split]
        dsimp only
        rw [walkMembers_items walked held, Value.count]
      | map len =>
        rw [shape] at body
        obtain ⟨number, middle, counted, more⟩ := bind_answered body
        obtain ⟨pairs, last, held, ended⟩ := bind_answered more
        cases ended
        have split := split_map shape counted
        dsimp only at split ⊢
        rw [split]
        dsimp only
        rw [walkMembers_pairs walked held, Value.count]

end Decoder

/-! ## The host's count -/

/-- `Kobako::Codec::InvalidTypeError`, with the message it carries. -/
structure InvalidTypeError where
  /-- What the error says. -/
  message : String
deriving Repr, DecidableEq

namespace ValueBudget

/-- `ValueBudget::SCALARS`. -/
def SCALARS : Nat → Option Nat
  | 0xc0 => some 0 | 0xc2 => some 0 | 0xc3 => some 0 | 0xca => some 4 | 0xcb => some 8
  | 0xcc => some 1 | 0xcd => some 2 | 0xce => some 4 | 0xcf => some 8
  | 0xd0 => some 1 | 0xd1 => some 2 | 0xd2 => some 4 | 0xd3 => some 8
  | 0xd4 => some 2 | 0xd5 => some 3 | 0xd6 => some 5 | 0xd7 => some 9 | 0xd8 => some 17
  | _ => none

/-- `ValueBudget::COUNTS`. -/
def COUNTS : Nat → Option (Nat × Nat)
  | 0xdc => some (2, 1) | 0xdd => some (4, 1) | 0xde => some (2, 2) | 0xdf => some (4, 2)
  | _ => none

/-- `ValueBudget::LENGTHS`. -/
def LENGTHS : Nat → Option (Nat × Nat)
  | 0xc4 => some (1, 0) | 0xc5 => some (2, 0) | 0xc6 => some (4, 0)
  | 0xd9 => some (1, 0) | 0xda => some (2, 0) | 0xdb => some (4, 0)
  | 0xc7 => some (1, 1) | 0xc8 => some (2, 1) | 0xc9 => some (4, 1)
  | _ => none

/-- `ValueBudget.uint`: a length cut short reads as zero. -/
def uint (bytes : List UInt8) (pos width : Nat) : Nat :=
  let slice := (bytes.drop pos).take width
  if slice.length < width then 0 else ofBe slice

/-- `ValueBudget.step_framed`. -/
def stepFramed (bytes : List UInt8) (pos marker : Nat) : Option Nat × Nat :=
  match SCALARS marker with
  | some body => (some (pos + body), 0)
  | none =>
    match COUNTS marker with
    | some (width, per) => (some (pos + width), uint bytes pos width * per)
    | none =>
      match LENGTHS marker with
      | none => (none, 0)
      | some (width, tag) => (some (pos + width + tag + uint bytes pos width), 0)

/-- `ValueBudget.step`: the position after the value at `pos`, nothing for one the payload cannot
frame, and the values it holds directly. -/
def step (bytes : List UInt8) (pos : Nat) : Option Nat × Nat :=
  match bytes[pos]? with
  | none => (none, 0)
  | some byte =>
    let marker := byte.toNat
    if marker ≤ 0x7f ∨ 0xe0 ≤ marker then (some (pos + 1), 0)
    else if marker ≤ 0x8f then (some (pos + 1), (marker &&& 0x0f) * 2)
    else if marker ≤ 0x9f then (some (pos + 1), marker &&& 0x0f)
    else if marker ≤ 0xbf then (some (pos + 1 + (marker &&& 0x1f)), 0)
    else stepFramed bytes (pos + 1) marker

/-- The loop of `ValueBudget.assert_within` for as many rounds as `fuel` allows: it returns, or
raises what it answers as an error. -/
def loop (bytes : List UInt8) (budget : Nat) :
    Nat → Int → Nat → Nat → Option (Except InvalidTypeError Unit)
  | 0, _, _, _ => none
  | fuel + 1, remaining, pending, pos =>
    if pending = 0 then some (.ok ())
    else match step bytes pos with
      | (none, _) => some (.ok ())
      | (some pos, children) =>
        if remaining - 1 < 0 then
          some (.error ⟨"payload holds more than " ++ toString budget ++ " values"⟩)
        else loop bytes budget fuel (remaining - 1) (pending + children - 1) pos

/-- `ValueBudget.assert_within`. -/
def assertWithin (fuel : Nat) (bytes : List UInt8) :
    Option Nat → Option (Except InvalidTypeError Unit)
  | none => some (.ok ())
  | some budget =>
    if bytes.length ≤ budget then some (.ok ()) else loop bytes budget fuel budget 1 0

/-- The length the host reads of a frame whose marker stands just before `pos`. -/
def lenAt (frame : Frame) (bytes : List UInt8) (pos : Nat) : Nat :=
  if frame.width = 0 then frame.own else uint bytes pos frame.width

variable {bytes : List UInt8}

/-- The step over a marker goes by its frame. -/
theorem step_marker {pos : Nat} {marker : Marker} (found : bytes[pos]? = some marker.toU8) :
    step bytes pos = match marker.frame with
      | none => (none, 0)
      | some frame =>
        (some (pos + 1 + frame.width +
            if frame.per = 0 then frame.tag + lenAt frame bytes (pos + 1) else 0),
          lenAt frame bytes (pos + 1) * frame.per) := by
  unfold step
  rw [found]
  cases marker with
  | fixPos n =>
    have range : ∀ n : Fin 128, (UInt8.ofNat n).toNat ≤ 0x7f := by decide
    dsimp only [Marker.toU8]
    rw [if_pos (Or.inl (range n))]
    rfl
  | fixNeg n =>
    have range : ∀ n : Fin 32, 0xe0 ≤ (UInt8.ofNat (0xe0 + n)).toNat := by decide
    dsimp only [Marker.toU8]
    rw [if_pos (Or.inr (range n))]
    rfl
  | fixMap len =>
    have range : ∀ len : Fin 16, ¬ ((UInt8.ofNat (0x80 + len)).toNat ≤ 0x7f ∨
        0xe0 ≤ (UInt8.ofNat (0x80 + len)).toNat) ∧ (UInt8.ofNat (0x80 + len)).toNat ≤ 0x8f ∧
        (UInt8.ofNat (0x80 + len)).toNat &&& 0x0f = len := by decide
    obtain ⟨inner, low, own⟩ := range len
    dsimp only [Marker.toU8]
    rw [if_neg inner, if_pos low, own]
    rfl
  | fixArray len =>
    have range : ∀ len : Fin 16, ¬ ((UInt8.ofNat (0x90 + len)).toNat ≤ 0x7f ∨
        0xe0 ≤ (UInt8.ofNat (0x90 + len)).toNat) ∧ ¬ (UInt8.ofNat (0x90 + len)).toNat ≤ 0x8f ∧
        (UInt8.ofNat (0x90 + len)).toNat ≤ 0x9f ∧
        (UInt8.ofNat (0x90 + len)).toNat &&& 0x0f = len := by decide
    obtain ⟨inner, above, low, own⟩ := range len
    dsimp only [Marker.toU8]
    rw [if_neg inner, if_neg above, if_pos low, own]
    show _ = (some (pos + 1), (len : Nat) * 1)
    rw [Nat.mul_one]
  | fixStr len =>
    have range : ∀ len : Fin 32, ¬ ((UInt8.ofNat (0xa0 + len)).toNat ≤ 0x7f ∨
        0xe0 ≤ (UInt8.ofNat (0xa0 + len)).toNat) ∧ ¬ (UInt8.ofNat (0xa0 + len)).toNat ≤ 0x8f ∧
        ¬ (UInt8.ofNat (0xa0 + len)).toNat ≤ 0x9f ∧ (UInt8.ofNat (0xa0 + len)).toNat ≤ 0xbf ∧
        (UInt8.ofNat (0xa0 + len)).toNat &&& 0x1f = len := by decide
    obtain ⟨inner, above, beyond, low, own⟩ := range len
    dsimp only [Marker.toU8]
    rw [if_neg inner, if_neg above, if_neg beyond, if_pos low, own]
    show _ = (some (pos + 1 + (0 + (len : Nat))), (len : Nat) * 0)
    rw [Nat.zero_add, Nat.mul_zero]
  | ext8 | ext16 | ext32 =>
    simp [Marker.toU8, Marker.frame, stepFramed, SCALARS, COUNTS, LENGTHS, lenAt]
    omega
  | _ => simp [Marker.toU8, Marker.frame, Marker.scalar, stepFramed, SCALARS, COUNTS, LENGTHS, lenAt,
      Nat.add_assoc]

/-- The host reads the length a frame spells, unless it is cut short. -/
theorem lenAt_eq {frame : Frame} {pos : Nat} (wide : frame.width ≤ (bytes.drop pos).length) :
    lenAt frame bytes pos = frame.len (bytes.drop pos) := by
  have whole : ¬ ((bytes.drop pos).take frame.width).length < frame.width := by
    rw [List.length_take, Nat.min_eq_left wide]
    exact Nat.lt_irrefl _
  unfold lenAt Frame.len uint
  dsimp only
  rw [if_neg whole]

/-- A frame that stands whole at `pos` is stepped over. -/
theorem step_headOf {bytes rest : List UInt8} {pos members : Nat}
    (framed : headOf (bytes.drop pos) = some (members, rest)) :
    ∃ next, step bytes pos = (some next, members) ∧ bytes.drop next = rest := by
  cases ahead : bytes.drop pos with
  | nil =>
    rw [ahead] at framed
    cases framed
  | cons byte after =>
    rw [ahead] at framed
    have found : bytes[pos]? = some (Marker.fromU8 byte).toU8 := by
      rw [Marker.toU8_fromU8, ← List.head?_drop, ahead]
      rfl
    have behind : bytes.drop (pos + 1) = after := by
      rw [← List.drop_drop, ahead]
      rfl
    have stepped := step_marker found
    cases laid : (Marker.fromU8 byte).frame with
    | none => simp [headOf, laid] at framed
    | some frame =>
      rw [laid] at stepped
      dsimp only at stepped
      have whole : frame.split after = some (members, rest) := by
        simpa only [headOf, laid, Option.bind_some] using framed
      unfold Frame.split at whole
      split at whole
      · cases whole
      · rename_i wide
        rw [← behind] at wide
        rw [lenAt_eq (Nat.not_lt.mp wide), behind] at stepped
        split at whole
        · rename_i bare
          split at whole
          · cases whole
          · cases whole
            rw [if_pos bare, bare, Nat.mul_zero] at stepped
            refine ⟨_, stepped, ?_⟩
            simp only [← behind, List.drop_drop, Nat.add_assoc]
        · rename_i holds
          cases whole
          rw [if_neg holds] at stepped
          refine ⟨_, stepped, ?_⟩
          rw [Nat.add_zero, ← List.drop_drop, behind]

/-- A step that goes on starts inside the payload and goes forward. -/
theorem step_advances {pos next children : Nat} (stepped : step bytes pos = (some next, children)) :
    pos < bytes.length ∧ pos < next := by
  cases found : bytes[pos]? with
  | none =>
    unfold step at stepped
    rw [found] at stepped
    cases stepped
  | some byte =>
    refine ⟨(List.getElem?_eq_some_iff.mp found).1, ?_⟩
    have marked : bytes[pos]? = some (Marker.fromU8 byte).toU8 := by
      rw [Marker.toU8_fromU8, found]
    rw [step_marker marked] at stepped
    split at stepped
    · cases stepped
    · cases stepped
      omega

/-! ## The loop -/

section Loop

variable (bytes : List UInt8) (budget : Nat)

/-- What raising answers. -/
def tooMany : Except InvalidTypeError Unit :=
  .error ⟨"payload holds more than " ++ toString budget ++ " values"⟩

/-- The loop ends in `answer`, in some number of rounds. -/
def Answers (remaining : Int) (pending pos : Nat) (answer : Except InvalidTypeError Unit) : Prop :=
  ∃ fuel, loop bytes budget fuel remaining pending pos = some answer

variable {bytes budget} {remaining : Int} {pending pos : Nat}

/-- More rounds than the loop takes change nothing. -/
theorem loop_more {fuel : Nat} {answer : Except InvalidTypeError Unit}
    (ended : loop bytes budget fuel remaining pending pos = some answer) (extra : Nat) :
    loop bytes budget (fuel + extra) remaining pending pos = some answer := by
  induction fuel generalizing remaining pending pos with
  | zero => cases ended
  | succ fuel ih =>
    rw [Nat.succ_add]
    unfold loop at ended ⊢
    split
    · rename_i done
      rw [if_pos done] at ended
      exact ended
    · rename_i more
      rw [if_neg more] at ended
      cases stepped : step bytes pos with
      | mk next children =>
        rw [stepped] at ended
        cases next with
        | none => exact ended
        | some next =>
          dsimp only at ended ⊢
          split
          · rename_i spent
            rw [if_pos spent] at ended
            exact ended
          · rename_i left
            rw [if_neg left] at ended
            exact ih ended

/-- Two answers of the loop are one. -/
theorem Answers.unique {one two : Except InvalidTypeError Unit}
    (first : Answers bytes budget remaining pending pos one)
    (second : Answers bytes budget remaining pending pos two) : one = two := by
  obtain ⟨fuel, ended⟩ := first
  obtain ⟨more, too⟩ := second
  have same := loop_more ended more
  rw [Nat.add_comm, loop_more too fuel] at same
  exact (Option.some.inj same).symm

/-- Each round goes forward, so the loop ends within the bytes left and one round more. -/
theorem loop_ends {fuel : Nat} (enough : bytes.length - pos < fuel) :
    ∃ answer, loop bytes budget fuel remaining pending pos = some answer := by
  induction fuel generalizing remaining pending pos with
  | zero => omega
  | succ fuel ih =>
    unfold loop
    split
    · exact ⟨_, rfl⟩
    · split
      · exact ⟨_, rfl⟩
      · rename_i next children stepped
        obtain ⟨inside, forward⟩ := step_advances stepped
        split
        · exact ⟨_, rfl⟩
        · exact ih (by omega)

/-- A round over a whole frame. -/
theorem answers_step {next children : Nat} {answer : Except InvalidTypeError Unit}
    (stepped : step bytes pos = (some next, children)) (left : 1 ≤ remaining)
    (ended : Answers bytes budget (remaining - 1) (pending + children) next answer) :
    Answers bytes budget remaining (pending + 1) pos answer := by
  obtain ⟨fuel, ended⟩ := ended
  refine ⟨fuel + 1, ?_⟩
  have onward : pending + 1 + children - 1 = pending + children := by omega
  unfold loop
  rw [if_neg (Nat.succ_ne_zero pending)]
  simp only [stepped]
  rw [if_neg (by omega), onward]
  exact ended

/-- A round over a whole frame with nothing left raises. -/
theorem raises_step {next children : Nat} (stepped : step bytes pos = (some next, children))
    (spent : remaining < 1) :
    Answers bytes budget remaining (pending + 1) pos (tooMany budget) := by
  refine ⟨1, ?_⟩
  unfold loop
  rw [if_neg (Nat.succ_ne_zero pending)]
  simp only [stepped]
  rw [if_pos (by omega)]
  rfl

end Loop

/-! ## The count -/

section Count

variable (bytes : List UInt8) (budget : Nat)

/-- The loop follows a walk: with `pending` more values to come after what is walked, it goes on
behind a walk it can pay for, and raises within one it cannot. -/
def Follows (remaining : Int) (pending all pos : Nat) :
    Nat × Option (List UInt8) → Prop
  | (held, after) =>
    (remaining < held → Answers bytes budget remaining all pos (tooMany budget)) ∧
      ∀ rest, after = some rest → (held : Int) ≤ remaining →
        ∃ next, bytes.drop next = rest ∧ ∀ answer,
          Answers bytes budget (remaining - held) pending next answer →
            Answers bytes budget remaining all pos answer

variable {bytes budget}

/-- A walk that stops at once holds nothing to pay for. -/
theorem follows_nothing {remaining : Int} {pending all pos : Nat} (held : 0 ≤ remaining) :
    Follows bytes budget remaining pending all pos (0, none) := by
  refine ⟨?_, ?_⟩
  · intro overspent
    exact absurd held (by simpa using overspent)
  · intro rest same
    cases same

/-- The loop follows a run of values, where it follows each. -/
theorem follows_walkMembers {value : List UInt8 → Nat × Option (List UInt8)}
    (each : ∀ (remaining : Int) pending pos, 0 ≤ remaining →
      Follows bytes budget remaining pending (pending + 1) pos (value (bytes.drop pos)))
    (members : Nat) (remaining : Int) (pending pos : Nat) (held : 0 ≤ remaining) :
    Follows bytes budget remaining pending (pending + members) pos
      (walkMembers value members (bytes.drop pos)) := by
  induction members generalizing remaining pos with
  | zero =>
    refine ⟨?_, ?_⟩
    · intro overspent
      exact absurd held (by simpa using overspent)
    · intro rest same _
      refine ⟨pos, Option.some.inj same, ?_⟩
      intro answer ended
      simpa using ended
  | succ members ih =>
    have first := each remaining (pending + members) pos held
    unfold walkMembers
    cases walked : value (bytes.drop pos) with
    | mk count after =>
      rw [walked] at first
      obtain ⟨poor, onward⟩ := first
      cases after with
      | none =>
        refine ⟨poor, ?_⟩
        intro rest same
        cases same
      | some rest =>
        by_cases enough : (count : Int) ≤ remaining
        · obtain ⟨next, ahead, follow⟩ := onward rest rfl enough
          have left : 0 ≤ remaining - count := by omega
          obtain ⟨overspent, further⟩ := ih (remaining - count) next left
          subst ahead
          dsimp only
          refine ⟨?_, ?_⟩
          · intro short
            exact follow _ (overspent (by omega))
          · intro last same paid
            obtain ⟨final, behind, ended⟩ := further last same (by omega)
            refine ⟨final, behind, ?_⟩
            intro answer answered
            apply follow
            apply ended
            rw [Int.sub_sub, Int.add_comm, ← Int.natCast_add]
            exact answered
        · refine ⟨fun _ => poor (by omega), ?_⟩
          intro last same paid
          omega

/-- The loop follows a value. -/
theorem follows_walk (levels : Nat) (remaining : Int) (pending pos : Nat) (held : 0 ≤ remaining) :
    Follows bytes budget remaining pending (pending + 1) pos (walk levels (bytes.drop pos)) := by
  induction levels generalizing remaining pending pos with
  | zero => exact follows_nothing held
  | succ levels ih =>
    unfold walk
    cases framed : headOf (bytes.drop pos) with
    | none => exact follows_nothing held
    | some head =>
      obtain ⟨members, rest⟩ := head
      obtain ⟨next, stepped, ahead⟩ := step_headOf framed
      subst ahead
      dsimp only
      by_cases left : 1 ≤ remaining
      · obtain ⟨overspent, further⟩ := follows_walkMembers ih members (remaining - 1) pending next
          (by omega)
        refine ⟨?_, ?_⟩
        · intro short
          exact answers_step stepped left (overspent (by omega))
        · intro last same paid
          obtain ⟨final, behind, ended⟩ := further last same (by omega)
          refine ⟨final, behind, ?_⟩
          intro answer answered
          apply answers_step stepped left
          apply ended
          rw [Int.sub_sub, Int.add_comm, ← Int.natCast_one, ← Int.natCast_add]
          exact answered
      · refine ⟨fun _ => raises_step stepped (by omega), ?_⟩
        intro last same paid
        omega

end Count

/-- The bytes a walk left, none where it broke off. -/
def left (walked : Nat × Option (List UInt8)) : Nat := (walked.2.map List.length).getD 0

theorem headOf_length {bytes rest : List UInt8} {members : Nat}
    (framed : headOf bytes = some (members, rest)) : rest.length < bytes.length := by
  cases bytes with
  | nil => cases framed
  | cons byte bytes =>
    obtain ⟨frame, -, whole⟩ := Option.bind_eq_some_iff.mp framed
    have shorter : rest.length ≤ bytes.length := by
      unfold Frame.split at whole
      split at whole
      · cases whole
      · split at whole
        · split at whole
          · cases whole
          · cases whole
            simp only [List.length_drop]
            omega
        · cases whole
          simp only [List.length_drop]
          omega
    rw [List.length_cons]
    omega

theorem walkMembers_length {value : List UInt8 → Nat × Option (List UInt8)}
    (each : ∀ bytes, (value bytes).1 + left (value bytes) ≤ bytes.length) (members : Nat)
    (bytes : List UInt8) :
    (walkMembers value members bytes).1 + left (walkMembers value members bytes) ≤
      bytes.length := by
  induction members generalizing bytes with
  | zero => simp [walkMembers, left]
  | succ members ih =>
    have first := each bytes
    unfold walkMembers
    cases walked : value bytes with
    | mk held after =>
      rw [walked] at first
      cases after with
      | none => exact first
      | some rest =>
        have others := ih rest
        simp only [left, Option.map_some, Option.getD_some] at first others ⊢
        omega

/-- A walk goes through a byte for every value it holds. -/
theorem walk_length (levels : Nat) (bytes : List UInt8) :
    (walk levels bytes).1 + left (walk levels bytes) ≤ bytes.length := by
  induction levels generalizing bytes with
  | zero => simp [walk, left]
  | succ levels ih =>
    unfold walk
    cases framed : headOf bytes with
    | none => simp [left]
    | some head =>
      obtain ⟨members, rest⟩ := head
      have shorter := headOf_length framed
      have others := walkMembers_length ih members rest
      dsimp only [left] at others ⊢
      omega

/-- What the decoder reads holds no more values than the payload has bytes. -/
theorem count_walk {value : Value} (read : (Decoder.new bytes).readSoleValue.1 = .ok value) :
    walk (maxNestingDepth + 1) bytes = (value.count, some []) := by
  obtain ⟨budget, answered⟩ := (Decoder.readSoleValue_ok bytes none value).mp read
  exact Decoder.walk_readWithin answered

/-- The host's count ends on every payload. On one the decoder reads it raises exactly when the
decoder with the same budget refuses, and where it does not raise, on any payload at all, no more
than the budget's number of values stand whole in the first one. -/
theorem assertWithin_counts (bytes : List UInt8) (n : Nat) :
    ∃ answer, (∀ fuel, bytes.length < fuel → assertWithin fuel bytes (some n) = some answer) ∧
      (∀ value, (Decoder.new bytes).readSoleValue.1 = .ok value →
        (answer ≠ .ok () ↔
          ∀ read, ((Decoder.new bytes).withValueBudget (some n)).readSoleValue.1 ≠ .ok read)) ∧
      (answer = .ok () → ∀ levels, (walk levels bytes).1 ≤ n) := by
  have budgeted : ∀ value, (Decoder.new bytes).readSoleValue.1 = .ok value →
      ((∀ read, ((Decoder.new bytes).withValueBudget (some n)).readSoleValue.1 ≠ .ok read) ↔
        n < value.count) := by
    intro value read
    have exact := Decoder.readSoleValue_within bytes n
    constructor
    · intro refused
      by_contra enough
      exact refused value ((exact value).mpr ⟨read, Nat.not_lt.mp enough⟩)
    · intro overspent found accepted
      obtain ⟨plain, fits⟩ := (exact found).mp accepted
      have same : value = found := by
        rw [read] at plain
        exact Except.ok.inj plain
      subst same
      omega
  by_cases short : bytes.length ≤ n
  · have few : ∀ levels, (walk levels bytes).1 ≤ n := by
      intro levels
      have bound := walk_length levels bytes
      omega
    refine ⟨.ok (), ?_, ?_, fun _ => few⟩
    · intro fuel _
      rw [assertWithin, if_pos short]
    · intro value read
      rw [budgeted value read]
      have held := few (maxNestingDepth + 1)
      rw [count_walk read] at held
      simp only [ne_eq, not_true_eq_false, false_iff]
      exact Nat.not_lt.mpr held
  · have follows : ∀ levels, Follows bytes n n 0 1 0 (walk levels bytes) := fun levels =>
      follows_walk levels n 0 0 (Int.natCast_nonneg n)
    have ends : ∃ answer, loop bytes n (bytes.length + 1) n 1 0 = some answer :=
      loop_ends (by omega)
    obtain ⟨answer, ended⟩ := ends
    have answered : Answers bytes n n 1 0 answer := ⟨_, ended⟩
    refine ⟨answer, ?_, ?_, ?_⟩
    · intro fuel enough
      obtain ⟨extra, rfl⟩ := Nat.exists_eq_add_of_le enough
      rw [assertWithin, if_neg short]
      exact loop_more ended extra
    · intro value read
      rw [budgeted value read]
      have walked := follows (maxNestingDepth + 1)
      rw [count_walk read] at walked
      obtain ⟨overspent, onward⟩ := walked
      constructor
      · intro raised
        by_contra enough
        apply raised
        obtain ⟨next, -, follow⟩ := onward [] rfl (by omega)
        exact answered.unique (follow _ ⟨1, rfl⟩)
      · intro many
        rw [answered.unique (overspent (by omega))]
        exact nofun
    · intro passed levels
      by_contra many
      have raised := (follows levels).1 (by omega)
      rw [answered.unique raised] at passed
      cases passed

end ValueBudget

end Kobako.Codec
