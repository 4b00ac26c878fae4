import Kobako.Codec.RoundTrip
import Kobako.Codec.ValueBudget

/-!
# Nesting

Four walks refuse a value that nests too deep: the encoder, the decoder, the check the host makes
before it packs (`Kobako::Codec::Nesting`), and the guest's conversion of its own values
(`Kobako::try_codec_value`). The first three refuse exactly the values with a position past the
bound. The guest's conversion asks of a container itself that it stand above the bound, so it also
refuses an empty one at the bound, which holds nothing that is past it.
-/

namespace Kobako.Codec

open Kobako.Bytes

/-! ## The host's check -/

/-- A value of the host as `Nesting` tells them apart. -/
inductive RubyValue where
  /-- An `Array`. -/
  | array (members : List RubyValue)
  /-- A `Hash`, by its `keys` and its `values`. -/
  | hash (keys values : List RubyValue)
  /-- Any other `Enumerable`. -/
  | enumerable
  /-- A value that is not `Enumerable`. -/
  | other
deriving Repr

namespace RubyValue

/-- Whether `::Enumerable ===` the value. -/
def isEnumerable : RubyValue → Bool
  | array _ => true
  | hash _ _ => true
  | enumerable => true
  | other => false

end RubyValue

namespace Nesting

/-- What `Nesting` raises. -/
def tooDeep : InvalidTypeError :=
  ⟨"value nests deeper than " ++ toString maxNestingDepth ++
    " levels (a reference cycle necessarily does)"⟩

/-- `Nesting.assert_members_within_bound`, `grep` what walking into the members that could be
containers answers. -/
def assertMembersWithinBound (members : List RubyValue) (depth : Nat)
    (grep : Except InvalidTypeError Unit) : Except InvalidTypeError Unit :=
  if members.isEmpty then .ok ()
  else if depth ≥ maxNestingDepth then .error tooDeep
  else if members.any RubyValue.isEnumerable then grep
  else .ok ()

mutual

/-- `Nesting.assert_within_bound`. -/
def assertWithinBound : RubyValue → Nat → Except InvalidTypeError Unit
  | .array members, depth =>
    assertMembersWithinBound members depth (grepMembers members (depth + 1))
  | .hash keys values, depth => do
    assertMembersWithinBound keys depth (grepMembers keys (depth + 1))
    assertMembersWithinBound values depth (grepMembers values (depth + 1))
  | _, _ => .ok ()

/-- The `grep` of `Nesting.assert_members_within_bound`, each member at `depth`. -/
def grepMembers : List RubyValue → Nat → Except InvalidTypeError Unit
  | [], _ => .ok ()
  | member :: members, depth => do
    if member.isEnumerable then assertWithinBound member depth else .ok ()
    grepMembers members depth

end

end Nesting

/-! ## The guest's conversion -/

/-- A value of the guest as `Kobako::try_codec_value` tells them apart. -/
inductive MrbValue where
  /-- An `Integer`, of any size. -/
  | integer (n : Int)
  /-- A `Float`, by its bits. -/
  | float (bits : UInt64)
  /-- A `Kobako::Handle`, by the `Integer` its ivar holds, nothing where it holds no other. -/
  | handle (ivar : Option Int)
  | nil
  | true
  | false
  /-- A `String`, by its bytes. -/
  | string (bytes : List UInt8)
  /-- A `Symbol`, by the bytes of its name. -/
  | symbol (name : List UInt8)
  /-- An `Array`. -/
  | array (items : List MrbValue)
  /-- A `Hash`, by its pairs in order. -/
  | hash (pairs : List (MrbValue × MrbValue))
  /-- A value of any other class. -/
  | object
deriving Repr

namespace Convert

/-- `String::from_utf8`. -/
def utf8? (bytes : List UInt8) : Option String := String.fromUTF8? ⟨bytes.toArray⟩

/-- `convert::integer_to_codec`. -/
def integerToCodec (n : Int) : Option Value :=
  if -2 ^ 63 ≤ n ∧ n < 2 ^ 63 then some (.int (Int64.ofInt n))
  else if 0 ≤ n ∧ n < 2 ^ 64 then some (.uint (UInt64.ofNat n.toNat))
  else none

/-- `convert::string_to_codec`. -/
def stringToCodec (bytes : List UInt8) : Value :=
  match utf8? bytes with
  | some text => .str text
  | none => .bin bytes

/-- `convert::symbol_to_codec`. -/
def symbolToCodec (name : List UInt8) : Option Value := (utf8? name).map .sym

/-- `Kobako::extract_handle_id`: an ivar outside the `i32` range, or a negative one, is no id. -/
def extractHandleId : Option Int → UInt32
  | none => 0
  | some n => if 0 ≤ n ∧ n < 2 ^ 31 then UInt32.ofNat n.toNat else 0

mutual

/-- `Kobako::try_codec_value_at`. -/
def tryCodecValueAt : MrbValue → Nat → Option Value
  | .integer n, _ => integerToCodec n
  | .float bits, _ => some (.float bits)
  | .handle ivar, _ => if extractHandleId ivar = 0 then none else some (.handle (extractHandleId ivar))
  | .nil, _ => some .nil
  | .true, _ => some (.bool Bool.true)
  | .false, _ => some (.bool Bool.false)
  | .string bytes, _ => some (stringToCodec bytes)
  | .symbol name, _ => symbolToCodec name
  | .array items, depth =>
    if depth < maxNestingDepth then (arrayToCodec items (depth + 1)).map .array else none
  | .hash pairs, depth =>
    if depth < maxNestingDepth then (hashToCodec pairs (depth + 1)).map .map else none
  | .object, _ => none

/-- `Kobako::array_to_codec` and the `collect` over it, each element at `depth`. -/
def arrayToCodec : List MrbValue → Nat → Option (List Value)
  | [], _ => some []
  | item :: items, depth =>
    match tryCodecValueAt item depth, arrayToCodec items depth with
    | some item, some items => some (item :: items)
    | _, _ => none

/-- `Kobako::hash_to_codec`, each key and value at `depth`. -/
def hashToCodec : List (MrbValue × MrbValue) → Nat → Option (List (Value × Value))
  | [], _ => some []
  | (key, value) :: pairs, depth =>
    match tryCodecValueAt key depth, tryCodecValueAt value depth, hashToCodec pairs depth with
    | some key, some value, some pairs => some ((key, value) :: pairs)
    | _, _, _ => none

end

/-- `Kobako::try_codec_value`. -/
def tryCodecValue (val : MrbValue) : Option Value := tryCodecValueAt val 0

end Convert

/-! ## One tree on every side -/

namespace Value

mutual

/-- The value of the host a tree stands for. -/
def host : Value → RubyValue
  | array items => .array (hostItems items)
  | map pairs => .hash (hostKeys pairs) (hostValues pairs)
  | _ => .other

/-- The values of the host an array's items stand for. -/
def hostItems : List Value → List RubyValue
  | [] => []
  | item :: items => host item :: hostItems items

/-- The values of the host a map's keys stand for. -/
def hostKeys : List (Value × Value) → List RubyValue
  | [] => []
  | (key, _) :: pairs => host key :: hostKeys pairs

/-- The values of the host a map's values stand for. -/
def hostValues : List (Value × Value) → List RubyValue
  | [] => []
  | (_, value) :: pairs => host value :: hostValues pairs

end

mutual

/-- The value of the guest a tree stands for. -/
def guest : Value → MrbValue
  | nil => .nil
  | bool b => if b then .true else .false
  | int n => .integer n.toInt
  | uint n => .integer n.toNat
  | float bits => .float bits
  | str s => .string (strBytes s)
  | bin bytes => .string bytes
  | array items => .array (guestItems items)
  | map pairs => .hash (guestPairs pairs)
  | sym name => .symbol (strBytes name)
  | handle id => .handle (some id.toNat)

/-- The values of the guest an array's items stand for. -/
def guestItems : List Value → List MrbValue
  | [] => []
  | item :: items => guest item :: guestItems items

/-- The values of the guest a map's pairs stand for. -/
def guestPairs : List (Value × Value) → List (MrbValue × MrbValue)
  | [] => []
  | (key, value) :: pairs => (guest key, guest value) :: guestPairs pairs

end

/-! ## Positions within the bound -/

/-- No position of a list is past the bound. -/
def Shallow (positions : List (Nat × Value)) : Prop :=
  ∀ position ∈ positions, position.1 ≤ maxNestingDepth

/-- A container that holds nothing. -/
def IsEmpty (value : Value) : Prop := value = .array [] ∨ value = .map []

/-- No position of a list is an empty container at the bound. -/
def Roomy (positions : List (Nat × Value)) : Prop :=
  ∀ position ∈ positions, position.1 = maxNestingDepth → ¬ position.2.IsEmpty

/-- Every leaf of a list can be carried, and every count spelled. -/
def Framable (positions : List (Nat × Value)) : Prop :=
  ∀ position ∈ positions, position.2.CountFits ∧ position.2.TextFits

@[simp] theorem shallow_append (front back : List (Nat × Value)) :
    Shallow (front ++ back) ↔ Shallow front ∧ Shallow back := List.forall_mem_append

@[simp] theorem roomy_append (front back : List (Nat × Value)) :
    Roomy (front ++ back) ↔ Roomy front ∧ Roomy back := List.forall_mem_append

theorem shallow_cons (depth : Nat) (value : Value) (positions : List (Nat × Value)) :
    Shallow ((depth, value) :: positions) ↔ depth ≤ maxNestingDepth ∧ Shallow positions :=
  List.forall_mem_cons

theorem roomy_cons (depth : Nat) (value : Value) (positions : List (Nat × Value)) :
    Roomy ((depth, value) :: positions) ↔
      (depth = maxNestingDepth → ¬ value.IsEmpty) ∧ Roomy positions :=
  List.forall_mem_cons

theorem shallow_nil : Shallow [] := fun _ found => absurd found (by simp)

theorem roomy_nil : Roomy [] := fun _ found => absurd found (by simp)

/-- A value stands at its own depth. -/
theorem self_mem_positions (depth : Nat) (value : Value) :
    (depth, value) ∈ value.positions depth := by
  cases value <;> simp [positions]

/-- What can be carried is what can be framed and is not nested too deep. -/
theorem carried_iff (list : List (Nat × Value)) :
    Carried list ↔ Shallow list ∧ Framable list := by
  constructor
  · intro carried
    exact ⟨fun position found => (carried position found).1,
      fun position found => (carried position found).2⟩
  · rintro ⟨shallow, framable⟩ position found
    exact ⟨shallow position found, framable position found⟩

/-- A member past the bound is past it for the whole list. -/
theorem not_shallow_items {depth : Nat} (deep : maxNestingDepth < depth) (item : Value)
    (items : List Value) : ¬ Shallow (itemPositions depth (item :: items)) := by
  intro shallow
  have within := shallow (depth, item)
    (List.mem_append_left _ (self_mem_positions depth item))
  exact absurd within (Nat.not_le.mpr deep)

theorem not_shallow_pairs {depth : Nat} (deep : maxNestingDepth < depth) (pair : Value × Value)
    (pairs : List (Value × Value)) : ¬ Shallow (pairPositions depth (pair :: pairs)) := by
  intro shallow
  obtain ⟨key, value⟩ := pair
  have within := shallow (depth, key)
    (List.mem_append_left _ (List.mem_append_left _ (self_mem_positions depth key)))
  exact absurd within (Nat.not_le.mpr deep)

end Value

/-! ## The host's check -/

namespace Nesting

open Value

/-- One check and then another pass when both do. -/
theorem except_bind_unit (first : Except InvalidTypeError Unit)
    (next : Unit → Except InvalidTypeError Unit) :
    (first >>= next) = .ok () ↔ first = .ok () ∧ next () = .ok () := by
  cases first with
  | error e => simp [bind, Except.bind]
  | ok u => simp [bind, Except.bind]

variable {depth : Nat} {members : List RubyValue}

/-- Members none of which is `Enumerable` are all passed over. -/
theorem grepMembers_plain (plain : members.any RubyValue.isEnumerable = false) :
    grepMembers members depth = .ok () := by
  induction members with
  | nil => rfl
  | cons member members ih =>
    rw [List.any_cons, Bool.or_eq_false_iff] at plain
    rw [grepMembers, plain.1, ih plain.2]
    rfl

/-- Members pass when there are none, or none of them is past the bound or holds what is. -/
theorem assertMembersWithinBound_ok :
    assertMembersWithinBound members depth (grepMembers members (depth + 1)) = .ok () ↔
      members = [] ∨ depth < maxNestingDepth ∧ grepMembers members (depth + 1) = .ok () := by
  unfold assertMembersWithinBound
  cases members with
  | nil => simp
  | cons member members =>
    have held : (member :: members).isEmpty = false := rfl
    rw [held]
    by_cases deep : depth ≥ maxNestingDepth
    · simp [deep, Nat.not_lt.mpr deep]
    · cases found : (member :: members).any RubyValue.isEnumerable with
      | true => simp [deep, Nat.not_le.mp deep]
      | false => simp [deep, Nat.not_le.mp deep, grepMembers_plain found]

/-- A member passes when it is no container or passes on its own. -/
theorem grepMembers_cons_ok {member : RubyValue} :
    grepMembers (member :: members) depth = .ok () ↔
      assertWithinBound member depth = .ok () ∧ grepMembers members depth = .ok () := by
  rw [grepMembers]
  cases member with
  | other => simp [RubyValue.isEnumerable, assertWithinBound, bind, Except.bind]
  | enumerable => simp [RubyValue.isEnumerable, assertWithinBound, bind, Except.bind]
  | array items =>
    cases assertWithinBound (.array items) depth <;>
      simp [RubyValue.isEnumerable, bind, Except.bind]
  | hash keys values =>
    cases assertWithinBound (.hash keys values) depth <;>
      simp [RubyValue.isEnumerable, bind, Except.bind]

mutual

/-- The host's check passes a value exactly when no position of it is past the bound. -/
theorem assertWithinBound_host (value : Value) (depth : Nat) (within : depth ≤ maxNestingDepth) :
    assertWithinBound value.host depth = .ok () ↔ Shallow (value.positions depth) := by
  cases value with
  | array items =>
    rw [Value.host, assertWithinBound, assertMembersWithinBound_ok, positions, shallow_cons]
    cases items with
    | nil => simp [hostItems, itemPositions, shallow_nil, within]
    | cons item items =>
      by_cases room : depth < maxNestingDepth
      · simp [hostItems, room, within, ← grepMembers_hostItems (item :: items) (depth + 1) room]
      · have deep := not_shallow_items (show maxNestingDepth < depth + 1 by omega) item items
        simp [hostItems, room, deep]
  | map pairs =>
    rw [Value.host, assertWithinBound, except_bind_unit, assertMembersWithinBound_ok,
      assertMembersWithinBound_ok, positions, shallow_cons]
    cases pairs with
    | nil => simp [hostKeys, hostValues, pairPositions, shallow_nil, within]
    | cons pair pairs =>
      by_cases room : depth < maxNestingDepth
      · simp [hostKeys, hostValues, room, within,
          ← grepMembers_hostPairs (pair :: pairs) (depth + 1) room]
      · have deep := not_shallow_pairs (show maxNestingDepth < depth + 1 by omega) pair pairs
        simp [hostKeys, hostValues, room, deep]
  | _ => simp [Value.host, assertWithinBound, positions, shallow_cons, shallow_nil, within]

theorem grepMembers_hostItems (items : List Value) (depth : Nat)
    (within : depth ≤ maxNestingDepth) :
    grepMembers (hostItems items) depth = .ok () ↔ Shallow (itemPositions depth items) := by
  match items with
  | [] => simp [hostItems, grepMembers, itemPositions, shallow_nil]
  | item :: items =>
    rw [hostItems, grepMembers_cons_ok, itemPositions, shallow_append,
      assertWithinBound_host item depth within, grepMembers_hostItems items depth within]

theorem grepMembers_hostPairs (pairs : List (Value × Value)) (depth : Nat)
    (within : depth ≤ maxNestingDepth) :
    grepMembers (hostKeys pairs) depth = .ok () ∧ grepMembers (hostValues pairs) depth = .ok () ↔
      Shallow (pairPositions depth pairs) := by
  match pairs with
  | [] => simp [hostKeys, hostValues, grepMembers, pairPositions, shallow_nil]
  | (key, value) :: pairs =>
    rw [hostKeys, hostValues, grepMembers_cons_ok, grepMembers_cons_ok, pairPositions,
      shallow_append, shallow_append, assertWithinBound_host key depth within,
      assertWithinBound_host value depth within, ← grepMembers_hostPairs pairs depth within]
    tauto

end

end Nesting

/-! ## The guest's conversion -/

namespace Convert

open Value

/-- The wire's integers are all ones the guest's conversion carries. -/
theorem isSome_integerToCodec_int (n : Int64) : (integerToCodec n.toInt).isSome := by
  have above : -2 ^ 63 ≤ n.toInt := n.le_toInt
  have below : n.toInt < 2 ^ 63 := n.toInt_lt
  rw [integerToCodec, if_pos ⟨above, below⟩]
  rfl

theorem isSome_integerToCodec_uint (n : UInt64) : (integerToCodec n.toNat).isSome := by
  have below : (n.toNat : Int) < 2 ^ 64 := by exact_mod_cast n.toNat_lt
  have above : (0 : Int) ≤ n.toNat := Int.natCast_nonneg _
  unfold integerToCodec
  split
  · rfl
  · rw [if_pos ⟨above, below⟩]
    rfl

/-- An id in range is read back off the ivar that holds it. -/
theorem extractHandleId_toNat {id : UInt32} (inRange : id ≤ maxHandleId) :
    extractHandleId (some id.toNat) = id := by
  have below : id.toNat ≤ 0x7fffffff := UInt32.le_iff_toNat_le.mp inRange
  have fits : (0 : Int) ≤ id.toNat ∧ (id.toNat : Int) < 2 ^ 31 := by omega
  rw [extractHandleId, if_pos fits, Int.toNat_natCast, UInt32.ofNat_toNat]

/-- A leaf the wire can carry is converted, wherever it stands. -/
theorem isSome_leaf {value : Value} (depth : Nat) (fits : value.CountFits)
    (array : ∀ items, value ≠ .array items) (map : ∀ pairs, value ≠ .map pairs) :
    (tryCodecValueAt value.guest depth).isSome := by
  cases value with
  | nil => rfl
  | bool b => cases b <;> rfl
  | int n =>
    rw [guest, tryCodecValueAt]
    exact isSome_integerToCodec_int n
  | uint n =>
    rw [guest, tryCodecValueAt]
    exact isSome_integerToCodec_uint n
  | float bits => rfl
  | str s => rfl
  | bin bytes => rfl
  | array items => exact absurd rfl (array items)
  | map pairs => exact absurd rfl (map pairs)
  | sym name =>
    rw [guest, tryCodecValueAt, symbolToCodec, utf8?, fromUTF8?_strBytes]
    rfl
  | handle id =>
    have nonzero : id ≠ 0 := by
      rintro rfl
      exact absurd fits.1 (by decide)
    rw [guest, tryCodecValueAt, extractHandleId_toNat fits.2, if_neg nonzero]
    rfl

/-- What the guest's conversion asks of the positions of a list: none past the bound, and no empty
container at it. -/
def Accepted (positions : List (Nat × Value)) : Prop := Shallow positions ∧ Roomy positions

theorem accepted_append (front back : List (Nat × Value)) :
    Accepted (front ++ back) ↔ Accepted front ∧ Accepted back := by
  simp only [Accepted, shallow_append, roomy_append]
  tauto

/-- A leaf within the bound is accepted. -/
theorem accepted_leaf {depth : Nat} {value : Value} (within : depth ≤ maxNestingDepth)
    (array : ∀ items, value ≠ .array items) (map : ∀ pairs, value ≠ .map pairs) :
    Accepted [(depth, value)] := by
  refine ⟨(shallow_cons _ _ _).mpr ⟨within, shallow_nil⟩, (roomy_cons _ _ _).mpr ⟨?_, roomy_nil⟩⟩
  rintro - (empty | empty)
  · exact array [] empty
  · exact map [] empty

mutual

/-- The guest's conversion carries a value of the wire exactly when no position of it is past the
bound and no empty container stands at it. -/
theorem isSome_tryCodecValueAt (value : Value) (depth : Nat) (within : depth ≤ maxNestingDepth)
    (framable : Framable (value.positions depth)) :
    (tryCodecValueAt value.guest depth).isSome ↔ Accepted (value.positions depth) := by
  have fits : value.CountFits := (framable _ (self_mem_positions depth value)).1
  cases value with
  | array items =>
    have members : Framable (itemPositions (depth + 1) items) := (List.forall_mem_cons.mp framable).2
    rw [guest, tryCodecValueAt, positions]
    by_cases room : depth < maxNestingDepth
    · have below : depth ≠ maxNestingDepth := by omega
      rw [if_pos room, Option.isSome_map,
        isSome_arrayToCodec items (depth + 1) room members, Accepted, Accepted, shallow_cons,
        roomy_cons]
      simp [within, below]
    · rw [if_neg room]
      have bound : depth = maxNestingDepth := by omega
      refine ⟨nofun, ?_⟩
      rintro ⟨shallow, roomy⟩
      cases items with
      | nil => exact absurd (Or.inl rfl) (((roomy_cons _ _ _).mp roomy).1 bound)
      | cons item items =>
        exact absurd ((shallow_cons _ _ _).mp shallow).2 (not_shallow_items (by omega) item items)
  | map pairs =>
    have members : Framable (pairPositions (depth + 1) pairs) := (List.forall_mem_cons.mp framable).2
    rw [guest, tryCodecValueAt, positions]
    by_cases room : depth < maxNestingDepth
    · have below : depth ≠ maxNestingDepth := by omega
      rw [if_pos room, Option.isSome_map,
        isSome_hashToCodec pairs (depth + 1) room members, Accepted, Accepted, shallow_cons,
        roomy_cons]
      simp [within, below]
    · rw [if_neg room]
      have bound : depth = maxNestingDepth := by omega
      refine ⟨nofun, ?_⟩
      rintro ⟨shallow, roomy⟩
      cases pairs with
      | nil => exact absurd (Or.inr rfl) (((roomy_cons _ _ _).mp roomy).1 bound)
      | cons pair pairs =>
        exact absurd ((shallow_cons _ _ _).mp shallow).2 (not_shallow_pairs (by omega) pair pairs)
  | _ =>
    exact iff_of_true (isSome_leaf depth fits nofun nofun) (accepted_leaf within nofun nofun)

theorem isSome_arrayToCodec (items : List Value) (depth : Nat) (within : depth ≤ maxNestingDepth)
    (framable : Framable (itemPositions depth items)) :
    (arrayToCodec (guestItems items) depth).isSome ↔ Accepted (itemPositions depth items) := by
  match items with
  | [] => simp [guestItems, arrayToCodec, itemPositions, Accepted, shallow_nil, roomy_nil]
  | item :: items =>
    obtain ⟨first, others⟩ := List.forall_mem_append.mp framable
    rw [itemPositions, accepted_append, ← isSome_tryCodecValueAt item depth within first,
      ← isSome_arrayToCodec items depth within others, guestItems, arrayToCodec]
    cases tryCodecValueAt item.guest depth <;> cases arrayToCodec (guestItems items) depth <;> simp

theorem isSome_hashToCodec (pairs : List (Value × Value)) (depth : Nat)
    (within : depth ≤ maxNestingDepth) (framable : Framable (pairPositions depth pairs)) :
    (hashToCodec (guestPairs pairs) depth).isSome ↔ Accepted (pairPositions depth pairs) := by
  match pairs with
  | [] => simp [guestPairs, hashToCodec, pairPositions, Accepted, shallow_nil, roomy_nil]
  | (key, value) :: pairs =>
    obtain ⟨pair, others⟩ := List.forall_mem_append.mp framable
    obtain ⟨first, second⟩ := List.forall_mem_append.mp pair
    rw [pairPositions, accepted_append, accepted_append,
      ← isSome_tryCodecValueAt key depth within first,
      ← isSome_tryCodecValueAt value depth within second,
      ← isSome_hashToCodec pairs depth within others, guestPairs, hashToCodec]
    cases tryCodecValueAt key.guest depth <;> cases tryCodecValueAt value.guest depth <;>
      cases hashToCodec (guestPairs pairs) depth <;> simp

end

end Convert

/-! ## The decoder -/

namespace Decoder

open Value

variable {α β : Type}

/-- What follows a refusal is refused. -/
theorem refuses_bind {first : Reader α} {next : α → Reader β} {cursor : Cursor}
    (refused : Refuses first cursor) : Refuses (first >>= next) cursor := by
  obtain ⟨e, after, failed⟩ := refused
  refine ⟨e, after, ?_⟩
  show EStateM.bind first next cursor = .error e after
  unfold EStateM.bind
  rw [failed]

/-- A refusal behind an answer. -/
theorem refuses_after {first : Reader α} {next : α → Reader β} {cursor after : Cursor} {a : α}
    (answered : first cursor = .ok a after) (refused : Refuses (next a) after) :
    Refuses (first >>= next) cursor := by
  obtain ⟨e, last, failed⟩ := refused
  exact ⟨e, last, (bind_eq answered).trans failed⟩

mutual

/-- The spelling of a value with a position past the bound is refused. -/
theorem refuses_wire (value : Value) (depth : Nat) (rest : List UInt8)
    (framable : Framable (value.positions depth)) (deep : ¬ Shallow (value.positions depth)) :
    Refuses (readValueFrom depth) ⟨value.wire ++ rest, none⟩ := by
  have fits : value.CountFits := (framable _ (self_mem_positions depth value)).1
  by_cases past : depth > maxNestingDepth
  · rw [readValueFrom_eq, if_pos past]
    exact ⟨_, _, rfl⟩
  · have within : depth ≤ maxNestingDepth := by omega
    unfold Refuses
    rw [readValueFrom_frame depth _ within]
    cases value with
    | array items =>
      have members : Framable (itemPositions (depth + 1) items) :=
        (List.forall_mem_cons.mp framable).2
      have under : ¬ Shallow (itemPositions (depth + 1) items) := fun shallow =>
        deep ((shallow_cons _ _ _).mpr ⟨within, shallow⟩)
      rw [Value.wire, List.append_assoc, readFrame_writeArrayLen _ _ _ _ fits, readArrayBody]
      exact refuses_bind (refuses_wireItems items (depth + 1) rest members under)
    | map pairs =>
      have members : Framable (pairPositions (depth + 1) pairs) :=
        (List.forall_mem_cons.mp framable).2
      have under : ¬ Shallow (pairPositions (depth + 1) pairs) := fun shallow =>
        deep ((shallow_cons _ _ _).mpr ⟨within, shallow⟩)
      rw [Value.wire, List.append_assoc, readFrame_writeMapLen _ _ _ _ fits, readMapBody]
      exact refuses_bind (refuses_wirePairs pairs (depth + 1) rest members under)
    | _ => exact absurd ((shallow_cons _ _ _).mpr ⟨within, shallow_nil⟩) deep

theorem refuses_wireItems (items : List Value) (depth : Nat) (rest : List UInt8)
    (framable : Framable (itemPositions depth items))
    (deep : ¬ Shallow (itemPositions depth items)) :
    Refuses (readItems (readValueFrom depth) items.length)
      ⟨Value.wireItems items ++ rest, none⟩ := by
  match items with
  | [] => exact absurd shallow_nil deep
  | item :: items =>
    obtain ⟨first, others⟩ := List.forall_mem_append.mp framable
    simp only [List.length_cons, readItems, Value.wireItems, List.append_assoc]
    by_cases shallow : Shallow (item.positions depth)
    · have under : ¬ Shallow (itemPositions depth items) := fun still =>
        deep (List.forall_mem_append.mpr ⟨shallow, still⟩)
      have read := readValueFrom_wire item depth (Value.wireItems items ++ rest)
        ((carried_iff _).mpr ⟨shallow, first⟩)
      exact refuses_after read (refuses_bind (refuses_wireItems items depth rest others under))
    · exact refuses_bind (refuses_wire item depth _ first shallow)

theorem refuses_wirePairs (pairs : List (Value × Value)) (depth : Nat) (rest : List UInt8)
    (framable : Framable (pairPositions depth pairs))
    (deep : ¬ Shallow (pairPositions depth pairs)) :
    Refuses (readPairs (readValueFrom depth) pairs.length)
      ⟨Value.wirePairs pairs ++ rest, none⟩ := by
  match pairs with
  | [] => exact absurd shallow_nil deep
  | (key, value) :: pairs =>
    obtain ⟨pair, others⟩ := List.forall_mem_append.mp framable
    obtain ⟨first, second⟩ := List.forall_mem_append.mp pair
    simp only [List.length_cons, readPairs, Value.wirePairs, List.append_assoc]
    by_cases keyed : Shallow (key.positions depth)
    · have read := readValueFrom_wire key depth (value.wire ++ (Value.wirePairs pairs ++ rest))
        ((carried_iff _).mpr ⟨keyed, first⟩)
      apply refuses_after read
      by_cases valued : Shallow (value.positions depth)
      · have under : ¬ Shallow (pairPositions depth pairs) := fun still =>
          deep (List.forall_mem_append.mpr ⟨List.forall_mem_append.mpr ⟨keyed, valued⟩, still⟩)
        have also := readValueFrom_wire value depth (Value.wirePairs pairs ++ rest)
          ((carried_iff _).mpr ⟨valued, second⟩)
        exact refuses_after also (refuses_bind (refuses_wirePairs pairs depth rest others under))
      · exact refuses_bind (refuses_wire value depth _ second valued)
    · exact refuses_bind (refuses_wire key depth _ first keyed)

end

/-- The decoder reads the spelling of a value exactly when no position of it is past the bound. -/
theorem readSoleValue_wire_iff (value : Value) (framable : Framable (value.positions 0)) :
    (∃ read, (new value.wire).readSoleValue.1 = .ok read) ↔ Shallow (value.positions 0) := by
  constructor
  · rintro ⟨read, accepted⟩
    by_contra deep
    obtain ⟨left, answered⟩ := (readSoleValue_ok value.wire none read).mp accepted
    have refused := refuses_wire value 0 [] framable deep
    rw [List.append_nil] at refused
    obtain ⟨e, after, failed⟩ := refused
    rw [failed] at answered
    cases answered
  · intro shallow
    exact ⟨value.norm, readSoleValue_wire value ((carried_iff _).mpr ⟨shallow, framable⟩)⟩

end Decoder

/-! ## The four sides -/

namespace Value

/-- The encoder accepts a value exactly when no position of it is past the bound. -/
theorem encode_iff_shallow (value : Value) (framable : Framable (value.positions 0)) :
    (∃ bytes, Encoder.encode value = .ok bytes) ↔ Shallow (value.positions 0) := by
  constructor
  · rintro ⟨bytes, accepted⟩ position found
    exact (((Encoder.encode_ok value bytes).mp accepted).1 position found).1
  · intro shallow
    refine ⟨value.wire, (Encoder.encode_ok value value.wire).mpr ⟨?_, rfl⟩⟩
    intro position found
    exact ⟨shallow position found, (framable position found).1⟩

/-- The encoder, the decoder, the host's check and the guest's conversion all accept a value or
all refuse it. -/
def SidesAgree (value : Value) : Prop :=
  ((∃ bytes, Encoder.encode value = .ok bytes) ↔
      ∃ read, (Decoder.new value.wire).readSoleValue.1 = .ok read) ∧
    ((∃ read, (Decoder.new value.wire).readSoleValue.1 = .ok read) ↔
      Nesting.assertWithinBound value.host 0 = .ok ()) ∧
    (Nesting.assertWithinBound value.host 0 = .ok () ↔
      (Convert.tryCodecValue value.guest).isSome)

/-- The four sides agree on a value that can be framed exactly when it is past the bound for all
of them, or no empty container of it stands at the bound. -/
theorem sidesAgree_iff (value : Value) (framable : Framable (value.positions 0)) :
    value.SidesAgree ↔ ¬ Shallow (value.positions 0) ∨ Roomy (value.positions 0) := by
  unfold SidesAgree
  rw [encode_iff_shallow value framable, Decoder.readSoleValue_wire_iff value framable,
    Nesting.assertWithinBound_host value 0 (Nat.zero_le _), Convert.tryCodecValue,
    Convert.isSome_tryCodecValueAt value 0 (Nat.zero_le _) framable, Convert.Accepted]
  tauto

/-- A map with an empty list for a key is one all four sides accept. -/
theorem sidesAgree_emptyKey : (Value.map [(.array [], .int 1)]).SidesAgree := by
  have framable : Framable ((Value.map [(.array [], .int 1)]).positions 0) := by
    simp [Framable, positions, pairPositions, itemPositions, CountFits, TextFits, u32Max]
  have roomy : Roomy ((Value.map [(.array [], .int 1)]).positions 0) := by
    simp [Roomy, positions, pairPositions, itemPositions, maxNestingDepth]
  exact (sidesAgree_iff _ framable).mpr (Or.inr roomy)

/-- An empty list inside as many others as `levels` says. -/
def nested : Nat → Value
  | 0 => .array []
  | levels + 1 => .array [nested levels]

theorem framable_nested (levels depth : Nat) : Framable ((nested levels).positions depth) := by
  induction levels generalizing depth with
  | zero => simp [nested, Framable, positions, itemPositions, CountFits, TextFits]
  | succ levels ih =>
    rw [nested, positions, itemPositions, itemPositions, List.append_nil]
    refine List.forall_mem_cons.mpr ⟨?_, ih (depth + 1)⟩
    simp [CountFits, TextFits, u32Max]

theorem shallow_nested (levels depth : Nat) (within : depth + levels ≤ maxNestingDepth) :
    Shallow ((nested levels).positions depth) := by
  induction levels generalizing depth with
  | zero => exact (shallow_cons _ _ _).mpr ⟨within, shallow_nil⟩
  | succ levels ih =>
    rw [nested, positions, itemPositions, itemPositions, List.append_nil]
    exact (shallow_cons _ _ _).mpr ⟨by omega, ih (depth + 1) (by omega)⟩

theorem tryCodecValueAt_nested (levels depth : Nat) (reaches : maxNestingDepth ≤ depth + levels) :
    Convert.tryCodecValueAt (nested levels).guest depth = none := by
  induction levels generalizing depth with
  | zero =>
    have bound : ¬ depth < maxNestingDepth := by omega
    rw [nested, guest, Convert.tryCodecValueAt, if_neg bound]
  | succ levels ih =>
    have inner := ih (depth + 1) (by omega)
    rw [nested, guest, Convert.tryCodecValueAt, guestItems, guestItems, Convert.arrayToCodec, inner]
    simp

/-- An empty list at the bound passes the encoder and the host's check, and the guest's conversion
refuses it. -/
theorem nested_disagree :
    Framable ((nested maxNestingDepth).positions 0) ∧
      (∃ bytes, Encoder.encode (nested maxNestingDepth) = .ok bytes) ∧
      Nesting.assertWithinBound (nested maxNestingDepth).host 0 = .ok () ∧
      Convert.tryCodecValue (nested maxNestingDepth).guest = none ∧
      ¬ (nested maxNestingDepth).SidesAgree := by
  have framable := framable_nested maxNestingDepth 0
  have shallow := shallow_nested maxNestingDepth 0 (Nat.le_of_eq (Nat.zero_add _))
  have encoded := (encode_iff_shallow _ framable).mpr shallow
  have passed := (Nesting.assertWithinBound_host _ 0 (Nat.zero_le _)).mpr shallow
  have refused : Convert.tryCodecValue (nested maxNestingDepth).guest = none :=
    tryCodecValueAt_nested maxNestingDepth 0 (Nat.le_of_eq (Nat.zero_add _).symm)
  refine ⟨framable, encoded, passed, refused, ?_⟩
  intro agree
  have accepted := agree.2.2.mp passed
  rw [refused] at accepted
  cases accepted

end Value

end Kobako.Codec
