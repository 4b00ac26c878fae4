import Kobako.Codec.Value
import Kobako.OrderedMap
import Mathlib.Logic.Relation

/-!
# Handles in host values

A value of the host crosses to the guest with each object the wire cannot carry replaced by a
Handle of the invocation's table, and what comes back has each Handle replaced by the object it
names. The walk out allocates one Handle for each such leaf in the order it meets them, and the
walk back with the same table, or one allocated from since, restores the value it was given.
-/

namespace Kobako.HandleWalk

open Kobako.Codec (maxNestingDepth)

/-- The objects of the host that `reject_unwrappable` tells apart. -/
inductive Kind where
  | binding
  | method
  | unboundMethod
  | module
  | delegator
  /-- Any other object. -/
  | plain
  deriving DecidableEq, Repr

/-- A value of the host, its objects by identity. -/
inductive HostValue (ο : Type) where
  | nil
  | bool (b : Bool)
  | int (n : Int)
  | float (bits : UInt64)
  | str (text : String)
  | sym (name : String)
  /-- A `Kobako::Handle`. -/
  | handle (id : Nat)
  /-- Any other object, by its kind and its identity. -/
  | object (kind : Kind) (identity : ο)
  | array (elements : List (HostValue ο))
  /-- A `Hash`, its pairs in their order. -/
  | hash (pairs : List (HostValue ο × HostValue ο))
  deriving Repr

/-- Why a walk raises. -/
inductive Refusal where
  /-- `a #run argument nests deeper than 128 levels within the Run payload and cannot cross`. -/
  | nesting
  /-- `a Hash passed to #run has a key that cannot cross the sandbox boundary`. -/
  | key
  /-- `a … cannot cross as a Capability Handle`. -/
  | unwrappable (kind : Kind)
  /-- `Out of handle allocations`. -/
  | exhausted
  /-- `unknown Handle id`. -/
  | unknown (id : Nat)
  deriving DecidableEq, Repr

/-! ## The table -/

/-- `Handle::MAX_ID`. -/
def maxId : Nat := 0x7fffffff

/-- `Catalog::Handles`: each id with the object it names; ids are handed out ascending from 1. -/
structure Handles (ο : Type) where
  /-- `@entries`, each Exposure told by its object. -/
  entries : OrderedMap Nat (HostValue ο)
  /-- `@next_id`. -/
  nextId : Nat
  /-- Ids start at 1. -/
  positive : 1 ≤ nextId
  /-- No id is handed out ahead. -/
  fresh : ∀ id, nextId ≤ id → entries.get id = none

variable {ο : Type}

namespace Handles

/-- The table with one more object, under the next id. -/
def push (handles : Handles ο) (object : HostValue ο) : Handles ο where
  entries := handles.entries.insert handles.nextId object
  nextId := handles.nextId + 1
  positive := by omega
  fresh := by
    intro id above
    rw [OrderedMap.get_insert_of_ne _ _ (by omega)]
    exact handles.fresh id (by omega)

/-- `Handles#reject_unwrappable`. -/
def rejectUnwrappable : HostValue ο → Except Refusal Unit
  | .object .plain _ => .ok ()
  | .object kind _ => .error (.unwrappable kind)
  | _ => .ok ()

/-- `Handles#alloc`: the Handle of an object, and the table that holds it. -/
def alloc (handles : Handles ο) (object : HostValue ο) :
    Except Refusal (HostValue ο × Handles ο) := do
  rejectUnwrappable object
  if handles.nextId > maxId then .error .exhausted
  else .ok (.handle handles.nextId, handles.push object)

/-- `Handles#fetch`. -/
def fetch (handles : Handles ο) (id : Nat) : Except Refusal (HostValue ο) :=
  match handles.entries.get id with
  | some object => .ok object
  | none => .error (.unknown id)

end Handles

/-! ## The walks -/

/-- `HandleWalk.primitive_type?`. -/
def primitiveType : HostValue ο → Bool
  | .nil | .bool _ | .float _ | .str _ | .sym _ | .handle _ => true
  | .int n => -2 ^ 63 ≤ n && n ≤ 2 ^ 64 - 1
  | _ => false

mutual

/-- `HandleWalk.representable?`. -/
def representable (depth : Nat) : HostValue ο → Bool
  | .array elements => depth ≤ maxNestingDepth && representableElements (depth + 1) elements
  | .hash pairs => depth ≤ maxNestingDepth && representablePairs (depth + 1) pairs
  | leaf => depth ≤ maxNestingDepth && primitiveType leaf

/-- The elements of `HandleWalk.container_representable?`, each at `depth`. -/
def representableElements (depth : Nat) : List (HostValue ο) → Bool
  | [] => true
  | element :: elements => representable depth element && representableElements depth elements

/-- The pairs of `HandleWalk.container_representable?`, each member at `depth`. -/
def representablePairs (depth : Nat) : List (HostValue ο × HostValue ο) → Bool
  | [] => true
  | (key, value) :: pairs =>
    representable depth key && representable depth value && representablePairs depth pairs

end

variable (eql : HostValue ο → HostValue ο → Bool)

/-- `Hash#[]=`, `eql` telling whether a key stands for another. -/
def store (pairs : List (HostValue ο × HostValue ο)) (key value : HostValue ο) :
    List (HostValue ο × HostValue ο) :=
  if pairs.any (fun pair => eql pair.1 key) then
    pairs.map fun pair => if eql pair.1 key then (pair.1, value) else pair
  else pairs ++ [(key, value)]

mutual

/-- `HandleWalk.deep_wrap`. -/
def deepWrap (value : HostValue ο) (handles : Handles ο) (depth : Nat) :
    Except Refusal (HostValue ο × Handles ο) :=
  if depth > maxNestingDepth then .error .nesting
  else match value with
    | .array elements => do
      let (wrapped, handles) ← deepWrapElements elements handles (depth + 1)
      .ok (.array wrapped, handles)
    | .hash pairs => do
      let (wrapped, handles) ← deepWrapHash [] pairs handles (depth + 1)
      .ok (.hash wrapped, handles)
    | leaf => if representable 0 leaf then .ok (leaf, handles) else handles.alloc leaf

/-- The `map` of `HandleWalk.deep_wrap`, each element at `depth`. -/
def deepWrapElements (elements : List (HostValue ο)) (handles : Handles ο) (depth : Nat) :
    Except Refusal (List (HostValue ο) × Handles ο) :=
  match elements with
  | [] => .ok ([], handles)
  | element :: elements => do
    let (wrapped, handles) ← deepWrap element handles depth
    let (others, handles) ← deepWrapElements elements handles depth
    .ok (wrapped :: others, handles)

/-- The loop of `HandleWalk.deep_wrap_hash`, with what it wrapped so far, each member at
`depth`. -/
def deepWrapHash (wrapped pairs : List (HostValue ο × HostValue ο)) (handles : Handles ο)
    (depth : Nat) : Except Refusal (List (HostValue ο × HostValue ο) × Handles ο) :=
  match pairs with
  | [] => .ok (wrapped, handles)
  | (key, value) :: pairs =>
    if representable depth key then do
      let (value, handles) ← deepWrap value handles depth
      deepWrapHash (store eql wrapped key value) pairs handles depth
    else .error .key

end

mutual

/-- `HandleWalk.deep_restore`. -/
def deepRestore (handles : Handles ο) : HostValue ο → Except Refusal (HostValue ο)
  | .array elements => do
    let restored ← deepRestoreElements handles elements
    .ok (.array restored)
  | .hash pairs => do
    let restored ← deepRestoreHash handles [] pairs
    .ok (.hash restored)
  | .handle id => handles.fetch id
  | leaf => .ok leaf

/-- The `map` of `HandleWalk.deep_restore`. -/
def deepRestoreElements (handles : Handles ο) :
    List (HostValue ο) → Except Refusal (List (HostValue ο))
  | [] => .ok []
  | element :: elements => do
    let restored ← deepRestore handles element
    let others ← deepRestoreElements handles elements
    .ok (restored :: others)

/-- The `to_h` of `HandleWalk.deep_restore`, with what it restored so far. -/
def deepRestoreHash (handles : Handles ο) (restored : List (HostValue ο × HostValue ο)) :
    List (HostValue ο × HostValue ο) → Except Refusal (List (HostValue ο × HostValue ο))
  | [] => .ok restored
  | (key, value) :: pairs => do
    let key ← deepRestore handles key
    let value ← deepRestore handles value
    deepRestoreHash handles (store eql restored key value) pairs

end

/-! ## The values that cross -/

mutual

/-- No Handle stands in the value, and the keys of each Hash are apart. -/
def Plain : HostValue ο → Prop
  | .array elements => PlainElements elements
  | .hash pairs => PlainPairs pairs ∧ pairs.Pairwise fun first second => eql first.1 second.1 = false
  | .handle _ => False
  | _ => True

/-- Each element is plain. -/
def PlainElements : List (HostValue ο) → Prop
  | [] => True
  | element :: elements => Plain element ∧ PlainElements elements

/-- Each key and value is plain. -/
def PlainPairs : List (HostValue ο × HostValue ο) → Prop
  | [] => True
  | (key, value) :: pairs => Plain key ∧ Plain value ∧ PlainPairs pairs

end

mutual

/-- The value nests within the bound, its keys are representable and its objects may be named by a
Handle. -/
def Crosses (depth : Nat) : HostValue ο → Prop
  | .array elements => depth ≤ maxNestingDepth ∧ CrossesElements (depth + 1) elements
  | .hash pairs => depth ≤ maxNestingDepth ∧ CrossesPairs (depth + 1) pairs
  | .object kind _ => depth ≤ maxNestingDepth ∧ kind = .plain
  | _ => depth ≤ maxNestingDepth

/-- Each element crosses at `depth`. -/
def CrossesElements (depth : Nat) : List (HostValue ο) → Prop
  | [] => True
  | element :: elements => Crosses depth element ∧ CrossesElements depth elements

/-- Each key is representable and each value crosses at `depth`. -/
def CrossesPairs (depth : Nat) : List (HostValue ο × HostValue ο) → Prop
  | [] => True
  | (key, value) :: pairs =>
    representable depth key = true ∧ Crosses depth value ∧ CrossesPairs depth pairs

end

mutual

/-- The leaves the wire cannot carry, each time one stands in the value, in the order of the
walk. -/
def leaves : HostValue ο → List (HostValue ο)
  | .array elements => leavesElements elements
  | .hash pairs => leavesPairs pairs
  | leaf => if primitiveType leaf then [] else [leaf]

/-- The leaves of each element. -/
def leavesElements : List (HostValue ο) → List (HostValue ο)
  | [] => []
  | element :: elements => leaves element ++ leavesElements elements

/-- The leaves of each value; keys have none. -/
def leavesPairs : List (HostValue ο × HostValue ο) → List (HostValue ο)
  | [] => []
  | (_, value) :: pairs => leaves value ++ leavesPairs pairs

end

/-! ## What a walk allocates -/

namespace Handles

/-- The table after the objects were allocated: each under the next id in order, and nothing else
changed. -/
structure Allocated (handles : Handles ο) (objects : List (HostValue ο)) (next : Handles ο) :
    Prop where
  /-- One id for each. -/
  nextId : next.nextId = handles.nextId + objects.length
  /-- Each new id names its object. -/
  names : ∀ index, next.entries.get (handles.nextId + index) = objects[index]?
  /-- Each id handed out before names what it did. -/
  keeps : ∀ id < handles.nextId, next.entries.get id = handles.entries.get id

/-- A table whose ids below a bound name what they did. -/
def Agrees (bound : Nat) (handles next : Handles ο) : Prop :=
  ∀ id < bound, next.entries.get id = handles.entries.get id

/-- One table allocated from another, any number of times. -/
def Grows : Handles ο → Handles ο → Prop :=
  Relation.ReflTransGen fun handles next => ∃ object given, handles.alloc object = .ok (given, next)

/-- Nothing allocated changes nothing. -/
theorem Allocated.nil (handles : Handles ο) : handles.Allocated [] handles := by
  refine ⟨rfl, fun index => ?_, fun id _ => rfl⟩
  rw [handles.fresh _ (by omega)]
  rfl

/-- One object allocated. -/
theorem Allocated.push (handles : Handles ο) (object : HostValue ο) :
    handles.Allocated [object] (handles.push object) := by
  refine ⟨rfl, fun index => ?_, fun id below => ?_⟩
  · cases index with
    | zero => exact OrderedMap.get_insert_self _ _ _
    | succ index =>
      rw [Handles.push, OrderedMap.get_insert_of_ne _ _ (by omega), handles.fresh _ (by omega)]
      rfl
  · rw [Handles.push, OrderedMap.get_insert_of_ne _ _ (by omega)]

/-- Objects allocated after others. -/
theorem Allocated.append {handles middle next : Handles ο} {first second : List (HostValue ο)}
    (before : handles.Allocated first middle) (after : middle.Allocated second next) :
    handles.Allocated (first ++ second) next := by
  have moved := before.nextId
  refine ⟨?_, fun index => ?_, fun id below => ?_⟩
  · rw [after.nextId, moved, List.length_append, Nat.add_assoc]
  · by_cases early : index < first.length
    · rw [List.getElem?_append_left early, after.keeps _ (by omega), before.names]
    · rw [List.getElem?_append_right (by omega), ← after.names, moved]
      congr 1
      omega
  · rw [after.keeps _ (by omega), before.keeps _ below]

/-- What agrees with a table agrees with those it was allocated from. -/
theorem Allocated.agrees {handles next later : Handles ο} {objects : List (HostValue ο)}
    (allocated : handles.Allocated objects next) (agrees : Agrees next.nextId next later) :
    Agrees handles.nextId handles later := by
  intro id below
  have more := allocated.nextId
  rw [agrees id (by omega), allocated.keeps id below]

/-- An allocation is refused of an unwrappable object and of a full table. -/
theorem alloc_eq_ok {handles next : Handles ο} {object given : HostValue ο} :
    handles.alloc object = .ok (given, next) ↔ rejectUnwrappable object = .ok () ∧
      handles.nextId ≤ maxId ∧ given = .handle handles.nextId ∧ next = handles.push object := by
  rw [alloc]
  cases rejected : rejectUnwrappable object with
  | error refused => simp [bind, Except.bind]
  | ok _ =>
    by_cases full : handles.nextId > maxId
    · have none : ¬handles.nextId ≤ maxId := by omega
      simp [bind, Except.bind, full, none]
    · have room : handles.nextId ≤ maxId := by omega
      simp [bind, Except.bind, full, room, eq_comm]

/-- A table allocated from keeps every id it handed out. -/
theorem Grows.agrees {handles next : Handles ο} (grows : handles.Grows next) :
    Agrees handles.nextId handles next ∧ handles.nextId ≤ next.nextId := by
  induction grows with
  | refl => exact ⟨fun _ _ => rfl, le_rfl⟩
  | @tail middle _ _ taken ih =>
    obtain ⟨object, given, allocates⟩ := taken
    obtain ⟨_, _, _, rfl⟩ := alloc_eq_ok.mp allocates
    have pushed := Allocated.push middle object
    have more := pushed.nextId
    refine ⟨fun id below => ?_, ?_⟩
    · rw [pushed.keeps id (by omega), ih.1 id below]
    · rw [more]
      omega

end Handles

/-! ## Back again -/

/-- A key apart from those stored is stored last. -/
theorem store_apart {pairs : List (HostValue ο × HostValue ο)} {key : HostValue ο}
    (apart : ∀ pair ∈ pairs, eql pair.1 key = false) (value : HostValue ο) :
    store eql pairs key value = pairs ++ [(key, value)] := by
  have absent : pairs.any (fun pair => eql pair.1 key) = false := by
    rw [List.any_eq_false]
    intro pair mem
    simp [apart pair mem]
  rw [store, absent]
  rfl

/-- A key apart from all that follow it, stored behind keys apart from it and them, leaves them
apart. -/
theorem apart_push {stored pairs : List (HostValue ο × HostValue ο)}
    {pair : HostValue ο × HostValue ο} (value : HostValue ο)
    (apart : ∀ first ∈ stored, ∀ second ∈ pair :: pairs, eql first.1 second.1 = false)
    (keys : (pair :: pairs).Pairwise fun first second => eql first.1 second.1 = false) :
    ∀ first ∈ stored ++ [(pair.1, value)], ∀ second ∈ pairs, eql first.1 second.1 = false := by
  intro first mem second later
  rcases List.mem_append.mp mem with older | newest
  · exact apart first older second (List.mem_cons_of_mem _ later)
  · rw [List.mem_singleton.mp newest]
    exact (List.pairwise_cons.mp keys).1 second later

mutual

/-- A plain value is restored as it is. -/
theorem deepRestore_plain (handles : Handles ο) (value : HostValue ο) (plain : Plain eql value) :
    deepRestore eql handles value = .ok value := by
  cases value with
  | array elements =>
    rw [deepRestore, deepRestoreElements_plain handles elements plain]
    rfl
  | hash pairs =>
    rw [deepRestore, deepRestoreHash_plain handles [] pairs plain.1 (by simp) plain.2]
    rfl
  | handle id => exact plain.elim
  | _ => rfl

/-- Plain elements are restored as they are. -/
theorem deepRestoreElements_plain (handles : Handles ο) (elements : List (HostValue ο))
    (plain : PlainElements eql elements) :
    deepRestoreElements eql handles elements = .ok elements := by
  cases elements with
  | nil => rfl
  | cons element elements =>
    rw [deepRestoreElements, deepRestore_plain handles element plain.1,
      deepRestoreElements_plain handles elements plain.2]
    rfl

/-- Plain pairs are restored as they are, behind what was restored before. -/
theorem deepRestoreHash_plain (handles : Handles ο)
    (restored pairs : List (HostValue ο × HostValue ο)) (plain : PlainPairs eql pairs)
    (apart : ∀ first ∈ restored, ∀ second ∈ pairs, eql first.1 second.1 = false)
    (keys : pairs.Pairwise fun first second => eql first.1 second.1 = false) :
    deepRestoreHash eql handles restored pairs = .ok (restored ++ pairs) := by
  cases pairs with
  | nil => simp [deepRestoreHash]
  | cons pair pairs =>
    obtain ⟨key, value⟩ := pair
    have stored := store_apart eql (fun first mem => apart first mem (key, value) (by simp)) value
    have rest := deepRestoreHash_plain handles (restored ++ [(key, value)]) pairs plain.2.2
      (apart_push eql value apart keys) (List.pairwise_cons.mp keys).2
    rw [deepRestoreHash, deepRestore_plain handles key plain.1,
      deepRestore_plain handles value plain.2.1]
    simp only [bind, Except.bind, stored, rest]
    simp

end

/-- What a walk out answers: the value wrapped, of parts the wire carries, and the table it
allocated from, with which the value is restored however much is allocated later. -/
structure Wrapped (handles : Handles ο) (depth : Nat) (value wrapped : HostValue ο)
    (next : Handles ο) : Prop where
  /-- The walk answers. -/
  wraps : deepWrap eql value handles depth = .ok (wrapped, next)
  /-- The wire carries what it answers. -/
  carried : representable depth wrapped = true
  /-- One id was allocated for each leaf. -/
  allocated : handles.Allocated (leaves value) next
  /-- The walk back restores the value. -/
  restores : ∀ later, Handles.Agrees next.nextId next later →
    deepRestore eql later wrapped = .ok value

/-- A leaf of a type the wire carries crosses as it is. -/
theorem wrapped_primitive {handles : Handles ο} {depth : Nat} {leaf : HostValue ο}
    (shallow : depth ≤ maxNestingDepth) (plain : Plain eql leaf) (primitive : primitiveType leaf) :
    Wrapped eql handles depth leaf leaf handles := by
  have restores : ∀ later, Handles.Agrees handles.nextId handles later →
      deepRestore eql later leaf = .ok leaf := fun later _ => deepRestore_plain eql later leaf plain
  cases leaf with
  | array elements => cases primitive
  | hash pairs => cases primitive
  | object kind identity => cases primitive
  | handle id => exact plain.elim
  | _ =>
    refine ⟨?_, ?_, ?_, restores⟩
    · simp [deepWrap, Nat.not_lt.mpr shallow, representable, primitive]
    · simpa [representable, shallow] using primitive
    · simpa [leaves, primitive] using Handles.Allocated.nil handles

/-- A leaf the wire cannot carry crosses as the Handle allocated for it. -/
theorem wrapped_leaf {handles : Handles ο} {depth : Nat} {leaf : HostValue ο}
    (shallow : depth ≤ maxNestingDepth) (other : primitiveType leaf = false)
    (single : (∃ n, leaf = .int n) ∨ ∃ identity, leaf = .object .plain identity)
    (room : handles.nextId ≤ maxId) :
    Wrapped eql handles depth leaf (.handle handles.nextId) (handles.push leaf) := by
  have rejects : Handles.rejectUnwrappable leaf = .ok () := by
    rcases single with ⟨n, rfl⟩ | ⟨identity, rfl⟩ <;> rfl
  have leafs : leaves leaf = [leaf] := by
    rcases single with ⟨n, rfl⟩ | ⟨identity, rfl⟩ <;> simp [leaves, other]
  have allocates := Handles.alloc_eq_ok.mpr ⟨rejects, room, rfl, rfl⟩
  have pushed := Handles.Allocated.push handles leaf
  refine ⟨?_, ?_, leafs ▸ pushed, fun later agrees => ?_⟩
  · rcases single with ⟨n, rfl⟩ | ⟨identity, rfl⟩ <;>
      simp [deepWrap, Nat.not_lt.mpr shallow, representable, other, allocates]
  · simpa [representable, primitiveType] using shallow
  · have named : later.entries.get handles.nextId = some leaf := by
      rw [agrees handles.nextId (by rw [pushed.nextId]; simp)]
      exact OrderedMap.get_insert_self _ _ _
    simp [deepRestore, Handles.fetch, named]

mutual

/-- A value that crosses is wrapped, and restored with the table that wrapped it. -/
theorem wrapped_value (handles : Handles ο) (depth : Nat) (value : HostValue ο)
    (plain : Plain eql value) (crosses : Crosses depth value)
    (room : handles.nextId + (leaves value).length ≤ maxId + 1) :
    ∃ wrapped next, Wrapped eql handles depth value wrapped next := by
  cases value with
  | array elements =>
    obtain ⟨shallow, inside⟩ := crosses
    obtain ⟨wrapped, next, wraps, carried, allocated, restores⟩ :=
      wrapped_elements handles (depth + 1) elements plain inside room
    refine ⟨.array wrapped, next, ?_, ?_, allocated, fun later agrees => ?_⟩
    · simp [deepWrap, Nat.not_lt.mpr shallow, wraps, bind, Except.bind]
    · simp [representable, shallow, carried]
    · simp [deepRestore, restores later agrees, bind, Except.bind]
  | hash pairs =>
    obtain ⟨shallow, inside⟩ := crosses
    obtain ⟨wrapped, next, wraps, carried, allocated, restores⟩ :=
      wrapped_pairs handles (depth + 1) [] pairs plain.1 inside plain.2 (by simp) room
    refine ⟨.hash wrapped, next, ?_, ?_, allocated, fun later agrees => ?_⟩
    · simp [deepWrap, Nat.not_lt.mpr shallow, wraps, bind, Except.bind]
    · simp [representable, shallow, carried]
    · simp [deepRestore, restores later agrees [] (by simp), bind, Except.bind]
  | object kind identity =>
    obtain ⟨shallow, rfl⟩ := crosses
    have one : handles.nextId ≤ maxId := by
      simp only [leaves, primitiveType, Bool.false_eq_true, ↓reduceIte, List.length_singleton]
        at room
      omega
    exact ⟨_, _, wrapped_leaf eql shallow rfl (.inr ⟨identity, rfl⟩) one⟩
  | int n =>
    by_cases primitive : primitiveType (ο := ο) (.int n) = true
    · exact ⟨_, _, wrapped_primitive eql crosses plain primitive⟩
    · have one : handles.nextId ≤ maxId := by
        simp only [leaves, primitive, Bool.false_eq_true, ↓reduceIte, List.length_singleton] at room
        omega
      exact ⟨_, _, wrapped_leaf eql crosses (by simpa using primitive) (.inl ⟨n, rfl⟩) one⟩
  | handle id => exact plain.elim
  | _ => exact ⟨_, _, wrapped_primitive eql crosses plain rfl⟩

/-- Elements that cross are wrapped, and restored with the table that wrapped them. -/
theorem wrapped_elements (handles : Handles ο) (depth : Nat) (elements : List (HostValue ο))
    (plain : PlainElements eql elements) (crosses : CrossesElements depth elements)
    (room : handles.nextId + (leavesElements elements).length ≤ maxId + 1) :
    ∃ wrapped next, deepWrapElements eql elements handles depth = .ok (wrapped, next) ∧
      representableElements depth wrapped = true ∧
      handles.Allocated (leavesElements elements) next ∧
      ∀ later, Handles.Agrees next.nextId next later →
        deepRestoreElements eql later wrapped = .ok elements := by
  cases elements with
  | nil =>
    exact ⟨[], handles, by simp [deepWrapElements], by simp [representableElements],
      Handles.Allocated.nil handles, fun _ _ => by simp [deepRestoreElements]⟩
  | cons element elements =>
    rw [leavesElements, List.length_append] at room
    obtain ⟨first, middle, isFirst⟩ :=
      wrapped_value handles depth element plain.1 crosses.1 (by omega)
    have moved := isFirst.allocated.nextId
    obtain ⟨others, next, wraps, carried, allocated, restores⟩ :=
      wrapped_elements middle depth elements plain.2 crosses.2 (by omega)
    refine ⟨first :: others, next, ?_, ?_, isFirst.allocated.append allocated,
      fun later agrees => ?_⟩
    · simp [deepWrapElements, isFirst.wraps, wraps, bind, Except.bind]
    · simp [representableElements, isFirst.carried, carried]
    · have before := isFirst.restores later (allocated.agrees agrees)
      simp [deepRestoreElements, before, restores later agrees, bind, Except.bind]

/-- Pairs that cross are wrapped behind what was wrapped before, and restored behind what was
restored before. -/
theorem wrapped_pairs (handles : Handles ο) (depth : Nat)
    (before pairs : List (HostValue ο × HostValue ο)) (plain : PlainPairs eql pairs)
    (crosses : CrossesPairs depth pairs)
    (keys : pairs.Pairwise fun first second => eql first.1 second.1 = false)
    (apart : ∀ first ∈ before, ∀ second ∈ pairs, eql first.1 second.1 = false)
    (room : handles.nextId + (leavesPairs pairs).length ≤ maxId + 1) :
    ∃ wrapped next, deepWrapHash eql before pairs handles depth = .ok (before ++ wrapped, next) ∧
      representablePairs depth wrapped = true ∧
      handles.Allocated (leavesPairs pairs) next ∧
      ∀ later, Handles.Agrees next.nextId next later → ∀ restored,
        (∀ first ∈ restored, ∀ second ∈ pairs, eql first.1 second.1 = false) →
        deepRestoreHash eql later restored wrapped = .ok (restored ++ pairs) := by
  cases pairs with
  | nil =>
    exact ⟨[], handles, by simp [deepWrapHash], by simp [representablePairs],
      Handles.Allocated.nil handles, fun _ _ _ _ => by simp [deepRestoreHash]⟩
  | cons pair pairs =>
    obtain ⟨key, value⟩ := pair
    rw [leavesPairs, List.length_append] at room
    obtain ⟨plainKey, plainValue, plainRest⟩ := plain
    obtain ⟨carriedKey, crossesValue, crossesRest⟩ := crosses
    obtain ⟨held, middle, isHeld⟩ :=
      wrapped_value handles depth value plainValue crossesValue (by omega)
    have moved := isHeld.allocated.nextId
    have laterKeys := (List.pairwise_cons.mp keys).2
    obtain ⟨others, next, wraps, carried, allocated, restores⟩ :=
      wrapped_pairs middle depth (before ++ [(key, held)]) pairs plainRest crossesRest laterKeys
        (apart_push eql held apart keys) (by omega)
    refine ⟨(key, held) :: others, next, ?_, ?_, isHeld.allocated.append allocated, ?_⟩
    · have stored := store_apart eql (fun first mem => apart first mem (key, value) (by simp)) held
      simp [deepWrapHash, carriedKey, isHeld.wraps, stored, wraps, bind, Except.bind]
    · simp [representablePairs, carriedKey, isHeld.carried, carried]
    · intro later agrees restored aside
      have back := isHeld.restores later (allocated.agrees agrees)
      have stored :=
        store_apart eql (fun first mem => aside first mem (key, value) (by simp)) value
      have rest := restores later agrees (restored ++ [(key, value)])
        (apart_push eql value aside keys)
      simp [deepRestoreHash, deepRestore_plain eql later key plainKey, back, stored, rest, bind,
        Except.bind]

end

/-- Wrapping is undone by restoring. A plain value that crosses is wrapped with any table that has
room for its leaves: what it answers is made of parts the wire carries, one fresh id is allocated
for each leaf the wire cannot carry, in the order of the walk, and the walk back with that table,
or with any allocated from it since, answers the value with the same objects at those leaves. -/
theorem deepRestore_deepWrap (value : HostValue ο) (handles : Handles ο) (depth : Nat)
    (plain : Plain eql value) (crosses : Crosses depth value)
    (room : handles.nextId + (leaves value).length ≤ maxId + 1) :
    ∃ wrapped next, deepWrap eql value handles depth = .ok (wrapped, next) ∧
      representable depth wrapped = true ∧
      next.nextId = handles.nextId + (leaves value).length ∧
      (∀ index, handles.entries.get (handles.nextId + index) = none ∧
        next.entries.get (handles.nextId + index) = (leaves value)[index]?) ∧
      (∀ id < handles.nextId, next.entries.get id = handles.entries.get id) ∧
      ∀ later, next.Grows later → deepRestore eql later wrapped = .ok value := by
  obtain ⟨wrapped, next, isWrapped⟩ := wrapped_value eql handles depth value plain crosses room
  have allocated := isWrapped.allocated
  exact ⟨wrapped, next, isWrapped.wraps, isWrapped.carried, allocated.nextId,
    fun index => ⟨handles.fresh _ (by omega), allocated.names index⟩, allocated.keeps,
    fun later grows => isWrapped.restores later grows.agrees.1⟩

/-- `eql?` of two Strings; no other keys stand for each other. -/
def eqlStrings : HostValue Nat → HostValue Nat → Bool
  | .str first, .str second => first == second
  | _, _ => false

/-- A Hash with an object at two leaves and an integer past the wire's range at another. -/
def shared : HostValue Nat :=
  .hash [(.str "a", .object .plain 7), (.str "b", .array [.int (2 ^ 64), .object .plain 7, .nil])]

/-- The table an invocation starts from. -/
def Handles.new : Handles Nat := ⟨.empty, 1, by decide, fun _ _ => rfl⟩

/-- Three ids are allocated for its three leaves, and the Hash is restored. -/
theorem deepRestore_deepWrap_shared :
    (leaves shared).length = 3 ∧ ∃ wrapped next,
      deepWrap eqlStrings shared Handles.new 0 = .ok (wrapped, next) ∧ next.nextId = 4 ∧
      deepRestore eqlStrings next wrapped = .ok shared := by
  have plain : Plain eqlStrings shared := by
    simp [shared, Plain, PlainPairs, PlainElements, eqlStrings]
  have crosses : Crosses 0 shared := by
    simp [shared, Crosses, CrossesPairs, CrossesElements, representable, primitiveType,
      maxNestingDepth]
  have three : (leaves shared).length = 3 := by
    simp [shared, leaves, leavesPairs, leavesElements, primitiveType]
  obtain ⟨wrapped, next, wraps, _, ids, _, _, restores⟩ :=
    deepRestore_deepWrap eqlStrings shared Handles.new 0 plain crosses (by rw [three]; decide)
  exact ⟨three, wrapped, next, wraps, by rw [ids, three]; rfl, restores next .refl⟩

end Kobako.HandleWalk
