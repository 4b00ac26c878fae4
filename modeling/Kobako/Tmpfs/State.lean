import Kobako.OrderedMap
import Mathlib.Data.String.Basic

/-!
# The state of a Tmpfs directory

What `State` keeps of one directory: the entries by name, and each name by the position it stands
at in a listing. A name takes the next position whenever something is held at it, and no position
is given twice, so positions stay what they were until the name goes. `Indexed` says that the two
indexes of positions are each other's inverse and name exactly the entries.
-/

namespace Kobako.Tmpfs

variable {ν : Type}

/-- `State`, whatever a node is. Its extended attributes and times are left out. -/
structure State (ν : Type) where
  /-- What stands at each name. -/
  entries : OrderedMap String ν
  /-- Each name by its position in a listing. -/
  offsets : OrderedMap Nat String
  /-- The position of each name. -/
  offsetOf : OrderedMap String Nat
  /-- The position the next name takes. -/
  nextOffset : Nat
  /-- How many of the entries are directories. -/
  subdirectories : Nat
  /-- Whether no directory holds it any more. -/
  removed : Bool

namespace State

/-- The state `Dir::new` gives a directory. -/
def new : State ν := ⟨.empty, .empty, .empty, 2, 0, false⟩

/-- `State::forget_offset`. -/
def forgetOffset (s : State ν) (name : String) : State ν :=
  match s.offsetOf.get name with
  | some offset =>
    { s with offsetOf := s.offsetOf.remove name, offsets := s.offsets.remove offset }
  | none => s

/-- `State::entry_from`. -/
def entryFrom (s : State ν) (pos : Nat) : Option (Nat × String × ν) :=
  match s.offsets.firstFrom pos with
  | some (offset, name) => (s.entries.get name).map fun node => (offset, name, node)
  | none => none

variable (isDirectory : ν → Bool)

/-- How many directories an entry is, if there is one. -/
def directories : Option ν → Nat
  | some node => (isDirectory node).toNat
  | none => 0

/-- `State::hold`: the state after, and what stood at the name. -/
def hold (s : State ν) (name : String) (node : ν) : State ν × Option ν :=
  let replaced := s.entries.get name
  let held := { s with
    subdirectories :=
      s.subdirectories + directories isDirectory (some node) - directories isDirectory replaced
    entries := s.entries.insert name node }
  let forgot := held.forgetOffset name
  ({ forgot with
      offsets := forgot.offsets.insert forgot.nextOffset name
      offsetOf := forgot.offsetOf.insert name forgot.nextOffset
      nextOffset := forgot.nextOffset + 1 }, replaced)

/-- `State::take`. -/
def take (s : State ν) (name : String) : State ν :=
  forgetOffset { s with
    subdirectories := s.subdirectories - directories isDirectory (s.entries.get name)
    entries := s.entries.remove name } name

/-- `State::insert`: the state after, and what lost its name. -/
def insert (s : State ν) (name : String) (node : ν) : State ν × Option ν :=
  s.hold isDirectory name node

/-- `State::exchange`. -/
def exchange (s : State ν) (name : String) (node : ν) : State ν :=
  (s.hold isDirectory name node).1

/-- `State::remove`: the state after, and what lost its name. -/
def remove (s : State ν) (name : String) : State ν × Option ν :=
  (s.take isDirectory name, s.entries.get name)

@[simp] theorem forgetOffset_entries (s : State ν) (name : String) :
    (s.forgetOffset name).entries = s.entries := by
  unfold forgetOffset
  split <;> rfl

@[simp] theorem hold_entries (s : State ν) (name : String) (node : ν) :
    (s.hold isDirectory name node).1.entries = s.entries.insert name node :=
  forgetOffset_entries _ name

@[simp] theorem take_entries (s : State ν) (name : String) :
    (s.take isDirectory name).entries = s.entries.remove name :=
  forgetOffset_entries _ name

/-! ## Positions -/

/-- Every entry has a position of its own past `.` and `..`, and nothing else has one. -/
structure Indexed (s : State ν) : Prop where
  /-- The two indexes are each other's inverse. -/
  inverse : ∀ offset name,
    (offset, name) ∈ s.offsets.bindings ↔ (name, offset) ∈ s.offsetOf.bindings
  /-- The names with a position are the entries. -/
  named : ∀ name, (∃ offset, (name, offset) ∈ s.offsetOf.bindings) ↔
    ∃ node, (name, node) ∈ s.entries.bindings
  /-- Positions start past `.` and `..`. -/
  started : 2 ≤ s.nextOffset
  /-- The next position is past every one given. -/
  given : ∀ offset name, (offset, name) ∈ s.offsets.bindings → 2 ≤ offset ∧ offset < s.nextOffset

theorem new_indexed : (new : State ν).Indexed where
  inverse _ _ := by constructor <;> nofun
  named _ := by constructor <;> nofun
  started := Nat.le_refl 2
  given _ _ := nofun

/-- A name left out of both indexes. -/
structure Forgot (s after : State ν) (name : String) : Prop where
  entries : after.entries = s.entries
  nextOffset : after.nextOffset = s.nextOffset
  offsetOf : ∀ other offset, (other, offset) ∈ after.offsetOf.bindings ↔
    (other, offset) ∈ s.offsetOf.bindings ∧ other ≠ name
  offsets : ∀ other offset, (offset, other) ∈ after.offsets.bindings ↔
    (offset, other) ∈ s.offsets.bindings ∧ other ≠ name

/-- `forget_offset` leaves its name out of both indexes. -/
theorem forgetOffset_forgot (s : State ν) (name : String)
    (inverse : ∀ offset name,
      (offset, name) ∈ s.offsets.bindings ↔ (name, offset) ∈ s.offsetOf.bindings) :
    Forgot s (s.forgetOffset name) name := by
  unfold forgetOffset
  cases found : s.offsetOf.get name with
  | none =>
    have absent := OrderedMap.get_eq_none.mp found
    refine ⟨rfl, rfl, ?_, ?_⟩
    · intro other offset
      refine (and_iff_left_of_imp ?_).symm
      rintro held rfl
      exact absent offset held
    · intro other offset
      refine (and_iff_left_of_imp ?_).symm
      rintro held rfl
      exact absent offset ((inverse offset other).mp held)
  | some position =>
    have stood := OrderedMap.get_eq_some.mp found
    refine ⟨rfl, rfl, fun _ _ => OrderedMap.mem_remove, ?_⟩
    intro other offset
    rw [OrderedMap.mem_remove]
    refine and_congr_right fun held => ?_
    constructor
    · rintro apart rfl
      exact apart (OrderedMap.same_value ((inverse offset other).mp held) stood)
    · rintro apart rfl
      exact apart (OrderedMap.same_value held ((inverse offset name).mpr stood))

/-- Holding something at a name keeps the positions of all others. -/
theorem hold_indexed {s : State ν} (indexed : s.Indexed) (name : String) (node : ν) :
    (s.hold isDirectory name node).1.Indexed := by
  simp only [hold]
  have forgot := forgetOffset_forgot { s with
    subdirectories := s.subdirectories + directories isDirectory (some node) -
      directories isDirectory (s.entries.get name)
    entries := s.entries.insert name node } name indexed.inverse
  generalize forgetOffset _ name = after at forgot ⊢
  obtain ⟨entries, nextOffset, offsetOf, offsets⟩ := forgot
  dsimp only at entries nextOffset offsetOf offsets
  -- no position given so far is the next one
  have fresh : ∀ offset other, (offset, other) ∈ after.offsets.bindings →
      2 ≤ offset ∧ offset < after.nextOffset := by
    intro offset other held
    rw [nextOffset]
    exact indexed.given offset other ((offsets other offset).mp held).1
  refine ⟨?_, ?_, ?_, ?_⟩
  · intro offset other
    rw [OrderedMap.mem_insert, OrderedMap.mem_insert, offsets, offsetOf, indexed.inverse]
    constructor
    · rintro (⟨rfl, rfl⟩ | ⟨⟨held, apart⟩, -⟩)
      · exact .inl ⟨rfl, rfl⟩
      · exact .inr ⟨⟨held, apart⟩, apart⟩
    · rintro (⟨rfl, rfl⟩ | ⟨⟨held, apart⟩, -⟩)
      · exact .inl ⟨rfl, rfl⟩
      · refine .inr ⟨⟨held, apart⟩, ?_⟩
        have less := (indexed.given offset other ((indexed.inverse offset other).mpr held)).2
        rw [nextOffset]
        exact Nat.ne_of_lt less
  · intro other
    simp only [OrderedMap.mem_insert, entries, offsetOf]
    by_cases same : other = name
    · simp only [same, ne_eq, not_true_eq_false, and_false, or_false, true_and, exists_eq]
    · simp only [same, ne_eq, not_false_eq_true, and_true, false_and, false_or]
      exact indexed.named other
  · rw [nextOffset]
    exact Nat.le_succ_of_le indexed.started
  · intro offset other held
    rw [OrderedMap.mem_insert] at held
    rcases held with ⟨rfl, rfl⟩ | ⟨held, -⟩
    · exact ⟨nextOffset ▸ indexed.started, Nat.lt_succ_self _⟩
    · have bounds := fresh offset other held
      exact ⟨bounds.1, Nat.lt_succ_of_lt bounds.2⟩

/-- Taking a name away keeps the positions of all others. -/
theorem take_indexed {s : State ν} (indexed : s.Indexed) (name : String) :
    (s.take isDirectory name).Indexed := by
  unfold take
  have forgot := forgetOffset_forgot { s with
    subdirectories := s.subdirectories - directories isDirectory (s.entries.get name)
    entries := s.entries.remove name } name indexed.inverse
  generalize forgetOffset _ name = after at forgot ⊢
  obtain ⟨entries, nextOffset, offsetOf, offsets⟩ := forgot
  dsimp only at entries nextOffset offsetOf offsets
  refine ⟨?_, ?_, ?_, ?_⟩
  · intro offset other
    rw [offsets, offsetOf, indexed.inverse]
  · intro other
    simp only [OrderedMap.mem_remove, entries, offsetOf]
    rw [exists_and_right, exists_and_right, indexed.named]
  · rw [nextOffset]
    exact indexed.started
  · intro offset other held
    rw [nextOffset]
    exact indexed.given offset other ((offsets other offset).mp held).1

/-! ## The count of directories -/

/-- The entries that are directories. -/
def directoryEntries (s : State ν) : List (String × ν) :=
  s.entries.bindings.filter fun entry => isDirectory entry.2

/-- The directories among the entries, as a sum over them. -/
theorem length_directoryEntries (s : State ν) :
    (s.directoryEntries isDirectory).length =
      s.entries.total fun _ node => directories isDirectory (some node) := by
  unfold directoryEntries OrderedMap.total
  induction s.entries.bindings with
  | nil => rfl
  | cons entry rest ih =>
    rw [List.map_cons, List.sum_cons, ← ih]
    cases directory : isDirectory entry.2 with
    | false => simp [directories, directory]
    | true =>
      simp only [List.filter_cons, directory, if_true, List.length_cons, directories,
        Bool.toNat_true]
      omega

/-- What weighs as much as stands at a name. -/
theorem weight_at (s : State ν) (name : String) :
    s.entries.weightAt (fun _ node => directories isDirectory (some node)) name =
      directories isDirectory (s.entries.get name) := by
  cases found : s.entries.get name with
  | none => exact OrderedMap.weightAt_none found
  | some node => exact OrderedMap.weightAt_some found

theorem forgetOffset_subdirectories (s : State ν) (name : String) :
    (s.forgetOffset name).subdirectories = s.subdirectories := by
  unfold forgetOffset
  split <;> rfl

theorem forgetOffset_nextOffset (s : State ν) (name : String) :
    (s.forgetOffset name).nextOffset = s.nextOffset := by
  unfold forgetOffset
  split <;> rfl

/-- The positions are those of the entries, and so is the count of directories. -/
structure Bookkept (s : State ν) : Prop where
  /-- Every entry has a position of its own. -/
  indexed : s.Indexed
  /-- As many directories are counted as stand among the entries. -/
  counted : s.subdirectories = (s.directoryEntries isDirectory).length

theorem new_bookkept : (new : State ν).Bookkept isDirectory := ⟨new_indexed, rfl⟩

section Counts

variable {isDirectory} {s : State ν}

/-- What stands at a name is counted. -/
theorem Bookkept.directories_le (kept : s.Bookkept isDirectory) (name : String) :
    directories isDirectory (s.entries.get name) ≤ s.subdirectories := by
  have part := OrderedMap.weightAt_le_total
    (fun _ node => directories isDirectory (some node)) s.entries name
  rw [weight_at] at part
  rw [kept.counted, length_directoryEntries]
  exact part

/-- Holding something at a name keeps the books. -/
theorem Bookkept.hold (kept : s.Bookkept isDirectory) (name : String) (node : ν) :
    (s.hold isDirectory name node).1.Bookkept isDirectory := by
  refine ⟨hold_indexed isDirectory kept.indexed name node, ?_⟩
  have sum := OrderedMap.total_insert
    (fun _ node => directories isDirectory (some node)) s.entries name node
  have subdirectories : (s.hold isDirectory name node).1.subdirectories =
      s.subdirectories + directories isDirectory (some node) -
        directories isDirectory (s.entries.get name) :=
    forgetOffset_subdirectories _ name
  have counted := kept.counted
  rw [length_directoryEntries] at counted ⊢
  rw [weight_at] at sum
  rw [hold_entries, subdirectories, counted]
  omega

/-- Taking a name away keeps the books. -/
theorem Bookkept.take (kept : s.Bookkept isDirectory) (name : String) :
    (s.take isDirectory name).Bookkept isDirectory := by
  refine ⟨take_indexed isDirectory kept.indexed name, ?_⟩
  have sum := OrderedMap.total_remove
    (fun _ node => directories isDirectory (some node)) s.entries name
  have subdirectories : (s.take isDirectory name).subdirectories =
      s.subdirectories - directories isDirectory (s.entries.get name) :=
    forgetOffset_subdirectories _ name
  have counted := kept.counted
  rw [length_directoryEntries] at counted ⊢
  rw [weight_at] at sum
  rw [take_entries, subdirectories, counted]
  omega

end Counts

/-! ## Runs of updates -/

/-- A change of a directory's content. -/
inductive Update (ν : Type) where
  | hold (name : String) (node : ν)
  | insert (name : String) (node : ν)
  | exchange (name : String) (node : ν)
  | take (name : String)
  | remove (name : String)

namespace Update

/-- The state an update leaves. -/
def apply (s : State ν) : Update ν → State ν
  | hold name node => (s.hold isDirectory name node).1
  | insert name node => (s.insert isDirectory name node).1
  | exchange name node => s.exchange isDirectory name node
  | take name => s.take isDirectory name
  | remove name => (s.remove isDirectory name).1

/-- The state a sequence of updates leaves. -/
def applyAll (s : State ν) (updates : List (Update ν)) : State ν :=
  updates.foldl (apply isDirectory) s

/-- What an update subtracts from the count is no more than it is subtracted from. -/
def Subtracts (s : State ν) : Update ν → Prop
  | hold name node | insert name node | exchange name node =>
    directories isDirectory (s.entries.get name) ≤
      s.subdirectories + directories isDirectory (some node)
  | take name | remove name => directories isDirectory (s.entries.get name) ≤ s.subdirectories

/-- Whether an update gives a position out. -/
def places : Update ν → Bool
  | hold _ _ | insert _ _ | exchange _ _ => true
  | take _ | remove _ => false

/-- An update moves the next position past the one it gives out. -/
theorem apply_nextOffset (s : State ν) (update : Update ν) :
    (apply isDirectory s update).nextOffset = s.nextOffset + update.places.toNat := by
  cases update with
  | hold name node => exact congrArg (· + 1) (forgetOffset_nextOffset _ name)
  | insert name node => exact congrArg (· + 1) (forgetOffset_nextOffset _ name)
  | exchange name node => exact congrArg (· + 1) (forgetOffset_nextOffset _ name)
  | take name => exact forgetOffset_nextOffset _ name
  | remove name => exact forgetOffset_nextOffset _ name

/-- Updates give as many positions out as place something. -/
theorem applyAll_nextOffset (s : State ν) (updates : List (Update ν)) :
    (applyAll isDirectory s updates).nextOffset = s.nextOffset + updates.countP places := by
  induction updates generalizing s with
  | nil => rfl
  | cons update updates ih =>
    have first := apply_nextOffset isDirectory s update
    have rest := ih (apply isDirectory s update)
    rw [List.countP_cons]
    unfold applyAll at rest ⊢
    rw [List.foldl_cons, rest, first]
    cases update.places with
    | false => simp
    | true =>
      simp only [Bool.toNat_true, if_true]
      omega

variable {isDirectory} {s : State ν}

/-- An update keeps the books. -/
theorem apply_bookkept (kept : s.Bookkept isDirectory) (update : Update ν) :
    (apply isDirectory s update).Bookkept isDirectory := by
  cases update with
  | hold name node => exact kept.hold name node
  | insert name node => exact kept.hold name node
  | exchange name node => exact kept.hold name node
  | take name => exact kept.take name
  | remove name => exact kept.take name

/-- No update subtracts more from the count than there is. -/
theorem subtracts_of_bookkept (kept : s.Bookkept isDirectory) (update : Update ν) :
    update.Subtracts isDirectory s := by
  have present := kept.directories_le
  cases update with
  | hold name node => exact Nat.le_add_right_of_le (present name)
  | insert name node => exact Nat.le_add_right_of_le (present name)
  | exchange name node => exact Nat.le_add_right_of_le (present name)
  | take name => exact present name
  | remove name => exact present name

/-- Updates keep the books. -/
theorem applyAll_bookkept (kept : s.Bookkept isDirectory) (updates : List (Update ν)) :
    (applyAll isDirectory s updates).Bookkept isDirectory := by
  induction updates generalizing s with
  | nil => exact kept
  | cons update updates ih => exact ih (apply_bookkept kept update)

end Update

/-- After any updates of an empty directory its entries, their positions and its count of
directories agree, no later update subtracts more than is counted, and the next position tells how
many were given out. -/
theorem updates_bookkept (updates : List (Update ν)) :
    (Update.applyAll isDirectory new updates).Bookkept isDirectory ∧
    (∀ next : Update ν, next.Subtracts isDirectory (Update.applyAll isDirectory new updates)) ∧
    (Update.applyAll isDirectory new updates).nextOffset = 2 + updates.countP Update.places := by
  have kept := Update.applyAll_bookkept (new_bookkept isDirectory) updates
  exact ⟨kept, Update.subtracts_of_bookkept kept, Update.applyAll_nextOffset isDirectory new updates⟩

end State

end Kobako.Tmpfs
