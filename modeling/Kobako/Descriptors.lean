import Kobako.OrderedMap
import Mathlib.Order.Bounds.Basic

/-!
# The guest's descriptor table

Descriptor numbers are handed out lowest first, as `alloc_fd` does: a closed number is kept apart
and reused before a fresh one is taken. The numbers open and those freed stay apart and leave no
gap, whatever is opened, closed and renumbered, so that the lowest freed number, or the one past
the highest open, is the least that is not open.
-/

namespace Kobako

variable {δ μ ε : Type}

/-- How many numbers a `u32` has. -/
def numbers : Nat := 2 ^ 32

/-- `Descriptors`: the table of open descriptors, the numbers freed, and how many it may hold. -/
structure Descriptors (δ : Type) where
  /-- Each open number with the descriptor at it. -/
  used : OrderedMap Nat δ
  /-- The numbers closed and not taken again. -/
  free : OrderedMap Nat Unit
  /-- The most descriptors it may hold. -/
  limit : Option Nat

namespace Descriptors

/-- The descriptor of each Mount's root, from this number on; the numbers are a `u32`'s. -/
def preopen (root : μ → Except ε δ) : Nat → List μ → OrderedMap Nat δ → Except ε (OrderedMap Nat δ)
  | _, [], used => .ok used
  | fd, mount :: mounts, used => do
    let file ← root mount
    preopen root (fd + 1) mounts (used.insert (fd % numbers) file)

/-- `Descriptors::new`: stdin, the two Channels, then one preopen per Mount from descriptor 3. -/
def new (stdin stdout stderr : δ) (root : μ → Except ε δ) (mounts : List μ)
    (limit : Option Nat) : Except ε (Descriptors δ) := do
  let streams := ((OrderedMap.empty.insert 0 stdin).insert 1 stdout).insert 2 stderr
  let used ← preopen root 3 mounts streams
  .ok { used, free := .empty, limit }

variable (table : Descriptors δ)

/-- `Descriptors::remove`: take a number out of the table, freeing it for reuse. -/
def remove (fd : Nat) : Option (δ × Descriptors δ) :=
  (table.used.get fd).map fun descriptor =>
    (descriptor, { table with used := table.used.remove fd, free := table.free.insert fd () })

/-- `Descriptors::place`. -/
def place (fd : Nat) (descriptor : δ) : Descriptors δ :=
  { table with free := table.free.remove fd, used := table.used.insert fd descriptor }

/-- `u32::checked_add` of one. -/
def succ (fd : Nat) : Option Nat := if fd + 1 < numbers then some (fd + 1) else none

/-- `Descriptors::lowest_unused`. -/
def lowestUnused : Option Nat :=
  if table.limit.any (· ≤ table.used.len) then none
  else match table.free.first with
    | some (fd, _) => some fd
    | none => match table.used.last with
      | some (last, _) => succ last
      | none => some 0

/-- How `renumber` answers. -/
inductive Answer where
  /-- The call was carried out. -/
  | done
  /-- `Errno::Badf`: one of the numbers is not open. -/
  | badf
  deriving DecidableEq, Repr

/-- `renumber`: move what stands at one number onto another, both open. -/
def renumber (source target : Nat) : Answer × Descriptors δ :=
  if (table.used.get source).isNone ∨ (table.used.get target).isNone then (.badf, table)
  else if source = target then (.done, table)
  else match table.remove source with
    | none => (.badf, table)
    | some (moved, table) => match table.remove target with
      | none => (.badf, table)
      | some (_, table) => (.done, table.place target moved)

/-- What is asked of the table. -/
inductive Op (δ : Type) where
  /-- A descriptor placed at `lowest_unused`, nowhere where the table is full. -/
  | open (descriptor : δ)
  /-- A number closed. -/
  | close (fd : Nat)
  /-- A number moved onto another. -/
  | renumber (source target : Nat)

/-- The table after one operation. -/
def step : Op δ → Descriptors δ
  | .open descriptor =>
    match table.lowestUnused with
    | some fd => table.place fd descriptor
    | none => table
  | .close fd =>
    match table.remove fd with
    | some (_, table) => table
    | none => table
  | .renumber source target => (table.renumber source target).2

/-- The table after a sequence of operations. -/
def run (ops : List (Op δ)) : Descriptors δ := ops.foldl step table

/-- A number is open. -/
def IsOpen (fd : Nat) : Prop := (table.used.get fd).isSome

/-- A number is freed. -/
def IsFreed (fd : Nat) : Prop := (table.free.get fd).isSome

/-- The table has room for another descriptor. -/
def HasRoom : Prop := ∀ limit, table.limit = some limit →
  table.used.len < limit

/-- The numbers open and freed stay apart and are all those below a bound. -/
structure Gapless (table : Descriptors δ) (bound : Nat) : Prop where
  /-- No number is both open and freed. -/
  apart : ∀ fd, ¬(table.IsOpen fd ∧ table.IsFreed fd)
  /-- Each number below the bound is one or the other, and no other is. -/
  covers : ∀ fd, table.IsOpen fd ∨ table.IsFreed fd ↔ fd < bound
  /-- Only a `u32`'s numbers are handed out. -/
  within : bound ≤ numbers

/-! ## One operation -/

theorem isOpen_place {table : Descriptors δ} {fd other : Nat} {descriptor : δ} :
    (table.place fd descriptor).IsOpen other ↔ other = fd ∨ table.IsOpen other :=
  OrderedMap.isSome_insert

theorem isFreed_place {table : Descriptors δ} {fd other : Nat} {descriptor : δ} :
    (table.place fd descriptor).IsFreed other ↔ other ≠ fd ∧ table.IsFreed other :=
  OrderedMap.isSome_remove

/-- A number is removed exactly where it is open, and is then freed. -/
theorem remove_eq_some {table next : Descriptors δ} {fd : Nat} {descriptor : δ} :
    table.remove fd = some (descriptor, next) ↔ table.used.get fd = some descriptor ∧
      next = { table with used := table.used.remove fd, free := table.free.insert fd () } := by
  simp only [remove, Option.map_eq_some_iff, Prod.mk.injEq]
  constructor
  · rintro ⟨held, found, rfl, rfl⟩
    exact ⟨found, rfl⟩
  · rintro ⟨found, rfl⟩
    exact ⟨descriptor, found, rfl, rfl⟩

theorem isOpen_removed {table next : Descriptors δ} {fd other : Nat} {descriptor : δ}
    (removed : table.remove fd = some (descriptor, next)) :
    next.IsOpen other ↔ other ≠ fd ∧ table.IsOpen other := by
  obtain ⟨_, rfl⟩ := remove_eq_some.mp removed
  exact OrderedMap.isSome_remove

theorem isFreed_removed {table next : Descriptors δ} {fd other : Nat} {descriptor : δ}
    (removed : table.remove fd = some (descriptor, next)) :
    next.IsFreed other ↔ other = fd ∨ table.IsFreed other := by
  obtain ⟨_, rfl⟩ := remove_eq_some.mp removed
  exact OrderedMap.isSome_insert

/-- Closing a number keeps the table gapless. -/
theorem Gapless.remove {table next : Descriptors δ} {bound fd : Nat} {descriptor : δ}
    (gapless : table.Gapless bound) (removed : table.remove fd = some (descriptor, next)) :
    next.Gapless bound := by
  have held : table.IsOpen fd := by
    rw [IsOpen, (remove_eq_some.mp removed).1]
    rfl
  refine ⟨fun other => ?_, fun other => ?_, gapless.within⟩
  · have apart := gapless.apart other
    rw [isOpen_removed removed, isFreed_removed removed]
    tauto
  · rw [← gapless.covers, isOpen_removed removed, isFreed_removed removed]
    by_cases same : other = fd
    · simp [same, held]
    · simp [same]

/-- Placing at a number of the table, or at the one next to it, keeps it gapless. -/
theorem Gapless.place {table : Descriptors δ} {bound fd : Nat} (gapless : table.Gapless bound)
    (near : fd ≤ bound) (small : fd < numbers) (descriptor : δ) :
    (table.place fd descriptor).Gapless (max bound (fd + 1)) := by
  have within := gapless.within
  refine ⟨fun other => ?_, fun other => ?_, by omega⟩
  · have apart := gapless.apart other
    rw [isOpen_place, isFreed_place]
    tauto
  · have covers := gapless.covers other
    rw [isOpen_place, isFreed_place]
    by_cases same : other = fd
    · simp only [same, true_or, ne_eq, not_true_eq_false, false_and, or_false, true_iff]
      omega
    · simp only [same, false_or, ne_eq, not_false_eq_true, true_and]
      rw [covers]
      omega

/-! ## The number taken next -/

theorem hasRoom_iff {table : Descriptors δ} :
    table.HasRoom ↔ table.limit.any (· ≤ table.used.len) = false := by
  cases bounded : table.limit with
  | none => simp [HasRoom, bounded]
  | some limit => simp [HasRoom, bounded]

/-- With a number freed, the first of them is the least that is not open. -/
theorem least_of_first {table : Descriptors δ} {bound : Nat} {binding : Nat × Unit}
    (gapless : table.Gapless bound) (first : table.free.first = some binding) :
    IsLeast { fd | ¬table.IsOpen fd } binding.1 ∧ binding.1 < bound := by
  obtain ⟨held, lowest⟩ := OrderedMap.first_eq_some first
  have freed : table.IsFreed binding.1 := by
    rw [IsFreed, held]
    rfl
  have below : binding.1 < bound := (gapless.covers _).mp (.inr freed)
  refine ⟨⟨fun isOpen => gapless.apart _ ⟨isOpen, freed⟩, fun fd closed => ?_⟩, below⟩
  by_cases inside : fd < bound
  · exact lowest fd (((gapless.covers fd).mpr inside).resolve_left closed)
  · omega

/-- With no number freed, the bound is the least that is not open. -/
theorem least_of_none {table : Descriptors δ} {bound : Nat} (gapless : table.Gapless bound)
    (none : table.free.first = none) : ∀ fd, table.IsOpen fd ↔ fd < bound := by
  intro fd
  have unfreed : ¬table.IsFreed fd := by simp [IsFreed, OrderedMap.first_eq_none none]
  rw [← gapless.covers fd]
  tauto

/-- With no number freed, the bound is the number past the last open one. -/
theorem bound_of_last {table : Descriptors δ} {bound : Nat}
    (opens : ∀ fd, table.IsOpen fd ↔ fd < bound) :
    bound = match table.used.last with
      | some (last, _) => last + 1
      | none => 0 := by
  cases found : table.used.last with
  | none =>
    have closed : ¬table.IsOpen 0 := by simp [IsOpen, OrderedMap.last_eq_none found]
    rw [opens] at closed
    simp only
    omega
  | some binding =>
    obtain ⟨held, highest⟩ := OrderedMap.last_eq_some found
    have inside : binding.1 < bound := by
      rw [← opens, IsOpen, held]
      rfl
    have last := highest (bound - 1) ((opens (bound - 1)).mpr (by omega))
    simp only
    omega

/-- Of a gapless table with room, the least number not open is taken if it is one of a `u32`. -/
theorem lowestUnused_eq {table : Descriptors δ} {bound : Nat} (gapless : table.Gapless bound)
    (room : table.HasRoom) :
    ∃ least, IsLeast { fd | ¬table.IsOpen fd } least ∧ least ≤ bound ∧
      table.lowestUnused = if least < numbers then some least else none := by
  have within := gapless.within
  rw [lowestUnused, if_neg (by simp [hasRoom_iff.mp room])]
  cases first : table.free.first with
  | some binding =>
    obtain ⟨least, below⟩ := least_of_first gapless first
    exact ⟨binding.1, least, by omega, by rw [if_pos (by omega)]⟩
  | none =>
    have opens := least_of_none gapless first
    have bound_ := bound_of_last opens
    refine ⟨bound, ⟨by simp [opens], fun fd closed => ?_⟩, le_rfl, ?_⟩
    · have outside : ¬fd < bound := fun inside => closed ((opens fd).mpr inside)
      omega
    · cases last : table.used.last with
      | none =>
        rw [last] at bound_
        subst bound_
        rfl
      | some binding =>
        rw [last] at bound_
        subst bound_
        rfl

/-- A table with no room hands out no number. -/
theorem lowestUnused_full {table : Descriptors δ} (full : ¬table.HasRoom) :
    table.lowestUnused = none := by
  rw [hasRoom_iff, Bool.not_eq_false] at full
  rw [lowestUnused, if_pos full]

/-- Where every number of a `u32` is open, none is taken, with room or without. -/
theorem lowestUnused_all {table : Descriptors δ} {bound : Nat} (gapless : table.Gapless bound)
    (all : ∀ fd < numbers, table.IsOpen fd) : table.lowestUnused = none := by
  by_cases room : table.HasRoom
  · obtain ⟨least, isLeast, _, answers⟩ := lowestUnused_eq gapless room
    rw [answers, if_neg fun small => isLeast.1 (all least small)]
  · exact lowestUnused_full room

/-! ## Renumbering -/

/-- A number that is not open is neither moved nor moved onto. -/
theorem renumber_refused {table : Descriptors δ} {source target : Nat}
    (closed : ¬(table.IsOpen source ∧ table.IsOpen target)) :
    table.renumber source target = (.badf, table) := by
  have either : (table.used.get source).isNone ∨ (table.used.get target).isNone := by
    simp only [IsOpen] at closed
    by_cases first : (table.used.get source).isSome
    · exact .inr (by simpa [first] using closed)
    · exact .inl (by simpa using first)
  rw [renumber, if_pos either]

/-- A number moved onto itself stays as it is. -/
theorem renumber_same {table : Descriptors δ} {source target : Nat} (isOpen : table.IsOpen source)
    (same : source = target) : table.renumber source target = (.done, table) := by
  have held := Option.isSome_iff_exists.mp isOpen
  have neither : ¬((table.used.get source).isNone ∨ (table.used.get target).isNone) := by
    obtain ⟨descriptor, found⟩ := held
    simp [← same, found]
  rw [renumber, if_neg neither, if_pos same]

/-- Moving one open number onto another removes both and places what stood at the first. -/
theorem renumber_apart {table : Descriptors δ} {source target : Nat} (first : table.IsOpen source)
    (second : table.IsOpen target) (apart : source ≠ target) :
    ∃ moved replaced middle last, table.remove source = some (moved, middle) ∧
      middle.remove target = some (replaced, last) ∧
      table.renumber source target = (.done, last.place target moved) := by
  obtain ⟨moved, held⟩ := Option.isSome_iff_exists.mp first
  obtain ⟨replaced, stood⟩ := Option.isSome_iff_exists.mp second
  have removed := remove_eq_some.mpr ⟨held, rfl⟩
  have left : (table.used.remove source).get target = some replaced := by
    rw [OrderedMap.get_remove_of_ne _ (Ne.symm apart), stood]
  have again := (@remove_eq_some _ { table with
    used := table.used.remove source, free := table.free.insert source () } _ target replaced).mpr
      ⟨left, rfl⟩
  refine ⟨moved, replaced, _, _, removed, again, ?_⟩
  rw [renumber, if_neg (by simp [held, stood]), if_neg apart, removed]
  simp only [again]

/-! ## Whole runs -/

/-- Each operation keeps the table gapless. -/
theorem Gapless.step {table : Descriptors δ} {bound : Nat} (gapless : table.Gapless bound)
    (op : Op δ) : ∃ bound, (table.step op).Gapless bound := by
  cases op with
  | «open» descriptor =>
    simp only [Descriptors.step]
    cases taken : table.lowestUnused with
    | none => exact ⟨bound, gapless⟩
    | some fd =>
      have room : table.HasRoom := by
        by_contra full
        rw [lowestUnused_full full] at taken
        cases taken
      obtain ⟨least, _, near, answers⟩ := lowestUnused_eq gapless room
      rw [answers] at taken
      by_cases small : least < numbers
      · rw [if_pos small] at taken
        cases taken
        exact ⟨_, gapless.place near small descriptor⟩
      · rw [if_neg small] at taken
        cases taken
  | close fd =>
    simp only [Descriptors.step]
    cases removed : table.remove fd with
    | none => exact ⟨bound, gapless⟩
    | some found => exact ⟨bound, gapless.remove removed⟩
  | renumber source target =>
    by_cases both : table.IsOpen source ∧ table.IsOpen target
    · by_cases same : source = target
      · rw [Descriptors.step, renumber_same both.1 same]
        exact ⟨bound, gapless⟩
      · obtain ⟨moved, replaced, first, second, removed, again, renumbered⟩ :=
          renumber_apart both.1 both.2 same
        have below : target < bound := (gapless.covers target).mp (.inl both.2)
        have within := gapless.within
        rw [Descriptors.step, renumbered]
        exact ⟨_, ((gapless.remove removed).remove again).place (by omega) (by omega) moved⟩
    · rw [Descriptors.step, renumber_refused both]
      exact ⟨bound, gapless⟩

/-- What the table holds after a renumbering of two open numbers. -/
theorem renumber_get {table : Descriptors δ} {source target : Nat} (first : table.IsOpen source)
    (second : table.IsOpen target) (fd : Nat) :
    (table.renumber source target).2.used.get fd =
      if fd = target then table.used.get source
      else if fd = source then none else table.used.get fd := by
  by_cases same : source = target
  · rw [renumber_same first same]
    by_cases here : fd = target
    · simp [here, same]
    · simp [here, same]
  · obtain ⟨moved, replaced, middle, last, removed, again, renumbered⟩ :=
      renumber_apart first second same
    obtain ⟨found, rfl⟩ := remove_eq_some.mp removed
    obtain ⟨_, rfl⟩ := remove_eq_some.mp again
    rw [renumbered, found]
    by_cases here : fd = target
    · simp [here, place, OrderedMap.get_insert_self]
    · by_cases there : fd = source
      · subst there
        simp [here, place, OrderedMap.get_insert_of_ne _ _ here, OrderedMap.get_remove_of_ne _ here,
          OrderedMap.get_remove_self]
      · simp [here, there, place, OrderedMap.get_insert_of_ne _ _ here,
          OrderedMap.get_remove_of_ne _ here, OrderedMap.get_remove_of_ne _ there]

/-- The Mounts' roots take the numbers from the first on, as far as there are any. -/
theorem preopen_isSome {root : μ → Except ε δ} {mounts : List μ} {fd : Nat}
    {before used : OrderedMap Nat δ} (opened : preopen root fd mounts before = .ok used)
    (opens : ∀ other, (before.get other).isSome ↔ other < min fd numbers) (other : Nat) :
    (used.get other).isSome ↔ other < min (fd + mounts.length) numbers := by
  induction mounts generalizing fd before with
  | nil =>
    cases opened
    exact opens other
  | cons mount mounts ih =>
    rw [preopen] at opened
    cases found : root mount with
    | error refused => simp [found, bind, Except.bind] at opened
    | ok file =>
      simp only [found, bind, Except.bind] at opened
      have later := ih opened fun other => by
        rw [OrderedMap.isSome_insert, opens]
        have wraps := Nat.mod_lt fd (show 0 < numbers by decide)
        by_cases small : fd < numbers
        · rw [Nat.mod_eq_of_lt small]
          omega
        · omega
      rw [later, List.length_cons]
      omega

/-- The table every invocation starts from is gapless. -/
theorem new_gapless {stdin stdout stderr : δ} {root : μ → Except ε δ} {mounts : List μ}
    {limit : Option Nat} {table : Descriptors δ}
    (made : new stdin stdout stderr root mounts limit = .ok table) :
    table.Gapless (min (3 + mounts.length) numbers) ∧ table.limit = limit ∧
      table.free = .empty := by
  have streams : ∀ fd, ((((OrderedMap.empty.insert 0 stdin).insert 1 stdout).insert 2
      stderr).get fd).isSome ↔ fd < min 3 numbers := by
    intro fd
    have three : min 3 numbers = 3 := by decide
    have nothing : ((OrderedMap.empty : OrderedMap Nat δ).get fd).isSome = false := rfl
    simp only [OrderedMap.isSome_insert, nothing, three, Bool.false_eq_true, or_false]
    omega
  rw [new] at made
  cases opened : preopen root 3 mounts
      (((OrderedMap.empty.insert 0 stdin).insert 1 stdout).insert 2 stderr) with
  | error refused => simp [opened, bind, Except.bind] at made
  | ok used =>
    simp only [opened, bind, Except.bind, Except.ok.injEq] at made
    subst made
    have unfreed : ∀ fd, ¬((OrderedMap.empty : OrderedMap Nat Unit).get fd).isSome :=
      fun fd => by simp [OrderedMap.empty, OrderedMap.get]
    refine ⟨⟨fun fd both => unfreed fd both.2, fun fd => ?_, by omega⟩, rfl, rfl⟩
    rw [← preopen_isSome opened streams fd]
    exact or_iff_left (unfreed fd)

/-- Every run keeps the table gapless and its limit as it was. -/
theorem Gapless.run {table : Descriptors δ} {bound : Nat} (gapless : table.Gapless bound)
    (ops : List (Op δ)) : ∃ bound, (table.run ops).Gapless bound := by
  induction ops generalizing table bound with
  | nil => exact ⟨bound, gapless⟩
  | cons op ops ih =>
    obtain ⟨next, kept⟩ := gapless.step op
    exact ih kept

/-! ## How many are open -/

/-- A number handed out is not open. -/
theorem lowestUnused_closed {table : Descriptors δ} {bound fd : Nat}
    (gapless : table.Gapless bound) (taken : table.lowestUnused = some fd) :
    table.HasRoom ∧ table.used.get fd = none := by
  have room : table.HasRoom := by
    by_contra full
    rw [lowestUnused_full full] at taken
    cases taken
  obtain ⟨least, isLeast, _, answers⟩ := lowestUnused_eq gapless room
  rw [answers] at taken
  by_cases small : least < numbers
  · rw [if_pos small] at taken
    cases taken
    exact ⟨room, by simpa [IsOpen] using isLeast.1⟩
  · rw [if_neg small] at taken
    cases taken

/-- Placing at a number handed out opens one more, within the limit. -/
theorem place_len {table : Descriptors δ} {bound fd limit : Nat} (gapless : table.Gapless bound)
    (taken : table.lowestUnused = some fd) (bounded : table.limit = some limit)
    (descriptor : δ) : (table.place fd descriptor).used.len ≤ limit := by
  obtain ⟨room, closed⟩ := lowestUnused_closed gapless taken
  have less := room limit bounded
  rw [place, OrderedMap.len_insert closed]
  omega

/-- No operation opens a descriptor past the limit. -/
theorem step_len {table : Descriptors δ} {bound limit : Nat} (gapless : table.Gapless bound)
    (bounded : table.limit = some limit) (op : Op δ) :
    (table.step op).limit = some limit ∧
      (table.step op).used.len ≤ max limit table.used.len := by
  cases op with
  | «open» descriptor =>
    simp only [step]
    cases taken : table.lowestUnused with
    | none => exact ⟨bounded, Nat.le_max_right _ _⟩
    | some fd =>
      have fits := place_len gapless taken bounded descriptor
      exact ⟨bounded, by simp only; omega⟩
  | close fd =>
    simp only [step]
    cases removed : table.remove fd with
    | none => exact ⟨bounded, Nat.le_max_right _ _⟩
    | some found =>
      obtain ⟨descriptor, next⟩ := found
      obtain ⟨held, rfl⟩ := remove_eq_some.mp removed
      have fewer := OrderedMap.len_remove held
      exact ⟨bounded, by simp only; omega⟩
  | renumber source target =>
    rw [step]
    by_cases both : table.IsOpen source ∧ table.IsOpen target
    · by_cases same : source = target
      · rw [renumber_same both.1 same]
        exact ⟨bounded, by simp only; omega⟩
      · obtain ⟨moved, replaced, middle, last, removed, again, renumbered⟩ :=
          renumber_apart both.1 both.2 same
        obtain ⟨held, rfl⟩ := remove_eq_some.mp removed
        obtain ⟨stood, rfl⟩ := remove_eq_some.mp again
        have fewer := OrderedMap.len_remove held
        have least := OrderedMap.len_remove stood
        have placed := OrderedMap.len_insert
          (OrderedMap.get_remove_self (table.used.remove source) target) moved
        rw [renumbered]
        exact ⟨bounded, by simp only [place]; simp only at least placed; omega⟩
    · rw [renumber_refused both]
      exact ⟨bounded, by simp only; omega⟩

/-- No run opens more descriptors than the limit, or than it started with. -/
theorem run_len {table : Descriptors δ} {bound limit : Nat} (gapless : table.Gapless bound)
    (bounded : table.limit = some limit) (ops : List (Op δ)) :
    (table.run ops).limit = some limit ∧ (table.run ops).used.len ≤ max limit table.used.len := by
  induction ops generalizing table bound with
  | nil => exact ⟨bounded, by simp only [run, List.foldl_nil]; omega⟩
  | cons op ops ih =>
    obtain ⟨next, kept⟩ := gapless.step op
    obtain ⟨same, fits⟩ := step_len gapless bounded op
    obtain ⟨stays, later⟩ := ih kept same
    exact ⟨stays, by rw [run, List.foldl_cons]; rw [run] at later; omega⟩

/-- Descriptor numbers follow `alloc_fd` in every table reached: those open and those freed are
apart and leave no gap; with room and a number of a `u32` left, the next one taken is the least
that is not open, and with every number open, or without room, none is; a renumbering of two open
numbers leaves the second open in place of both; and nothing is placed past the limit. -/
theorem descriptors_numbered {stdin stdout stderr : δ} {root : μ → Except ε δ} {mounts : List μ}
    {limit : Option Nat} {table : Descriptors δ}
    (made : new stdin stdout stderr root mounts limit = .ok table) (ops : List (Op δ)) :
    (∀ fd, ¬((table.run ops).IsOpen fd ∧ (table.run ops).IsFreed fd)) ∧
    (∃ bound, ∀ fd, (table.run ops).IsOpen fd ∨ (table.run ops).IsFreed fd ↔ fd < bound) ∧
    ((table.run ops).HasRoom → (∃ fd < numbers, ¬(table.run ops).IsOpen fd) →
      ∃ fd, (table.run ops).lowestUnused = some fd ∧
        IsLeast { other | ¬(table.run ops).IsOpen other } fd) ∧
    ((∀ fd < numbers, (table.run ops).IsOpen fd) → (table.run ops).lowestUnused = none) ∧
    (¬(table.run ops).HasRoom → (table.run ops).lowestUnused = none) ∧
    (∀ source target, (table.run ops).IsOpen source ∧ (table.run ops).IsOpen target →
      ((table.run ops).renumber source target).1 = .done ∧
      ∀ fd, ((table.run ops).renumber source target).2.used.get fd =
        if fd = target then (table.run ops).used.get source
        else if fd = source then none else (table.run ops).used.get fd) ∧
    (∀ source target, ¬((table.run ops).IsOpen source ∧ (table.run ops).IsOpen target) →
      (table.run ops).renumber source target = (.badf, table.run ops)) ∧
    (∀ bound, limit = some bound → (table.run ops).used.len ≤ max bound table.used.len ∧
      ∀ fd descriptor, (table.run ops).lowestUnused = some fd →
        ((table.run ops).place fd descriptor).used.len ≤ bound) := by
  obtain ⟨starts, bounded, _⟩ := new_gapless made
  obtain ⟨bound, gapless⟩ := starts.run ops
  refine ⟨gapless.apart, ⟨bound, gapless.covers⟩, ?_, lowestUnused_all gapless, lowestUnused_full,
    ?_, fun source target => renumber_refused, ?_⟩
  · rintro room ⟨fd, small, closed⟩
    obtain ⟨least, isLeast, _, answers⟩ := lowestUnused_eq gapless room
    have below := isLeast.2 closed
    exact ⟨least, by rw [answers, if_pos (by omega)], isLeast⟩
  · rintro source target ⟨first, second⟩
    refine ⟨?_, renumber_get first second⟩
    by_cases same : source = target
    · rw [renumber_same first same]
    · obtain ⟨_, _, _, _, _, _, renumbered⟩ := renumber_apart first second same
      rw [renumbered]
  · intro most isLimit
    obtain ⟨stays, fits⟩ := run_len starts (bounded.trans isLimit) ops
    exact ⟨fits, fun fd descriptor taken => place_len gapless taken stays descriptor⟩

/-- A table of the three streams and one Mount, of at most five descriptors, with its second
stream closed: the number freed is the next one taken. -/
theorem descriptors_numbered_reused :
    ∃ table : Descriptors String,
      new "stdin" "stdout" "stderr" (fun mount => Except.ok (ε := Unit) mount) ["/"] (some 5) =
        .ok table ∧ (table.run [.close 1]).lowestUnused = some 1 ∧
      ∀ fd, ¬((table.run [.close 1]).IsOpen fd ∧ (table.run [.close 1]).IsFreed fd) :=
  ⟨_, rfl, by decide, (@descriptors_numbered String String Unit "stdin" "stdout" "stderr"
    (fun mount => .ok mount) ["/"] (some 5) _ rfl [.close 1]).1⟩

/-! ## All numbers open -/

/-- Mounts whose roots all open leave nothing refused. -/
theorem preopen_ok {root : μ → Except ε δ} (opens : ∀ mount, ∃ file, root mount = .ok file)
    (mounts : List μ) (fd : Nat) (before : OrderedMap Nat δ) :
    ∃ used, preopen root fd mounts before = .ok used := by
  induction mounts generalizing fd before with
  | nil => exact ⟨before, rfl⟩
  | cons mount mounts ih =>
    obtain ⟨file, found⟩ := opens mount
    obtain ⟨used, later⟩ := ih (fd + 1) (before.insert (fd % numbers) file)
    exact ⟨used, by rw [preopen, found]; exact later⟩

/-- With nothing freed, a descriptor opened takes the bound itself. -/
theorem step_open_fresh {table : Descriptors δ} {bound : Nat} (gapless : table.Gapless bound)
    (nothing : table.free = .empty) (room : table.HasRoom) (small : bound < numbers)
    (descriptor : δ) :
    (table.step (.open descriptor)).Gapless (bound + 1) ∧
      (table.step (.open descriptor)).free = .empty := by
  have opens := least_of_none gapless (by rw [nothing]; rfl)
  obtain ⟨least, isLeast, near, answers⟩ := lowestUnused_eq gapless room
  have same : least = bound := by
    have closed : ¬least < bound := fun inside => isLeast.1 ((opens least).mpr inside)
    omega
  subst same
  rw [if_pos small] at answers
  have placed := gapless.place le_rfl small descriptor
  rw [Nat.max_eq_right (Nat.le_succ _)] at placed
  simp only [step, answers]
  exact ⟨placed, by simp only [place, nothing]; rfl⟩

/-- A gapless table holds no more descriptors than its bound. -/
theorem Gapless.len_le {table : Descriptors δ} {bound : Nat} (gapless : table.Gapless bound) :
    table.used.len ≤ bound :=
  OrderedMap.len_le_of_lt fun fd isOpen => (gapless.covers fd).mp (.inl isOpen)

/-- A limit above the bound leaves room. -/
theorem Gapless.hasRoom {table : Descriptors δ} {bound limit : Nat} (gapless : table.Gapless bound)
    (bounded : table.limit = some limit) (above : bound < limit) : table.HasRoom := by
  intro most isLimit
  have few := gapless.len_le
  rw [bounded, Option.some.injEq] at isLimit
  omega

/-- Fewer descriptors are open than the limit, and yet none is taken, where every number of a
`u32` is open. -/
theorem lowestUnused_exhausted :
    ∃ table : Descriptors Unit,
      new () () () (fun _ => Except.ok (ε := Unit) ()) (List.replicate (2 ^ 32 - 5) ())
        (some (2 ^ 32 + 1)) = .ok table ∧
      (table.run [.open (), .open ()]).used.len < 2 ^ 32 + 1 ∧
      (table.run [.open (), .open ()]).lowestUnused = none := by
  obtain ⟨used, opened⟩ := preopen_ok (fun _ => ⟨(), rfl⟩) (List.replicate (2 ^ 32 - 5) ()) 3
    (((OrderedMap.empty.insert 0 ()).insert 1 ()).insert 2 ())
  have made : new () () () (fun _ => Except.ok (ε := Unit) ()) (List.replicate (2 ^ 32 - 5) ())
      (some (2 ^ 32 + 1)) = .ok ⟨used, .empty, some (2 ^ 32 + 1)⟩ := by
    rw [new, opened]
    rfl
  obtain ⟨starts, bounded, nothing⟩ := new_gapless made
  rw [List.length_replicate, show min (3 + (2 ^ 32 - 5)) numbers = 2 ^ 32 - 2 by decide] at starts
  obtain ⟨once, empty⟩ := step_open_fresh starts nothing (starts.hasRoom bounded (by decide))
    (by decide) ()
  have bounded' := (step_len starts bounded (.open ())).1
  obtain ⟨twice, last⟩ := step_open_fresh once empty (once.hasRoom bounded' (by decide))
    (by decide) ()
  have few := twice.len_le
  have opens := least_of_none twice (by rw [last]; rfl)
  exact ⟨_, made, by simp only [run, List.foldl_cons, List.foldl_nil]; omega,
    lowestUnused_all twice fun fd small => (opens fd).mpr small⟩

end Descriptors

end Kobako
