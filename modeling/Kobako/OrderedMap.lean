import Mathlib.Algebra.BigOperators.Group.List.Basic
import Mathlib.Order.Basic
import Mathlib.Order.Nat
import Mathlib.Tactic.Tauto
import Mathlib.Algebra.GroupWithZero.Nat
import Mathlib.Order.Lattice

/-!
# Ordered maps

A map kept as its bindings, the keys ascending, as `BTreeMap` keeps one. Each key is bound once,
so a lookup answers exactly the bindings there are; a key above all others is bound at the end,
and reading from a key on reads the bindings from that key on.
-/

namespace Kobako

variable {κ α : Type} [LinearOrder κ]

/-- `BTreeMap`: the bindings, their keys ascending. -/
structure OrderedMap (κ α : Type) [LinearOrder κ] where
  /-- Each key with what it is bound to. -/
  bindings : List (κ × α)
  /-- The keys ascend. -/
  ascending : bindings.Pairwise fun first second => first.1 < second.1

namespace OrderedMap

/-- `BTreeMap::new`. -/
def empty : OrderedMap κ α := ⟨[], .nil⟩

/-- `BTreeMap::get`. -/
def get (m : OrderedMap κ α) (key : κ) : Option α :=
  (m.bindings.find? fun binding => binding.1 = key).map (·.2)

/-- `BTreeMap::remove`. -/
def remove (m : OrderedMap κ α) (key : κ) : OrderedMap κ α :=
  ⟨m.bindings.filter fun binding => binding.1 ≠ key, m.ascending.filter _⟩

/-- `BTreeMap::range(key..).next()`. -/
def firstFrom (m : OrderedMap κ α) (key : κ) : Option (κ × α) :=
  m.bindings.find? fun binding => key ≤ binding.1

/-- The bindings below a key, one at it, and those above it ascend. -/
theorem ascending_insert (m : OrderedMap κ α) (key : κ) (value : α) :
    ((m.bindings.filter fun binding => binding.1 < key) ++
      (key, value) :: m.bindings.filter fun binding => key < binding.1).Pairwise
      fun first second => first.1 < second.1 := by
  rw [List.pairwise_append, List.pairwise_cons]
  have below : ∀ binding ∈ m.bindings.filter (fun binding => binding.1 < key), binding.1 < key :=
    fun binding member => of_decide_eq_true (List.mem_filter.mp member).2
  have above : ∀ binding ∈ m.bindings.filter (fun binding => key < binding.1), key < binding.1 :=
    fun binding member => of_decide_eq_true (List.mem_filter.mp member).2
  refine ⟨m.ascending.filter _, ⟨above, m.ascending.filter _⟩, ?_⟩
  intro first isBelow second member
  rcases List.mem_cons.mp member with rfl | isAbove
  · exact below first isBelow
  · exact lt_trans (below first isBelow) (above second isAbove)

/-- `BTreeMap::insert`. -/
def insert (m : OrderedMap κ α) (key : κ) (value : α) : OrderedMap κ α :=
  ⟨(m.bindings.filter fun binding => binding.1 < key) ++
    (key, value) :: m.bindings.filter fun binding => key < binding.1, m.ascending_insert key value⟩

/-! ## What is bound -/

variable {key : κ} {m : OrderedMap κ α} {value : α} {binding : κ × α}

/-- A key is bound once. -/
theorem same_value {first second : α} (one : (key, first) ∈ m.bindings)
    (other : (key, second) ∈ m.bindings) : first = second := by
  by_contra differ
  have apart : ((key, first) : κ × α) ≠ (key, second) := fun same => differ (Prod.mk.inj same).2
  have ordered := List.pairwise_iff_getElem.mp m.ascending
  obtain ⟨i, below, isFirst⟩ := List.getElem_of_mem one
  obtain ⟨j, within, isSecond⟩ := List.getElem_of_mem other
  rcases Nat.lt_trichotomy i j with before | same | behind
  · have less := ordered i j below within before
    rw [isFirst, isSecond] at less
    exact lt_irrefl _ less
  · subst same
    exact apart (isFirst.symm.trans isSecond)
  · have less := ordered j i within below behind
    rw [isFirst, isSecond] at less
    exact lt_irrefl _ less

/-- A lookup answers what is bound. -/
theorem get_eq_some :
    m.get key = some value ↔ (key, value) ∈ m.bindings := by
  rw [get, Option.map_eq_some_iff]
  constructor
  · rintro ⟨⟨found, held⟩, isFound, rfl⟩
    have same : found = key := by simpa using List.find?_some isFound
    exact same ▸ List.mem_of_find?_eq_some isFound
  · intro member
    cases found : m.bindings.find? fun binding => binding.1 = key with
    | none =>
      have absent := List.find?_eq_none.mp found _ member
      exact absurd (decide_eq_true rfl) absent
    | some binding =>
      have same : binding.1 = key := by simpa using List.find?_some found
      have bound : (key, binding.2) ∈ m.bindings := same ▸ List.mem_of_find?_eq_some found
      exact ⟨binding, rfl, same_value bound member⟩

/-- A lookup finds nothing where nothing is bound. -/
theorem get_eq_none :
    m.get key = none ↔ ∀ value, (key, value) ∉ m.bindings := by
  rw [Option.eq_none_iff_forall_ne_some]
  exact forall_congr' fun value => not_congr get_eq_some

theorem mem_remove {key other : κ} :
    (other, value) ∈ (m.remove key).bindings ↔ (other, value) ∈ m.bindings ∧ other ≠ key := by
  rw [remove, List.mem_filter, decide_eq_true_iff]

theorem mem_insert {key other : κ} {value held : α} :
    (other, held) ∈ (m.insert key value).bindings ↔
      (other = key ∧ held = value) ∨ ((other, held) ∈ m.bindings ∧ other ≠ key) := by
  rw [insert, List.mem_append, List.mem_cons, List.mem_filter, List.mem_filter,
    decide_eq_true_iff, decide_eq_true_iff, Prod.mk.injEq, ne_iff_lt_or_gt]
  tauto

/-! ## Reading on -/

/-- The bindings from a key on. -/
def fromKey (m : OrderedMap κ α) (key : κ) : List (κ × α) :=
  m.bindings.filter fun binding => key ≤ binding.1

/-- Nothing is bound from a key on where no binding is found. -/
theorem fromKey_eq_nil (absent : m.firstFrom key = none) :
    m.fromKey key = [] := by
  rw [firstFrom, List.find?_eq_none] at absent
  exact List.filter_eq_nil_iff.mpr absent

/-- The bindings from a key on are the first one found, and those above it. -/
theorem fromKey_eq_cons (found : m.firstFrom key = some binding) :
    m.fromKey key = binding :: m.bindings.filter fun other => binding.1 < other.1 := by
  obtain ⟨bindings, ascending⟩ := m
  rw [firstFrom] at found
  rw [fromKey]
  dsimp only at found ⊢
  induction bindings with
  | nil => cases found
  | cons first rest ih =>
    obtain ⟨above, onward⟩ := List.pairwise_cons.mp ascending
    by_cases reached : key ≤ first.1
    · rw [List.find?_cons_of_pos (by simpa using reached)] at found
      cases found
      have fromHere : rest.filter (fun other => key ≤ other.1) = rest :=
        List.filter_eq_self.mpr fun other member =>
          decide_eq_true (le_trans reached (le_of_lt (above other member)))
      have past : rest.filter (fun other => binding.1 < other.1) = rest :=
        List.filter_eq_self.mpr fun other member => decide_eq_true (above other member)
      rw [List.filter_cons_of_pos (by simpa using reached), fromHere,
        List.filter_cons_of_neg (by simp), past]
    · rw [List.find?_cons_of_neg (by simpa using reached)] at found
      have less : first.1 < binding.1 := above binding (List.mem_of_find?_eq_some found)
      rw [List.filter_cons_of_neg (by simpa using reached),
        List.filter_cons_of_neg (by simpa using le_of_lt less)]
      exact ih onward found

/-- The bindings from the key of one on are those from it on. -/
theorem fromKey_drop {count : Nat} {rest : List (κ × α)}
    (split : m.bindings.drop count = binding :: rest) :
    m.fromKey binding.1 = binding :: rest := by
  have ascending := m.ascending
  rw [← List.take_append_drop count m.bindings, split, List.pairwise_append,
    List.pairwise_cons] at ascending
  obtain ⟨-, ⟨above, -⟩, below⟩ := ascending
  have before : (m.bindings.take count).filter (fun other => binding.1 ≤ other.1) = [] :=
    List.filter_eq_nil_iff.mpr fun other member => by
      simpa using below other member binding List.mem_cons_self
  have onward : (binding :: rest).filter (fun other => binding.1 ≤ other.1) = binding :: rest := by
    apply List.filter_eq_self.mpr
    intro other member
    rcases List.mem_cons.mp member with rfl | later
    · exact decide_eq_true le_rfl
    · exact decide_eq_true (le_of_lt (above other later))
  rw [fromKey, ← List.take_append_drop count m.bindings, split, List.filter_append, before, onward,
    List.nil_append]

/-! ## Sums over the bindings -/

variable (weight : κ → α → Nat)

/-- The sum of a weight over all bindings. -/
def total (m : OrderedMap κ α) : Nat :=
  (m.bindings.map fun binding => weight binding.1 binding.2).sum

/-- The weight of what a key is bound to, nothing weighing nothing. -/
def weightAt (m : OrderedMap κ α) (key : κ) : Nat :=
  match m.get key with
  | some value => weight key value
  | none => 0

theorem weightAt_some {weight : κ → α → Nat} (bound : m.get key = some value) :
    m.weightAt weight key = weight key value := by
  rw [weightAt, bound]

theorem weightAt_none {weight : κ → α → Nat} (absent : m.get key = none) :
    m.weightAt weight key = 0 := by
  rw [weightAt, absent]

/-- Bindings split at a key. -/
theorem sum_split (weight : κ × α → Nat) (key : κ) (bindings : List (κ × α)) :
    (bindings.map weight).sum =
      ((bindings.filter fun binding => binding.1 < key).map weight).sum +
        ((bindings.filter fun binding => binding.1 = key).map weight).sum +
        ((bindings.filter fun binding => key < binding.1).map weight).sum := by
  induction bindings with
  | nil => rfl
  | cons binding rest ih =>
    rcases lt_trichotomy binding.1 key with below | same | above
    · have notSame : ¬binding.1 = key := ne_of_lt below
      have notAbove : ¬key < binding.1 := lt_asymm below
      simp only [List.map_cons, List.sum_cons, List.filter_cons, below, notSame, notAbove,
        decide_true, decide_false, if_true, ih, Bool.false_eq_true, if_false]
      omega
    · have notBelow : ¬binding.1 < key := by simp [same]
      have notAbove : ¬key < binding.1 := by simp [same]
      simp only [List.map_cons, List.sum_cons, List.filter_cons, same, lt_irrefl,
        decide_true, decide_false, if_true, ih, Bool.false_eq_true, if_false]
      omega
    · have notSame : ¬binding.1 = key := ne_of_gt above
      have notBelow : ¬binding.1 < key := lt_asymm above
      simp only [List.map_cons, List.sum_cons, List.filter_cons, above, notSame, notBelow,
        decide_true, decide_false, if_true, ih, Bool.false_eq_true, if_false]
      omega

/-- What a key is bound to is all there is at it. -/
theorem sum_at (m : OrderedMap κ α) (key : κ) :
    ((m.bindings.filter fun binding => binding.1 = key).map
      fun binding => weight binding.1 binding.2).sum = m.weightAt weight key := by
  have unique : (m.bindings.filter fun binding => binding.1 = key).Pairwise
      fun first second => first.1 < second.1 := m.ascending.filter _
  have here : ∀ binding, binding ∈ (m.bindings.filter fun binding => binding.1 = key) ↔
      binding ∈ m.bindings ∧ binding.1 = key := by
    intro binding
    rw [List.mem_filter, decide_eq_true_iff]
  cases standing : m.bindings.filter fun binding => binding.1 = key with
  | nil =>
    have absent : m.get key = none := by
      rw [get_eq_none]
      intro value member
      have held := (here (key, value)).mpr ⟨member, rfl⟩
      rw [standing] at held
      exact List.not_mem_nil held
    rw [weightAt_none absent]
    rfl
  | cons binding rest =>
    rw [standing] at unique here
    obtain ⟨member, same⟩ := (here binding).mp List.mem_cons_self
    have alone : rest = [] := by
      apply List.eq_nil_iff_forall_not_mem.mpr
      intro other later
      have less := (List.pairwise_cons.mp unique).1 other later
      rw [same, ((here other).mp (List.mem_cons_of_mem _ later)).2] at less
      exact lt_irrefl _ less
    have bound : m.get key = some binding.2 := get_eq_some.mpr (same ▸ member)
    rw [weightAt_some bound, alone, ← same]
    exact Nat.add_zero _

/-- Binding a key adds the weight of its new value and takes that of its old one. -/
theorem total_insert (m : OrderedMap κ α) (key : κ) (value : α) :
    (m.insert key value).total weight + m.weightAt weight key =
      m.total weight + weight key value := by
  rw [total, total, sum_split (fun binding => weight binding.1 binding.2) key m.bindings, sum_at,
    insert, List.map_append, List.map_cons, List.sum_append, List.sum_cons]
  dsimp only
  omega

/-- Removing a key takes the weight of its value. -/
theorem total_remove (m : OrderedMap κ α) (key : κ) :
    (m.remove key).total weight + m.weightAt weight key = m.total weight := by
  have apart := sum_split (fun binding => weight binding.1 binding.2) key (m.remove key).bindings
  have filters : ∀ keep : κ × α → Prop, [DecidablePred keep] → (∀ binding, keep binding →
      binding.1 ≠ key) → (m.remove key).bindings.filter (fun binding => decide (keep binding)) =
      m.bindings.filter fun binding => decide (keep binding) := by
    intro keep _ other
    rw [remove, List.filter_filter]
    congr 1
    funext binding
    by_cases kept : keep binding
    · simp [kept, other binding kept]
    · simp [kept]
  have gone : (m.remove key).bindings.filter (fun binding => binding.1 = key) = [] := by
    rw [remove, List.filter_filter]
    apply List.filter_eq_nil_iff.mpr
    intro binding _
    simp
  rw [filters (fun binding => binding.1 < key) fun _ less => ne_of_lt less, gone,
    filters (fun binding => key < binding.1) fun _ more => ne_of_gt more] at apart
  rw [total, apart, total, sum_split (fun binding => weight binding.1 binding.2) key m.bindings,
    sum_at, List.map_nil, List.sum_nil]
  omega

/-- A key bound weighs no more than all bindings. -/
theorem weightAt_le_total (m : OrderedMap κ α) (key : κ) :
    m.weightAt weight key ≤ m.total weight := by
  have removed := total_remove weight m key
  omega

/-! ## Lookups after a change -/

theorem get_insert_self (m : OrderedMap κ α) (key : κ) (value : α) :
    (m.insert key value).get key = some value :=
  get_eq_some.mpr (mem_insert.mpr (.inl ⟨rfl, rfl⟩))

theorem get_insert_of_ne (m : OrderedMap κ α) {key other : κ} (value : α) (apart : other ≠ key) :
    (m.insert key value).get other = m.get other := by
  apply Option.ext
  intro held
  rw [get_eq_some, get_eq_some, mem_insert]
  constructor
  · rintro (⟨same, -⟩ | ⟨bound, -⟩)
    · exact absurd same apart
    · exact bound
  · exact fun bound => .inr ⟨bound, apart⟩

theorem get_remove_self (m : OrderedMap κ α) (key : κ) : (m.remove key).get key = none :=
  get_eq_none.mpr fun _ member => (mem_remove.mp member).2 rfl

theorem get_remove_of_ne (m : OrderedMap κ α) {key other : κ} (apart : other ≠ key) :
    (m.remove key).get other = m.get other := by
  apply Option.ext
  intro held
  rw [get_eq_some, get_eq_some, mem_remove]
  exact and_iff_left apart

/-- A lookup finds something exactly at a bound key. -/
theorem get_isSome :
    (m.get key).isSome ↔ ∃ value, (key, value) ∈ m.bindings := by
  rw [Option.isSome_iff_exists]
  exact exists_congr fun value => get_eq_some

theorem isSome_insert {key other : κ} :
    ((m.insert key value).get other).isSome ↔ other = key ∨ (m.get other).isSome := by
  by_cases same : other = key
  · simp [same, get_insert_self]
  · simp [same, get_insert_of_ne m value same]

theorem isSome_remove {key other : κ} :
    ((m.remove key).get other).isSome ↔ other ≠ key ∧ (m.get other).isSome := by
  by_cases same : other = key
  · simp [same, get_remove_self]
  · simp [same, get_remove_of_ne m same]

/-! ## How many, the first and the last -/

/-- `BTreeMap::len`. -/
def len (m : OrderedMap κ α) : Nat := m.bindings.length

/-- `BTreeMap::first_key_value`. -/
def first (m : OrderedMap κ α) : Option (κ × α) := m.bindings.head?

/-- `BTreeMap::last_key_value`. -/
def last (m : OrderedMap κ α) : Option (κ × α) := m.bindings.getLast?

/-- Each binding counts for one. -/
theorem len_eq_total (m : OrderedMap κ α) : m.len = m.total fun _ _ => 1 := by
  simp [len, total]

/-- Binding a key that was not bound adds one. -/
theorem len_insert (absent : m.get key = none) (value : α) :
    (m.insert key value).len = m.len + 1 := by
  have counted := total_insert (fun _ _ => 1) m key value
  rw [weightAt_none absent] at counted
  rw [len_eq_total, len_eq_total]
  omega

/-- Removing a bound key takes one. -/
theorem len_remove (bound : m.get key = some value) :
    (m.remove key).len + 1 = m.len := by
  have counted := total_remove (fun _ _ => 1) m key
  rw [weightAt_some bound] at counted
  rw [len_eq_total, len_eq_total]
  omega

/-- Bindings below a bound are at most as many. -/
theorem len_le_of_lt {m : OrderedMap Nat α} {bound : Nat}
    (below : ∀ key, (m.get key).isSome → key < bound) : m.len ≤ bound := by
  have distinct : (m.bindings.map Prod.fst).Nodup :=
    List.Pairwise.map Prod.fst (fun _ _ less => ne_of_lt less) m.ascending
  have inside : (m.bindings.map Prod.fst) ⊆ List.range bound := by
    intro key member
    obtain ⟨binding, bound_, rfl⟩ := List.mem_map.mp member
    exact List.mem_range.mpr (below _ (get_isSome.mpr ⟨binding.2, bound_⟩))
  simpa [len] using (List.subperm_of_subset distinct inside).length_le

/-- No key is bound where there is no first one. -/
theorem first_eq_none (absent : m.first = none) (key : κ) :
    m.get key = none := by
  have empty : m.bindings = [] := List.head?_eq_none_iff.mp absent
  exact get_eq_none.mpr (by simp [empty])

/-- The first key is bound, and none below it is. -/
theorem first_eq_some (first : m.first = some binding) :
    m.get binding.1 = some binding.2 ∧ ∀ key, (m.get key).isSome → binding.1 ≤ key := by
  obtain ⟨rest, split⟩ := List.head?_eq_some_iff.mp first
  refine ⟨get_eq_some.mpr (by simp [split]), fun key bound => ?_⟩
  obtain ⟨value, member⟩ := get_isSome.mp bound
  have ordered := m.ascending
  rw [split] at member ordered
  rcases List.mem_cons.mp member with rfl | later
  · exact le_rfl
  · exact le_of_lt ((List.pairwise_cons.mp ordered).1 _ later)

/-- No key is bound where there is no last one. -/
theorem last_eq_none (absent : m.last = none) (key : κ) :
    m.get key = none := by
  have empty : m.bindings = [] := List.getLast?_eq_none_iff.mp absent
  exact get_eq_none.mpr (by simp [empty])

/-- The last key is bound, and none above it is. -/
theorem last_eq_some (last : m.last = some binding) :
    m.get binding.1 = some binding.2 ∧ ∀ key, (m.get key).isSome → key ≤ binding.1 := by
  obtain ⟨front, split⟩ := List.getLast?_eq_some_iff.mp last
  refine ⟨get_eq_some.mpr (by simp [split]), fun key bound => ?_⟩
  obtain ⟨value, member⟩ := get_isSome.mp bound
  have ordered := m.ascending
  rw [split] at member ordered
  rcases List.mem_append.mp member with earlier | same
  · exact le_of_lt ((List.pairwise_append.mp ordered).2.2 _ earlier _ List.mem_cons_self)
  · exact le_of_eq (congrArg Prod.fst (List.mem_singleton.mp same))

end OrderedMap

end Kobako
