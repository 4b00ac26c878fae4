import Kobako.Run
import Mathlib.Data.List.Nodup
import Mathlib.Algebra.GroupWithZero.Nat

/-!
# The table of objects held elsewhere

The table keeps its objects weakly, so an entry outlives its object until a sweep takes it out. A
sweep comes once the table reaches twice what the last one left. Nobody who asks the table can tell
it from one that is never swept; the sweeps look at no more entries than twice the insertions made;
and the table holds at most twice the entries that were ever held at once, or sixteen.
-/

namespace Kobako.Hashtable

variable {κ ν : Type}

/-- `HashMap`: the entries, each key once. -/
structure Entries (κ ν : Type) where
  bindings : List (κ × ν)
  distinct : (bindings.map (·.1)).Nodup

/-- `Hashtable`. -/
structure Table (κ ν : Type) where
  entries : Entries κ ν
  sweepAt : Nat

variable [DecidableEq κ]

namespace Entries

variable (entries : Entries κ ν)

/-- `HashMap::get`. -/
def get (key : κ) : Option ν := entries.bindings.lookup key

/-- `HashMap::len`. -/
def len : Nat := entries.bindings.length

/-- `HashMap::retain`, by the values. -/
def retain (keeps : ν → Bool) : Entries κ ν where
  bindings := entries.bindings.filter fun binding => keeps binding.2
  distinct := (List.filter_sublist.map _).nodup entries.distinct

/-- `HashMap::remove`. -/
def remove (key : κ) : Entries κ ν where
  bindings := entries.bindings.filter fun binding => binding.1 ≠ key
  distinct := (List.filter_sublist.map _).nodup entries.distinct

/-- `HashMap::insert`. -/
def insert (key : κ) (value : ν) : Entries κ ν where
  bindings := (key, value) :: (entries.remove key).bindings
  distinct := by
    rw [List.map_cons, List.nodup_cons]
    refine ⟨?_, (entries.remove key).distinct⟩
    simp [remove]

end Entries

namespace Table

/-- `Hashtable::default`. -/
def default : Table κ ν := ⟨⟨[], List.nodup_nil⟩, 0⟩

/-- `Hashtable::get`, where `upgrade` finds what is still held. -/
def get (table : Table κ ν) (held : ν → Bool) (key : κ) : Option ν :=
  (table.entries.get key).filter held

/-- `Hashtable::insert`, with the number of entries a sweep looked at. -/
def insert (table : Table κ ν) (held : ν → Bool) (key : κ) (value : ν) : Table κ ν × Nat :=
  if table.entries.len ≥ table.sweepAt then
    let kept := table.entries.retain held
    (⟨kept.insert key value, max (kept.len * 2) 16⟩, table.entries.len)
  else (⟨table.entries.insert key value, table.sweepAt⟩, 0)

/-- `Hashtable::remove`: what stood there and is held, and the table left. -/
def remove (table : Table κ ν) (held : ν → Bool) (key : κ) : Option ν × Table κ ν :=
  (table.get held key, { table with entries := table.entries.remove key })

end Table

/-! ## The table among its holders -/

variable [DecidableEq ν]

/-- The table, the objects ever made and those held, a table that is never swept, and what the
sweeps cost. -/
structure World (κ ν : Type) where
  table : Table κ ν
  made : ν → Bool
  held : ν → Bool
  /-- What was last put at each key and not taken out. -/
  plain : κ → Option ν
  inserts : Nat
  /-- The entries all sweeps looked at. -/
  looked : Nat
  /-- The most entries of held objects there ever were at once. -/
  most : Nat

/-- What somebody does next. -/
inductive Event (κ ν : Type)
  /-- An object is made, and held. -/
  | make (value : ν)
  /-- The last that held an object lets it go. -/
  | drop (value : ν)
  | insert (key : κ) (value : ν)
  | remove (key : κ)

/-- No object yet. -/
def World.new : World κ ν where
  table := .default
  made _ := false
  held _ := false
  plain _ := none
  inserts := 0
  looked := 0
  most := 0

/-- The entries of held objects are counted. -/
def World.counted (world : World κ ν) : World κ ν :=
  { world with most := max world.most (world.table.entries.retain world.held).len }

/-- One step: an object is made once, and only a held one is put in the table. -/
def World.step (world : World κ ν) : Event κ ν → Option (World κ ν)
  | .make value =>
    if world.made value then none
    else
      some (World.counted { world with
        made := Function.update world.made value true
        held := Function.update world.held value true })
  | .drop value =>
    some (World.counted { world with held := Function.update world.held value false })
  | .insert key value =>
    if world.held value then
      some (World.counted { world with
        table := (world.table.insert world.held key value).1
        plain := Function.update world.plain key (some value)
        inserts := world.inserts + 1
        looked := world.looked + (world.table.insert world.held key value).2 })
    else none
  | .remove key =>
    some (World.counted { world with
      table := (world.table.remove world.held key).2
      plain := Function.update world.plain key none })

/-! ## What a table answers -/

namespace Entries

variable {entries : Entries κ ν} {key other : κ} {value : ν}

omit [DecidableEq ν]

/-- A key is found bound to exactly what it is bound to. -/
theorem get_eq_some : entries.get key = some value ↔ (key, value) ∈ entries.bindings := by
  obtain ⟨bindings, distinct⟩ := entries
  simp only [get]
  induction bindings with
  | nil => simp
  | cons binding bindings ih =>
    obtain ⟨first, held⟩ := binding
    rw [List.map_cons, List.nodup_cons] at distinct
    by_cases same : key = first
    · subst same
      have elsewhere : (key, value) ∉ bindings := by
        intro among
        exact distinct.1 (List.mem_map.mpr ⟨(key, value), among, rfl⟩)
      simp [elsewhere, eq_comm]
    · rw [List.lookup_cons, beq_false_of_ne same, List.mem_cons, Prod.mk.injEq]
      simp only [same, false_and, false_or]
      exact ih distinct.2

/-- What a sweep keeps is found as before. -/
theorem get_retain {keeps : ν → Bool} :
    (entries.retain keeps).get key = some value ↔
      entries.get key = some value ∧ keeps value = true := by
  rw [get_eq_some, get_eq_some, retain, List.mem_filter]

/-- What is taken out is found no more, and everything else as before. -/
theorem get_remove :
    (entries.remove key).get other = some value ↔
      entries.get other = some value ∧ other ≠ key := by
  rw [get_eq_some, get_eq_some, remove, List.mem_filter, decide_eq_true_eq]

/-- What is put in is found, and everything else as before. -/
theorem get_insert {held : ν} :
    (entries.insert key value).get other = some held ↔
      (other = key ∧ held = value) ∨ (entries.get other = some held ∧ other ≠ key) := by
  rw [get_eq_some, insert, List.mem_cons, ← get_eq_some, get_remove, Prod.mk.injEq]

theorem len_remove_le (entries : Entries κ ν) (key : κ) : (entries.remove key).len ≤ entries.len :=
  List.length_filter_le _ _

theorem len_insert_le (entries : Entries κ ν) (key : κ) (value : ν) :
    (entries.insert key value).len ≤ entries.len + 1 :=
  Nat.succ_le_succ (len_remove_le entries key)

end Entries

/-! ## What every run keeps -/

/-- The table answers for what is held as one never swept would. -/
structure World.Answers (world : World κ ν) : Prop where
  held_made : ∀ value, world.held value = true → world.made value = true
  plain_made : ∀ key value, world.plain key = some value → world.made value = true
  agrees : ∀ key value, world.table.entries.get key = some value → world.plain key = some value
  keeps : ∀ key value, world.plain key = some value → world.held value = true →
    world.table.entries.get key = some value

/-- No sweep was dearer than the insertions that led to it, and no table larger than what was
held. -/
structure World.Paid (world : World κ ν) : Prop where
  /-- What the next sweep will look at is owed by the insertions before it. -/
  owed : world.looked + 2 * world.table.entries.len ≤ 2 * world.inserts + world.table.sweepAt
  paid : world.looked ≤ 2 * world.inserts
  full : world.table.entries.len ≤ world.table.sweepAt
  spread : world.table.sweepAt ≤ max 16 (2 * world.most)

/-- What every reachable world has. -/
structure World.Sound (world : World κ ν) : Prop where
  answers : world.Answers
  paid : world.Paid
  counted : (world.table.entries.retain world.held).len ≤ world.most

variable {world : World κ ν} {key : κ} {value : ν}

omit [DecidableEq ν] in
/-- Counting what is held changes nothing else. -/
theorem World.counted_sound (answers : world.Answers) (paid : world.Paid) :
    world.counted.Sound where
  answers := ⟨answers.held_made, answers.plain_made, answers.agrees, answers.keeps⟩
  paid := by
    refine ⟨paid.owed, paid.paid, paid.full, ?_⟩
    have spread := paid.spread
    simp only [World.counted]
    omega
  counted := Nat.le_max_right _ _

/-- What an insertion leaves in the table: what is put there and, of the rest, at least what is
held. -/
theorem Table.get_insert {table : Table κ ν} {held : ν → Bool} {other : κ} {found : ν} :
    ((table.insert held key value).1.entries.get other = some found →
      (other = key ∧ found = value) ∨ (table.entries.get other = some found ∧ other ≠ key)) ∧
    ((other = key ∧ found = value) ∨
      (table.entries.get other = some found ∧ other ≠ key ∧ held found = true) →
      (table.insert held key value).1.entries.get other = some found) := by
  unfold Table.insert
  split
  · simp only [Entries.get_insert, Entries.get_retain]
    tauto
  · simp only [Entries.get_insert]
    tauto

/-- An insertion is answered as in a table never swept. -/
theorem World.Answers.insert (answers : world.Answers) (alive : world.held value = true) :
    World.Answers { world with
      table := (world.table.insert world.held key value).1
      plain := Function.update world.plain key (some value)
      inserts := world.inserts + 1
      looked := world.looked + (world.table.insert world.held key value).2 } where
  held_made := answers.held_made
  plain_made other found stands := by
    by_cases same : other = key
    · subst same
      simp only [Function.update_self, Option.some.injEq] at stands
      exact stands ▸ answers.held_made value alive
    · simp only [Function.update_of_ne same] at stands
      exact answers.plain_made other found stands
  agrees other found stands := by
    obtain ⟨same, equal⟩ | ⟨earlier, apart⟩ := Table.get_insert.1 stands
    · subst same equal
      simp
    · simp only [Function.update_of_ne apart]
      exact answers.agrees other found earlier
  keeps other found stands still := by
    refine Table.get_insert.2 ?_
    by_cases same : other = key
    · subst same
      simp only [Function.update_self, Option.some.injEq] at stands
      exact .inl ⟨rfl, stands.symm⟩
    · simp only [Function.update_of_ne same] at stands
      exact .inr ⟨answers.keeps other found stands still, same, still⟩

omit [DecidableEq ν] in
/-- An insertion pays for the sweep it brings about. -/
theorem World.Paid.insert (paid : world.Paid)
    (counted : (world.table.entries.retain world.held).len ≤ world.most) :
    World.Paid { world with
      table := (world.table.insert world.held key value).1
      plain := Function.update world.plain key (some value)
      inserts := world.inserts + 1
      looked := world.looked + (world.table.insert world.held key value).2 } := by
  have owed := paid.owed
  have settled := paid.paid
  have spread := paid.spread
  by_cases sweeps : world.table.entries.len ≥ world.table.sweepAt
  · have grown := Entries.len_insert_le (world.table.entries.retain world.held) key value
    simp only [Table.insert, if_pos sweeps]
    exact ⟨by simp only; omega, by simp only; omega, by simp only; omega, by simp only; omega⟩
  · have grown := Entries.len_insert_le world.table.entries key value
    simp only [Table.insert, if_neg sweeps]
    exact ⟨by simp only; omega, by simp only; omega, by simp only; omega, by simp only; omega⟩

omit [DecidableEq ν] in
/-- What is taken out is answered no more, and nothing is swept. -/
theorem World.Answers.remove (answers : world.Answers) :
    World.Answers { world with
      table := (world.table.remove world.held key).2
      plain := Function.update world.plain key none } where
  held_made := answers.held_made
  plain_made other found stands := by
    by_cases same : other = key
    · simp [same] at stands
    · simp only [Function.update_of_ne same] at stands
      exact answers.plain_made other found stands
  agrees other found stands := by
    obtain ⟨earlier, apart⟩ := Entries.get_remove.mp stands
    simp only [Function.update_of_ne apart]
    exact answers.agrees other found earlier
  keeps other found stands still := by
    by_cases same : other = key
    · simp [same] at stands
    · simp only [Function.update_of_ne same] at stands
      exact Entries.get_remove.mpr ⟨answers.keeps other found stands still, same⟩

/-- An object made is at no key yet. -/
theorem World.Answers.make (answers : world.Answers) (fresh : world.made value = false) :
    World.Answers { world with
      made := Function.update world.made value true
      held := Function.update world.held value true } where
  held_made other alive := by
    by_cases same : other = value
    · simp [same]
    · simp only [Function.update_of_ne same] at alive ⊢
      exact answers.held_made other alive
  plain_made key other stands := by
    by_cases same : other = value
    · simp [same]
    · simp only [Function.update_of_ne same]
      exact answers.plain_made key other stands
  agrees := answers.agrees
  keeps key other stands alive := by
    have apart : other ≠ value := by
      intro same
      have made := answers.plain_made key other stands
      simp [same, fresh] at made
    simp only [Function.update_of_ne apart] at alive
    exact answers.keeps key other stands alive

/-- An object let go of is answered no more, wherever it stands. -/
theorem World.Answers.drop (answers : world.Answers) :
    World.Answers { world with held := Function.update world.held value false } where
  held_made other alive := by
    by_cases same : other = value
    · simp [same] at alive
    · simp only [Function.update_of_ne same] at alive
      exact answers.held_made other alive
  plain_made := answers.plain_made
  agrees := answers.agrees
  keeps key other stands alive := by
    by_cases same : other = value
    · simp [same] at alive
    · simp only [Function.update_of_ne same] at alive
      exact answers.keeps key other stands alive

/-- Every step keeps what the table answers and what its sweeps cost. -/
theorem World.step_sound (world : World κ ν) (event : Event κ ν) (next : World κ ν)
    (sound : world.Sound) (stepped : world.step event = some next) : next.Sound := by
  cases event with
  | make value =>
    simp only [World.step] at stepped
    split at stepped
    · cases stepped
    · rename_i fresh
      cases stepped
      exact World.counted_sound (sound.answers.make (by simpa using fresh))
        ⟨sound.paid.owed, sound.paid.paid, sound.paid.full, sound.paid.spread⟩
  | drop value =>
    cases stepped
    exact World.counted_sound sound.answers.drop
      ⟨sound.paid.owed, sound.paid.paid, sound.paid.full, sound.paid.spread⟩
  | insert key value =>
    simp only [World.step] at stepped
    split at stepped
    · rename_i alive
      cases stepped
      exact World.counted_sound (sound.answers.insert alive) (sound.paid.insert sound.counted)
    · cases stepped
  | remove key =>
    cases stepped
    have shrunk := Entries.len_remove_le world.table.entries key
    have owed := sound.paid.owed
    have full := sound.paid.full
    exact World.counted_sound sound.answers.remove
      ⟨by simp only [Table.remove]; omega, sound.paid.paid, by simp only [Table.remove]; omega,
        sound.paid.spread⟩

/-- Whatever objects are made, put at keys, taken out and let go of: the table answers for every key
as one that is never swept would, its sweeps have looked at no more than two entries for each
insertion, and it holds at most sixteen entries or twice those of held objects there ever were at
once. -/
theorem sweeps_are_unseen_and_paid_for (reached : Reachable World.step (.new : World κ ν) world) :
    (∀ key, world.table.get world.held key = (world.plain key).filter world.held) ∧
      world.looked ≤ 2 * world.inserts ∧
      world.table.entries.len ≤ max 16 (2 * world.most) := by
  have started : (World.new : World κ ν).Sound := by
    refine ⟨⟨?_, ?_, ?_, ?_⟩, ⟨?_, ?_, ?_, ?_⟩, ?_⟩ <;>
      simp [World.new, Table.default, Entries.get, Entries.len, Entries.retain]
  have sound : world.Sound := reached.invariant World.step started World.step_sound
  refine ⟨fun key => ?_, sound.paid.paid, Nat.le_trans sound.paid.full sound.paid.spread⟩
  refine Option.ext fun value => ?_
  simp only [Table.get, Option.filter_eq_some_iff]
  constructor
  · intro found
    exact ⟨sound.answers.agrees key value found.1, found.2⟩
  · intro found
    exact ⟨sound.answers.keeps key value found.1 found.2, found.2⟩

/-- One object is let go of where it stands, another stands at the keys from `1` to `16`, and the
last of its insertions finds the table full and sweeps the first out. -/
def shelved : List (Event Nat Nat) :=
  [Event.make 2, .insert 0 2, .drop 2, .make 1] ++ (List.range' 1 16).map (Event.insert · 1) ++
    [Event.remove 10]

theorem sweeps_are_unseen_and_paid_for_shelved :
    ∃ world, run World.step .new shelved = some world ∧ world.inserts = 17 ∧ world.looked = 16 ∧
      world.plain 0 = some 2 ∧ world.table.entries.get 0 = none ∧
      world.table.get world.held 11 = (world.plain 11).filter world.held ∧
      world.looked ≤ 2 * 17 ∧ world.table.entries.len ≤ max 16 (2 * world.most) := by
  have reached : (run World.step (.new : World Nat Nat) shelved).map
      (fun world => (world.inserts, world.looked, world.plain 0, world.table.entries.get 0)) =
      some (17, 16, some 2, none) := by decide +kernel
  obtain ⟨world, ran, stood⟩ := Option.map_eq_some_iff.mp reached
  obtain ⟨made, looked, plain, swept⟩ := by simpa only [Prod.mk.injEq] using stood
  obtain ⟨unseen, paid, small⟩ := sweeps_are_unseen_and_paid_for ⟨shelved, ran⟩
  exact ⟨world, ran, made, looked, plain, swept, unseen 11, made ▸ paid, small⟩

end Kobako.Hashtable
