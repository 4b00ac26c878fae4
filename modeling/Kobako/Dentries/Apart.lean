import Kobako.Dentries.Entries

/-!
# Where another thread's step enters a dentry

No operation moves a dentry another thread guards or enters one at its name, as long as it runs on
a name its own thread looks up, or in a directory it holds: a name is in lookup for one thread, and
a directory that is held exclusive is held by nobody else.
-/

namespace Kobako.Dentries

open Kobako.Dcache (LookupState Dentry Key)
open Kobako.Locking (Holders)
open Kobako.Vfs (FsError)

variable {τ ν ι : Type}

/-- No dentry a thread guards stands at a key. -/
def Elsewhere (semaphores : Lock ι → Holders τ) (cache : Cache τ ν ι) (thread : τ)
    (place : Key ν) : Prop :=
  ∀ dentry, cache.live dentry = true → Guarded semaphores cache thread dentry →
    cache.key dentry ≠ place

/-! ## What each operation leaves to the others -/

section Operations

variable {semaphores : Lock ι → Holders τ} {cache next : Cache τ ν ι} {thread : τ}
  {dentry : Nat} {new : Nat → Prop}

theorem Shy.refl (semaphores : Lock ι → Holders τ) (cache : Cache τ ν ι) (thread : τ) :
    Shy semaphores cache cache thread where
  place _ _ _ := rfl
  keyed _ _ _ := rfl
  lone _ _ _ _ lone := lone
  held _ live held := ⟨live, held, rfl⟩

/-- What leaves every dentry at its place and enters none where the thread counts on it. -/
theorem Cache.Stays.shy (stays : cache.Stays next) (enters : cache.Enters next new)
    (elsewhere : ∀ entered, new entered → Elsewhere semaphores cache thread (cache.key entered))
    (held : ∀ other, (next.asked other).heldFor = some thread →
      (cache.asked other).heldFor = some thread) : Shy semaphores cache next thread where
  place other _ _ := by simp [Cache.parentAndName, stays.parent, stays.name]
  keyed other _ _ := by rw [stays.key]
  lone other allowed live guarded lone := by
    refine lone.carry enters fun entered within keyed => ?_
    rw [stays.key] at keyed
    exact absurd keyed.symm (elsewhere entered within other live guarded)
  held other live asked := ⟨stays.live ▸ live, held other asked, by rw [stays.parent]⟩

variable [DecidableEq ν]

/-- An answer recorded on a dentry that was hashed enters nothing. -/
theorem Cache.Answers.enters_nothing (answers : cache.Answers dentry next)
    (already : cache.hashed dentry = true) : cache.Enters next (fun _ => False) := by
  intro other live hashed
  rw [answers.live] at live
  rw [answers.hashed] at hashed
  right
  refine ⟨live, ?_, by rw [answers.key]⟩
  split at hashed
  · rename_i same
    exact same ▸ already
  · exact hashed

theorem Cache.Answers.shy (answers : cache.Answers dentry next)
    (elsewhere : cache.hashed dentry = true ∨
      Elsewhere semaphores cache thread (cache.key dentry)) :
    Shy semaphores cache next thread := by
  have held : ∀ other, (next.asked other).heldFor = some thread →
      (cache.asked other).heldFor = some thread := by
    intro other held
    rw [answers.asked] at held
    split at held
    · simp [LookupState.heldFor] at held
    · exact held
  obtain already | elsewhere := elsewhere
  · exact answers.toStays.shy (answers.enters_nothing already) (fun _ none_ => none_.elim) held
  · exact answers.toStays.shy answers.enters (fun _ same => same ▸ elsewhere) held

omit [DecidableEq ν] in
theorem Cache.Turns.shy {state : LookupState τ} (turns : cache.Turns dentry state next)
    (semaphores : Lock ι → Holders τ) (others : state.heldFor ≠ some thread) :
    Shy semaphores cache next thread := by
  refine turns.toStays.shy turns.enters (fun _ none_ => none_.elim) fun other held => ?_
  rw [turns.asked] at held
  split at held
  · exact absurd held others
  · exact held

theorem Cache.unhash_shy (semaphores : Lock ι → Holders τ) (cache : Cache τ ν ι) (dentry : Nat)
    (thread : τ) : Shy semaphores cache (cache.unhash dentry) thread := by
  have unhashes := cache.unhash_unhashes dentry
  exact unhashes.toStays.shy (cache.unhash_enters dentry) (fun _ none_ => none_.elim)
    fun other held => unhashes.asked ▸ held

omit [DecidableEq ν] in
theorem Cache.drop_shy (semaphores : Lock ι → Holders τ) (cache : Cache τ ν ι) (dentry : Nat)
    (thread : τ) : Shy semaphores cache (cache.drop dentry) thread where
  place _ _ _ := rfl
  keyed _ _ _ := rfl
  lone _ _ _ _ lone := lone.carry (cache.drop_enters dentry) fun _ none_ => none_.elim
  held _ live held := ⟨(drop_live live).2, held, rfl⟩

theorem Cache.make_shy (semaphores : Lock ι → Holders τ) (shaped : cache.Shaped) {maker : τ}
    (others : maker ≠ thread) (at_ : Nat × ν) (address : Nat) :
    Shy semaphores cache (cache.make maker at_ address) thread where
  place other live _ := by
    have old := Nat.ne_of_lt (shaped.bound other live)
    simp [Cache.parentAndName, Cache.parent, Cache.name, (make_old old).1]
  keyed other live _ := shaped.make_key live
  lone other allowed live _ lone :=
    lone.carry (make_enters shaped maker at_ address) fun _ none_ => none_.elim
  held other live held := by
    obtain made | ⟨old, before⟩ := make_live live
    · rw [made, Cache.asked, make_new.1] at held
      exact absurd (Option.some.inj held) others
    · rw [Cache.asked, (make_old old).1] at held
      exact ⟨before, held, by rw [Cache.parent, (make_old old).1, Cache.parent]⟩

/-- A move of a dentry the thread does not guard, to where it guards none. -/
theorem Cache.moveTo_shy (semaphores : Lock ι → Holders τ) (cache : Cache τ ν ι)
    {moved : Nat} {at_ : Nat × ν} (free : ¬Guarded semaphores cache thread moved)
    (elsewhere : Elsewhere semaphores cache thread (cache.keyAt at_)) :
    Shy semaphores cache (cache.moveTo moved at_) thread := by
  have rehangs := cache.moveTo_rehangs moved at_
  have apart : ∀ other, Guarded semaphores cache thread other → other ≠ moved :=
    fun other guarded same => free (same ▸ guarded)
  exact {
    place := by
      intro other _ guarded
      simp [Cache.parentAndName, Cache.parent, Cache.name, moveTo_other (apart other guarded)]
    keyed := fun other _ guarded => moveTo_key_other (apart other guarded)
    lone := by
      intro other allowed live guarded lone
      refine lone.carry (cache.moveTo_enters moved at_) fun entered same keyed => ?_
      rw [same, moveTo_key_moved] at keyed
      exact absurd keyed.symm (elsewhere other live guarded)
    held := by
      intro other live held
      rw [rehangs.asked] at held
      have still : (cache.moveTo moved at_).dentries other = cache.dentries other :=
        moveTo_other (apart other (.inl held))
      exact ⟨rehangs.live ▸ live, held, by rw [Cache.parent, still, Cache.parent]⟩ }

/-- An exchange of two dentries the thread guards neither of, at names it guards none at. -/
theorem Cache.exchange_shy (semaphores : Lock ι → Holders τ) (cache : Cache τ ν ι)
    {first second : Nat} (distinct : first ≠ second) (hungFirst : cache.parent first ≠ none)
    (hungSecond : cache.parent second ≠ none)
    (freeFirst : ¬Guarded semaphores cache thread first)
    (freeSecond : ¬Guarded semaphores cache thread second)
    (elsewhereFirst : Elsewhere semaphores cache thread (cache.key first))
    (elsewhereSecond : Elsewhere semaphores cache thread (cache.key second)) :
    Shy semaphores cache (cache.exchange first second) thread := by
  have rehangs := exchange_rehangs cache distinct
  have keys := exchange_keys distinct hungFirst hungSecond
  have still : ∀ other, Guarded semaphores cache thread other →
      (cache.exchange first second).dentries other = cache.dentries other ∧
        (cache.exchange first second).key other = cache.key other := by
    intro other guarded
    have one : other ≠ first := fun same => freeFirst (same ▸ guarded)
    have two : other ≠ second := fun same => freeSecond (same ▸ guarded)
    exact ⟨exchange_other one two, exchange_key_other one two⟩
  exact {
    place := by
      intro other _ guarded
      simp [Cache.parentAndName, Cache.parent, Cache.name, (still other guarded).1]
    keyed := fun other _ guarded => (still other guarded).2
    lone := by
      intro other allowed live guarded lone
      refine lone.carry (cache.exchange_enters first second) fun entered which keyed => ?_
      obtain one | two := which
      · rw [one, keys.1] at keyed
        exact absurd keyed.symm (elsewhereSecond other live guarded)
      · rw [two, keys.2] at keyed
        exact absurd keyed.symm (elsewhereFirst other live guarded)
    held := by
      intro other live held
      rw [rehangs.asked] at held
      refine ⟨rehangs.live ▸ live, held, ?_⟩
      rw [Cache.parent, (still other (.inl held)).1, Cache.parent] }

end Operations

/-! ## What the locks keep apart -/

/-- What is held exclusive is held by nobody else. -/
def Excludes (semaphores : Lock ι → Holders τ) : Prop :=
  ∀ lock thread, (semaphores lock).writer = some thread → (semaphores lock).readers = []

section Locks

variable {semaphores : Lock ι → Holders τ} {cache : Cache τ ν ι} {thread other : τ} {dir : Nat}

/-- A directory a thread holds, no other holds exclusive. -/
theorem Has.apart (excludes : Excludes semaphores) {exclusive : Bool}
    (has : Has semaphores cache thread exclusive (.dir dir)) (others : other ≠ thread) :
    ¬Writes semaphores cache other dir := by
  intro writes
  obtain ⟨inode, names, holds⟩ := has
  obtain ⟨entry, named, writer⟩ := writes
  have same : inode = entry := Option.some.inj (names.symm.trans named)
  subst same
  obtain ⟨_, written⟩ | ⟨_, reads⟩ := holds
  · exact others (Option.some.inj (writer.symm.trans written))
  · simp [excludes _ _ writer] at reads

theorem Excludes.granted [DecidableEq ι] (excludes : Excludes semaphores) {lock : Lock ι}
    {holders : Holders τ} {exclusive : Bool}
    (grants : (semaphores lock).Grants exclusive thread holders) :
    Excludes (Function.update semaphores lock holders) := by
  intro at_ holder writes
  by_cases same : at_ = lock
  · subst same
    rw [Function.update_self] at writes ⊢
    obtain ⟨unwritten, ⟨_, unread, held⟩ | ⟨_, held⟩⟩ := grants
    · rw [held]
      exact unread
    · simp [held, unwritten] at writes
  · rw [Function.update_of_ne same] at writes ⊢
    exact excludes at_ holder writes

theorem Excludes.without [DecidableEq τ] (excludes : Excludes semaphores) (leaver : τ) :
    Excludes fun lock => without leaver (semaphores lock) := by
  intro lock holder writes
  have before : (semaphores lock).writer = some holder :=
    (Option.filter_eq_some_iff.mp writes).1
  simp [Dentries.without, excludes lock holder before]

end Locks

/-! ## Every thread -/

/-- A dentry a thread asks about, in the directory its call looks a name up in. -/
def Stage.Asks (cache : Cache τ ν ι) (call : Call ν) (dentry : Nat) : Stage ν ι → Prop
  | .looking old frame => dentry ∈ frame.asks ∧ cache.parent dentry = some (call.dirAt old)
  | _ => False

/-- What holds of the tables in every state: a dentry that is hashed is found, one in lookup is in
the hands of the thread it is in lookup for, and every thread knows what it needs. -/
structure State.Exact (state : State τ ν ι) : Prop where
  found : state.cache.Found
  excludes : Excludes state.semaphores
  owns : ∀ dentry thread, state.cache.live dentry = true →
    (state.cache.asked dentry).heldFor = some thread →
    ∃ call stage, state.calls thread = some (call, stage) ∧ stage.Asks state.cache call dentry
  sees : ∀ thread call stage, state.calls thread = some (call, stage) →
    SeesAt state.cache thread call stage

section Exact

variable {state : State τ ν ι} {thread other : τ} {call : Call ν} {stage : Stage ν ι}
  {dentry dir : Nat}

/-- A thread holds the directory of what it has in lookup. -/
theorem State.Exact.holds [DecidableEq τ] [DecidableEq ν] [DecidableEq ι] (exact_ : state.Exact)
    (orderly : state.Orderly) (live : state.cache.live dentry = true)
    (held : (state.cache.asked dentry).heldFor = some thread)
    (points : state.cache.parent dentry = some dir) :
    ∃ exclusive, Has state.semaphores state.cache thread exclusive (.dir dir) := by
  obtain ⟨call, stage, stood, asks⟩ := exact_.owns dentry thread live held
  have sound := orderly.sound thread call stage stood
  cases stage with
  | looking old frame =>
    have same : dir = call.dirAt old := Option.some.inj (points.symm.trans asks.2)
    exact ⟨call.exclusive, same ▸ sound.has rfl rfl (call.dir_target old)⟩
  | locking todo => exact asks.elim
  | found child => exact asks.elim
  | paired old new => exact asks.elim
  | cleared old new => exact asks.elim
  | moving old new => exact asks.elim
  | moved old new => exact asks.elim
  | ended answer => exact asks.elim

/-- At the name of a dentry a thread has in lookup, or of one in a directory it holds exclusive, no
other thread guards one. -/
theorem State.Exact.elsewhere [DecidableEq τ] [DecidableEq ν] [DecidableEq ι]
    (exact_ : state.Exact) (orderly : state.Orderly) {exclusive : Bool}
    (has : Has state.semaphores state.cache thread exclusive (.dir dir))
    (live : state.cache.live dentry = true) (points : state.cache.parent dentry = some dir)
    (counts : exclusive = true ∨ (state.cache.asked dentry).heldFor = some thread)
    (others : other ≠ thread) :
    Elsewhere state.semaphores state.cache other (state.cache.key dentry) := by
  intro lower held guarded keyed
  have placed := orderly.placed
  have hung : state.cache.parent lower ≠ none := by
    obtain asked | ⟨upper, stands, _⟩ := guarded
    · exact (placed.sought.entered lower held (heldFor_inLookup asked)).2.2
    · simp [stands]
  have place : state.cache.key dentry = state.cache.keyAt (dir, state.cache.name dentry) := by
    simp [Cache.key, Cache.parentAndName, points]
  have stands := (placed.shaped.parent_of_key held hung
    (placed.shaped.above dentry dir live points).1 (keyed.trans place)).1
  obtain asked | ⟨upper, above, writes⟩ := guarded
  · obtain exclusive_ | own := counts
    · -- The other thread holds the directory of what it has in lookup.
      obtain ⟨_, hasOther⟩ := exact_.holds orderly held asked stands
      obtain ⟨inode, names, ⟨_, writer⟩ | ⟨shared, _⟩⟩ := has
      · exact hasOther.apart exact_.excludes others.symm ⟨inode, names, writer⟩
      · simp [exclusive_] at shared
    · -- A name is in lookup for one thread.
      have mine := (placed.sought.entered dentry live (heldFor_inLookup own)).1
      have theirs := (placed.sought.entered lower held (heldFor_inLookup asked)).1
      rw [keyed, mine] at theirs
      have same : dentry = lower := Option.some.inj theirs
      rw [← same, own] at asked
      exact others (Option.some.inj asked).symm
  · have same : dir = upper := Option.some.inj (stands.symm.trans above)
    exact has.apart exact_.excludes others (same ▸ writes)

end Exact

end Kobako.Dentries
