import Kobako.Dentries.Cache

/-!
# What the operations keep of the dentries

Whoever runs them: every dentry that is held stands beneath one that is held and names a directory,
up to a root; an entry of `dentry_hashtable` is a hashed dentry at its own name; a dentry in lookup
names nothing and stands in `in_lookup_hashtable` at its own name.
-/

namespace Kobako.Dentries

open Kobako.Dcache (LookupState Dentry Key)

variable {τ ν ι : Type}

namespace Cache

/-- How the dentries that are held hang together. -/
structure Shaped (cache : Cache τ ν ι) : Prop where
  bound : ∀ dentry, cache.live dentry = true → dentry < cache.made
  distinct : ∀ dentry other, cache.live dentry = true → cache.live other = true →
    cache.address dentry = cache.address other → dentry = other
  above : ∀ dentry upper, cache.live dentry = true → cache.parent dentry = some upper →
    cache.live upper = true ∧ cache.inode upper ≠ none
  rooted : ∀ dentry, cache.live dentry = true → Rooted cache.parent dentry

/-- What `dentry_hashtable` holds. -/
structure Hashed (cache : Cache τ ν ι) : Prop where
  own : ∀ place dentry, cache.dentryHashtable place = some dentry → cache.live dentry = true →
    cache.hashed dentry = true ∧ cache.key dentry = place
  settled : ∀ dentry, cache.live dentry = true → cache.hashed dentry = true →
    cache.asked dentry = .answered ∧ cache.parent dentry ≠ none

/-- What `in_lookup_hashtable` holds, and what stands for an inode. -/
structure Sought (cache : Cache τ ν ι) : Prop where
  within : ∀ place dentry, cache.inLookupHashtable place = some dentry →
    cache.live dentry = true → (cache.asked dentry).inLookup = true ∧ cache.key dentry = place
  entered : ∀ dentry, cache.live dentry = true → (cache.asked dentry).inLookup = true →
    cache.inLookupHashtable (cache.key dentry) = some dentry ∧ cache.inode dentry = none ∧
      cache.parent dentry ≠ none
  named : ∀ dentry, cache.live dentry = true → cache.inode dentry ≠ none →
    cache.asked dentry = .answered ∨ cache.parent dentry = none
  held : ∀ inode dentry, cache.inodeDentry inode = some dentry → cache.live dentry = true →
    cache.inode dentry ≠ none

/-- No table names a dentry yet to be made. -/
structure Numbered (cache : Cache τ ν ι) : Prop where
  hashed : ∀ place dentry, cache.dentryHashtable place = some dentry → dentry < cache.made
  sought : ∀ place dentry, cache.inLookupHashtable place = some dentry → dentry < cache.made
  standing : ∀ inode dentry, cache.inodeDentry inode = some dentry → dentry < cache.made

/-- What holds whoever runs the operations. -/
structure Placed (cache : Cache τ ν ι) : Prop where
  numbered : cache.Numbered
  shaped : cache.Shaped
  hashes : cache.Hashed
  sought : cache.Sought

variable {cache next : Cache τ ν ι} {dentry other upper : Nat}

/-- Whatever stands above a dentry that is held is held. -/
theorem Shaped.live_above (shaped : cache.Shaped) (live : cache.live dentry = true)
    {ancestor : Nat} (higher : AtOrAbove cache.parent ancestor dentry) :
    cache.live ancestor = true := by
  obtain same | higher := higher
  · exact same ▸ live
  · induction higher with
    | single points => exact (shaped.above _ _ live points).1
    | tail _ points ih => exact (shaped.above _ _ ih points).1

/-- A dentry hashed at a key stands in the directory at that address, under that name. -/
theorem Shaped.parent_of_key (shaped : cache.Shaped) (live : cache.live dentry = true)
    (hung : cache.parent dentry ≠ none) {place : Nat × ν} (stands : cache.live place.1 = true)
    (keyed : cache.key dentry = cache.keyAt place) :
    cache.parent dentry = some place.1 ∧ cache.name dentry = place.2 := by
  obtain ⟨upper, points⟩ := Option.ne_none_iff_exists'.mp hung
  simp only [key, keyAt, parentAndName, points, Option.getD_some, Prod.mk.injEq] at keyed
  have same := shaped.distinct _ _ (shaped.above _ _ live points).1 stands keyed.1
  exact ⟨points.trans (congrArg some same), keyed.2⟩

/-- What an address held at once names is one dentry. -/
theorem upgrade_eq_some {held : Option Nat} :
    cache.upgrade held = some dentry ↔ held = some dentry ∧ cache.live dentry = true := by
  simp [upgrade, Option.filter_eq_some_iff]

/-! ## Operations that leave every dentry at its place -/

/-- Every dentry stands where it stood, and names what it named. -/
structure Stays (cache next : Cache τ ν ι) : Prop where
  live : next.live = cache.live
  made : next.made = cache.made
  address : next.address = cache.address
  parent : next.parent = cache.parent
  name : next.name = cache.name
  inode : ∀ dentry, cache.inode dentry ≠ none → next.inode dentry = cache.inode dentry

/-- No key changes. -/
theorem Stays.key (stays : cache.Stays next) : next.key = cache.key := by
  funext dentry
  simp [Cache.key, keyAt, parentAndName, stays.parent, stays.name, stays.address]

/-- The tree keeps its shape. -/
theorem Stays.shaped (stays : cache.Stays next) (shaped : cache.Shaped) : next.Shaped where
  bound := by
    rw [stays.live, stays.made]
    exact shaped.bound
  distinct := by
    rw [stays.live, stays.address]
    exact shaped.distinct
  above := by
    rw [stays.live, stays.parent]
    intro dentry upper live points
    obtain ⟨held, names⟩ := shaped.above dentry upper live points
    exact ⟨held, (stays.inode upper names).symm ▸ names⟩
  rooted := by
    rw [stays.live, stays.parent]
    exact shaped.rooted

/-- One dentry's state set, its place and its inode left. -/
theorem set_stays (state : Dentry τ ν ι) (parent : state.parent = cache.parent dentry)
    (name : state.name = cache.name dentry)
    (inode : cache.inode dentry ≠ none → state.inode = cache.inode dentry) :
    cache.Stays (cache.set dentry state) where
  live := rfl
  made := rfl
  address := rfl
  parent := by
    funext other
    by_cases same : other = dentry
    · simpa [Cache.parent, set, same] using parent
    · simp [Cache.parent, set, same]
  name := by
    funext other
    by_cases same : other = dentry
    · simpa [Cache.name, set, same] using name
    · simp [Cache.name, set, same]
  inode other names := by
    by_cases same : other = dentry
    · subst same
      simpa [Cache.inode, set] using inode names
    · simp [Cache.inode, set, same]

section Operations

variable [DecidableEq ν]

/-- What `in_lookup_hashtable` holds once a dentry left it. -/
theorem leftLookup_some {place : Key ν} (apart : other ≠ dentry) :
    cache.leftLookup dentry place = some other ↔ cache.inLookupHashtable place = some other := by
  unfold leftLookup
  split
  · rename_i stood
    obtain ⟨stood, _⟩ := upgrade_eq_some.mp stood
    by_cases here : place = cache.key dentry
    · subst here
      simp [stood, apart.symm]
    · rw [Function.update_of_ne here]
  · rfl

/-- What `in_lookup_hashtable` holds once a dentry left it, it held before. -/
theorem leftLookup_sub {place : Key ν} (stands : cache.leftLookup dentry place = some other) :
    cache.inLookupHashtable place = some other := by
  unfold leftLookup at stands
  split at stands
  · rw [Function.update_apply] at stands
    split at stands
    · simp at stands
    · exact stands
  · exact stands

/-- A dentry that left `in_lookup_hashtable` stands nowhere in it. -/
theorem leftLookup_self (sought : cache.Sought) {place : Key ν} (live : cache.live dentry = true) :
    cache.leftLookup dentry place ≠ some dentry := by
  intro stands
  unfold leftLookup at stands
  split at stands
  · by_cases here : place = cache.key dentry
    · simp [here] at stands
    · rw [Function.update_of_ne here] at stands
      exact here (sought.within place dentry stands live).2.symm
  · rename_i absent
    have keyed := (sought.within place dentry stands live).2
    exact absent (upgrade_eq_some.mpr ⟨keyed.symm ▸ stands, live⟩)

/-- An answer recorded on a dentry, which a walk finds by its name from then on. -/
structure Answers (cache : Cache τ ν ι) (dentry : Nat) (next : Cache τ ν ι) : Prop
    extends Stays cache next where
  asked : ∀ other, next.asked other = if other = dentry then .answered else cache.asked other
  hashed : ∀ other, next.hashed other = if other = dentry then true else cache.hashed other
  entered : next.dentryHashtable =
    if cache.hashed dentry then cache.dentryHashtable
    else Function.update cache.dentryHashtable (cache.key dentry) (some dentry)
  left : next.inLookupHashtable = cache.leftLookup dentry
  others : ∀ other, other ≠ dentry → next.inode other = cache.inode other
  held : ∀ inode other, next.inodeDentry inode = some other →
    cache.inodeDentry inode = some other ∨ (other = dentry ∧ next.inode dentry ≠ none)

/-- What is rehashed is answered. -/
theorem rehash_answers (cache : Cache τ ν ι) (dentry : Nat) :
    cache.Answers dentry (cache.rehash dentry) where
  toStays := by
    have stays : cache.Stays (cache.set dentry
        { cache.dentries dentry with asked := .answered, hashed := true }) :=
      set_stays _ rfl rfl fun _ => rfl
    exact { stays with }
  asked other := by
    by_cases same : other = dentry
    · simp [Cache.asked, rehash, set, same]
    · simp [Cache.asked, rehash, set, same]
  hashed other := by
    by_cases same : other = dentry
    · simp [Cache.hashed, rehash, set, same]
    · simp [Cache.hashed, rehash, set, same]
  entered := rfl
  left := rfl
  others other apart := by simp [Cache.inode, rehash, set, apart]
  held inode other stands := .inl stands

omit [DecidableEq ν] in
/-- An inode given moves no dentry. -/
theorem instantiate_stays [DecidableEq ι] (isDir : ι → Bool) (cache : Cache τ ν ι) (dentry : Nat)
    (inode : ι) :
    cache.Stays (cache.instantiate isDir dentry inode) := by
  unfold instantiate
  split
  · exact ⟨rfl, rfl, rfl, rfl, rfl, fun _ _ => rfl⟩
  · rename_i unnamed
    have stays : cache.Stays (cache.set dentry
        { cache.dentries dentry with inode := some inode }) :=
      set_stays _ rfl rfl fun names => absurd unnamed names
    exact { stays with }

omit [DecidableEq ν] in
/-- Only an inode changes. -/
theorem instantiate_dentry [DecidableEq ι] (isDir : ι → Bool) (cache : Cache τ ν ι) (dentry : Nat)
    (inode : ι) (other : Nat) :
    (cache.instantiate isDir dentry inode).asked other = cache.asked other ∧
      (cache.instantiate isDir dentry inode).hashed other = cache.hashed other ∧
      (other ≠ dentry → (cache.instantiate isDir dentry inode).inode other = cache.inode other) ∧
      (cache.instantiate isDir dentry inode).inode dentry ≠ none := by
  unfold instantiate
  split
  · rename_i named
    exact ⟨rfl, rfl, fun _ => rfl, by simp [named]⟩
  · by_cases same : other = dentry
    · subst same
      simp [Cache.asked, Cache.hashed, Cache.inode, set]
    · simp [Cache.asked, Cache.hashed, Cache.inode, set, same]

omit [DecidableEq ν] in
/-- No table of names changes. -/
theorem instantiate_tables [DecidableEq ι] (isDir : ι → Bool) (cache : Cache τ ν ι) (dentry : Nat)
    (inode : ι) :
    (cache.instantiate isDir dentry inode).dentryHashtable = cache.dentryHashtable ∧
      (cache.instantiate isDir dentry inode).inLookupHashtable = cache.inLookupHashtable ∧
      (∀ entry other,
        (cache.instantiate isDir dentry inode).inodeDentry entry = some other →
        cache.inodeDentry entry = some other ∨ other = dentry) := by
  unfold instantiate
  split
  · exact ⟨rfl, rfl, fun _ _ stands => .inl stands⟩
  · refine ⟨rfl, rfl, fun entry other stands => ?_⟩
    dsimp only at stands
    split at stands
    · rw [Function.update_apply] at stands
      split at stands
      · exact .inr (Option.some.inj stands).symm
      · exact .inl stands
    · exact .inl stands

/-- What is added is answered. -/
theorem add_answers [DecidableEq ι] (isDir : ι → Bool) (cache : Cache τ ν ι) (dentry : Nat)
    (inode : Option ι) :
    cache.Answers dentry (cache.add isDir dentry inode) := by
  cases inode with
  | none => exact cache.rehash_answers dentry
  | some inode =>
    have stays := cache.instantiate_stays isDir dentry inode
    obtain ⟨table, inLookup, stands⟩ := cache.instantiate_tables isDir dentry inode
    have fields := cache.instantiate_dentry isDir dentry inode
    have answers := (cache.instantiate isDir dentry inode).rehash_answers dentry
    exact {
      live := answers.live.trans stays.live
      made := answers.made.trans stays.made
      address := answers.address.trans stays.address
      parent := answers.parent.trans stays.parent
      name := answers.name.trans stays.name
      inode := by
        intro other names
        have kept := stays.inode other names
        exact (answers.inode other (kept.symm ▸ names)).trans kept
      asked := fun other => (answers.asked other).trans (by rw [(fields other).1])
      hashed := fun other => (answers.hashed other).trans (by rw [(fields other).2.1])
      entered := by
        rw [add, answers.entered, (fields dentry).2.1, table, stays.key]
      left := by
        rw [add, answers.left, leftLookup, leftLookup, findInLookup, findInLookup, upgrade,
          upgrade, inLookup, stays.key, stays.live]
      others := fun other apart =>
        (answers.others other apart).trans ((fields other).2.2.1 apart)
      held := by
        intro entry other held
        obtain before | ⟨same, names⟩ := answers.held entry other held
        · refine (stands entry other before).imp id fun same => ⟨same, ?_⟩
          have named := (fields dentry).2.2.2
          rw [add, answers.inode dentry named]
          exact named
        · exact .inr ⟨same, names⟩ }

/-- An answer recorded on a dentry that hangs somewhere. -/
theorem Answers.placed (answers : cache.Answers dentry next) (placed : cache.Placed)
    (live : cache.live dentry = true) (hung : cache.parent dentry ≠ none) : next.Placed where
  numbered := {
    hashed := by
      intro place other stands
      rw [answers.entered] at stands
      rw [answers.made]
      split at stands
      · exact placed.numbered.hashed place other stands
      · rw [Function.update_apply] at stands
        split at stands
        · have same : dentry = other := Option.some.inj stands
          exact same ▸ placed.shaped.bound dentry live
        · exact placed.numbered.hashed place other stands
    sought := by
      intro place other stands
      rw [answers.left] at stands
      rw [answers.made]
      exact placed.numbered.sought place other (leftLookup_sub stands)
    standing := by
      intro inode other stands
      rw [answers.made]
      obtain before | ⟨same, _⟩ := answers.held inode other stands
      · exact placed.numbered.standing inode other before
      · exact same ▸ placed.shaped.bound dentry live }
  shaped := answers.toStays.shaped placed.shaped
  hashes := {
    own := by
      intro place other stands held
      rw [answers.live] at held
      rw [answers.key, answers.hashed]
      rw [answers.entered] at stands
      split at stands
      · rename_i already
        obtain ⟨hashed, keyed⟩ := placed.hashes.own place other stands held
        exact ⟨by simp [hashed], keyed⟩
      · rw [Function.update_apply] at stands
        split at stands
        · rename_i here
          have same : dentry = other := Option.some.inj stands
          subst same
          exact ⟨if_pos rfl, here.symm⟩
        · obtain ⟨hashed, keyed⟩ := placed.hashes.own place other stands held
          exact ⟨by simp [hashed], keyed⟩
    settled := by
      intro other held hashed
      rw [answers.live] at held
      rw [answers.asked, answers.parent]
      rw [answers.hashed] at hashed
      by_cases same : other = dentry
      · exact ⟨if_pos same, same ▸ hung⟩
      · rw [if_neg same] at hashed ⊢
        exact placed.hashes.settled other held hashed }
  sought := {
    within := by
      intro place other stands held
      rw [answers.live] at held
      rw [answers.left] at stands
      have apart : other ≠ dentry := by
        intro same
        subst same
        exact leftLookup_self placed.sought live stands
      rw [leftLookup_some apart] at stands
      rw [answers.asked, if_neg apart, answers.key]
      exact placed.sought.within place other stands held
    entered := by
      intro other held within
      rw [answers.live] at held
      rw [answers.asked] at within
      have apart : other ≠ dentry := by
        intro same
        simp [same, LookupState.inLookup] at within
      rw [if_neg apart] at within
      rw [answers.left, answers.key, leftLookup_some apart, answers.others other apart,
        answers.parent]
      exact placed.sought.entered other held within
    named := by
      intro other held names
      rw [answers.live] at held
      rw [answers.asked, answers.parent]
      by_cases same : other = dentry
      · exact .inl (if_pos same)
      · rw [answers.others other same] at names
        rw [if_neg same]
        exact placed.sought.named other held names
    held := by
      intro inode other stands held
      rw [answers.live] at held
      obtain before | ⟨same, names⟩ := answers.held inode other stands
      · have names := placed.sought.held inode other before held
        exact (answers.inode other names).symm ▸ names
      · exact same ▸ names }

/-! ## The states of a lookup -/

/-- A dentry's lookup state set, everything else left. -/
structure Turns (cache : Cache τ ν ι) (dentry : Nat) (state : LookupState τ)
    (next : Cache τ ν ι) : Prop extends Stays cache next where
  asked : ∀ other, next.asked other = if other = dentry then state else cache.asked other
  hashed : next.hashed = cache.hashed
  entered : next.dentryHashtable = cache.dentryHashtable
  inodes : next.inode = cache.inode
  held : next.inodeDentry = cache.inodeDentry

section

omit [DecidableEq ν]

/-- One lookup is set. -/
theorem set_turns (cache : Cache τ ν ι) (dentry : Nat) (state : LookupState τ) :
    cache.Turns dentry state
      (cache.set dentry { cache.dentries dentry with asked := state }) where
  toStays := set_stays _ rfl rfl fun _ => rfl
  asked other := by
    by_cases same : other = dentry
    · simp [Cache.asked, set, same]
    · simp [Cache.asked, set, same]
  hashed := by
    funext other
    by_cases same : other = dentry
    · simp [Cache.hashed, set, same]
    · simp [Cache.hashed, set, same]
  entered := rfl
  inodes := by
    funext other
    by_cases same : other = dentry
    · simp [Cache.inode, set, same]
    · simp [Cache.inode, set, same]
  held := rfl

/-- What changes no lookup state of a hashed dentry leaves `dentry_hashtable` as it was. -/
theorem Turns.hashes {state : LookupState τ} (turns : cache.Turns dentry state next)
    (placed : cache.Placed) (within : (cache.asked dentry).inLookup = true) : next.Hashed where
  own place other stands held := by
    rw [turns.entered] at stands
    rw [turns.live] at held
    rw [turns.hashed, turns.key]
    exact placed.hashes.own place other stands held
  settled other held hashed := by
    rw [turns.live] at held
    rw [turns.hashed] at hashed
    have settled := placed.hashes.settled other held hashed
    have apart : other ≠ dentry := by
      intro same
      subst same
      simp [settled.1, LookupState.inLookup] at within
    rw [turns.asked, if_neg apart, turns.parent]
    exact settled

/-- Nor does it name more dentries in a table. -/
theorem Turns.numbered {state : LookupState τ} (turns : cache.Turns dentry state next)
    (placed : cache.Placed) (fewer : ∀ place other, next.inLookupHashtable place = some other →
      cache.inLookupHashtable place = some other) : next.Numbered where
  hashed place other stands := by
    rw [turns.made]
    exact placed.numbered.hashed place other (turns.entered ▸ stands)
  sought place other stands := by
    rw [turns.made]
    exact placed.numbered.sought place other (fewer place other stands)
  standing inode other stands := by
    rw [turns.made]
    exact placed.numbered.standing inode other (turns.held ▸ stands)

/-- A lookup begins. -/
theorem beginAsk_turns (cache : Cache τ ν ι) (dentry : Nat) (thread : τ) :
    cache.Turns dentry (.asking thread) (cache.beginAsk dentry thread) :=
  cache.set_turns dentry _

/-- A lookup begun keeps the placement. -/
theorem beginAsk_placed (placed : cache.Placed) (thread : τ)
    (within : (cache.asked dentry).inLookup = true) : (cache.beginAsk dentry thread).Placed := by
  have turns := cache.beginAsk_turns dentry thread
  have same : ∀ other, ((cache.beginAsk dentry thread).asked other).inLookup =
      (cache.asked other).inLookup := by
    intro other
    rw [turns.asked]
    split
    · rename_i same
      exact same ▸ within.symm
    · rfl
  exact {
    numbered := turns.numbered placed fun _ _ stands => stands
    shaped := turns.toStays.shaped placed.shaped
    hashes := turns.hashes placed within
    sought := {
      within := by
        intro place other stands held
        rw [same, turns.key]
        exact placed.sought.within place other stands held
      entered := by
        intro other held within
        rw [same] at within
        rw [turns.key, turns.inodes, turns.parent]
        exact placed.sought.entered other held within
      named := by
        intro other held names
        rw [turns.inodes] at names
        rw [turns.asked, turns.parent]
        have named := placed.sought.named other held names
        split
        · rename_i same
          subst same
          exact absurd (placed.sought.entered other held within).2.1 names
        · exact named
      held := by
        intro inode other stands held
        rw [turns.inodes]
        exact placed.sought.held inode other stands held } }

end

/-- A lookup ends. -/
theorem lookupDone_turns (within : (cache.asked dentry).inLookup = true) :
    cache.Turns dentry .unasked (cache.lookupDone dentry) := by
  have turns := cache.set_turns dentry .unasked
  rw [lookupDone, if_pos within]
  exact ⟨{ turns with },
    turns.asked, turns.hashed, turns.entered, turns.inodes, turns.held⟩

/-- A lookup ended keeps the placement. -/
theorem lookupDone_placed (placed : cache.Placed) (live : cache.live dentry = true) :
    (cache.lookupDone dentry).Placed := by
  by_cases within : (cache.asked dentry).inLookup = true
  · have turns := lookupDone_turns within
    have left : (cache.lookupDone dentry).inLookupHashtable = cache.leftLookup dentry := by
      rw [lookupDone, if_pos within]
    exact {
      numbered := turns.numbered placed fun _ _ stands => leftLookup_sub (left ▸ stands)
      shaped := turns.toStays.shaped placed.shaped
      hashes := turns.hashes placed within
      sought := {
        within := by
          intro place other stands held
          rw [turns.live] at held
          rw [left] at stands
          have apart : other ≠ dentry := by
            intro same
            subst same
            exact leftLookup_self placed.sought live stands
          rw [leftLookup_some apart] at stands
          rw [turns.asked, if_neg apart, turns.key]
          exact placed.sought.within place other stands held
        entered := by
          intro other held within
          rw [turns.live] at held
          rw [turns.asked] at within
          have apart : other ≠ dentry := by
            intro same
            simp [same, LookupState.inLookup] at within
          rw [if_neg apart] at within
          rw [left, turns.key, leftLookup_some apart, turns.inodes, turns.parent]
          exact placed.sought.entered other held within
        named := by
          intro other held names
          rw [turns.live] at held
          rw [turns.inodes] at names
          rw [turns.asked, turns.parent]
          split
          · rename_i same
            subst same
            exact absurd (placed.sought.entered other held within).2.1 names
          · exact placed.sought.named other held names
        held := by
          intro inode other stands held
          rw [turns.live] at held
          rw [turns.held] at stands
          rw [turns.inodes]
          exact placed.sought.held inode other stands held } }
  · rw [lookupDone, if_neg within]
    exact placed

/-! ## `unhash` -/

/-- A dentry let go of from its name, everything else left. -/
structure Unhashes (cache : Cache τ ν ι) (dentry : Nat) (next : Cache τ ν ι) : Prop
    extends Stays cache next where
  asked : next.asked = cache.asked
  hashed : ∀ other, next.hashed other = if other = dentry then false else cache.hashed other
  takenOut : next.dentryHashtable = cache.takenOut dentry cache.dentryHashtable
  inodes : next.inode = cache.inode
  left : next.inLookupHashtable = cache.inLookupHashtable
  held : next.inodeDentry = cache.inodeDentry

/-- One name is let go. -/
theorem unhash_unhashes (cache : Cache τ ν ι) (dentry : Nat) :
    cache.Unhashes dentry (cache.unhash dentry) where
  toStays := by
    have stays : cache.Stays (cache.set dentry { cache.dentries dentry with hashed := false }) :=
      set_stays _ rfl rfl fun _ => rfl
    exact { stays with }
  asked := by
    funext other
    by_cases same : other = dentry
    · simp [Cache.asked, unhash, set, same]
    · simp [Cache.asked, unhash, set, same]
  hashed other := by
    by_cases same : other = dentry
    · simp [Cache.hashed, unhash, set, same]
    · simp [Cache.hashed, unhash, set, same]
  takenOut := rfl
  inodes := by
    funext other
    by_cases same : other = dentry
    · simp [Cache.inode, unhash, set, same]
    · simp [Cache.inode, unhash, set, same]
  left := rfl
  held := rfl

/-- What a table holds once a dentry's name is taken out of it. -/
theorem takenOut_some {table : Key ν → Option Nat} {place : Key ν}
    (stands : cache.takenOut dentry table place = some other) :
    table place = some other ∧ (cache.hashed dentry = true → place ≠ cache.key dentry) := by
  unfold takenOut at stands
  split at stands
  · rw [Function.update_apply] at stands
    split at stands
    · simp at stands
    · rename_i elsewhere
      exact ⟨stands, fun _ => elsewhere⟩
  · rename_i unhashed
    exact ⟨stands, fun hashed => absurd hashed unhashed⟩

/-- What a table holds at another dentry's name stays when a dentry's own is taken out. -/
theorem takenOut_kept {table : Key ν → Option Nat} {place : Key ν}
    (elsewhere : cache.hashed dentry = true → place ≠ cache.key dentry) :
    cache.takenOut dentry table place = table place := by
  unfold takenOut
  split
  · rename_i hashed
    exact Function.update_of_ne (elsewhere hashed) _ _
  · rfl

/-- Unhashing keeps the placement. -/
theorem unhash_placed (placed : cache.Placed) (dentry : Nat) : (cache.unhash dentry).Placed := by
  have unhashes := cache.unhash_unhashes dentry
  exact {
    numbered := {
      hashed := by
        intro place other stands
        rw [unhashes.takenOut] at stands
        rw [unhashes.made]
        exact placed.numbered.hashed place other (takenOut_some stands).1
      sought := by
        intro place other stands
        rw [unhashes.made]
        exact placed.numbered.sought place other (unhashes.left ▸ stands)
      standing := by
        intro inode other stands
        rw [unhashes.made]
        exact placed.numbered.standing inode other (unhashes.held ▸ stands) }
    shaped := unhashes.toStays.shaped placed.shaped
    hashes := {
      own := by
        intro place other stands held
        rw [unhashes.takenOut] at stands
        obtain ⟨stood, elsewhere⟩ := takenOut_some stands
        rw [unhashes.live] at held
        obtain ⟨hashed, keyed⟩ := placed.hashes.own place other stood held
        rw [unhashes.hashed, unhashes.key]
        refine ⟨?_, keyed⟩
        rw [if_neg]
        · exact hashed
        · intro same
          subst same
          exact elsewhere hashed keyed.symm
      settled := by
        intro other held hashed
        rw [unhashes.live] at held
        rw [unhashes.hashed] at hashed
        split at hashed
        · simp at hashed
        · rw [unhashes.asked, unhashes.parent]
          exact placed.hashes.settled other held hashed }
    sought := {
      within := by
        intro place other stands held
        rw [unhashes.asked, unhashes.key]
        exact placed.sought.within place other (unhashes.left ▸ stands) (unhashes.live ▸ held)
      entered := by
        intro other held within
        rw [unhashes.asked] at within
        rw [unhashes.left, unhashes.key, unhashes.inodes, unhashes.parent]
        exact placed.sought.entered other (unhashes.live ▸ held) within
      named := by
        intro other held names
        rw [unhashes.inodes] at names
        rw [unhashes.asked, unhashes.parent]
        exact placed.sought.named other (unhashes.live ▸ held) names
      held := by
        intro inode other stands held
        rw [unhashes.inodes]
        exact placed.sought.held inode other (unhashes.held ▸ stands) (unhashes.live ▸ held) } }

/-! ## `alloc_parallel` makes a dentry -/

section Make

variable {thread : τ} {place : Nat × ν} {address : Nat}

/-- A dentry there before is as it was. -/
theorem make_old (old : other ≠ cache.made) :
    (cache.make thread place address).dentries other = cache.dentries other ∧
      (cache.make thread place address).live other = cache.live other ∧
      (cache.make thread place address).address other = cache.address other := by
  simp [make, old]

/-- The dentry made. -/
theorem make_new :
    (cache.make thread place address).dentries cache.made =
        ⟨some place.1, place.2, none, .allocated thread, false⟩ ∧
      (cache.make thread place address).live cache.made = true ∧
      (cache.make thread place address).address cache.made = address := by
  simp [make]

/-- A dentry there before stands where it stood. -/
theorem Shaped.make_key (shaped : cache.Shaped) (live : cache.live dentry = true) :
    (cache.make thread place address).key dentry = cache.key dentry := by
  have old := Nat.ne_of_lt (shaped.bound dentry live)
  have upper : (cache.parent dentry).getD dentry ≠ cache.made := by
    cases points : cache.parent dentry with
    | none => exact old
    | some upper => exact Nat.ne_of_lt (shaped.bound upper (shaped.above _ _ live points).1)
  have same : (cache.make thread place address).parentAndName dentry =
      cache.parentAndName dentry := by
    simp [parentAndName, parent, name, (make_old old).1]
  have address : (cache.make thread place address).address (cache.parentAndName dentry).1 =
      cache.address (cache.parentAndName dentry).1 := (make_old upper).2.2
  rw [key, same, keyAt, address, key, keyAt]

/-- A dentry held once another is made is that one or was held. -/
theorem make_live (held : (cache.make thread place address).live other = true) :
    other = cache.made ∨ (other ≠ cache.made ∧ cache.live other = true) := by
  by_cases new : other = cache.made
  · exact .inl new
  · rw [(make_old new).2.1] at held
    exact .inr ⟨new, held⟩

/-- The new dentry hangs from one that stands. -/
theorem make_shaped (shaped : cache.Shaped) (stands : cache.live place.1 = true)
    (names : cache.inode place.1 ≠ none) (free : cache.FreeAddress address) :
    (cache.make thread place address).Shaped := by
  have kept : ∀ other, cache.live other = true →
      (cache.make thread place address).parent other = cache.parent other := by
    intro other held
    have old := Nat.ne_of_lt (shaped.bound other held)
    simp [parent, (make_old old).1]
  have rooted : ∀ other, cache.live other = true →
      Rooted (cache.make thread place address).parent other := by
    intro other held
    refine (shaped.rooted other held).unchanged fun ancestor higher => ?_
    exact kept ancestor (shaped.live_above held higher)
  exact {
    bound := by
      intro other held
      have made : (cache.make thread place address).made = cache.made + 1 := rfl
      obtain new | ⟨_, held⟩ := make_live held
      · omega
      · have := shaped.bound other held
        omega
    distinct := by
      intro one two heldOne heldTwo same
      obtain newOne | ⟨oldOne, heldOne⟩ := make_live heldOne
      · obtain newTwo | ⟨oldTwo, heldTwo⟩ := make_live heldTwo
        · exact newOne.trans newTwo.symm
        · rw [newOne, make_new.2.2, (make_old oldTwo).2.2] at same
          exact absurd same.symm (free two (shaped.bound two heldTwo) heldTwo)
      · obtain newTwo | ⟨oldTwo, heldTwo⟩ := make_live heldTwo
        · rw [newTwo, make_new.2.2, (make_old oldOne).2.2] at same
          exact absurd same (free one (shaped.bound one heldOne) heldOne)
        · rw [(make_old oldOne).2.2, (make_old oldTwo).2.2] at same
          exact shaped.distinct one two heldOne heldTwo same
    above := by
      intro other upper held points
      have grown : cache.live upper = true ∧ cache.inode upper ≠ none := by
        obtain new | ⟨old, held⟩ := make_live held
        · rw [new, parent, make_new.1] at points
          have same : place.1 = upper := Option.some.inj points
          exact same ▸ ⟨stands, names⟩
        · exact shaped.above other upper held ((kept other held).symm.trans points)
      have old := Nat.ne_of_lt (shaped.bound upper grown.1)
      rw [inode, (make_old old).1, (make_old old).2.1]
      exact grown
    rooted := by
      intro other held
      obtain new | ⟨_, held⟩ := make_live held
      · refine .under ?_ (rooted place.1 stands)
        rw [new, parent, make_new.1]
      · exact rooted other held }

/-- A dentry made keeps the placement. -/
theorem make_placed (placed : cache.Placed) (stands : cache.live place.1 = true)
    (names : cache.inode place.1 ≠ none) (free : cache.FreeAddress address)
    (unsought : cache.findInLookup (cache.keyAt place) = none) :
    (cache.make thread place address).Placed := by
  have shaped := placed.shaped
  have newKey : (cache.make thread place address).key cache.made = cache.keyAt place := by
    have apart := Nat.ne_of_lt (shaped.bound place.1 stands)
    simp [key, keyAt, parentAndName, parent, name, make_new.1, (make_old apart).2.2]
  have inLookup : (cache.make thread place address).inLookupHashtable =
      Function.update cache.inLookupHashtable (cache.keyAt place) (some cache.made) := rfl
  have made : (cache.make thread place address).made = cache.made + 1 := rfl
  exact {
    numbered := {
      hashed := by
        intro at_ other stood
        have := placed.numbered.hashed at_ other stood
        omega
      sought := by
        intro at_ other stood
        rw [inLookup, Function.update_apply] at stood
        split at stood
        · have new : cache.made = other := Option.some.inj stood
          omega
        · have := placed.numbered.sought at_ other stood
          omega
      standing := by
        intro entry other stood
        have := placed.numbered.standing entry other stood
        omega }
    shaped := make_shaped shaped stands names free
    hashes := {
      own := by
        intro at_ other stood held
        obtain new | ⟨old, held⟩ := make_live held
        · exact absurd new (Nat.ne_of_lt (placed.numbered.hashed at_ other stood))
        · rw [shaped.make_key held, hashed, (make_old old).1]
          exact placed.hashes.own at_ other stood held
      settled := by
        intro other held hashes
        obtain new | ⟨old, held⟩ := make_live held
        · rw [new, hashed, make_new.1] at hashes
          simp at hashes
        · rw [hashed, (make_old old).1] at hashes
          rw [asked, parent, (make_old old).1]
          exact placed.hashes.settled other held hashes }
    sought := {
      within := by
        intro at_ other stood held
        rw [inLookup, Function.update_apply] at stood
        split at stood
        · rename_i here
          have new : cache.made = other := Option.some.inj stood
          subst new
          rw [asked, make_new.1, newKey]
          exact ⟨rfl, here.symm⟩
        · obtain new | ⟨old, held⟩ := make_live held
          · exact absurd new (Nat.ne_of_lt (placed.numbered.sought at_ other stood))
          · rw [shaped.make_key held, asked, (make_old old).1]
            exact placed.sought.within at_ other stood held
      entered := by
        intro other held within
        obtain new | ⟨old, held⟩ := make_live held
        · rw [new, newKey, inLookup, Function.update_self, inode, parent, make_new.1]
          exact ⟨rfl, rfl, by simp⟩
        · rw [asked, (make_old old).1] at within
          obtain ⟨entered, rest⟩ := placed.sought.entered other held within
          rw [shaped.make_key held, inode, parent, (make_old old).1, inLookup,
            Function.update_of_ne]
          · exact ⟨entered, rest⟩
          · intro here
            have stood : cache.findInLookup (cache.keyAt place) = some other :=
              upgrade_eq_some.mpr ⟨here ▸ entered, held⟩
            simp [unsought] at stood
      named := by
        intro other held names
        obtain new | ⟨old, held⟩ := make_live held
        · rw [new, inode, make_new.1] at names
          simp at names
        · rw [inode, (make_old old).1] at names
          rw [asked, parent, (make_old old).1]
          exact placed.sought.named other held names
      held := by
        intro entry other stood held
        obtain new | ⟨old, held⟩ := make_live held
        · exact absurd new (Nat.ne_of_lt (placed.numbered.standing entry other stood))
        · rw [inode, (make_old old).1]
          exact placed.sought.held entry other stood held } }

end Make

/-! ## Moves -/

/-- Dentries hung elsewhere and hashed there, everything else left. -/
structure Rehangs (cache next : Cache τ ν ι) : Prop where
  live : next.live = cache.live
  made : next.made = cache.made
  address : next.address = cache.address
  inode : next.inode = cache.inode
  asked : next.asked = cache.asked
  left : next.inLookupHashtable = cache.inLookupHashtable
  held : next.inodeDentry = cache.inodeDentry

omit [DecidableEq ν] in
/-- Moves that touch no dentry in lookup and no root leave the lookups as they were. -/
theorem Rehangs.sought (rehangs : cache.Rehangs next) (sought : cache.Sought)
    (kept : ∀ other, cache.live other = true →
      cache.asked other ≠ .answered ∨ cache.parent other = none →
      next.parent other = cache.parent other ∧ next.name other = cache.name other) :
    next.Sought := by
  have still : ∀ other, cache.live other = true → (cache.asked other).inLookup = true →
      next.key other = cache.key other ∧ next.parent other = cache.parent other := by
    intro other held within
    have unanswered : cache.asked other ≠ .answered := by
      intro answered
      simp [answered, LookupState.inLookup] at within
    obtain ⟨parent, name⟩ := kept other held (.inl unanswered)
    refine ⟨?_, parent⟩
    simp [key, keyAt, parentAndName, parent, name, rehangs.address]
  exact {
    within := by
      intro place other stands held
      rw [rehangs.live] at held
      rw [rehangs.left] at stands
      obtain ⟨within, keyed⟩ := sought.within place other stands held
      rw [rehangs.asked, (still other held within).1]
      exact ⟨within, keyed⟩
    entered := by
      intro other held within
      rw [rehangs.live] at held
      rw [rehangs.asked] at within
      rw [rehangs.left, (still other held within).1, rehangs.inode, (still other held within).2]
      exact sought.entered other held within
    named := by
      intro other held names
      rw [rehangs.live] at held
      rw [rehangs.inode] at names
      rw [rehangs.asked]
      refine (sought.named other held names).imp id fun root => ?_
      exact (kept other held (.inr root)).1.trans root
    held := by
      intro entry other stands held
      rw [rehangs.inode]
      exact sought.held entry other (rehangs.held ▸ stands) (rehangs.live ▸ held) }

omit [DecidableEq ν] in
/-- Moves beneath directories, by which every dentry still reaches a root. -/
theorem Rehangs.shaped (rehangs : cache.Rehangs next) (shaped : cache.Shaped)
    (above : ∀ other upper, cache.live other = true → next.parent other = some upper →
      cache.live upper = true ∧ cache.inode upper ≠ none)
    (rooted : ∀ other, cache.live other = true → Rooted next.parent other) : next.Shaped where
  bound := by
    rw [rehangs.live, rehangs.made]
    exact shaped.bound
  distinct := by
    rw [rehangs.live, rehangs.address]
    exact shaped.distinct
  above := by
    rw [rehangs.live, rehangs.inode]
    exact above
  rooted := by
    rw [rehangs.live]
    exact rooted

section MoveTo

variable {place : Nat × ν}

/-- The moved dentry hangs anew. -/
theorem moveTo_rehangs (cache : Cache τ ν ι) (dentry : Nat) (place : Nat × ν) :
    cache.Rehangs (cache.moveTo dentry place) where
  live := rfl
  made := rfl
  address := rfl
  inode := by
    funext other
    by_cases same : other = dentry
    · simp [inode, moveTo, set, same]
    · simp [inode, moveTo, set, same]
  asked := by
    funext other
    by_cases same : other = dentry
    · simp [asked, moveTo, set, same]
    · simp [asked, moveTo, set, same]
  left := rfl
  held := rfl

/-- Only the moved dentry has a new parent. -/
theorem moveTo_parent (cache : Cache τ ν ι) (dentry : Nat) (place : Nat × ν) :
    (cache.moveTo dentry place).parent = Function.update cache.parent dentry (some place.1) := by
  funext other
  by_cases same : other = dentry
  · simp [parent, moveTo, set, same]
  · simp [parent, moveTo, set, same]

/-- No other dentry moves. -/
theorem moveTo_other (apart : other ≠ dentry) :
    (cache.moveTo dentry place).dentries other = cache.dentries other := by
  simp [moveTo, set, apart]

/-- The moved dentry takes place and name. -/
theorem moveTo_moved :
    (cache.moveTo dentry place).dentries dentry =
      { cache.dentries dentry with hashed := true, parent := some place.1, name := place.2 } := by
  simp [moveTo, set]

/-- No other key changes. -/
theorem moveTo_key_other (apart : other ≠ dentry) :
    (cache.moveTo dentry place).key other = cache.key other := by
  simp [key, keyAt, parentAndName, parent, name, moveTo_other apart,
    (cache.moveTo_rehangs dentry place).address]

/-- The moved dentry has the place's key. -/
theorem moveTo_key_moved : (cache.moveTo dentry place).key dentry = cache.keyAt place := by
  simp [key, keyAt, parentAndName, parent, name, moveTo_moved,
    (cache.moveTo_rehangs dentry place).address]

/-- A move keeps the placement. -/
theorem moveTo_placed (placed : cache.Placed) (live : cache.live dentry = true)
    (answered : cache.asked dentry = .answered) (hung : cache.parent dentry ≠ none)
    (stands : cache.live place.1 = true) (names : cache.inode place.1 ≠ none)
    (clear : cache.parent dentry = some place.1 ∨ ¬AtOrAbove cache.parent dentry place.1) :
    (cache.moveTo dentry place).Placed := by
  have rehangs := cache.moveTo_rehangs dentry place
  have parents := cache.moveTo_parent dentry place
  have table : (cache.moveTo dentry place).dentryHashtable =
      Function.update (cache.takenOut dentry cache.dentryHashtable) (cache.keyAt place)
        (some dentry) := rfl
  exact {
    numbered := {
      hashed := by
        intro at_ other stood
        rw [rehangs.made]
        rw [table, Function.update_apply] at stood
        split at stood
        · have same : dentry = other := Option.some.inj stood
          exact same ▸ placed.shaped.bound dentry live
        · exact placed.numbered.hashed at_ other (takenOut_some stood).1
      sought := placed.numbered.sought
      standing := placed.numbered.standing }
    shaped := by
      refine rehangs.shaped placed.shaped ?_ ?_
      · intro other upper held points
        rw [parents, Function.update_apply] at points
        split at points
        · have same : place.1 = upper := Option.some.inj points
          exact same ▸ ⟨stands, names⟩
        · exact placed.shaped.above other upper held points
      · intro other held
        rw [parents]
        obtain same | clear := clear
        · rw [← same, Function.update_eq_self]
          exact placed.shaped.rooted other held
        · exact (placed.shaped.rooted other held).hang (placed.shaped.rooted _ stands) clear
    hashes := {
      own := by
        intro at_ other stood held
        rw [table, Function.update_apply] at stood
        split at stood
        · rename_i here
          have same : dentry = other := Option.some.inj stood
          subst same
          rw [hashed, moveTo_moved, moveTo_key_moved]
          exact ⟨rfl, here.symm⟩
        · obtain ⟨stood, elsewhere⟩ := takenOut_some stood
          obtain ⟨hashes, keyed⟩ := placed.hashes.own at_ other stood held
          have apart : other ≠ dentry := by
            intro same
            subst same
            exact elsewhere hashes keyed.symm
          rw [hashed, moveTo_other apart, moveTo_key_other apart]
          exact ⟨hashes, keyed⟩
      settled := by
        intro other held hashes
        by_cases same : other = dentry
        · subst same
          rw [asked, parent, moveTo_moved]
          exact ⟨answered, by simp⟩
        · rw [hashed, moveTo_other same] at hashes
          rw [asked, parent, moveTo_other same]
          exact placed.hashes.settled other held hashes }
    sought := by
      refine rehangs.sought placed.sought fun other held still => ?_
      have apart : other ≠ dentry := by
        intro same
        subst same
        exact still.elim (fun unanswered => unanswered answered) hung
      simp [parent, name, moveTo_other apart] }

end MoveTo

section Exchange

variable {first second : Nat}

/-- No third dentry moves. -/
theorem exchange_other (one : other ≠ first) (two : other ≠ second) :
    (cache.exchange first second).dentries other = cache.dentries other := by
  simp [exchange, set, one, two]

/-- The first takes the second's place. -/
theorem exchange_first (apart : first ≠ second) :
    (cache.exchange first second).dentries first =
      { cache.dentries first with
        parent := cache.parent second, name := cache.name second, hashed := true } := by
  simp [exchange, set, apart, parent, name]

/-- The second takes the first's place. -/
theorem exchange_second :
    (cache.exchange first second).dentries second =
      { cache.dentries second with
        parent := cache.parent first, name := cache.name first, hashed := true } := by
  simp [exchange, set, parent, name]

/-- Both hang anew. -/
theorem exchange_rehangs (cache : Cache τ ν ι) (apart : first ≠ second) :
    cache.Rehangs (cache.exchange first second) where
  live := rfl
  made := rfl
  address := rfl
  inode := by
    funext other
    by_cases one : other = first
    · rw [one, inode, exchange_first apart, inode]
    · by_cases two : other = second
      · rw [two, inode, exchange_second, inode]
      · rw [inode, exchange_other one two, inode]
  asked := by
    funext other
    by_cases one : other = first
    · rw [one, asked, exchange_first apart, asked]
    · by_cases two : other = second
      · rw [two, asked, exchange_second, asked]
      · rw [asked, exchange_other one two, asked]
  left := rfl
  held := rfl

/-- Each of the two stands where the other stood. -/
theorem exchange_keys (apart : first ≠ second) (hungFirst : cache.parent first ≠ none)
    (hungSecond : cache.parent second ≠ none) :
    (cache.exchange first second).key first = cache.key second ∧
      (cache.exchange first second).key second = cache.key first := by
  obtain ⟨upperFirst, pointsFirst⟩ := Option.ne_none_iff_exists'.mp hungFirst
  obtain ⟨upperSecond, pointsSecond⟩ := Option.ne_none_iff_exists'.mp hungSecond
  have address : (cache.exchange first second).address = cache.address := rfl
  constructor
  · simp [key, keyAt, parentAndName, address, pointsSecond,
      show (cache.exchange first second).parent first = cache.parent second by
        rw [parent, exchange_first apart],
      show (cache.exchange first second).name first = cache.name second by
        rw [name, exchange_first apart]]
  · simp [key, keyAt, parentAndName, address, pointsFirst,
      show (cache.exchange first second).parent second = cache.parent first by
        rw [parent, exchange_second],
      show (cache.exchange first second).name second = cache.name first by
        rw [name, exchange_second]]

/-- The others stand where they stood. -/
theorem exchange_key_other (one : other ≠ first) (two : other ≠ second) :
    (cache.exchange first second).key other = cache.key other := by
  have address : (cache.exchange first second).address = cache.address := rfl
  simp [key, keyAt, parentAndName, parent, name, exchange_other one two, address]

/-- A directory neither of the two stands above reaches its root as before. -/
theorem Shaped.exchange_rooted (shaped : cache.Shaped) (held : cache.live upper = true)
    (one : ¬AtOrAbove cache.parent first upper) (two : ¬AtOrAbove cache.parent second upper) :
    Rooted (cache.exchange first second).parent upper := by
  refine (shaped.rooted upper held).unchanged fun ancestor higher => ?_
  have apartOne : ancestor ≠ first := fun same => one (same ▸ higher)
  have apartTwo : ancestor ≠ second := fun same => two (same ▸ higher)
  rw [parent, exchange_other apartOne apartTwo, parent]

omit [DecidableEq ν] in
/-- A dentry does not stand above the directory it stands in. -/
theorem Shaped.not_above_parent (shaped : cache.Shaped) (live : cache.live dentry = true)
    (points : cache.parent dentry = some upper) : ¬AtOrAbove cache.parent dentry upper := by
  intro higher
  exact (shaped.rooted dentry live).irrefl ((above_iff points).mpr higher)

/-- An exchange keeps the tree's shape. -/
theorem exchange_shaped (shaped : cache.Shaped) (apart : first ≠ second)
    (heldFirst : cache.live first = true) (heldSecond : cache.live second = true)
    {upperFirst upperSecond : Nat} (pointsFirst : cache.parent first = some upperFirst)
    (pointsSecond : cache.parent second = some upperSecond)
    (clear : upperFirst = upperSecond ∨
      (¬AtOrAbove cache.parent first upperSecond ∧ ¬AtOrAbove cache.parent second upperFirst)) :
    (cache.exchange first second).Shaped := by
  have parentFirst : (cache.exchange first second).parent first = some upperSecond := by
    rw [parent, exchange_first apart, pointsSecond]
  have parentSecond : (cache.exchange first second).parent second = some upperFirst := by
    rw [parent, exchange_second, pointsFirst]
  have parentOther : ∀ other, other ≠ first → other ≠ second →
      (cache.exchange first second).parent other = cache.parent other := by
    intro other one two
    rw [parent, exchange_other one two, parent]
  refine (exchange_rehangs cache apart).shaped shaped ?_ ?_
  · intro other upper held points
    by_cases one : other = first
    · rw [one, parentFirst] at points
      exact shaped.above second upper heldSecond (pointsSecond.trans points)
    · by_cases two : other = second
      · rw [two, parentSecond] at points
        exact shaped.above first upper heldFirst (pointsFirst.trans points)
      · exact shaped.above other upper held ((parentOther other one two).symm.trans points)
  · intro other held
    obtain same | ⟨clearFirst, clearSecond⟩ := clear
    · have unmoved : (cache.exchange first second).parent = cache.parent := by
        funext lower
        by_cases one : lower = first
        · rw [one, parentFirst, pointsFirst, same]
        · by_cases two : lower = second
          · rw [two, parentSecond, pointsSecond, same]
          · exact parentOther lower one two
      exact unmoved ▸ shaped.rooted other held
    · have reachesSecond := shaped.exchange_rooted (shaped.above _ _ heldSecond pointsSecond).1
        clearFirst (shaped.not_above_parent heldSecond pointsSecond)
      have reachesFirst := shaped.exchange_rooted (shaped.above _ _ heldFirst pointsFirst).1
        (shaped.not_above_parent heldFirst pointsFirst) clearSecond
      refine (shaped.rooted other held).reparent fun lower => ?_
      by_cases one : lower = first
      · exact .inr ⟨upperSecond, one ▸ parentFirst, reachesSecond⟩
      · by_cases two : lower = second
        · exact .inr ⟨upperFirst, two ▸ parentSecond, reachesFirst⟩
        · exact .inl (parentOther lower one two)

/-- An exchange keeps the placement. -/
theorem exchange_placed (placed : cache.Placed) (apart : first ≠ second)
    (heldFirst : cache.live first = true) (heldSecond : cache.live second = true)
    (answeredFirst : cache.asked first = .answered)
    (answeredSecond : cache.asked second = .answered)
    {upperFirst upperSecond : Nat} (pointsFirst : cache.parent first = some upperFirst)
    (pointsSecond : cache.parent second = some upperSecond)
    (clear : upperFirst = upperSecond ∨
      (¬AtOrAbove cache.parent first upperSecond ∧ ¬AtOrAbove cache.parent second upperFirst)) :
    (cache.exchange first second).Placed := by
  have hungFirst : cache.parent first ≠ none := by simp [pointsFirst]
  have hungSecond : cache.parent second ≠ none := by simp [pointsSecond]
  have rehangs := exchange_rehangs cache apart
  have keys := exchange_keys apart hungFirst hungSecond
  have table : (cache.exchange first second).dentryHashtable =
      Function.update (Function.update
        (cache.takenOut second (cache.takenOut first cache.dentryHashtable)) (cache.key second)
        (some first)) (cache.key first) (some second) := rfl
  exact {
    numbered := {
      hashed := by
        intro at_ other stood
        rw [rehangs.made]
        rw [table, Function.update_apply, Function.update_apply] at stood
        split at stood
        · have same : second = other := Option.some.inj stood
          exact same ▸ placed.shaped.bound second heldSecond
        · split at stood
          · have same : first = other := Option.some.inj stood
            exact same ▸ placed.shaped.bound first heldFirst
          · have stood := (takenOut_some (takenOut_some stood).1).1
            exact placed.numbered.hashed at_ other stood
      sought := placed.numbered.sought
      standing := placed.numbered.standing }
    shaped := exchange_shaped placed.shaped apart heldFirst heldSecond pointsFirst pointsSecond
      clear
    hashes := {
      own := by
        intro at_ other stood held
        rw [table, Function.update_apply, Function.update_apply] at stood
        split at stood
        · rename_i here
          have same : second = other := Option.some.inj stood
          subst same
          rw [hashed, exchange_second, keys.2]
          exact ⟨rfl, here.symm⟩
        · split at stood
          · rename_i here
            have same : first = other := Option.some.inj stood
            subst same
            rw [hashed, exchange_first apart, keys.1]
            exact ⟨rfl, here.symm⟩
          · obtain ⟨stood, elsewhereSecond⟩ := takenOut_some stood
            obtain ⟨stood, elsewhereFirst⟩ := takenOut_some stood
            obtain ⟨hashes, keyed⟩ := placed.hashes.own at_ other stood held
            have one : other ≠ first := by
              intro same
              subst same
              exact elsewhereFirst hashes keyed.symm
            have two : other ≠ second := by
              intro same
              subst same
              exact elsewhereSecond hashes keyed.symm
            rw [hashed, exchange_other one two, exchange_key_other one two]
            exact ⟨hashes, keyed⟩
      settled := by
        intro other held hashes
        rw [rehangs.asked]
        by_cases one : other = first
        · subst one
          rw [parent, exchange_first apart]
          exact ⟨answeredFirst, hungSecond⟩
        · by_cases two : other = second
          · subst two
            rw [parent, exchange_second]
            exact ⟨answeredSecond, hungFirst⟩
          · rw [hashed, exchange_other one two] at hashes
            rw [parent, exchange_other one two]
            exact placed.hashes.settled other held hashes }
    sought := by
      refine rehangs.sought placed.sought fun other held still => ?_
      have one : other ≠ first := by
        intro same
        subst same
        exact still.elim (fun unanswered => unanswered answeredFirst) hungFirst
      have two : other ≠ second := by
        intro same
        subst same
        exact still.elim (fun unanswered => unanswered answeredSecond) hungSecond
      simp [parent, name, exchange_other one two] }

end Exchange

/-! ## The last holder lets a dentry go -/

omit [DecidableEq ν] in
/-- A dentry held once another was let go of was held, and is not that one. -/
theorem drop_live (held : (cache.drop dentry).live other = true) :
    other ≠ dentry ∧ cache.live other = true := by
  have updated : (cache.drop dentry).live = Function.update cache.live dentry false := rfl
  rw [updated, Function.update_apply] at held
  split at held
  · simp at held
  · rename_i apart
    exact ⟨apart, held⟩

omit [DecidableEq ν] in
/-- The dentries not let go of are held as before. -/
theorem drop_kept (apart : other ≠ dentry) : (cache.drop dentry).live other = cache.live other :=
  Function.update_of_ne apart _ _

omit [DecidableEq ν] in
/-- A drop keeps the placement. -/
theorem drop_placed (placed : cache.Placed) (childless : cache.Childless dentry) :
    (cache.drop dentry).Placed where
  numbered := ⟨placed.numbered.hashed, placed.numbered.sought, placed.numbered.standing⟩
  shaped := {
    bound := fun other held => placed.shaped.bound other (drop_live held).2
    distinct := fun one two heldOne heldTwo =>
      placed.shaped.distinct one two (drop_live heldOne).2 (drop_live heldTwo).2
    above := by
      intro other upper held points
      have still := (drop_live held).2
      obtain ⟨stands, names⟩ := placed.shaped.above other upper still points
      have apart : upper ≠ dentry := by
        intro same
        exact childless other (placed.shaped.bound other still) still (same ▸ points)
      exact ⟨(drop_kept apart).trans stands, names⟩
    rooted := fun other held => placed.shaped.rooted other (drop_live held).2 }
  hashes := {
    own := fun place other stood held => placed.hashes.own place other stood (drop_live held).2
    settled := fun other held => placed.hashes.settled other (drop_live held).2 }
  sought := {
    within := fun place other stood held =>
      placed.sought.within place other stood (drop_live held).2
    entered := fun other held => placed.sought.entered other (drop_live held).2
    named := fun other held => placed.sought.named other (drop_live held).2
    held := fun entry other stood held =>
      placed.sought.held entry other stood (drop_live held).2 }

end Operations

end Cache

end Kobako.Dentries
