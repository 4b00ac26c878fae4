import Kobako.Dcache.InLookup

/-!
# What a step changes

Each change the runtime makes under its mutexes, one after another: the tables hold afterwards what
they held, and every walk still knows what it knew.
-/

namespace Kobako.Dcache

open Kobako.Vfs (FsError)

variable {τ ν ι : Type}

namespace World

variable {world after : World τ ν ι} {thread : τ} {place : Key ν} [DecidableEq ν]

/-- `leave_lookup` changes the one table. -/
@[simp] theorem leaveLookup_rest (world : World τ ν ι) (dentry : Nat) :
    (world.leaveLookup dentry).dentries = world.dentries ∧
      (world.leaveLookup dentry).made = world.made ∧
      (world.leaveLookup dentry).dentryHashtable = world.dentryHashtable ∧
      (world.leaveLookup dentry).inodeDentry = world.inodeDentry ∧
      (world.leaveLookup dentry).stack = world.stack := by
  unfold leaveLookup
  split
  · simp
  · simp

/-- A dentry that did not leave `in_lookup_hashtable` stands there still. -/
theorem leaveLookup_kept (world : World τ ν ι) {left dentry : Nat}
    (entered : world.inLookupHashtable place = some dentry) (other : dentry ≠ left) :
    (world.leaveLookup left).inLookupHashtable place = some dentry := by
  unfold leaveLookup
  split
  · rename_i leaving
    by_cases here : place = world.key left
    · subst here
      have same : dentry = left := by simpa [entered] using leaving
      exact absurd same other
    · simpa [Function.update_of_ne here] using entered
  · exact entered

/-- What stands in `in_lookup_hashtable` once a dentry left it stood there before. -/
theorem leaveLookup_entry (world : World τ ν ι) {left dentry : Nat}
    (owned : world.inLookupHashtable place = some left → world.key left = place)
    (entered : (world.leaveLookup left).inLookupHashtable place = some dentry) :
    world.inLookupHashtable place = some dentry ∧ dentry ≠ left := by
  unfold leaveLookup at entered
  split at entered
  · by_cases here : place = world.key left
    · simp [here] at entered
    · simp only [Function.update_of_ne here] at entered
      refine ⟨entered, fun same => ?_⟩
      subst same
      exact here (owned entered).symm
  · rename_i absent
    refine ⟨entered, fun same => ?_⟩
    subst same
    rw [owned entered] at absent
    exact absent entered

/-! ## `rehash` -/

/-- The rehashed dentry is answered. -/
theorem rehash_asked (world : World τ ν ι) (dentry other : Nat) :
    (world.rehash dentry).asked other =
      if other = dentry then .answered else world.asked other := by
  by_cases same : other = dentry
  · simp [rehash, asked, same]
  · simp [rehash, asked, same]

/-- No dentry changes its place as one is rehashed. -/
@[simp] theorem rehash_places (world : World τ ν ι) (dentry other : Nat) :
    (world.rehash dentry).key other = world.key other ∧
      (world.rehash dentry).isRoot other = world.isRoot other := by
  by_cases same : other = dentry
  · simp [rehash, key, isRoot, same]
  · simp [rehash, key, isRoot, same]

/-- Rehashing makes no dentry. -/
@[simp] theorem rehash_made (world : World τ ν ι) (dentry : Nat) :
    (world.rehash dentry).made = world.made := by
  simp [rehash]

/-- Rehashing moves no walk. -/
@[simp] theorem rehash_stack (world : World τ ν ι) (dentry : Nat) :
    (world.rehash dentry).stack = world.stack := by
  simp [rehash]

/-- The rehashed dentry leaves the lookup. -/
@[simp] theorem rehash_inLookupHashtable (world : World τ ν ι) (dentry : Nat) :
    (world.rehash dentry).inLookupHashtable = (world.leaveLookup dentry).inLookupHashtable := by
  simp [rehash]

/-- What is rehashed is answered. -/
theorem rehash_answered (world : World τ ν ι) (dentry : Nat) :
    (world.rehash dentry).Answered dentry := by
  simp [Answered, rehash_asked]

/-- Rehashing takes back no answer. -/
theorem rehash_onward (world : World τ ν ι) (dentry : Nat) :
    world.Onward (world.rehash dentry) where
  made := by simp
  answered other answered := by
    by_cases same : other = dentry
    · simp [Answered, rehash_asked, same]
    · simpa [Answered, rehash_asked, same] using answered
  held thread other held := by
    by_cases same : other = dentry
    · simp [Answered, rehash_asked, same]
    · simp [rehash_asked, same, held]
  asking thread other asking := by
    by_cases same : other = dentry
    · simp [Answered, rehash_asked, same]
    · simp [rehash_asked, same, asking]
  within other _ within := by
    by_cases same : other = dentry
    · simp [rehash_asked, same, LookupState.inLookup] at within
    · simpa [rehash_asked, same] using within
  root other _ root := by simpa using root

variable {dentry : Nat} {other : Nat} {moved : Nat}

/-- Rehashing keeps the tables. -/
theorem rehash_tabled (tabled : world.Tabled) (bound : dentry < world.made) :
    (world.rehash dentry).Tabled where
  entered other within := by
    by_cases same : other = dentry
    · simp [rehash_asked, same, LookupState.inLookup] at within
    · rw [rehash_asked, if_neg same] at within
      simpa using leaveLookup_kept world (tabled.entered other within) same
  found place other found := by
    by_cases same : other = dentry
    · exact same ▸ world.rehash_answered dentry
    · refine (world.rehash_onward dentry).answered other (tabled.found place other ?_)
      simp only [rehash, leaveLookup_rest] at found
      split at found
      · exact found
      · rw [Function.update_apply] at found
        split at found
        · exact absurd (Option.some.inj found).symm same
        · exact found
  hashed other hashed := by
    by_cases same : other = dentry
    · exact same ▸ world.rehash_answered dentry
    · refine (world.rehash_onward dentry).answered other (tabled.hashed other ?_)
      simpa [rehash, same] using hashed
  standing inode other standing := by
    refine (world.rehash_onward dentry).standing (tabled.standing inode other ?_)
    simpa [rehash] using standing
  blank other free := by
    rw [rehash_made] at free
    rw [rehash_asked, if_neg (by omega)]
    exact tabled.blank other free

/-! ## `lookup_done` -/

omit [DecidableEq ν] in
/-- The one lookup is set. -/
theorem setAsked_asked (world : World τ ν ι) (dentry other : Nat) (state : LookupState τ) :
    (world.setAsked dentry state).asked other =
      if other = dentry then state else world.asked other := by
  by_cases same : other = dentry
  · simp [setAsked, asked, same]
  · simp [setAsked, asked, same]

omit [DecidableEq ν] in
/-- Where a dentry stands does not hang on its lookup. -/
@[simp] theorem setAsked_places (world : World τ ν ι) (dentry other : Nat)
    (state : LookupState τ) :
    (world.setAsked dentry state).key other = world.key other ∧
      (world.setAsked dentry state).isRoot other = world.isRoot other ∧
      ((world.setAsked dentry state).dentries other).hashed = (world.dentries other).hashed := by
  by_cases same : other = dentry
  · simp [setAsked, key, isRoot, same]
  · simp [setAsked, key, isRoot, same]

omit [DecidableEq ν] in
/-- No dentry is made and no walk moves. -/
@[simp] theorem setAsked_rest (world : World τ ν ι) (dentry : Nat) (state : LookupState τ) :
    (world.setAsked dentry state).made = world.made ∧
      (world.setAsked dentry state).stack = world.stack := ⟨rfl, rfl⟩

/-- Leaving the table changes no lookup. -/
@[simp] theorem leaveLookup_asked (world : World τ ν ι) (dentry other : Nat) :
    (world.leaveLookup dentry).asked other = world.asked other := by
  simp [asked]

/-- Leaving the table moves no dentry. -/
@[simp] theorem leaveLookup_places (world : World τ ν ι) (dentry other : Nat) :
    (world.leaveLookup dentry).key other = world.key other ∧
      (world.leaveLookup dentry).isRoot other = world.isRoot other := by
  simp [key, isRoot]

omit [DecidableEq ν] in
/-- The tables keep what they hold when a dentry not answered for changes its lookup state, as long
as it stands in `in_lookup_hashtable` while it is in lookup. -/
theorem setAsked_tabled {state : LookupState τ} (tabled : world.Tabled)
    (unanswered : ¬world.Answered dentry) (bound : dentry < world.made)
    (entered : state.inLookup = true → world.inLookupHashtable (world.key dentry) = some dentry) :
    (world.setAsked dentry state).Tabled where
  entered other within := by
    by_cases same : other = dentry
    · subst same
      rw [setAsked_asked, if_pos rfl] at within
      rw [(setAsked_places ..).1]
      exact entered within
    · rw [setAsked_asked, if_neg same] at within
      rw [(setAsked_places ..).1]
      exact tabled.entered other within
  found place other found := by
    have answered := tabled.found place other found
    have apart : other ≠ dentry := fun same => unanswered (same ▸ answered)
    rw [Answered, setAsked_asked, if_neg apart]
    exact answered
  hashed other hashed := by
    rw [(setAsked_places ..).2.2] at hashed
    have answered := tabled.hashed other hashed
    have apart : other ≠ dentry := fun same => unanswered (same ▸ answered)
    rw [Answered, setAsked_asked, if_neg apart]
    exact answered
  standing inode other standing := by
    obtain answered | root := tabled.standing inode other standing
    · have apart : other ≠ dentry := fun same => unanswered (same ▸ answered)
      left
      rw [Answered, setAsked_asked, if_neg apart]
      exact answered
    · exact .inr ⟨by simpa using root.1, root.2⟩
  blank other free := by
    have apart : other ≠ dentry := by
      intro same
      subst same
      exact absurd bound (Nat.not_lt.mpr free)
    rw [setAsked_asked, if_neg apart]
    exact tabled.blank other free

/-- A dentry out of lookup may leave `in_lookup_hashtable`. -/
theorem leaveLookup_found (tabled : world.Tabled) (dentry : Nat)
    (within : (world.asked other).inLookup = true) (apart : other ≠ dentry) :
    (world.leaveLookup dentry).inLookupHashtable (world.key other) = some other :=
  leaveLookup_kept world (tabled.entered other within) apart

/-- A lookup ended keeps the tables. -/
theorem lookupDone_tabled (tabled : world.Tabled) :
    (world.lookupDone dentry).Tabled := by
  unfold lookupDone
  split
  · rename_i within
    have asked : world.asked dentry ≠ .unasked := by
      intro unasked
      simp [unasked, LookupState.inLookup] at within
    have unanswered : ¬world.Answered dentry := by
      intro answered
      simp [answered.inLookup] at within
    have bound := tabled.lt_made asked
    have rest : (world.setAsked dentry .unasked).Tabled :=
      setAsked_tabled tabled unanswered bound (by simp [LookupState.inLookup])
    exact {
      entered := by
        intro other within
        have apart : other ≠ dentry := by
          intro same
          simp [setAsked_asked, same, LookupState.inLookup] at within
        rw [setAsked_asked, if_neg apart, leaveLookup_asked] at within
        simp only [setAsked_places, leaveLookup_places]
        exact leaveLookup_found tabled dentry within apart
      found := by
        intro place other found
        have answered := rest.found place other (by simpa [setAsked] using found)
        simpa [Answered, setAsked_asked] using answered
      hashed := by
        intro other hashed
        have answered := rest.hashed other (by simpa using hashed)
        simpa [Answered, setAsked_asked] using answered
      standing := by
        intro inode other standing
        have stands := rest.standing inode other (by simpa [setAsked] using standing)
        simpa [Standing, Answered, setAsked_asked] using stands
      blank := by
        intro other free
        have unasked := rest.blank other (by simpa [setAsked] using free)
        simpa [setAsked_asked] using unasked }
  · exact tabled

/-- A lookup ended moves no dentry. -/
@[simp] theorem lookupDone_key (world : World τ ν ι) (dentry other : Nat) :
    (world.lookupDone dentry).key other = world.key other := by
  unfold lookupDone
  split
  · simp
  · rfl

/-- A lookup ended moves no walk. -/
@[simp] theorem lookupDone_stack (world : World τ ν ι) (dentry : Nat) :
    (world.lookupDone dentry).stack = world.stack := by
  unfold lookupDone
  split
  · simp [setAsked]
  · rfl

/-! ## The walk that begins -/

omit [DecidableEq ν] in
/-- A lookup begun takes back no answer. -/
theorem begin_onward (allocated : world.asked dentry = .allocated thread) :
    world.Onward (world.setAsked dentry (.asking thread)) where
  made := by simp [setAsked]
  answered other answered := by
    have apart : other ≠ dentry := by
      intro same
      subst same
      simp [Answered, allocated] at answered
    rw [Answered, setAsked_asked, if_neg apart]
    exact answered
  held walk other held := by
    by_cases same : other = dentry
    · subst same
      have own : walk = thread := by simpa [allocated, LookupState.heldFor, eq_comm] using held
      simp [setAsked_asked, own, LookupState.heldFor]
    · simp [setAsked_asked, same, held]
  asking walk other asking := by
    have apart : other ≠ dentry := by
      intro same
      subst same
      simp [allocated] at asking
    simp [setAsked_asked, apart, asking]
  within other _ within := by
    by_cases same : other = dentry
    · subst same
      simp [allocated, LookupState.inLookup]
    · simpa [setAsked_asked, same] using within
  root other _ root := by simpa using root

/-! ## `unhash` -/

/-- A dentry let go of keeps its lookup and its place. -/
@[simp] theorem unhash_dentry (world : World τ ν ι) (dentry other : Nat) :
    (world.unhash dentry).asked other = world.asked other ∧
      (world.unhash dentry).key other = world.key other ∧
      (world.unhash dentry).isRoot other = world.isRoot other := by
  unfold unhash
  split
  · by_cases same : other = dentry
    · simp [asked, key, isRoot, same]
    · simp [asked, key, isRoot, same]
  · simp

/-- Unhashing changes one table. -/
@[simp] theorem unhash_rest (world : World τ ν ι) (dentry : Nat) :
    (world.unhash dentry).made = world.made ∧
      (world.unhash dentry).inLookupHashtable = world.inLookupHashtable ∧
      (world.unhash dentry).inodeDentry = world.inodeDentry ∧
      (world.unhash dentry).stack = world.stack := by
  unfold unhash
  split
  · simp
  · simp

/-- A dentry let go of is found by its name no more. -/
theorem unhash_hashed (world : World τ ν ι) (dentry : Nat) :
    ((world.unhash dentry).dentries dentry).hashed = false := by
  unfold unhash
  split
  · simp
  · rename_i unhashed
    simpa using unhashed

omit [DecidableEq ν] in
/-- A change of the dentries that leaves every lookup and every place as it was. -/
theorem Onward.of_same (made : after.made = world.made)
    (asked : ∀ dentry, after.asked dentry = world.asked dentry)
    (key : ∀ dentry, after.key dentry = world.key dentry)
    (root : ∀ dentry, after.isRoot dentry = world.isRoot dentry) : world.Onward after where
  made := made.ge
  answered dentry answered := by simpa [Answered, asked] using answered
  held thread dentry held := .inr ⟨by rw [asked, held], key dentry⟩
  asking thread dentry asking := .inr ⟨by rw [asked, asking], key dentry⟩
  within dentry _ within := ⟨by rwa [← asked], key dentry⟩
  root dentry _ isRoot := by rw [root, isRoot]

/-- Unhashing takes back no answer. -/
theorem unhash_onward (world : World τ ν ι) (dentry : Nat) :
    world.Onward (world.unhash dentry) :=
  .of_same (by simp) (by simp) (by simp) (by simp)

/-- Unhashing keeps the tables. -/
theorem unhash_tabled (tabled : world.Tabled) (dentry : Nat) :
    (world.unhash dentry).Tabled where
  entered other within := by simpa using tabled.entered other (by simpa using within)
  found place other found := by
    refine (world.unhash_onward dentry).answered other (tabled.found place other ?_)
    unfold unhash at found
    split at found
    · simp only [Function.update_apply] at found
      split at found
      · cases found
      · exact found
    · exact found
  hashed other hashed := by
    refine (world.unhash_onward dentry).answered other (tabled.hashed other ?_)
    unfold unhash at hashed
    split at hashed
    · by_cases same : other = dentry
      · simp [same] at hashed
      · simpa [same] using hashed
    · exact hashed
  standing inode other standing :=
    (world.unhash_onward dentry).standing (tabled.standing inode other (by simpa using standing))
  blank other free := by simpa using tabled.blank other (by simpa using free)

/-! ## `__instantiate` -/

section

variable [DecidableEq ι] (isDir : ι → Bool)

section

omit [DecidableEq ν]

/-- Only the inode of the one dentry changes. -/
theorem instantiate_same (world : World τ ν ι) (dentry : Nat) (inode : ι) (other : Nat) :
    ((world.instantiate isDir dentry inode).dentries other).parent =
        (world.dentries other).parent ∧
      ((world.instantiate isDir dentry inode).dentries other).name = (world.dentries other).name ∧
      ((world.instantiate isDir dentry inode).dentries other).asked =
        (world.dentries other).asked ∧
      ((world.instantiate isDir dentry inode).dentries other).hashed =
        (world.dentries other).hashed := by
  unfold instantiate
  split
  · simp
  · by_cases same : other = dentry
    · simp [same]
    · simp [same]

/-- An inode given changes no lookup. -/
@[simp] theorem instantiate_asked (world : World τ ν ι) (dentry : Nat) (inode : ι) (other : Nat) :
    (world.instantiate isDir dentry inode).asked other = world.asked other :=
  (instantiate_same isDir world dentry inode other).2.2.1

/-- An inode given moves no dentry. -/
@[simp] theorem instantiate_places (world : World τ ν ι) (dentry : Nat) (inode : ι) (other : Nat) :
    (world.instantiate isDir dentry inode).key other = world.key other ∧
      (world.instantiate isDir dentry inode).isRoot other = world.isRoot other := by
  obtain ⟨parent, name, -, -⟩ := instantiate_same isDir world dentry inode other
  simp [key, isRoot, parent, name]

/-- An inode given changes no table of names. -/
theorem instantiate_tables (world : World τ ν ι) (dentry : Nat) (inode : ι) :
    (world.instantiate isDir dentry inode).made = world.made ∧
      (world.instantiate isDir dentry inode).dentryHashtable = world.dentryHashtable ∧
      (world.instantiate isDir dentry inode).inLookupHashtable = world.inLookupHashtable ∧
      (world.instantiate isDir dentry inode).stack = world.stack := by
  unfold instantiate
  split
  · simp
  · simp

/-- An inode given takes back no answer. -/
theorem instantiate_onward (world : World τ ν ι) (dentry : Nat) (inode : ι) :
    world.Onward (world.instantiate isDir dentry inode) :=
  .of_same (instantiate_tables isDir world dentry inode).1 (by simp) (by simp) (by simp)

/-- An inode recorded on a dentry a lookup answered for. -/
theorem instantiate_tabled (tabled : world.Tabled) {dentry : Nat} (inode : ι)
    (answered : world.Answered dentry) : (world.instantiate isDir dentry inode).Tabled := by
  obtain ⟨made, table, inLookup, -⟩ := instantiate_tables isDir world dentry inode
  have onward := instantiate_onward isDir world dentry inode
  exact {
    entered := by
      intro other within
      rw [inLookup, (instantiate_places ..).1]
      exact tabled.entered other (by simpa using within)
    found := by
      intro place other found
      exact onward.answered other (tabled.found place other (by rwa [table] at found))
    hashed := by
      intro other hashed
      rw [(instantiate_same isDir world dentry inode other).2.2.2] at hashed
      exact onward.answered other (tabled.hashed other hashed)
    standing := by
      intro held other standing
      by_cases same : other = dentry
      · exact .inl (onward.answered other (same ▸ answered))
      · refine onward.standing (tabled.standing held other ?_)
        unfold instantiate at standing
        split at standing
        · exact standing
        · simp only [] at standing
          split at standing
          · rw [Function.update_apply] at standing
            split at standing
            · exact absurd (Option.some.inj standing).symm same
            · exact standing
          · exact standing
    blank := by
      intro other free
      rw [instantiate_asked]
      exact tabled.blank other (by rwa [made] at free) }

end

/-- The inode may as well be recorded once the name is hashed. -/
theorem instantiate_rehash (world : World τ ν ι) (dentry : Nat) (inode : ι) :
    (world.instantiate isDir dentry inode).rehash dentry =
      (world.rehash dentry).instantiate isDir dentry inode := by
  have left : (world.instantiate isDir dentry inode).leaveLookup dentry =
      (world.leaveLookup dentry).instantiate isDir dentry inode := by
    obtain ⟨-, -, inLookup, -⟩ := instantiate_tables isDir world dentry inode
    unfold leaveLookup
    rw [inLookup, (instantiate_places ..).1]
    split
    · unfold instantiate
      split
      · simp_all
      · simp_all
    · rfl
  unfold rehash
  rw [left]
  unfold instantiate
  cases recorded : (world.dentries dentry).inode with
  | some known => simp [recorded, key]
  | none => simp [recorded, key]

end

/-! ## A dentry made -/

/-- The new dentry is its maker's. -/
theorem make_asked (world : World τ ν ι) (thread : τ) (place : Key ν) (other : Nat) :
    (world.make thread place).asked other =
      if other = world.made then .allocated thread else world.asked other := by
  by_cases same : other = world.made
  · simp [make, asked, same]
  · simp [make, asked, same]

/-- The new dentry stands at its place. -/
theorem make_key (world : World τ ν ι) (thread : τ) (place : Key ν) (other : Nat) :
    (world.make thread place).key other = if other = world.made then place else world.key other := by
  by_cases same : other = world.made
  · simp [make, key, same]
  · simp [make, key, same]

/-- The new dentry is no root. -/
theorem make_isRoot (world : World τ ν ι) (thread : τ) (place : Key ν)
    (bound : other < world.made) :
    (world.make thread place).isRoot other = world.isRoot other := by
  simp [make, isRoot, Nat.ne_of_lt bound]

/-- A dentry made takes back no answer. -/
theorem make_onward (tabled : world.Tabled) (thread : τ) (place : Key ν) :
    world.Onward (world.make thread place) where
  made := Nat.le_succ world.made
  answered other answered := by
    have bound : other < world.made := tabled.lt_made (by rw [answered]; simp)
    rw [Answered, make_asked, if_neg (Nat.ne_of_lt bound)]
    exact answered
  held walk other held := by
    have bound : other < world.made := by
      refine tabled.lt_made fun unasked => ?_
      simp [unasked, LookupState.heldFor] at held
    simp [make_asked, make_key, Nat.ne_of_lt bound, held]
  asking walk other asking := by
    have bound : other < world.made := tabled.lt_made (by rw [asking]; simp)
    simp [make_asked, make_key, Nat.ne_of_lt bound, asking]
  within other bound within := by
    simp only [make_asked, Nat.ne_of_lt bound, if_false] at within
    exact ⟨within, by simp [make_key, Nat.ne_of_lt bound]⟩
  root other bound root := by rwa [make_isRoot world thread place bound]

/-- A dentry made keeps the tables. -/
theorem make_tabled (tabled : world.Tabled) (thread : τ) {place : Key ν}
    (free : world.inLookupHashtable place = none) : (world.make thread place).Tabled where
  entered other within := by
    by_cases same : other = world.made
    · rw [make_key, if_pos same, same]
      simp [make]
    · rw [make_asked, if_neg same] at within
      rw [make_key, if_neg same]
      have entered := tabled.entered other within
      have apart : world.key other ≠ place := by
        intro here
        simp [here, free] at entered
      simpa [make, apart] using entered
  found place other found := by
    have stood : world.dentryHashtable place = some other := by simpa [make] using found
    exact (make_onward tabled thread _).answered other (tabled.found place other stood)
  hashed other hashed := by
    have apart : other ≠ world.made := by
      intro same
      simp [make, same] at hashed
    have stood : (world.dentries other).hashed = true := by simpa [make, apart] using hashed
    exact (make_onward tabled thread _).answered other (tabled.hashed other stood)
  standing inode other standing := by
    have stood : world.inodeDentry inode = some other := by simpa [make] using standing
    exact (make_onward tabled thread _).standing (tabled.standing inode other stood)
  blank other free := by
    have beyond : world.made < other := free
    rw [make_asked, if_neg (by omega)]
    exact tabled.blank other (by omega)

/-! ## An alias moved -/

/-- A move changes no lookup. -/
@[simp] theorem moveTo_asked (world : World τ ν ι) (moved : Nat) (place : Key ν) (other : Nat) :
    (world.moveTo moved place).asked other = world.asked other := by
  by_cases same : other = moved
  · simp [moveTo, asked, same]
  · simp [moveTo, asked, same]

/-- A move moves one dentry. -/
theorem moveTo_key (world : World τ ν ι) (place : Key ν) (apart : other ≠ moved) :
    (world.moveTo moved place).key other = world.key other := by
  simp [moveTo, key, apart]

/-- Only a dentry answered for is moved, so no name in lookup is. -/
theorem moveTo_onward (place : Key ν) (answered : world.Answered moved)
    (rooted : world.isRoot moved = false) : world.Onward (world.moveTo moved place) where
  made := Nat.le_refl world.made
  answered other answered := by simpa [Answered] using answered
  held walk other held := by
    have apart : other ≠ moved := by
      intro same
      subst same
      have isOver := answered.inLookup
      simp [LookupState.inLookup_of_heldFor held] at isOver
    exact .inr ⟨by simpa using held, moveTo_key world place apart⟩
  asking walk other asking := by
    have apart : other ≠ moved := by
      intro same
      subst same
      simp [Answered, asking] at answered
    exact .inr ⟨by simpa using asking, moveTo_key world place apart⟩
  within other _ within := by
    rw [moveTo_asked] at within
    have apart : other ≠ moved := by
      intro same
      subst same
      simp [answered.inLookup] at within
    exact ⟨within, moveTo_key world place apart⟩
  root other _ root := by
    have apart : other ≠ moved := by
      intro same
      subst same
      simp [rooted] at root
    simpa [moveTo, isRoot, apart] using root

/-- A move of an answered dentry keeps the tables. -/
theorem moveTo_tabled (tabled : world.Tabled) (place : Key ν) (answered : world.Answered moved)
    (rooted : world.isRoot moved = false) :
    (world.moveTo moved place).Tabled where
  entered other within := by
    rw [moveTo_asked] at within
    have apart : other ≠ moved := by
      intro same
      subst same
      simp [answered.inLookup] at within
    rw [moveTo_key world place apart]
    exact tabled.entered other within
  found name other found := by
    refine (moveTo_onward place answered rooted).answered other ?_
    simp only [moveTo, Function.update_apply] at found
    split at found
    · exact Option.some.inj found ▸ answered
    · split at found
      · rw [Function.update_apply] at found
        split at found
        · cases found
        · exact tabled.found name other found
      · exact tabled.found name other found
  hashed other hashed := by
    refine (moveTo_onward place answered rooted).answered other ?_
    by_cases same : other = moved
    · exact same ▸ answered
    · exact tabled.hashed other (by simpa [moveTo, same] using hashed)
  standing inode other standing :=
    (moveTo_onward place answered rooted).standing (tabled.standing inode other standing)
  blank other free := by
    rw [moveTo_asked]
    exact tabled.blank other free

/-! ## A dentry let go -/

omit [DecidableEq ν] in
/-- A dentry dropped takes back no answer. -/
theorem drop_onward (world : World τ ν ι) (dentry : Nat) : world.Onward (world.drop dentry) :=
  .of_same rfl (fun _ => rfl) (fun _ => rfl) (fun _ => rfl)

omit [DecidableEq ν] in
/-- Only a dentry that is not in lookup is let go. -/
theorem drop_tabled (tabled : world.Tabled) (isOver : (world.asked dentry).inLookup = false) :
    (world.drop dentry).Tabled where
  entered other within := by
    have stillWithin : (world.asked other).inLookup = true := within
    have apart : other ≠ dentry := by
      intro same
      subst same
      simp [isOver] at stillWithin
    have entered := tabled.entered other stillWithin
    change (world.inLookupHashtable (world.key other)).filter _ = some other
    simp [entered, apart]
  found place other found :=
    tabled.found place other (Option.filter_eq_some_iff.mp found).1
  hashed other hashed := tabled.hashed other hashed
  standing inode other standing :=
    tabled.standing inode other (Option.filter_eq_some_iff.mp standing).1
  blank other free := tabled.blank other free

/-! ## What a step is -/

/-- A walk takes a lock, or takes what the Filesystem or another thread tells it. -/
inductive Turns (world : World τ ν ι) (thread : τ) :
    Phase ν ι → Act τ ν ι → World τ ν ι → Phase ν ι → Prop
  | locked : Turns world thread .locking (.lock thread none) world .slow
  | refused (e : FsError) :
      Turns world thread .locking (.lock thread (some e)) world (.done (.error (.told e)))
  | trusted (dentry : Nat) (valid : Except FsError Bool) :
      Turns world thread (.trusting dentry) (.trust thread valid)
        (world.revalidated dentry valid (.done (.ok dentry)) .locking).1
        (world.revalidated dentry valid (.done (.ok dentry)) .locking).2
  | revalidated (dentry : Nat) (valid : Except FsError Bool) :
      Turns world thread (.revalidating dentry) (.trust thread valid)
        (world.revalidated dentry valid (.beginning dentry) .slow).1
        (world.revalidated dentry valid (.beginning dentry) .slow).2
  | found (dentry : Nat) (ends : Bool) (found : Lookup ν ι) :
      Turns world thread (.inside dentry ends) (.answer thread (.ok found)) world
        (.splicing dentry ends found)
  | failed (dentry : Nat) (ends : Bool) (e : FsError) :
      Turns world thread (.inside dentry ends) (.answer thread (.error e)) world
        (.ending dentry ends (.error (.told e)))
  | unaliased (dentry : Nat) (ends : Bool) (other : Nat) (place : Key ν) (free : Bool) :
      Turns world thread (.aliasing dentry ends other place) (.unalias thread free)
        (world.unaliased dentry other place free).1
        (.ending dentry ends (world.unaliased dentry other place free).2)

/-- What a step is, by what takes it and what it leaves. -/
inductive Steps [DecidableEq τ] [DecidableEq ι] (isDir : ι → Bool) (world : World τ ν ι) :
    Act τ ν ι → World τ ν ι → Prop
  | walk {thread parent name}
      (outside : ∀ frame rest, world.stack thread = frame :: rest → frame.phase.outside = true) :
      Steps isDir world (.walk thread parent name)
        (world.onto thread (⟨parent, name, none, .fast⟩ :: world.stack thread))
  | go {thread fatal frame rest next} (stacked : world.stack thread = frame :: rest)
      (advanced : world.advance isDir thread fatal frame rest = some next) :
      Steps isDir world (.go thread fatal) next
  | turn {thread act frame rest after phase} (stacked : world.stack thread = frame :: rest)
      (turns : world.Turns thread frame.phase act after phase) :
      Steps isDir world act (after.onto thread (frame.at phase :: rest))
  | forget {dentry : Nat} (held : ∀ thread, ∀ frame ∈ world.stack thread, dentry ∉ frame.holds) :
      Steps isDir world (.forget dentry) (world.drop dentry)

/-- A step taken is one of them. -/
theorem steps_of_step [DecidableEq τ] [DecidableEq ι] [Fintype τ] {isDir : ι → Bool}
    {act : Act τ ν ι} (stepped : world.step isDir act = some after) :
    world.Steps isDir act after := by
  cases act with
  | walk thread parent name =>
    simp only [step] at stepped
    split at stepped
    · rename_i idle
      split at stepped
      · cases stepped
        have walked : world.Steps isDir (.walk thread parent name) _ := .walk (by simp [idle])
        simpa [idle] using walked
      · cases stepped
    · rename_i frame rest stacked
      split at stepped
      · rename_i may
        cases stepped
        have walked : world.Steps isDir (.walk thread parent name) _ :=
          .walk (by simpa [stacked] using may.1)
        simpa [stacked] using walked
      · cases stepped
  | go thread fatal =>
    simp only [step] at stepped
    split at stepped
    · cases stepped
    · rename_i stacked
      exact .go stacked stepped
  | forget dentry =>
    simp only [step] at stepped
    split at stepped
    · rename_i held
      cases stepped
      exact .forget held
    · cases stepped
  | lock thread _ | trust thread _ | answer thread _ | unalias thread _ =>
    simp only [step] at stepped
    split at stepped
    · cases stepped
    · rename_i stacked
      split at stepped
      any_goals cases stepped
      all_goals
        rename_i phased
        exact .turn stacked (phased ▸ by constructor)

end World

end Kobako.Dcache
