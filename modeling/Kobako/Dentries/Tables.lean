import Kobako.Dentries.Placed

/-!
# What `dentry_hashtable` finds

A hashed dentry is found at its name as long as every operation that enters one does so at a name
no other hashed dentry stands at. What an operation enters, and where, is told once for each.
-/

namespace Kobako.Dentries

open Kobako.Dcache (LookupState Dentry Key)

variable {τ ν ι : Type}

namespace Cache

/-- Every hashed dentry that is held is found at its own name. -/
def Found (cache : Cache τ ν ι) : Prop :=
  ∀ dentry, cache.live dentry = true → cache.hashed dentry = true →
    cache.dentryHashtable (cache.key dentry) = some dentry

/-- Every hashed dentry that is held at a key is one of those allowed. -/
def Lone (cache : Cache τ ν ι) (allowed : Nat → Prop) (place : Key ν) : Prop :=
  ∀ dentry, cache.live dentry = true → cache.hashed dentry = true → cache.key dentry = place →
    allowed dentry

/-- Every hashed dentry that is held after an operation is new, or was hashed where it is. -/
def Enters (cache next : Cache τ ν ι) (new : Nat → Prop) : Prop :=
  ∀ dentry, next.live dentry = true → next.hashed dentry = true → new dentry ∨
    (cache.live dentry = true ∧ cache.hashed dentry = true ∧ next.key dentry = cache.key dentry)

variable {cache next : Cache τ ν ι} {dentry other : Nat} {new allowed : Nat → Prop} {place : Key ν}

/-- What stands at a key an operation enters nothing at but what is allowed there. -/
theorem Lone.carry (lone : cache.Lone allowed place) (enters : cache.Enters next new)
    (elsewhere : ∀ other, new other → next.key other = place → allowed other) :
    next.Lone allowed place := by
  intro other live hashed keyed
  obtain entered | ⟨held, before, same⟩ := enters other live hashed
  · exact elsewhere other entered keyed
  · exact lone other held before (same ▸ keyed)

theorem Lone.mono (lone : cache.Lone allowed place) {more : Nat → Prop}
    (weaker : ∀ other, allowed other → more other) : cache.Lone more place :=
  fun other live hashed keyed => weaker other (lone other live hashed keyed)

/-- Two dentries found at one key are one. -/
theorem Found.lone (found : cache.Found) (live : cache.live dentry = true)
    (hashed : cache.hashed dentry = true) : cache.Lone (· = dentry) (cache.key dentry) := by
  intro other held hashes keyed
  have here := found other held hashes
  rw [keyed, found dentry live hashed] at here
  exact (Option.some.inj here).symm

/-- Nothing is hashed at a key where nothing is found. -/
theorem Found.vacant (found : cache.Found) (absent : cache.find place = none) :
    cache.Lone (fun _ => False) place := by
  intro other live hashed keyed
  have stands : cache.find place = some other :=
    upgrade_eq_some.mpr ⟨keyed ▸ found other live hashed, live⟩
  simp [absent] at stands

section Operations

variable [DecidableEq ν]

/-! ## Answers -/

theorem Answers.enters (answers : cache.Answers dentry next) :
    cache.Enters next (· = dentry) := by
  intro other live hashed
  by_cases same : other = dentry
  · exact .inl same
  · rw [answers.live] at live
    rw [answers.hashed, if_neg same] at hashed
    exact .inr ⟨live, hashed, by rw [answers.key]⟩

theorem Answers.found (answers : cache.Answers dentry next) (found : cache.Found)
    (alone : cache.hashed dentry = true ∨ cache.Lone (· = dentry) (cache.key dentry)) :
    next.Found := by
  intro other live hashed
  rw [answers.live] at live
  rw [answers.hashed] at hashed
  rw [answers.key, answers.entered]
  by_cases already : cache.hashed dentry = true
  · rw [if_pos already]
    split at hashed
    · rename_i same
      exact found other live (same ▸ already)
    · exact found other live hashed
  · rw [if_neg already]
    by_cases same : other = dentry
    · rw [same, Function.update_self]
    · rw [if_neg same] at hashed
      rw [Function.update_of_ne]
      · exact found other live hashed
      · intro here
        exact same (alone.resolve_left already other live hashed here)

/-! ## Lookups -/

omit [DecidableEq ν] in
theorem Turns.enters {state : LookupState τ} (turns : cache.Turns dentry state next) :
    cache.Enters next (fun _ => False) := by
  intro other live hashed
  rw [turns.live] at live
  rw [turns.hashed] at hashed
  exact .inr ⟨live, hashed, by rw [turns.key]⟩

omit [DecidableEq ν] in
theorem Turns.found {state : LookupState τ} (turns : cache.Turns dentry state next)
    (found : cache.Found) : next.Found := by
  intro other live hashed
  rw [turns.live] at live
  rw [turns.hashed] at hashed
  rw [turns.entered, turns.key]
  exact found other live hashed

theorem make_enters (shaped : cache.Shaped) (thread : τ) (at_ : Nat × ν) (address : Nat) :
    cache.Enters (cache.make thread at_ address) (fun _ => False) := by
  intro other live hashes
  obtain new | ⟨old, held⟩ := make_live live
  · rw [new, hashed, make_new.1] at hashes
    cases hashes
  · rw [hashed, (make_old old).1] at hashes
    exact .inr ⟨held, hashes, shaped.make_key held⟩

theorem make_found (shaped : cache.Shaped) (found : cache.Found) (thread : τ) (at_ : Nat × ν)
    (address : Nat) : (cache.make thread at_ address).Found := by
  intro other live hashes
  obtain entered | ⟨held, before, same⟩ := make_enters shaped thread at_ address other live hashes
  · exact entered.elim
  · rw [same]
    exact found other held before

/-! ## `unhash` and the last holder -/

theorem unhash_enters (cache : Cache τ ν ι) (dentry : Nat) :
    cache.Enters (cache.unhash dentry) (fun _ => False) := by
  intro other live hashed
  have unhashes := cache.unhash_unhashes dentry
  rw [unhashes.live] at live
  rw [unhashes.hashed] at hashed
  split at hashed
  · cases hashed
  · exact .inr ⟨live, hashed, by rw [unhashes.key]⟩

theorem unhash_found (found : cache.Found) (dentry : Nat) (live : cache.live dentry = true) :
    (cache.unhash dentry).Found := by
  intro other held hashed
  have unhashes := cache.unhash_unhashes dentry
  rw [unhashes.live] at held
  rw [unhashes.hashed] at hashed
  split at hashed
  · cases hashed
  · rename_i apart
    rw [unhashes.takenOut, unhashes.key, takenOut_kept]
    · exact found other held hashed
    · intro stood here
      exact apart (found.lone live stood other held hashed here)

omit [DecidableEq ν] in
theorem drop_enters (cache : Cache τ ν ι) (dentry : Nat) :
    cache.Enters (cache.drop dentry) (fun _ => False) :=
  fun _ live hashed => .inr ⟨(drop_live live).2, hashed, rfl⟩

omit [DecidableEq ν] in
theorem drop_found (found : cache.Found) (dentry : Nat) : (cache.drop dentry).Found :=
  fun other live hashed => found other (drop_live live).2 hashed

/-! ## Moves -/

section MoveTo

variable {at_ : Nat × ν}

theorem moveTo_enters (cache : Cache τ ν ι) (dentry : Nat) (at_ : Nat × ν) :
    cache.Enters (cache.moveTo dentry at_) (· = dentry) := by
  intro other live hashes
  by_cases same : other = dentry
  · exact .inl same
  · rw [hashed, moveTo_other same] at hashes
    exact .inr ⟨live, hashes, moveTo_key_other same⟩

theorem moveTo_found (found : cache.Found) (live : cache.live dentry = true)
    (alone : cache.Lone (· = dentry) (cache.keyAt at_)) : (cache.moveTo dentry at_).Found := by
  intro other held hashes
  have table : (cache.moveTo dentry at_).dentryHashtable =
      Function.update (cache.takenOut dentry cache.dentryHashtable) (cache.keyAt at_)
        (some dentry) := rfl
  by_cases same : other = dentry
  · rw [same, moveTo_key_moved, table, Function.update_self]
  · rw [hashed, moveTo_other same] at hashes
    have held : cache.live other = true := held
    rw [moveTo_key_other same, table, Function.update_of_ne, takenOut_kept]
    · exact found other held hashes
    · intro stood here
      exact same (found.lone live stood other held hashes here)
    · intro here
      exact same (alone other held hashes here)

end MoveTo

section Exchange

variable {first second : Nat}

theorem exchange_enters (cache : Cache τ ν ι) (first second : Nat) :
    cache.Enters (cache.exchange first second) (fun other => other = first ∨ other = second) := by
  intro other live hashes
  by_cases one : other = first
  · exact .inl (.inl one)
  · by_cases two : other = second
    · exact .inl (.inr two)
    · rw [hashed, exchange_other one two] at hashes
      exact .inr ⟨live, hashes, exchange_key_other one two⟩

theorem exchange_found (found : cache.Found) (apart : first ≠ second)
    (hungFirst : cache.parent first ≠ none) (hungSecond : cache.parent second ≠ none)
    (elsewhere : cache.key first ≠ cache.key second)
    (aloneFirst : cache.Lone (· = first) (cache.key first))
    (aloneSecond : cache.Lone (· = second) (cache.key second)) :
    (cache.exchange first second).Found := by
  have keys := exchange_keys apart hungFirst hungSecond
  have table : (cache.exchange first second).dentryHashtable =
      Function.update (Function.update
        (cache.takenOut second (cache.takenOut first cache.dentryHashtable)) (cache.key second)
        (some first)) (cache.key first) (some second) := rfl
  intro other held hashes
  have live : cache.live other = true := held
  by_cases one : other = first
  · rw [one, keys.1, table, Function.update_of_ne elsewhere.symm, Function.update_self]
  · by_cases two : other = second
    · rw [two, keys.2, table, Function.update_self]
    · rw [hashed, exchange_other one two] at hashes
      rw [exchange_key_other one two, table, Function.update_of_ne, Function.update_of_ne,
        takenOut_kept, takenOut_kept]
      · exact found other live hashes
      · exact fun _ here => one (aloneFirst other live hashes here)
      · exact fun _ here => two (aloneSecond other live hashes here)
      · exact fun here => two (aloneSecond other live hashes here)
      · exact fun here => one (aloneFirst other live hashes here)

end Exchange

end Operations

end Cache

end Kobako.Dentries
