import Kobako.Dcache.Parallel
import Mathlib.Data.List.Pairwise

/-!
# Names in lookup

What every interleaving keeps of the names that are being looked up: a dentry in lookup stands in
`in_lookup_hashtable` at its own name, the walk it is held for is there to end that, and what the
other walks hold of it is what `LookupState` told them.
-/

namespace Kobako.Dcache

open Kobako.Vfs (FsError)

variable {τ ν ι : Type}

/-! ## What a walk holds -/

namespace Phase

/-- The dentry a walk took from `alloc_parallel` and has yet to ask about. -/
def taken : Phase ν ι → Option Nat
  | .given dentry | .beginning dentry | .entering dentry => some dentry
  | _ => none

/-- The dentry a walk asks about. -/
def engaged : Phase ν ι → Option Nat
  | .inside dentry _ | .splicing dentry _ _ | .spelled dentry _ | .aliased dentry _ _
  | .aliasing dentry _ _ _ | .ending dentry _ _ => some dentry
  | _ => none

/-- The dentry a walk asks about, its lookup ended by that walk. -/
def begun : Phase ν ι → Option Nat
  | .inside dentry ends | .splicing dentry ends _ | .spelled dentry ends | .aliased dentry ends _
  | .aliasing dentry ends _ _ | .ending dentry ends _ => if ends then some dentry else none
  | _ => none

/-- A walk stands still there while another of its thread goes on above it. -/
def beneath : Phase ν ι → Bool
  | .trusting _ | .revalidating _ | .inside _ _ | .spelled _ _ => true
  | _ => false

theorem engaged_of_begun {phase : Phase ν ι} {dentry : Nat} (begins : phase.begun = some dentry) :
    phase.engaged = some dentry := by
  cases phase <;> simp_all [begun, engaged]

end Phase

namespace World

variable (world : World τ ν ι)

/-- A lookup answered for a dentry. -/
def Answered (dentry : Nat) : Prop := world.asked dentry = .answered

/-- A dentry that stands for an inode: one answered for, or a root. -/
def Standing (dentry : Nat) : Prop :=
  world.Answered dentry ∨ (world.isRoot dentry = true ∧ dentry < world.made)

/-- A dentry a thread holds in lookup at a name, unless it is answered for. -/
def HeldAt (thread : τ) (place : Key ν) (dentry : Nat) : Prop :=
  world.Answered dentry ∨
    ((world.asked dentry).heldFor = some thread ∧ world.key dentry = place)

/-- A dentry a thread asks about at a name, unless it is answered for. -/
def AskedAt (thread : τ) (place : Key ν) (dentry : Nat) : Prop :=
  world.Answered dentry ∨ (world.asked dentry = .asking thread ∧ world.key dentry = place)

/-- What a walk knows of the dentries it holds. -/
def Knows (thread : τ) (place : Key ν) : Phase ν ι → Prop
  | .fast | .locking | .slow => True
  | .trusting dentry | .revalidating dentry => world.Answered dentry
  | .waiting dentry =>
    dentry < world.made ∧ ((world.asked dentry).inLookup = true → world.key dentry = place)
  | .left dentry | .comparing dentry =>
    dentry < world.made ∧ (world.asked dentry).inLookup = false
  | .given dentry | .beginning dentry | .entering dentry => world.HeldAt thread place dentry
  | .inside dentry _ | .splicing dentry _ _ | .spelled dentry _ =>
    world.AskedAt thread place dentry
  | .aliased dentry _ other | .aliasing dentry _ other _ =>
    world.AskedAt thread place dentry ∧ world.Standing other
  | .ending dentry _ asked =>
    world.AskedAt thread place dentry ∧
      ∀ spliced, asked = .ok spliced → world.Answered (spliced.getD dentry)
  | .done answer => ∀ dentry, answer = .ok dentry → world.Answered dentry

/-- A walk there ends the lookup of a dentry. -/
def Owns (thread : τ) (dentry : Nat) (phase : Phase ν ι) : Prop :=
  (world.asked dentry = .allocated thread ∧ phase.taken = some dentry) ∨
    (world.asked dentry = .asking thread ∧ phase.begun = some dentry)

/-- What the tables hold, whoever walks. -/
structure Tabled (world : World τ ν ι) : Prop where
  entered : ∀ dentry, (world.asked dentry).inLookup = true →
    world.inLookupHashtable (world.key dentry) = some dentry
  found : ∀ place dentry, world.dentryHashtable place = some dentry → world.Answered dentry
  hashed : ∀ dentry, (world.dentries dentry).hashed = true → world.Answered dentry
  standing : ∀ inode dentry, world.inodeDentry inode = some dentry → world.Standing dentry
  blank : ∀ dentry, world.made ≤ dentry → world.asked dentry = .unasked

/-- A name in `in_lookup_hashtable` is its dentry's own, and a walk there ends its lookup. -/
def Owned : Prop :=
  ∀ place dentry, world.inLookupHashtable place = some dentry →
    world.key dentry = place ∧
      ∃ thread, ∃ frame ∈ world.stack thread,
        frame.key = place ∧ world.Owns thread dentry frame.phase

/-- The upper of two walks did not begin a lookup the lower asks about. -/
def Apart (upper lower : Frame ν ι) : Prop :=
  ∀ dentry, upper.phase.begun = some dentry → lower.phase.engaged ≠ some dentry

/-- What every interleaving keeps. -/
structure Sound (world : World τ ν ι) : Prop where
  tabled : world.Tabled
  known : ∀ thread, ∀ frame ∈ world.stack thread, world.Knows thread frame.key frame.phase
  beneath : ∀ thread, ∀ frame ∈ (world.stack thread).tail, frame.phase.beneath = true
  apart : ∀ thread, (world.stack thread).Pairwise Apart
  owned : world.Owned

end World

namespace LookupState

theorem inLookup_of_heldFor {state : LookupState τ} {walk : τ} (held : state.heldFor = some walk) :
    state.inLookup = true := by
  cases state <;> simp_all [heldFor, inLookup]

theorem heldFor_cases {state : LookupState τ} {walk : τ} (held : state.heldFor = some walk) :
    state = .allocated walk ∨ state = .asking walk := by
  cases state <;> simp_all [heldFor]

end LookupState

namespace World

variable {world after : World τ ν ι} {thread : τ} {place : Key ν}

theorem Answered.inLookup {dentry : Nat} (answered : world.Answered dentry) :
    (world.asked dentry).inLookup = false := by
  rw [show world.asked dentry = .answered from answered]
  rfl

theorem AskedAt.heldAt {dentry : Nat} (asked : world.AskedAt thread place dentry) :
    world.HeldAt thread place dentry := by
  cases asked with
  | inl answered => exact .inl answered
  | inr own =>
    refine .inr ⟨?_, own.2⟩
    rw [own.1]
    rfl

/-- The dentries a table finds are among those made. -/
theorem Tabled.lt_made (tabled : world.Tabled) {dentry : Nat}
    (asked : world.asked dentry ≠ .unasked) : dentry < world.made := by
  by_contra free
  exact asked (tabled.blank dentry (by omega))

/-! ## What a change leaves as it was -/

/-- A change after which every walk still knows what it knew: answers stay answers, lookups stay
where they were or are answered, and none begins on a dentry a walk has seen out of lookup. -/
structure Onward (world after : World τ ν ι) : Prop where
  made : world.made ≤ after.made
  answered : ∀ dentry, world.Answered dentry → after.Answered dentry
  held : ∀ thread dentry, (world.asked dentry).heldFor = some thread →
    after.Answered dentry ∨
      ((after.asked dentry).heldFor = some thread ∧ after.key dentry = world.key dentry)
  asking : ∀ thread dentry, world.asked dentry = .asking thread →
    after.Answered dentry ∨
      (after.asked dentry = .asking thread ∧ after.key dentry = world.key dentry)
  within : ∀ dentry, dentry < world.made → (after.asked dentry).inLookup = true →
    (world.asked dentry).inLookup = true ∧ after.key dentry = world.key dentry
  root : ∀ dentry, dentry < world.made → world.isRoot dentry = true → after.isRoot dentry = true

/-- A walk knows what it knew after a change that keeps what it took, what it asks about and every
answer, and puts no dentry in lookup. -/
theorem Knows.carry {phase : Phase ν ι} (knows : world.Knows thread place phase)
    (made : world.made ≤ after.made)
    (answered : ∀ dentry, world.Answered dentry → after.Answered dentry)
    (standing : ∀ dentry, world.Standing dentry → after.Standing dentry)
    (within : ∀ dentry, dentry < world.made → (after.asked dentry).inLookup = true →
      (world.asked dentry).inLookup = true ∧ after.key dentry = world.key dentry)
    (held : ∀ dentry, phase.taken = some dentry → world.HeldAt thread place dentry →
      after.HeldAt thread place dentry)
    (asked : ∀ dentry, phase.engaged = some dentry → world.AskedAt thread place dentry →
      after.AskedAt thread place dentry) :
    after.Knows thread place phase := by
  have isOver : ∀ dentry, dentry < world.made ∧ (world.asked dentry).inLookup = false →
      dentry < after.made ∧ (after.asked dentry).inLookup = false := by
    intro dentry seen
    refine ⟨Nat.lt_of_lt_of_le seen.1 made, ?_⟩
    by_contra now
    have was := (within dentry seen.1 (by simpa using now)).1
    simp [seen.2] at was
  cases phase with
  | fast => trivial
  | locking => trivial
  | slow => trivial
  | trusting dentry => exact answered dentry knows
  | revalidating dentry => exact answered dentry knows
  | waiting dentry =>
    refine ⟨Nat.lt_of_lt_of_le knows.1 made, fun now => ?_⟩
    obtain ⟨was, same⟩ := within dentry knows.1 now
    exact same.trans (knows.2 was)
  | left dentry => exact isOver dentry knows
  | comparing dentry => exact isOver dentry knows
  | given dentry => exact held dentry rfl knows
  | beginning dentry => exact held dentry rfl knows
  | entering dentry => exact held dentry rfl knows
  | inside dentry ends => exact asked dentry rfl knows
  | splicing dentry ends found => exact asked dentry rfl knows
  | spelled dentry ends => exact asked dentry rfl knows
  | aliased dentry ends other => exact ⟨asked dentry rfl knows.1, standing other knows.2⟩
  | aliasing dentry ends other place => exact ⟨asked dentry rfl knows.1, standing other knows.2⟩
  | ending dentry ends result =>
    exact ⟨asked dentry rfl knows.1, fun spliced told => answered _ (knows.2 spliced told)⟩
  | done result => exact fun dentry told => answered dentry (knows dentry told)

namespace Onward

theorem standing (onward : world.Onward after) {dentry : Nat} (standing : world.Standing dentry) :
    after.Standing dentry := by
  cases standing with
  | inl answered => exact .inl (onward.answered dentry answered)
  | inr root =>
    have bound : dentry < after.made := by
      have grown := onward.made
      omega
    exact .inr ⟨onward.root dentry root.2 root.1, bound⟩

theorem heldAt (onward : world.Onward after) {dentry : Nat}
    (heldAt : world.HeldAt thread place dentry) : after.HeldAt thread place dentry := by
  obtain answered | ⟨held, placed⟩ := heldAt
  · exact .inl (onward.answered dentry answered)
  · obtain answered | ⟨still, same⟩ := onward.held thread dentry held
    · exact .inl answered
    · exact .inr ⟨still, same.trans placed⟩

theorem askedAt (onward : world.Onward after) {dentry : Nat}
    (askedAt : world.AskedAt thread place dentry) : after.AskedAt thread place dentry := by
  obtain answered | ⟨asking, placed⟩ := askedAt
  · exact .inl (onward.answered dentry answered)
  · obtain answered | ⟨still, same⟩ := onward.asking thread dentry asking
    · exact .inl answered
    · exact .inr ⟨still, same.trans placed⟩

/-- Every walk knows what it knew. -/
theorem knows (onward : world.Onward after) {phase : Phase ν ι}
    (knows : world.Knows thread place phase) : after.Knows thread place phase :=
  knows.carry onward.made onward.answered (fun _ => onward.standing) onward.within
    (fun _ _ => onward.heldAt) fun _ _ => onward.askedAt

end Onward

end World

end Kobako.Dcache
