import Kobako.Dentries.Forest
import Kobako.Dentries.Tables

/-!
# What a thread counts on of the tables

No dentry is hashed at the name of one a thread holds in lookup, and at the name of one in a
directory it holds exclusive only that one is: another thread enters a dentry only at a name it
looks up itself, or in a directory it holds exclusive.
-/

namespace Kobako.Dentries

open Kobako.Dcache (LookupState Dentry Key)
open Kobako.Locking (Holders)
open Kobako.Vfs (FsError)

variable {τ ν ι : Type}

/-- The dentries a lookup has begun to ask about, or is about to. -/
def Phase.asks : Phase ν → List Nat
  | .given dentry => [dentry]
  | .asking ask | .aliased ask _ | .aliasing ask _ _ | .ending ask _ => [ask.dentry]
  | .alloc | .waiting _ | .comparing _ | .done _ => []

/-- The dentry an answer names, once there is one. -/
def Phase.result : Phase ν → Option Nat
  | .ending _ answer | .done answer => answer.toOption
  | _ => none

/-- Those of the lookup of a name and of the one it was called from. -/
def Frame.asks (frame : Frame ν ι) : List Nat :=
  frame.phase.asks ++ (frame.spelled.map fun spelled => spelled.1.dentry).toList

/-- The dentry the lookup that called this one asks about. -/
def Frame.Outer (frame : Frame ν ι) (dentry : Nat) : Prop :=
  ∃ spelled ∈ frame.spelled, spelled.1.dentry = dentry

section Sees

variable (cache : Cache τ ν ι) (thread : τ) (call : Call ν) (old : Option Nat)

/-- Nothing is hashed at the name of a dentry in lookup, and nothing else at that of one in a
directory held exclusive. -/
structure Vacant (dentry : Nat) : Prop where
  free : (cache.asked dentry).heldFor = some thread →
    cache.Lone (fun _ => False) (cache.key dentry)
  only : call.exclusive = true → cache.Lone (· = dentry) (cache.key dentry)

/-- An ask that does not end the lookup is of a dentry answered for, or of the outer lookup's. -/
def Ends (frame : Frame ν ι) (ask : Ask) : Prop :=
  ask.ends = false → cache.asked ask.dentry = .answered ∨ frame.Outer ask.dentry

/-- Nothing else is hashed at the name of what was found, in a directory held exclusive. -/
def Sole (answer : Except FsError Nat) : Prop :=
  call.exclusive = true → ∀ dentry, answer = .ok dentry →
    cache.Lone (· = dentry) (cache.key dentry)

/-- What a lookup knows of the tables. -/
def Sees (frame : Frame ν ι) : Phase ν → Prop
  | .alloc | .waiting _ | .comparing _ => True
  | .given dentry =>
    Vacant cache thread call dentry ∧
      (cache.asked dentry = .asking thread → frame.Outer dentry)
  | .asking ask | .aliased ask _ => Vacant cache thread call ask.dentry ∧ Ends cache frame ask
  | .aliasing ask _ place =>
    Vacant cache thread call ask.dentry ∧ Ends cache frame ask ∧
      ((cache.asked ask.dentry).heldFor = some thread ∨ call.exclusive = true →
        cache.parentAndName ask.dentry = place)
  | .ending ask answer => Ends cache frame ask ∧ Sole cache call answer
  | .done answer => Sole cache call answer

/-- What the lookup of a name knows of the tables, `outer` being what the lookup it was called from
still needs. -/
structure Sighted (frame : Frame ν ι) : Prop where
  parent : frame.parent = call.dirAt old
  outer : ∀ spelled ∈ frame.spelled, spelled.1.ends = false →
    cache.asked spelled.1.dentry = .answered
  free : frame.phase.result = none → ∀ spelled ∈ frame.spelled,
    (cache.asked spelled.1.dentry).heldFor = some thread →
      cache.Lone (fun _ => False) (cache.key spelled.1.dentry)
  sees : Sees cache thread call frame frame.phase

/-- What a call knows of the tables where it stands. -/
def SeesAt : Stage ν ι → Prop
  | .locking _ => True
  | .looking old frame =>
    (∀ dentry ∈ old, call.opens = false ∧
        cache.Lone (fun other => other = dentry ∨ other ∈ frame.phase.result)
          (cache.key dentry)) ∧ Sighted cache thread call old frame
  | .found child => cache.Lone (· = child) (cache.key child)
  | .paired old new | .cleared old new | .moving old new =>
    cache.Lone (· = new) (cache.key new) ∧
      cache.Lone (fun other => other = old ∨ other = new) (cache.key old)
  | .moved old new => cache.Lone (· = old) (cache.key new)
  | .ended _ => True

end Sees

/-! ## What the others leave alone -/

/-- A dentry whose name a thread counts on: one it holds in lookup, or one in a directory it holds
exclusive. -/
def Guarded (semaphores : Lock ι → Holders τ) (cache : Cache τ ν ι) (thread : τ) (dentry : Nat) :
    Prop :=
  (cache.asked dentry).heldFor = some thread ∨
    ∃ upper, cache.parent dentry = some upper ∧ Writes semaphores cache thread upper

/-- What a thread counts on of another's step: a dentry it guards stands where it stood, nothing is
entered there, and it is given no dentry in lookup. -/
structure Shy (semaphores : Lock ι → Holders τ) (cache next : Cache τ ν ι) (thread : τ) :
    Prop where
  place : ∀ dentry, cache.live dentry = true → Guarded semaphores cache thread dentry →
    next.parentAndName dentry = cache.parentAndName dentry
  keyed : ∀ dentry, cache.live dentry = true → Guarded semaphores cache thread dentry →
    next.key dentry = cache.key dentry
  lone : ∀ dentry allowed, cache.live dentry = true → Guarded semaphores cache thread dentry →
    cache.Lone allowed (cache.key dentry) → next.Lone allowed (cache.key dentry)
  held : ∀ dentry, next.live dentry = true → (next.asked dentry).heldFor = some thread →
    cache.live dentry = true ∧ (cache.asked dentry).heldFor = some thread ∧
      next.parent dentry = cache.parent dentry

section Carry

variable {semaphores : Lock ι → Holders τ} {cache next : Cache τ ν ι} {thread : τ}
  {used : List Nat} {call : Call ν} {old : Option Nat} {dentry dir : Nat}

theorem Shy.loneAt (shy : Shy semaphores cache next thread) {allowed : Nat → Prop}
    (live : cache.live dentry = true) (guarded : Guarded semaphores cache thread dentry)
    (lone : cache.Lone allowed (cache.key dentry)) : next.Lone allowed (next.key dentry) := by
  rw [shy.keyed dentry live guarded]
  exact shy.lone dentry allowed live guarded lone

/-- A dentry in a directory held exclusive is guarded. -/
theorem Kept.guarded (kept : Kept cache call dir dentry)
    (writes : Writes semaphores cache thread dir) : Guarded semaphores cache thread dentry :=
  .inr ⟨dir, kept.parent, writes⟩

/-- So is one a lookup knows to stand there. -/
theorem StandsIn.guarded (stands : StandsIn cache call old dentry)
    (writes : call.exclusive = true → Writes semaphores cache thread (call.dirAt old))
    (exclusive : call.exclusive = true) : Guarded semaphores cache thread dentry :=
  .inr ⟨_, stands exclusive, writes exclusive⟩

section Facts

variable (shy : Shy semaphores cache next thread) (aloof : Aloof semaphores cache next thread used)
  (writes : call.exclusive = true → Writes semaphores cache thread (call.dirAt old))

include shy aloof writes

theorem Vacant.carry (inHand : InHand cache thread call old dentry)
    (vacant : Vacant cache thread call dentry) : Vacant next thread call dentry where
  free held := by
    have before := aloof.held_before inHand held
    exact shy.loneAt inHand.live (.inl before) (vacant.free before)
  only exclusive :=
    shy.loneAt inHand.live (inHand.stands.guarded writes exclusive) (vacant.only exclusive)

omit shy writes in
theorem Ends.carry {frame : Frame ν ι} {ask : Ask} (live : cache.live ask.dentry = true)
    (ends : Ends cache frame ask) : Ends next frame ask :=
  fun within => (ends within).imp (aloof.answered ask.dentry live) id

omit aloof in
theorem Sole.carry {answer : Except FsError Nat} (told : Told cache call old answer)
    (sole : Sole cache call answer) : Sole next call answer := by
  intro exclusive dentry ok
  obtain ⟨live, _, stands⟩ := told dentry ok
  exact shy.loneAt live (stands.guarded writes exclusive) (sole exclusive dentry ok)

theorem Sees.carry {frame : Frame ν ι} {phase : Phase ν} (knows : Knows cache thread call old phase)
    (sees : Sees cache thread call frame phase) : Sees next thread call frame phase := by
  cases phase with
  | alloc => trivial
  | waiting waited => trivial
  | comparing waited => trivial
  | given dentry =>
    obtain ⟨vacant, outer⟩ := sees
    have inHand : InHand cache thread call old dentry := knows
    refine ⟨vacant.carry shy aloof writes inHand, fun asking => ?_⟩
    have held : (next.asked dentry).heldFor = some thread := by rw [asking]; rfl
    have before := aloof.held_before inHand held
    exact outer ((aloof.own dentry inHand.live before).1.symm.trans asking)
  | asking ask =>
    have inHand : InHand cache thread call old ask.dentry := knows
    exact ⟨sees.1.carry shy aloof writes inHand, sees.2.carry aloof inHand.live⟩
  | aliased ask other =>
    obtain ⟨inHand, _⟩ := knows
    exact ⟨sees.1.carry shy aloof writes inHand, sees.2.carry aloof inHand.live⟩
  | aliasing ask other place =>
    obtain ⟨inHand, _⟩ := knows
    obtain ⟨vacant, ends, stands⟩ := sees
    refine ⟨vacant.carry shy aloof writes inHand, ends.carry aloof inHand.live, ?_⟩
    intro counted
    have guarded : Guarded semaphores cache thread ask.dentry ∧
        cache.parentAndName ask.dentry = place := by
      obtain held | exclusive := counted
      · have before := aloof.held_before inHand held
        exact ⟨.inl before, stands (.inl before)⟩
      · exact ⟨inHand.stands.guarded writes exclusive, stands (.inr exclusive)⟩
    exact (shy.place _ inHand.live guarded.1).trans guarded.2
  | ending ask answer =>
    obtain ⟨live, _, told⟩ := knows
    exact ⟨sees.1.carry aloof live, sees.2.carry shy writes told⟩
  | done answer => exact Sole.carry shy writes knows sees

theorem Sighted.carry {frame : Frame ν ι} (looks : Looks cache thread call old frame)
    (sighted : Sighted cache thread call old frame) : Sighted next thread call old frame where
  parent := sighted.parent
  outer spelled within ends :=
    aloof.answered _ (looks.spelled spelled within).1 (sighted.outer spelled within ends)
  free unrecorded spelled within held := by
    obtain ⟨live, mine⟩ := looks.spelled spelled within
    have before : (cache.asked spelled.1.dentry).heldFor = some thread := by
      obtain unheld | before := mine
      · simp [aloof.unheld _ live unheld] at held
      · exact before
    exact shy.loneAt live (.inl before) (sighted.free unrecorded spelled within before)
  sees := Sees.carry shy aloof writes looks.knows sighted.sees

end Facts

/-- What a thread knows of the tables stays true whatever the others do. -/
theorem SeesAt.carry {stage : Stage ν ι} (shy : Shy semaphores cache next thread)
    (aloof : Aloof semaphores cache next thread used)
    (sound : Sound semaphores cache thread call stage) (sees : SeesAt cache thread call stage) :
    SeesAt next thread call stage := by
  have stands := sound.stands
  cases stage with
  | locking todo => trivial
  | looking old frame =>
    obtain ⟨kept, looks⟩ := stands
    obtain ⟨lone, sighted⟩ := sees
    refine ⟨fun dentry within => ?_, ?_⟩
    · have found := kept dentry within
      have writes := sound.writes rfl rfl found.exclusive none
      obtain ⟨shut, lone⟩ := lone dentry within
      exact ⟨shut, shy.loneAt found.live (found.guarded writes) lone⟩
    · exact Sighted.carry shy aloof (fun exclusive => sound.writes rfl rfl exclusive old) looks
        sighted
  | found child =>
    have found : Kept cache call call.oldDir child := stands
    exact shy.loneAt found.live
      (found.guarded (sound.writes rfl rfl found.exclusive none)) sees
  | paired old new =>
    obtain ⟨keptOld, keptNew⟩ := stands
    exact ⟨shy.loneAt keptNew.live
        (keptNew.guarded (sound.writes rfl rfl keptNew.exclusive (some 0))) sees.1,
      shy.loneAt keptOld.live
        (keptOld.guarded (sound.writes rfl rfl keptOld.exclusive none)) sees.2⟩
  | cleared old new | moving old new =>
    obtain ⟨keptOld, keptNew, _⟩ := stands
    exact ⟨shy.loneAt keptNew.live
        (keptNew.guarded (sound.writes rfl rfl keptNew.exclusive (some 0))) sees.1,
      shy.loneAt keptOld.live
        (keptOld.guarded (sound.writes rfl rfl keptOld.exclusive none)) sees.2⟩
  | moved old new =>
    obtain ⟨_, keptNew, _⟩ := stands
    exact shy.loneAt keptNew.live
      (keptNew.guarded (sound.writes rfl rfl keptNew.exclusive (some 0))) sees
  | ended answer => trivial

end Carry

end Kobako.Dentries
