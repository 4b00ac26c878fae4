import Kobako.Dentries.Placed
import Kobako.Dentries.Calls

/-!
# What a thread counts on

What a call knows of the dentries it holds where it stands, and what of it the steps of the other
threads leave alone: a dentry it holds in lookup stays where it is, and so does every dentry in a
directory it holds exclusive; while it holds `rename_mutex` no dentry leaves its directory.
-/

namespace Kobako.Dentries

open Kobako.Dcache (LookupState Dentry Key)
open Kobako.Locking (Holders)
open Kobako.Overlay (RenameFlag)
open Kobako.Vfs (FsError)

variable {τ ν ι : Type}

/-! ## Locks -/

/-- A thread holds a directory exclusive. -/
def Writes (semaphores : Lock ι → Holders τ) (cache : Cache τ ν ι) (thread : τ) (dir : Nat) :
    Prop :=
  ∃ inode, cache.inode dir = some inode ∧ (semaphores (.inode inode)).writer = some thread

/-- A thread holds a target of its call. -/
def Has (semaphores : Lock ι → Holders τ) (cache : Cache τ ν ι) (thread : τ) (exclusive : Bool) :
    Target → Prop
  | .renameMutex => (semaphores .renameMutex).writer = some thread
  | .dir dir => ∃ inode, cache.inode dir = some inode ∧
      ((exclusive = true ∧ (semaphores (.inode inode)).writer = some thread) ∨
        (exclusive = false ∧ thread ∈ (semaphores (.inode inode)).readers))

/-- What a call has yet to lock where it stands. -/
def Stage.todo : Stage ν ι → List Target
  | .locking todo => todo
  | _ => []

/-- The call is over. -/
def Stage.isOver : Stage ν ι → Bool
  | .ended _ => true
  | _ => false

/-! ## What a call knows -/

section Knows

variable (cache : Cache τ ν ι) (thread : τ) (call : Call ν) (old : Option Nat)

/-- A dentry stands in the directory a name is looked up in, if that is held exclusive. -/
def StandsIn (dentry : Nat) : Prop :=
  call.exclusive = true → cache.parent dentry = some (call.dirAt old)

/-- A dentry `alloc_parallel` gave out. -/
structure InHand (dentry : Nat) : Prop where
  live : cache.live dentry = true
  asked : cache.asked dentry = .answered ∨ (cache.asked dentry).heldFor = some thread
  hung : cache.parent dentry ≠ none
  stands : StandsIn cache call old dentry

/-- No other thread holds a dentry in lookup. -/
def Mine (dentry : Nat) : Prop :=
  (cache.asked dentry).heldFor = none ∨ (cache.asked dentry).heldFor = some thread

/-- What an answer names. -/
def Told (answer : Except FsError Nat) : Prop :=
  ∀ dentry, answer = .ok dentry →
    cache.live dentry = true ∧ (call.opens = false → cache.asked dentry = .answered) ∧
      StandsIn cache call old dentry

/-- Another dentry stands for the directory found. -/
def Alias (other : Nat) : Prop := cache.live other = true ∧ cache.inode other ≠ none

/-- What the lookup of a name knows of the dentries it holds. -/
def Knows : Phase ν → Prop
  | .alloc => True
  | .waiting waited | .comparing waited =>
    cache.live waited = true ∧ cache.parent waited ≠ none ∧ StandsIn cache call old waited
  | .given dentry => InHand cache thread call old dentry
  | .asking ask => InHand cache thread call old ask.dentry
  | .aliased ask other => InHand cache thread call old ask.dentry ∧ Alias cache other
  | .aliasing ask other place =>
    InHand cache thread call old ask.dentry ∧ Alias cache other ∧
      cache.live place.1 = true ∧ cache.inode place.1 ≠ none ∧
      ((cache.asked ask.dentry).heldFor = some thread →
        cache.parent ask.dentry = some place.1) ∧
      (call.exclusive = true → place.1 = call.dirAt old)
  | .ending ask answer =>
    cache.live ask.dentry = true ∧ Mine cache thread ask.dentry ∧ Told cache call old answer
  | .done answer => Told cache call old answer

/-- What the lookup of a name knows. -/
structure Looks (frame : Frame ν ι) : Prop where
  live : cache.live frame.parent = true
  names : cache.inode frame.parent ≠ none
  parent : call.exclusive = true → frame.parent = call.dirAt old
  spelled : ∀ spelled ∈ frame.spelled,
    cache.live spelled.1.dentry = true ∧ Mine cache thread spelled.1.dentry
  knows : Knows cache thread call old frame.phase

/-- A dentry found in a directory that is held exclusive. -/
structure Kept (dir dentry : Nat) : Prop where
  exclusive : call.exclusive = true
  live : cache.live dentry = true
  answered : cache.asked dentry = .answered
  parent : cache.parent dentry = some dir

/-- The directory of a move's source. -/
def Call.oldDir (call : Call ν) : Nat := call.dirAt none

/-- The directory of a move's target. -/
def Call.newDir (call : Call ν) : Nat := call.dirAt (some 0)

/-- A dentry does not stand above the directory on the other side of a move between two. -/
def Clear (dentry dir : Nat) : Prop :=
  call.oldDir ≠ call.newDir → ¬AtOrAbove cache.parent dentry dir

/-- What a call knows where it stands. -/
def StandsAt : Stage ν ι → Prop
  | .locking _ => True
  | .looking old frame =>
    (∀ dentry ∈ old, Kept cache call call.oldDir dentry) ∧ Looks cache thread call old frame
  | .found child => Kept cache call call.oldDir child
  | .paired old new => Kept cache call call.oldDir old ∧ Kept cache call call.newDir new
  | .cleared old new =>
    Kept cache call call.oldDir old ∧ Kept cache call call.newDir new ∧
      Clear cache call old call.newDir
  | .moving old new | .moved old new =>
    Kept cache call call.oldDir old ∧ Kept cache call call.newDir new ∧
      Clear cache call old call.newDir ∧ Clear cache call new call.oldDir
  | .ended _ => True

end Knows

/-- What a thread in a call holds and knows. -/
structure Sound (semaphores : Lock ι → Holders τ) (cache : Cache τ ν ι) (thread : τ)
    (call : Call ν) (stage : Stage ν ι) : Prop where
  dirs : ∀ dir ∈ call.dirs, cache.live dir = true
  locked : stage.isOver = false → ∀ target ∈ call.targets false,
    Has semaphores cache thread call.exclusive target ∨ target ∈ stage.todo
  stands : StandsAt cache thread call stage

/-! ## What the others leave alone -/

/-- What a thread counts on of a step: the dentries it uses stay held, what is settled stays so,
and a dentry leaves only a directory the thread does not hold, and not while it holds
`rename_mutex`. -/
structure Steady (semaphores : Lock ι → Holders τ) (cache next : Cache τ ν ι) (thread : τ)
    (used : List Nat) : Prop where
  live : ∀ dentry ∈ used, cache.live dentry = true → next.live dentry = true
  inode : ∀ dentry, cache.live dentry = true → cache.inode dentry ≠ none →
    next.inode dentry = cache.inode dentry
  answered : ∀ dentry, cache.live dentry = true → cache.asked dentry = .answered →
    next.asked dentry = .answered
  unheld : ∀ dentry, cache.live dentry = true → (cache.asked dentry).heldFor = none →
    (next.asked dentry).heldFor = none
  parent : ∀ dentry, cache.live dentry = true → next.parent dentry = cache.parent dentry ∨
    ∃ upper, cache.parent dentry = some upper ∧ next.parent dentry ≠ none ∧
      ¬Writes semaphores cache thread upper ∧ (semaphores .renameMutex).writer ≠ some thread

/-- What a thread counts on of another's step: the dentries it holds in lookup stay as they are. -/
structure Aloof (semaphores : Lock ι → Holders τ) (cache next : Cache τ ν ι) (thread : τ)
    (used : List Nat) : Prop extends Steady semaphores cache next thread used where
  own : ∀ dentry, cache.live dentry = true → (cache.asked dentry).heldFor = some thread →
    next.asked dentry = cache.asked dentry ∧ next.parent dentry = cache.parent dentry

section Carry

variable {semaphores : Lock ι → Holders τ} {cache next : Cache τ ν ι} {thread : τ}
  {used : List Nat} {call : Call ν} {old : Option Nat} {dentry dir : Nat}

theorem Steady.hung (steady : Steady semaphores cache next thread used)
    (live : cache.live dentry = true) (hung : cache.parent dentry ≠ none) :
    next.parent dentry ≠ none := by
  obtain same | ⟨_, _, still, _⟩ := steady.parent dentry live
  · exact same ▸ hung
  · exact still

/-- A dentry in a directory the thread holds exclusive stays there. -/
theorem Steady.stays (steady : Steady semaphores cache next thread used)
    (live : cache.live dentry = true) (writes : Writes semaphores cache thread dir)
    (stands : cache.parent dentry = some dir) : next.parent dentry = some dir := by
  obtain same | ⟨upper, points, _, free, _⟩ := steady.parent dentry live
  · exact same.trans stands
  · have here : dir = upper := Option.some.inj (stands.symm.trans points)
    exact absurd (here ▸ writes) free

/-- While the thread holds `rename_mutex`, no dentry that is held stands anywhere else. -/
theorem Steady.still (steady : Steady semaphores cache next thread used)
    (mutex : (semaphores .renameMutex).writer = some thread) (live : cache.live dentry = true) :
    next.parent dentry = cache.parent dentry := by
  obtain same | ⟨_, _, _, _, free⟩ := steady.parent dentry live
  · exact same
  · exact absurd mutex free

/-- What stood above a dentry that is held stands there as long as no dentry left its place. -/
theorem atOrAbove_same (shaped : cache.Shaped) (live : cache.live dentry = true)
    (same : ∀ other, cache.live other = true → next.parent other = cache.parent other)
    {ancestor : Nat} (higher : AtOrAbove next.parent ancestor dentry) :
    AtOrAbove cache.parent ancestor dentry := by
  have rooted := shaped.rooted dentry live
  induction rooted with
  | root top =>
    obtain here | higher := higher
    · exact .inl here
    · exact absurd higher (not_above_root ((same _ live).trans top))
  | under points _ ih =>
    obtain here | higher := higher
    · exact .inl here
    · have rest := (above_iff ((same _ live).trans points)).mp higher
      exact .inr ((above_iff points).mpr (ih (shaped.above _ _ live points).1 rest))

/-! ## What a call knows stays true -/

/-- Every directory a name is looked up in is a target of the call. -/
theorem Call.dir_target (call : Call ν) (old : Option Nat) :
    Target.dir (call.dirAt old) ∈ call.targets false := by
  cases call with
  | lookup dir name => simp [dirAt, targets]
  | openLast dir name create => simp [dirAt, targets]
  | change dir name => simp [dirAt, targets]
  | rename oldDir oldName newDir newName flag =>
    by_cases same : oldDir = newDir
    · subst same
      simp [dirAt, targets]
    · cases old with
      | none => simp [dirAt, targets, same]
      | some old => simp [dirAt, targets, same]

/-- So is it a directory of the call. -/
theorem Call.dirAt_mem (call : Call ν) (old : Option Nat) : call.dirAt old ∈ call.dirs := by
  cases call with
  | lookup dir name => simp [dirAt, dirs]
  | openLast dir name create => simp [dirAt, dirs]
  | change dir name => simp [dirAt, dirs]
  | rename oldDir oldName newDir newName flag =>
    cases old with
    | none => simp [dirAt, dirs]
    | some old => simp [dirAt, dirs]

/-- A move between two directories holds `rename_mutex`. -/
theorem Call.mutex_target (call : Call ν) (apart : call.oldDir ≠ call.newDir) :
    Target.renameMutex ∈ call.targets false := by
  cases call with
  | lookup dir name => exact absurd rfl apart
  | openLast dir name create => exact absurd rfl apart
  | change dir name => exact absurd rfl apart
  | rename oldDir oldName newDir newName flag =>
    have apart : oldDir ≠ newDir := apart
    simp [targets, apart]

variable {stage : Stage ν ι}

/-- A call that has nothing left to lock holds what it needs. -/
theorem Sound.has (sound : Sound semaphores cache thread call stage) (going : stage.isOver = false)
    (ready : stage.todo = []) {target : Target} (needs : target ∈ call.targets false) :
    Has semaphores cache thread call.exclusive target := by
  have has := sound.locked going target needs
  rwa [ready, List.mem_nil_iff, or_false] at has

/-- It holds a directory it works in exclusive, if it asks to. -/
theorem Sound.writes (sound : Sound semaphores cache thread call stage)
    (going : stage.isOver = false) (ready : stage.todo = []) (exclusive : call.exclusive = true)
    (old : Option Nat) : Writes semaphores cache thread (call.dirAt old) := by
  obtain ⟨inode, names, ⟨_, writer⟩ | ⟨shared, _⟩⟩ := sound.has going ready (call.dir_target old)
  · exact ⟨inode, names, writer⟩
  · simp [exclusive] at shared

/-- And `rename_mutex`, if it moves between two directories. -/
theorem Sound.mutex (sound : Sound semaphores cache thread call stage)
    (going : stage.isOver = false) (ready : stage.todo = []) (apart : call.oldDir ≠ call.newDir) :
    (semaphores .renameMutex).writer = some thread :=
  sound.has going ready (call.mutex_target apart)

section Facts

variable (steady : Steady semaphores cache next thread used)
  (writes : call.exclusive = true → Writes semaphores cache thread (call.dirAt old))

include steady writes

theorem StandsIn.carry (live : cache.live dentry = true) (stands : StandsIn cache call old dentry) :
    StandsIn next call old dentry :=
  fun exclusive => steady.stays live (writes exclusive) (stands exclusive)

theorem Told.carry {answer : Except FsError Nat} (told : Told cache call old answer)
    (mem : ∀ dentry ∈ answered answer, dentry ∈ used) : Told next call old answer := by
  intro dentry ok
  obtain ⟨live, settled, stands⟩ := told dentry ok
  have within : dentry ∈ used := mem dentry (by simp [ok, answered, Except.toOption])
  exact ⟨steady.live dentry within live,
    fun opens => steady.answered dentry live (settled opens), stands.carry steady writes live⟩

theorem Kept.carry (kept : Kept cache call (call.dirAt old) dentry) (mem : dentry ∈ used) :
    Kept next call (call.dirAt old) dentry where
  exclusive := kept.exclusive
  live := steady.live dentry mem kept.live
  answered := steady.answered dentry kept.live kept.answered
  parent := steady.stays kept.live (writes kept.exclusive) kept.parent

end Facts

theorem Alias.carry (steady : Steady semaphores cache next thread used) (stood : Alias cache dentry)
    (mem : dentry ∈ used) : Alias next dentry :=
  ⟨steady.live dentry mem stood.1,
    (steady.inode dentry stood.1 stood.2).symm ▸ stood.2⟩

section Others

variable (aloof : Aloof semaphores cache next thread used)
  (writes : call.exclusive = true → Writes semaphores cache thread (call.dirAt old))

include aloof writes

theorem InHand.carry (inHand : InHand cache thread call old dentry) (mem : dentry ∈ used) :
    InHand next thread call old dentry where
  live := aloof.live dentry mem inHand.live
  asked := by
    obtain answered | held := inHand.asked
    · exact .inl (aloof.answered dentry inHand.live answered)
    · exact .inr ((aloof.own dentry inHand.live held).1.symm ▸ held)
  hung := aloof.toSteady.hung inHand.live inHand.hung
  stands := inHand.stands.carry aloof.toSteady writes inHand.live

omit writes in
theorem Mine.carry (live : cache.live dentry = true) (mine : Mine cache thread dentry) :
    Mine next thread dentry := by
  obtain unheld | held := mine
  · exact .inl (aloof.unheld dentry live unheld)
  · exact .inr ((aloof.own dentry live held).1.symm ▸ held)

omit writes in
/-- A lookup another thread began in the meantime is not one this thread holds. -/
theorem Aloof.held_before (inHand : InHand cache thread call old dentry)
    (held : (next.asked dentry).heldFor = some thread) :
    (cache.asked dentry).heldFor = some thread := by
  obtain answered | before := inHand.asked
  · rw [aloof.answered dentry inHand.live answered] at held
    simp [LookupState.heldFor] at held
  · exact before

theorem Knows.carry {phase : Phase ν} (knows : Knows cache thread call old phase)
    (mem : ∀ dentry ∈ phase.holds, dentry ∈ used) : Knows next thread call old phase := by
  have steady := aloof.toSteady
  cases phase with
  | alloc => trivial
  | waiting waited | comparing waited =>
    obtain ⟨live, hung, stands⟩ := knows
    exact ⟨steady.live _ (mem _ (by simp [Phase.holds])) live, steady.hung live hung,
      stands.carry steady writes live⟩
  | given dentry => exact InHand.carry aloof writes knows (mem _ (by simp [Phase.holds]))
  | asking ask => exact InHand.carry aloof writes knows (mem _ (by simp [Phase.holds]))
  | aliased ask other =>
    obtain ⟨inHand, stood⟩ := knows
    exact ⟨inHand.carry aloof writes (mem _ (by simp [Phase.holds])),
      stood.carry steady (mem _ (by simp [Phase.holds]))⟩
  | aliasing ask other place =>
    obtain ⟨inHand, stood, live, names, points, stands⟩ := knows
    refine ⟨inHand.carry aloof writes (mem _ (by simp [Phase.holds])),
      stood.carry steady (mem _ (by simp [Phase.holds])),
      steady.live _ (mem _ (by simp [Phase.holds])) live,
      (steady.inode _ live names).symm ▸ names, ?_, stands⟩
    intro held
    have before := aloof.held_before inHand held
    exact (aloof.own _ inHand.live before).2.trans (points before)
  | ending ask answer =>
    obtain ⟨live, mine, told⟩ := knows
    refine ⟨steady.live _ (mem _ (by simp [Phase.holds])) live, mine.carry aloof live, ?_⟩
    exact told.carry steady writes fun dentry named => mem dentry (by simp [Phase.holds, named])
  | done answer => exact Told.carry steady writes knows mem

end Others

/-- Where no dentry leaves its place, a dentry clear of a directory stays so. -/
theorem Clear.carry (shaped : cache.Shaped) (steady : Steady semaphores cache next thread used)
    (mutex : call.oldDir ≠ call.newDir → (semaphores .renameMutex).writer = some thread)
    (live : cache.live dir = true) (clear : Clear cache call dentry dir) :
    Clear next call dentry dir := by
  intro apart higher
  have same : ∀ other, cache.live other = true → next.parent other = cache.parent other :=
    fun other held => steady.still (mutex apart) held
  exact clear apart (atOrAbove_same shaped live same higher)

theorem Has.carry (steady : Steady semaphores cache next thread used) {exclusive : Bool}
    {target : Target} (held : ∀ dir, target = .dir dir → cache.live dir = true)
    (has : Has semaphores cache thread exclusive target) :
    Has semaphores next thread exclusive target := by
  cases target with
  | renameMutex => exact has
  | dir dir =>
    obtain ⟨inode, names, holds⟩ := has
    refine ⟨inode, ?_, holds⟩
    exact (steady.inode dir (held dir rfl) (by simp [names])).trans names

/-- The directories a call locks are those it works in. -/
theorem Call.mem_dirs {newFirst : Bool} (target : Target.dir dir ∈ call.targets newFirst) :
    dir ∈ call.dirs := by
  cases call with
  | lookup at_ name => simpa [dirs, targets] using target
  | openLast at_ name create => simpa [dirs, targets] using target
  | change at_ name => simpa [dirs, targets] using target
  | rename oldDir oldName newDir newName flag =>
    rw [targets] at target
    split at target
    · simp_all [dirs]
    · split at target
      · simp only [List.mem_cons, Target.dir.injEq, reduceCtorEq, List.mem_nil_iff, or_false,
          false_or] at target
        simp [dirs, target.symm]
      · simp only [List.mem_cons, Target.dir.injEq, reduceCtorEq, List.mem_nil_iff, or_false,
          false_or] at target
        simp [dirs, target]

/-- Both orders `lock_rename` takes its locks in take the same. -/
theorem Call.targets_mem (call : Call ν) (newFirst : Bool) (target : Target) :
    target ∈ call.targets newFirst ↔ target ∈ call.targets false := by
  cases call with
  | lookup at_ name => rfl
  | openLast at_ name create => rfl
  | change at_ name => rfl
  | rename oldDir oldName newDir newName flag =>
    by_cases same : oldDir = newDir
    · simp [targets, same]
    · cases newFirst with
      | false => rfl
      | true =>
        simp only [targets, same, if_false, if_true, List.mem_cons, Bool.false_eq_true,
          List.mem_nil_iff, or_false]
        exact or_congr_right or_comm

theorem Looks.carry {frame : Frame ν ι} (aloof : Aloof semaphores cache next thread used)
    (writes : call.exclusive = true → Writes semaphores cache thread (call.dirAt old))
    (looks : Looks cache thread call old frame) (mem : ∀ dentry ∈ frame.holds, dentry ∈ used) :
    Looks next thread call old frame where
  live := aloof.live _ (mem _ (by simp [Frame.holds])) looks.live
  names := (aloof.inode _ looks.live looks.names).symm ▸ looks.names
  parent := looks.parent
  spelled spelled within := by
    obtain ⟨live, mine⟩ := looks.spelled spelled within
    refine ⟨aloof.live _ (mem _ ?_) live, mine.carry aloof live⟩
    have some_ : frame.spelled = some spelled := within
    simp [Frame.holds, some_]
  knows := by
    refine Knows.carry aloof writes looks.knows fun dentry holds => mem dentry ?_
    simp [Frame.holds, holds]

/-- What a thread knows stays true whatever the others do. -/
theorem Sound.carry (shaped : cache.Shaped) (sound : Sound semaphores cache thread call stage)
    (aloof : Aloof semaphores cache next thread (call.dirs ++ stage.holds)) :
    Sound semaphores next thread call stage where
  dirs dir within := aloof.live dir (by simp [within]) (sound.dirs dir within)
  locked going target needs := by
    refine (sound.locked going target needs).imp (fun has => ?_) id
    refine has.carry aloof.toSteady fun dir same => sound.dirs dir ?_
    subst same
    exact Call.mem_dirs needs
  stands := by
    have steady := aloof.toSteady
    have stands := sound.stands
    cases stage with
    | locking todo => trivial
    | looking old frame =>
      obtain ⟨kept, looks⟩ := stands
      refine ⟨fun dentry within => ?_, ?_⟩
      · have some_ : old = some dentry := within
        refine Kept.carry steady (fun exclusive => sound.writes rfl rfl exclusive none)
          (kept dentry within) ?_
        simp [Stage.holds, some_]
      · refine looks.carry aloof (fun exclusive => sound.writes rfl rfl exclusive old) ?_
        intro dentry holds
        simp [Stage.holds, holds]
    | found child =>
      exact Kept.carry steady (fun exclusive => sound.writes rfl rfl exclusive none) stands
        (by simp [Stage.holds])
    | paired old new =>
      obtain ⟨keptOld, keptNew⟩ := stands
      exact ⟨Kept.carry steady (fun exclusive => sound.writes rfl rfl exclusive none) keptOld
          (by simp [Stage.holds]),
        Kept.carry steady (fun exclusive => sound.writes rfl rfl exclusive (some 0)) keptNew
          (by simp [Stage.holds])⟩
    | cleared old new =>
      obtain ⟨keptOld, keptNew, clear⟩ := stands
      exact ⟨Kept.carry steady (fun exclusive => sound.writes rfl rfl exclusive none) keptOld
          (by simp [Stage.holds]),
        Kept.carry steady (fun exclusive => sound.writes rfl rfl exclusive (some 0)) keptNew
          (by simp [Stage.holds]),
        clear.carry shaped steady (sound.mutex rfl rfl) (sound.dirs _ (call.dirAt_mem _))⟩
    | moving old new | moved old new =>
      obtain ⟨keptOld, keptNew, clearOld, clearNew⟩ := stands
      exact ⟨Kept.carry steady (fun exclusive => sound.writes rfl rfl exclusive none) keptOld
          (by simp [Stage.holds]),
        Kept.carry steady (fun exclusive => sound.writes rfl rfl exclusive (some 0)) keptNew
          (by simp [Stage.holds]),
        clearOld.carry shaped steady (sound.mutex rfl rfl) (sound.dirs _ (call.dirAt_mem _)),
        clearNew.carry shaped steady (sound.mutex rfl rfl) (sound.dirs _ (call.dirAt_mem _))⟩
    | ended answer => trivial

end Carry

/-! ## What each operation leaves alone -/

section Operations

variable {semaphores : Lock ι → Holders τ} {cache next : Cache τ ν ι} {thread : τ}
  {used : List Nat} {dentry : Nat}

theorem Aloof.refl (semaphores : Lock ι → Holders τ) (cache : Cache τ ν ι) (thread : τ)
    (used : List Nat) : Aloof semaphores cache cache thread used where
  live _ _ live := live
  inode _ _ _ := rfl
  answered _ _ answered := answered
  unheld _ _ unheld := unheld
  parent _ _ := .inl rfl
  own _ _ _ := ⟨rfl, rfl⟩

variable {state : LookupState τ}

theorem inLookup_of_heldFor_none (free : state.heldFor = none) :
    state.inLookup = false := by
  cases state with
  | unasked => rfl
  | allocated walk => simp [LookupState.heldFor] at free
  | asking walk => simp [LookupState.heldFor] at free
  | answered => rfl

/-- What leaves every dentry at its place and every answer as it is. -/
theorem Cache.Stays.steady (stays : cache.Stays next) (semaphores : Lock ι → Holders τ)
    (thread : τ) (used : List Nat)
    (answered : ∀ other, cache.asked other = .answered → next.asked other = .answered)
    (unheld : ∀ other, (cache.asked other).heldFor = none → (next.asked other).heldFor = none) :
    Steady semaphores cache next thread used where
  live other _ held := by
    rw [stays.live]
    exact held
  inode other _ names := stays.inode other names
  answered other _ settled := answered other settled
  unheld other _ free := unheld other free
  parent other _ := by
    left
    rw [stays.parent]

variable [DecidableEq ν]

theorem Cache.Answers.steady (answers : cache.Answers dentry next)
    (semaphores : Lock ι → Holders τ) (thread : τ) (used : List Nat) :
    Steady semaphores cache next thread used := by
  refine answers.toStays.steady semaphores thread used (fun other settled => ?_)
    (fun other free => ?_)
  · rw [answers.asked]
    split
    · rfl
    · exact settled
  · rw [answers.asked]
    split
    · rfl
    · exact free

/-- An answer is recorded on no dentry another thread holds in lookup. -/
theorem Cache.Answers.aloof (answers : cache.Answers dentry next)
    (semaphores : Lock ι → Holders τ) (used : List Nat)
    (other : (cache.asked dentry).heldFor ≠ some thread) :
    Aloof semaphores cache next thread used where
  toSteady := answers.steady semaphores thread used
  own lower _ held := by
    have apart : lower ≠ dentry := fun same => other (same ▸ held)
    rw [answers.asked, if_neg apart, answers.parent]
    exact ⟨rfl, rfl⟩

omit [DecidableEq ν] in
theorem Cache.Turns.steady (turns : cache.Turns dentry state next)
    (within : (cache.asked dentry).inLookup = true) (semaphores : Lock ι → Holders τ) (thread : τ)
    (used : List Nat) : Steady semaphores cache next thread used := by
  refine turns.toStays.steady semaphores thread used (fun other settled => ?_)
    (fun other free => ?_)
  · have apart : other ≠ dentry := by
      intro same
      subst same
      simp [settled, LookupState.inLookup] at within
    rw [turns.asked, if_neg apart]
    exact settled
  · have apart : other ≠ dentry := by
      intro same
      subst same
      exact absurd within (by simp [inLookup_of_heldFor_none free])
    rw [turns.asked, if_neg apart]
    exact free

omit [DecidableEq ν] in
theorem Cache.Turns.aloof (turns : cache.Turns dentry state next)
    (within : (cache.asked dentry).inLookup = true) (semaphores : Lock ι → Holders τ)
    (used : List Nat) (other : (cache.asked dentry).heldFor ≠ some thread) :
    Aloof semaphores cache next thread used where
  toSteady := turns.steady within semaphores thread used
  own lower _ held := by
    have apart : lower ≠ dentry := fun same => other (same ▸ held)
    rw [turns.asked, if_neg apart, turns.parent]
    exact ⟨rfl, rfl⟩

theorem Cache.unhash_aloof (semaphores : Lock ι → Holders τ) (cache : Cache τ ν ι) (dentry : Nat)
    (thread : τ) (used : List Nat) :
    Aloof semaphores cache (cache.unhash dentry) thread used := by
  have unhashes := cache.unhash_unhashes dentry
  exact {
    toSteady := unhashes.toStays.steady semaphores thread used
      (fun other settled => unhashes.asked ▸ settled) (fun other free => unhashes.asked ▸ free)
    own := fun other _ _ => by
      rw [unhashes.asked, unhashes.parent]
      exact ⟨rfl, rfl⟩ }

theorem Cache.make_aloof (semaphores : Lock ι → Holders τ) (shaped : cache.Shaped) (maker : τ)
    (place : Nat × ν) (address : Nat) (thread : τ) (used : List Nat) :
    Aloof semaphores cache (cache.make maker place address) thread used := by
  have old : ∀ other, cache.live other = true → other ≠ cache.made :=
    fun other held => Nat.ne_of_lt (shaped.bound other held)
  have parent : ∀ other, cache.live other = true →
      (cache.make maker place address).parent other = cache.parent other := by
    intro other held
    rw [Cache.parent, (make_old (old other held)).1, Cache.parent]
  have asked : ∀ other, cache.live other = true →
      (cache.make maker place address).asked other = cache.asked other := by
    intro other held
    rw [Cache.asked, (make_old (old other held)).1, Cache.asked]
  exact {
    live := by
      intro other _ held
      rw [(make_old (old other held)).2.1]
      exact held
    inode := by
      intro other held _
      rw [Cache.inode, (make_old (old other held)).1, Cache.inode]
    answered := fun other held settled => (asked other held).trans settled
    unheld := fun other held free => (asked other held).symm ▸ free
    parent := fun other held => .inl (parent other held)
    own := fun other held _ => ⟨asked other held, parent other held⟩ }

/-- A move out of a directory the thread does not hold, or within one, is steady for it. -/
theorem Cache.moveTo_steady (semaphores : Lock ι → Holders τ) (cache : Cache τ ν ι)
    {moved : Nat} {place : Nat × ν} (thread : τ) (used : List Nat)
    (free : cache.parent moved = some place.1 ∨ ∃ upper, cache.parent moved = some upper ∧
      ¬Writes semaphores cache thread upper ∧ (semaphores .renameMutex).writer ≠ some thread) :
    Steady semaphores cache (cache.moveTo moved place) thread used := by
  have rehangs := cache.moveTo_rehangs moved place
  exact {
    live := fun other _ held => rehangs.live ▸ held
    inode := fun other _ _ => by rw [rehangs.inode]
    answered := fun other _ settled => rehangs.asked ▸ settled
    unheld := fun other _ free => rehangs.asked ▸ free
    parent := by
      intro other held
      rw [cache.moveTo_parent]
      by_cases same : other = moved
      · subst same
        rw [Function.update_self]
        obtain here | ⟨upper, points, unheld⟩ := free
        · exact .inl here.symm
        · exact .inr ⟨upper, points, by simp, unheld⟩
      · exact .inl (Function.update_of_ne same _ _) }

/-- A dentry in lookup is not moved. -/
theorem Cache.moveTo_aloof (semaphores : Lock ι → Holders τ) (cache : Cache τ ν ι)
    {moved : Nat} {place : Nat × ν} (thread : τ) (used : List Nat)
    (free : cache.parent moved = some place.1 ∨ ∃ upper, cache.parent moved = some upper ∧
      ¬Writes semaphores cache thread upper ∧ (semaphores .renameMutex).writer ≠ some thread)
    (answered : cache.asked moved = .answered) :
    Aloof semaphores cache (cache.moveTo moved place) thread used where
  toSteady := cache.moveTo_steady semaphores thread used free
  own other _ held := by
    have apart : other ≠ moved := by
      intro same
      subst same
      simp [answered, LookupState.heldFor] at held
    rw [Cache.asked, Cache.parent, moveTo_other apart]
    exact ⟨rfl, rfl⟩

/-- An exchange within a directory, or between two the thread does not hold. -/
theorem Cache.exchange_aloof (semaphores : Lock ι → Holders τ) (cache : Cache τ ν ι)
    {first second upperFirst upperSecond : Nat} (thread : τ) (used : List Nat)
    (apart : first ≠ second) (answeredFirst : cache.asked first = .answered)
    (answeredSecond : cache.asked second = .answered)
    (pointsFirst : cache.parent first = some upperFirst)
    (pointsSecond : cache.parent second = some upperSecond)
    (free : upperFirst = upperSecond ∨ (¬Writes semaphores cache thread upperFirst ∧
      ¬Writes semaphores cache thread upperSecond ∧
      (semaphores .renameMutex).writer ≠ some thread)) :
    Aloof semaphores cache (cache.exchange first second) thread used := by
  have rehangs := exchange_rehangs cache apart
  exact {
    live := fun other _ held => rehangs.live ▸ held
    inode := fun other _ _ => by rw [rehangs.inode]
    answered := fun other _ settled => rehangs.asked ▸ settled
    unheld := fun other _ free => rehangs.asked ▸ free
    parent := by
      intro other held
      by_cases one : other = first
      · rw [one, Cache.parent, exchange_first apart, pointsFirst, pointsSecond]
        obtain same | ⟨free, _, mutex⟩ := free
        · exact .inl (congrArg some same.symm)
        · exact .inr ⟨upperFirst, rfl, by simp, free, mutex⟩
      · by_cases two : other = second
        · rw [two, Cache.parent, exchange_second, pointsFirst, pointsSecond]
          obtain same | ⟨_, free, mutex⟩ := free
          · exact .inl (congrArg some same)
          · exact .inr ⟨upperSecond, rfl, by simp, free, mutex⟩
        · left
          rw [Cache.parent, exchange_other one two, Cache.parent]
    own := by
      intro other _ held
      have one : other ≠ first := by
        intro same
        subst same
        simp [answeredFirst, LookupState.heldFor] at held
      have two : other ≠ second := by
        intro same
        subst same
        simp [answeredSecond, LookupState.heldFor] at held
      rw [Cache.asked, Cache.parent, exchange_other one two]
      exact ⟨rfl, rfl⟩ }

omit [DecidableEq ν] in
theorem Cache.drop_aloof (semaphores : Lock ι → Holders τ) (cache : Cache τ ν ι) (thread : τ)
    (used : List Nat) (unused : dentry ∉ used) :
    Aloof semaphores cache (cache.drop dentry) thread used where
  live other within held := by
    have apart : other ≠ dentry := fun same => unused (same ▸ within)
    exact (drop_kept apart).trans held
  inode _ _ _ := rfl
  answered _ _ settled := settled
  unheld _ _ free := free
  parent _ _ := .inl rfl
  own _ _ _ := ⟨rfl, rfl⟩

end Operations

end Kobako.Dentries
