import Kobako.Dentries.Turns
import Kobako.Run

/-!
# The dentries form a forest

Lookups, changes and moves of every thread, one step after another. What each thread knows of its
own step, and what it leaves to the others, keep every dentry beneath a root.
-/

namespace Kobako.Dentries

open Kobako.Dcache (LookupState Dentry Key)
open Kobako.Locking (Holders)
open Kobako.Overlay (RenameFlag)
open Kobako.Vfs (FsError)

variable {τ ν ι : Type}

/-! ## Every thread -/

/-- What holds of every state: the dentries are in order, and every thread knows what it needs. -/
structure State.Orderly (state : State τ ν ι) : Prop where
  placed : state.cache.Placed
  sound : ∀ thread call stage, state.calls thread = some (call, stage) →
    Sound state.semaphores state.cache thread call stage

section Step

variable {state after : State τ ν ι} {thread : τ} {call : Call ν} {stage next : Stage ν ι}
  {semaphores held : Lock ι → Holders τ} {cache : Cache τ ν ι}

/-- A thread at its next stage, the others left alone. -/
theorem State.Orderly.goOn [DecidableEq τ] (orderly : state.Orderly) (placed : cache.Placed)
    (aloof : ∀ other, other ≠ thread →
      Aloof state.semaphores state.cache cache other (state.holds other))
    (sound : Sound state.semaphores cache thread call next) :
    (state.goOn thread cache call next).Orderly where
  placed := placed
  sound other called stood stands := by
    by_cases same : other = thread
    · subst same
      have told : some (call, next) = some (called, stood) := by
        simpa [State.goOn] using stands
      cases told
      exact sound
    · have before : state.calls other = some (called, stood) := by
        simpa [State.goOn, same] using stands
      refine (orderly.sound other called stood before).carry orderly.placed.shaped ?_
      have leaves := aloof other same
      rwa [State.holds, before] at leaves

/-- A thread at its next stage, no dentry changed. -/
theorem State.Orderly.turnTo [DecidableEq τ] (orderly : state.Orderly)
    (sound : Sound state.semaphores state.cache thread call next) :
    (state.goOn thread state.cache call next).Orderly :=
  orderly.goOn orderly.placed (fun other _ => Aloof.refl _ _ other _) sound

/-- A call that is over needs nothing more of its locks. -/
theorem Sound.ended (sound : Sound semaphores cache thread call stage)
    (answer : Except FsError Nat) :
    Sound semaphores cache thread call (.ended answer) :=
  ⟨sound.dirs, fun going => (by cases going), trivial⟩

/-- A call whose locks are held goes on with what it knows. -/
theorem Sound.onward (sound : Sound semaphores cache thread call stage)
    (going : stage.isOver = false) (ready : stage.todo = [])
    (stands : StandsAt cache thread call next) : Sound semaphores cache thread call next where
  dirs := sound.dirs
  locked _ _ needs := .inl (sound.has going ready needs)
  stands := stands

variable {target : Target} {old new : Nat}

/-- What a thread holds it holds still once another hold is granted. -/
theorem Has.granted [DecidableEq ι] {lock : Lock ι} {holders : Holders τ} {exclusive wanted : Bool}
    {taker : τ} (grants : (semaphores lock).Grants wanted taker holders)
    (has : Has semaphores cache thread exclusive target) :
    Has (Function.update semaphores lock holders) cache thread exclusive target := by
  obtain ⟨unwritten, granted⟩ := grants
  have writer : ∀ other, (semaphores other).writer = some thread →
      (Function.update semaphores lock holders other).writer = some thread := by
    intro other writes
    have apart : other ≠ lock := by
      intro same
      subst same
      simp [unwritten] at writes
    rw [Function.update_of_ne apart]
    exact writes
  have reader : ∀ other, thread ∈ (semaphores other).readers →
      thread ∈ (Function.update semaphores lock holders other).readers := by
    intro other reads
    by_cases same : other = lock
    · subst same
      rw [Function.update_self]
      obtain ⟨_, none_, _⟩ | ⟨_, shared⟩ := granted
      · simp [none_] at reads
      · simp [shared, reads]
    · rw [Function.update_of_ne same]
      exact reads
  cases target with
  | renameMutex => exact writer _ has
  | dir dir =>
    obtain ⟨inode, names, holds⟩ := has
    refine ⟨inode, names, holds.imp (fun writes => ⟨writes.1, writer _ writes.2⟩)
      (fun reads => ⟨reads.1, reader _ reads.2⟩)⟩

/-- A target is held once its semaphore is granted. -/
theorem Has.taken [DecidableEq ι] {lock : Lock ι} {holders : Holders τ} {exclusive : Bool}
    (grants : (semaphores lock).Grants exclusive thread holders)
    (locked : State.lockOf cache target = some lock)
    (mutex : target = .renameMutex → exclusive = true) :
    Has (Function.update semaphores lock holders) cache thread exclusive target := by
  obtain ⟨_, granted⟩ := grants
  cases target with
  | renameMutex =>
    have same : Lock.renameMutex = lock := Option.some.inj locked
    subst same
    obtain ⟨_, _, written⟩ | ⟨shared, _⟩ := granted
    · simp [Has, written]
    · simp [mutex rfl] at shared
  | dir dir =>
    obtain ⟨inode, names, same⟩ := Option.map_eq_some_iff.mp locked
    subst same
    refine ⟨inode, names, ?_⟩
    rw [Function.update_self]
    obtain ⟨wanted, _, written⟩ | ⟨shared, reads⟩ := granted
    · exact .inl ⟨wanted, by simp [written]⟩
    · exact .inr ⟨shared, by simp [reads]⟩

/-- Only a move holds `rename_mutex`, and exclusive. -/
theorem Call.mutex_exclusive (call : Call ν) (target : Target.renameMutex ∈ call.targets false) :
    call.exclusive = true := by
  cases call with
  | lookup dir name => simp [targets] at target
  | openLast dir name create => simp [targets] at target
  | change dir name => rfl
  | rename oldDir oldName newDir newName flag => rfl

/-- What a thread holds it holds still once another let its locks go. -/
theorem Has.without [DecidableEq τ] {leaver : τ} (apart : thread ≠ leaver) {exclusive : Bool}
    (has : Has semaphores cache thread exclusive target) :
    Has (fun lock => without leaver (semaphores lock)) cache thread exclusive target := by
  have writer : ∀ lock, (semaphores lock).writer = some thread →
      (Dentries.without leaver (semaphores lock)).writer = some thread := by
    intro lock writes
    simp [Dentries.without, writes, apart]
  cases target with
  | renameMutex => exact writer _ has
  | dir dir =>
    obtain ⟨inode, names, holds⟩ := has
    refine ⟨inode, names, holds.imp (fun writes => ⟨writes.1, writer _ writes.2⟩)
      (fun reads => ⟨reads.1, ?_⟩)⟩
    simp [Dentries.without, reads.2, apart]

/-- What a call knows does not depend on the locks it holds once they are told. -/
theorem Sound.relock (sound : Sound semaphores cache thread call stage)
    (has : ∀ target, Has semaphores cache thread call.exclusive target →
      Has held cache thread call.exclusive target) :
    Sound held cache thread call stage :=
  ⟨sound.dirs, fun going target needs => (sound.locked going target needs).imp (has target) id,
    sound.stands⟩

section

variable (orderly : state.Orderly)

include orderly

theorem State.Orderly.lock [DecidableEq τ] [DecidableEq ι] {target : Target} {todo : List Target}
    {lock : Lock ι} {held : Holders τ}
    (stood : state.calls thread = some (call, .locking (target :: todo)))
    (locks : lockOf state.cache target = some lock)
    (granted : (state.semaphores lock).take call.exclusive thread = .ok (true, held)) :
    State.Orderly { state.goOn thread state.cache call (.locking todo) with
      semaphores := Function.update state.semaphores lock held } := by
  have sound := orderly.sound thread call _ stood
  have grants := (Holders.take_granted granted).1
  refine ⟨orderly.placed, fun other called stage stands => ?_⟩
  by_cases same : other = thread
  · subst same
    have told : some (call, Stage.locking todo) = some (called, stage) := by
      simpa [State.goOn] using stands
    cases told
    refine ⟨sound.dirs, fun _ wanted needs => ?_, trivial⟩
    obtain has | owed := sound.locked rfl wanted needs
    · exact .inl (has.granted grants)
    · obtain here | later := List.mem_cons.mp owed
      · subst here
        exact .inl (Has.taken grants locks fun mutex => call.mutex_exclusive (mutex ▸ needs))
      · exact .inr later
  · have before : state.calls other = some (called, stage) := by
      simpa [State.goOn, same] using stands
    exact (orderly.sound other called stage before).relock fun _ has => has.granted grants

theorem State.Orderly.enter [DecidableEq τ]
    (stood : state.calls thread = some (call, .locking [])) :
    (state.goOn thread state.cache call (.looking none (call.frame none))).Orderly := by
  have sound := orderly.sound thread call _ stood
  have dir := call.dirAt_mem none
  refine orderly.turnTo (sound.onward rfl rfl ⟨fun _ none_ => (by cases none_), ?_⟩)
  exact {
    live := sound.dirs _ dir
    names := by
      obtain ⟨inode, names, _⟩ := sound.has rfl rfl (call.dir_target none)
      simp [Call.frame, names]
    parent := fun _ => rfl
    spelled := fun _ none_ => by cases none_
    knows := trivial }

omit orderly in
theorem State.Orderly.turn [DecidableEq τ] [DecidableEq ν] [DecidableEq ι] (isDir : ι → Bool)
    (orderly : state.Orderly) {old : Option Nat} {frame : Frame ν ι} {act : Act ν ι}
    {told : Cache τ ν ι × Frame ν ι} (stood : state.calls thread = some (call, .looking old frame))
    (still : StillThere state.cache (frame.splices act))
    (taken : Dentries.turn isDir state.semaphores thread call.opens state.cache frame act =
      some told) :
    (state.goOn thread told.1 call (.looking old told.2)).Orderly := by
  have sound := orderly.sound thread call _ stood
  obtain ⟨kept, looks⟩ := sound.stands
  have turned := turn_turned isDir orderly.placed looks still taken
  refine orderly.goOn turned.placed (fun other apart => turned.aloof other _ apart) ?_
  have steady := turned.steady (call.dirs ++ old.toList)
  exact {
    dirs := fun dir within => steady.live dir (by simp [within]) (sound.dirs dir within)
    locked := by
      intro going target needs
      left
      refine (sound.has rfl rfl needs).carry steady fun dir same => sound.dirs dir ?_
      subst same
      exact Call.mem_dirs needs
    stands := by
      refine ⟨fun dentry within => ?_, turned.looks⟩
      have found : old = some dentry := within
      exact Kept.carry steady (fun exclusive => sound.writes rfl rfl exclusive none)
        (kept dentry within) (by simp [found]) }

/-- Where a call goes on with what its lookup found. -/
theorem State.Orderly.answer [DecidableEq τ] {old : Option Nat} {parent : Nat} {name : ν}
    {found : Except FsError Nat}
    (stood : state.calls thread = some (call, .looking old ⟨parent, name, none, .done found⟩)) :
    (state.goOn thread state.cache call (call.next state.cache old found)).Orderly := by
  have sound := orderly.sound thread call _ stood
  obtain ⟨kept, looks⟩ := sound.stands
  have told : Told state.cache call old found := looks.knows
  refine orderly.turnTo ?_
  cases found with
  | error e => exact sound.ended _
  | ok child =>
    obtain ⟨live, answered, stands⟩ := told child rfl
    cases call with
    | lookup dir named => exact sound.ended _
    | openLast dir named create => exact sound.ended _
    | change dir named => exact sound.onward rfl rfl ⟨rfl, live, answered rfl, stands rfl⟩
    | rename oldDir oldName newDir newName flag =>
      have keptChild : Kept state.cache (.rename oldDir oldName newDir newName flag)
          (Call.dirAt old (.rename oldDir oldName newDir newName flag)) child :=
        ⟨rfl, live, answered rfl, stands rfl⟩
      cases old with
      | none =>
        rw [Call.next]
        split
        · exact sound.ended _
        · refine sound.onward rfl rfl ⟨fun dentry within => ?_, ?_⟩
          · have same : child = dentry := Option.some.inj within
            exact same ▸ keptChild
          · exact {
              live := sound.dirs _ (Call.dirAt_mem _ (some child))
              names := by
                obtain ⟨inode, names, _⟩ := sound.has rfl rfl (Call.dir_target _ (some child))
                simp [Call.frame, names]
              parent := fun _ => rfl
              spelled := fun _ none_ => by cases none_
              knows := trivial }
      | some old => exact sound.onward rfl rfl ⟨kept old rfl, keptChild⟩

omit orderly in
theorem State.Orderly.record [DecidableEq τ] [DecidableEq ν] [DecidableEq ι] (isDir : ι → Bool)
    (orderly : state.Orderly) {child : Nat} {inode : Option ι}
    (stood : state.calls thread = some (call, .found child)) :
    (state.goOn thread (state.cache.add isDir child inode) call (.found child)).Orderly := by
  have sound := orderly.sound thread call _ stood
  have kept : Kept state.cache call call.oldDir child := sound.stands
  have answers := state.cache.add_answers isDir child inode
  have unheld : ∀ walker, (state.cache.asked child).heldFor ≠ some walker := by
    intro walker
    simp [kept.answered, LookupState.heldFor]
  refine orderly.goOn (answers.placed orderly.placed kept.live (by simp [kept.parent]))
    (fun other _ => answers.aloof _ _ (unheld other)) ?_
  exact sound.carry orderly.placed.shaped (answers.aloof _ _ (unheld thread))

omit orderly in
/-- An answer of `is_subdir`. -/
theorem isSubdir_iff {rounds dentry ancestor : Nat} {answer : Bool}
    (ended : cache.isSubdir rounds dentry ancestor = some answer) :
    answer = true ↔ AtOrAbove cache.parent ancestor dentry := by
  unfold Cache.isSubdir at ended
  split at ended
  · rename_i same
    have found : true = answer := Option.some.inj ended
    simp [← found, AtOrAbove, same]
  · rename_i apart
    rw [ancestorWithin_iff ended, AtOrAbove, or_iff_right apart]

omit orderly in
theorem not_atOrAbove {rounds walker target : Nat}
    (searched : cache.isSubdir rounds walker target = some false) :
    ¬AtOrAbove cache.parent target walker := by
  intro higher
  have found := (isSubdir_iff searched).mpr higher
  simp at found

omit orderly in
/-- A directory one thread holds exclusive no other does. -/
theorem Writes.unique {walker other : τ} {dir : Nat} (writes : Writes semaphores cache walker dir)
    (apart : other ≠ walker) : ¬Writes semaphores cache other dir := by
  intro others
  obtain ⟨inode, names, writer⟩ := writes
  obtain ⟨entry, named, written⟩ := others
  have same : inode = entry := Option.some.inj (names.symm.trans named)
  subst same
  exact apart (Option.some.inj (written.symm.trans writer))

/-- A move leaves the other threads alone. -/
theorem State.Orderly.move_aloof [DecidableEq ν]
    (stood : state.calls thread = some (call, .moved old new)) {other : τ} (apart : other ≠ thread)
    {used : List Nat} :
    Aloof state.semaphores state.cache
      (state.cache.moveTo old (state.cache.parentAndName new)) other used := by
  have sound := orderly.sound thread call _ stood
  obtain ⟨keptOld, keptNew, _⟩ := sound.stands
  have place : (state.cache.parentAndName new).1 = call.newDir := by
    simp [Cache.parentAndName, keptNew.parent]
  have writes := sound.writes rfl rfl keptOld.exclusive none
  refine Cache.moveTo_aloof _ _ other _ ?_ keptOld.answered
  rw [place, keptOld.parent]
  by_cases same : call.oldDir = call.newDir
  · exact .inl (congrArg some same)
  · refine .inr ⟨call.oldDir, rfl, writes.unique apart, ?_⟩
    rw [sound.mutex rfl rfl same]
    exact fun both => apart (Option.some.inj both).symm

theorem State.Orderly.move [DecidableEq τ] [DecidableEq ν]
    (stood : state.calls thread = some (call, .moved old new)) :
    (state.goOn thread (state.cache.moveTo old (state.cache.parentAndName new)) call
      (.ended (.ok old))).Orderly := by
  have sound := orderly.sound thread call _ stood
  obtain ⟨keptOld, keptNew, clearOld, _⟩ := sound.stands
  have place : (state.cache.parentAndName new).1 = call.newDir := by
    simp [Cache.parentAndName, keptNew.parent]
  obtain ⟨live, names⟩ := orderly.placed.shaped.above new call.newDir keptNew.live keptNew.parent
  refine orderly.goOn ?_ (fun other apart => ?_) ⟨?_, fun going => (by cases going), trivial⟩
  · refine Cache.moveTo_placed orderly.placed keptOld.live keptOld.answered
      (by simp [keptOld.parent]) (place ▸ live) (place ▸ names) ?_
    rw [place, keptOld.parent]
    by_cases same : call.oldDir = call.newDir
    · exact .inl (congrArg some same)
    · exact .inr (clearOld same)
  · exact orderly.move_aloof stood apart
  · intro dir within
    exact sound.dirs dir within

/-- So does an exchange. -/
theorem State.Orderly.exchange_aloof [DecidableEq ν]
    (stood : state.calls thread = some (call, .moving old new)) (apart : old ≠ new) {other : τ}
    (others : other ≠ thread) {used : List Nat} :
    Aloof state.semaphores state.cache (state.cache.exchange old new) other used := by
  have sound := orderly.sound thread call _ stood
  obtain ⟨keptOld, keptNew, _⟩ := sound.stands
  have writesOld := sound.writes rfl rfl keptOld.exclusive none
  have writesNew := sound.writes rfl rfl keptOld.exclusive (some 0)
  refine Cache.exchange_aloof _ _ other _ apart keptOld.answered keptNew.answered
    keptOld.parent keptNew.parent ?_
  by_cases same : call.oldDir = call.newDir
  · exact .inl same
  · refine .inr ⟨writesOld.unique others, writesNew.unique others, ?_⟩
    rw [sound.mutex rfl rfl same]
    exact fun both => others (Option.some.inj both).symm

theorem State.Orderly.exchange [DecidableEq τ] [DecidableEq ν]
    (stood : state.calls thread = some (call, .moving old new)) (apart : old ≠ new) :
    (state.goOn thread (state.cache.exchange old new) call (.ended (.ok old))).Orderly := by
  have sound := orderly.sound thread call _ stood
  obtain ⟨keptOld, keptNew, clearOld, clearNew⟩ := sound.stands
  refine orderly.goOn ?_ (fun other others => ?_) ⟨?_, fun going => (by cases going), trivial⟩
  · refine Cache.exchange_placed orderly.placed apart keptOld.live keptNew.live keptOld.answered
      keptNew.answered keptOld.parent keptNew.parent ?_
    by_cases same : call.oldDir = call.newDir
    · exact .inl same
    · exact .inr ⟨clearOld same, clearNew same⟩
  · exact orderly.exchange_aloof stood apart others
  · intro dir within
    exact sound.dirs dir within

theorem State.Orderly.unhashNew [DecidableEq τ] [DecidableEq ν]
    (stood : state.calls thread = some (call, .moving old new)) :
    (state.goOn thread (state.cache.unhash new) call (.moved old new)).Orderly := by
  have sound := orderly.sound thread call _ stood
  refine orderly.goOn (Cache.unhash_placed orderly.placed new)
    (fun other _ => Cache.unhash_aloof _ _ new other _) ?_
  have after := sound.carry orderly.placed.shaped (Cache.unhash_aloof _ _ new thread _)
  exact after.onward rfl rfl after.stands

theorem State.Orderly.leave [DecidableEq τ] :
    State.Orderly { state with
      semaphores := fun lock => without thread (state.semaphores lock)
      calls := Function.update state.calls thread none } where
  placed := orderly.placed
  sound other called stood stands := by
    by_cases same : other = thread
    · simp [same] at stands
    · have before : state.calls other = some (called, stood) := by simpa [same] using stands
      exact (orderly.sound other called stood before).relock fun _ has => has.without same

/-- What no thread's step but the cache's own holders do. -/
theorem State.Orderly.beneath (placed : cache.Placed)
    (aloof : ∀ walker, Aloof state.semaphores state.cache cache walker (state.holds walker)) :
    State.Orderly { state with cache := cache } where
  placed := placed
  sound walker called stood stands := by
    refine (orderly.sound walker called stood stands).carry orderly.placed.shaped ?_
    have leaves := aloof walker
    have before : state.calls walker = some (called, stood) := stands
    rwa [State.holds, before] at leaves

end

end Step

/-! ## Every run -/

/-- The dentry whose name a step moves a directory's dentry to, and the directory it read. -/
def State.splices (state : State τ ν ι) : Event τ ν ι → Option (Nat × Nat)
  | .turn thread act =>
    match state.calls thread with
    | some (_, .looking _ frame) => frame.splices act
    | _ => none
  | _ => none

/-- A directory's dentry is moved to the name of a dentry still where it stood. -/
def State.SplicesInPlace (state : State τ ν ι) (event : Event τ ν ι) : Prop :=
  StillThere state.cache (state.splices event)

variable [DecidableEq τ] [DecidableEq ν] [DecidableEq ι]

instance (state : State τ ν ι) (event : Event τ ν ι) : Decidable (state.SplicesInPlace event) :=
  inferInstanceAs (Decidable (StillThere _ _))

theorem State.Orderly.step [Fintype τ] (isDir : ι → Bool) {state next : State τ ν ι}
    {event : Event τ ν ι} (orderly : state.Orderly) (splices : state.SplicesInPlace event)
    (taken : state.step isDir event = some next) : next.Orderly := by
  cases State.steps_of_step taken with
  | start idle live =>
    refine orderly.turnTo ⟨live, fun _ target needs => .inr ?_, trivial⟩
    exact (Call.targets_mem _ _ target).mpr needs
  | lock stood locks granted =>
    exact orderly.lock stood locks granted
  | enter stood => exact orderly.enter stood
  | turn stood turned =>
    simp only [State.SplicesInPlace, State.splices, stood] at splices
    exact orderly.turn isDir stood splices turned
  | answer stood => exact orderly.answer stood
  | record stood => exact orderly.record isDir stood
  | clear stood searched =>
    have sound := orderly.sound _ _ _ stood
    obtain ⟨keptOld, keptNew⟩ := sound.stands
    exact orderly.turnTo (sound.onward rfl rfl ⟨keptOld, keptNew, fun _ => not_atOrAbove searched⟩)
  | check stood searched =>
    have sound := orderly.sound _ _ _ stood
    obtain ⟨keptOld, keptNew, clear⟩ := sound.stands
    exact orderly.turnTo
      (sound.onward rfl rfl ⟨keptOld, keptNew, clear, fun _ => not_atOrAbove searched⟩)
  | unhashNew stood => exact orderly.unhashNew stood
  | move stood => exact orderly.move stood
  | exchange stood apart => exact orderly.exchange stood apart
  | ends stood => exact orderly.turnTo ((orderly.sound _ _ _ stood).ended _)
  | leave stood => exact orderly.leave
  | @unhash dentry live =>
    exact orderly.beneath (Cache.unhash_placed orderly.placed dentry)
      fun walker => Cache.unhash_aloof _ _ dentry walker _
  | drop childless free =>
    exact orderly.beneath (Cache.drop_placed orderly.placed childless)
      fun walker => Cache.drop_aloof _ _ walker _ (free walker)

omit [DecidableEq τ] [DecidableEq ν] in
theorem Cache.start_placed (unnamed : ν) (root : ι) :
    (Cache.start unnamed root : Cache τ ν ι).Placed := by
  have only : ∀ dentry, (Cache.start unnamed root : Cache τ ν ι).live dentry = true →
      dentry = 0 := by
    intro dentry live
    simpa [Cache.start] using live
  exact {
    numbered := {
      hashed := by
        intro place dentry stands
        cases stands
      sought := by
        intro place dentry stands
        cases stands
      standing := by
        intro inode dentry stands
        simp only [Cache.start, Function.update_apply] at stands
        split at stands
        · have same : 0 = dentry := Option.some.inj stands
          exact same ▸ Nat.zero_lt_one
        · cases stands }
    shaped := {
      bound := by
        intro dentry live
        rw [only dentry live]
        exact Nat.zero_lt_one
      distinct := fun one two liveOne liveTwo _ =>
        (only one liveOne).trans (only two liveTwo).symm
      above := by
        intro dentry upper _ points
        cases points
      rooted := fun dentry _ => .root rfl }
    hashes := {
      own := by
        intro place dentry stands
        cases stands
      settled := by
        intro dentry _ hashed
        cases hashed }
    sought := {
      within := by
        intro place dentry stands
        cases stands
      entered := by
        intro dentry _ within
        cases within
      named := fun dentry _ _ => .inr rfl
      held := by
        intro inode dentry _ _ unnamed
        cases unnamed } }

omit [DecidableEq τ] [DecidableEq ν] in
theorem State.start_orderly (unnamed : ν) (root : ι) :
    (State.start unnamed root : State τ ν ι).Orderly where
  placed := Cache.start_placed unnamed root
  sound thread call stage stands := by cases stands

/-- Following `parent` from a dentry that is held ends at a root and turns back on nobody, so that
the loops of `names`, `d_ancestor` and `is_subdir` end. -/
structure Cache.Forest (cache : Cache τ ν ι) : Prop where
  rooted : ∀ dentry, cache.live dentry = true → Rooted cache.parent dentry
  acyclic : ∀ dentry, cache.live dentry = true → ¬Above cache.parent dentry dentry
  names : ∀ dentry, cache.live dentry = true →
    ∃ rounds, ∀ more, rounds ≤ more → (cache.names more dentry).isSome = true
  dAncestor : ∀ ancestor dentry, cache.live dentry = true →
    ∃ rounds, ∀ more, rounds ≤ more → (cache.dAncestor more ancestor dentry).isSome = true
  isSubdir : ∀ ancestor dentry, cache.live dentry = true →
    ∃ rounds, ∀ more, rounds ≤ more → (cache.isSubdir more dentry ancestor).isSome = true

omit [DecidableEq τ] [DecidableEq ν] [DecidableEq ι] in
theorem Cache.Shaped.forest {cache : Cache τ ν ι} (shaped : cache.Shaped) : cache.Forest where
  rooted := shaped.rooted
  acyclic dentry live := (shaped.rooted dentry live).irrefl
  names dentry live := by
    obtain ⟨rounds, ends⟩ := (shaped.rooted dentry live).climb_ends cache.name
    refine ⟨rounds, fun more enough => ?_⟩
    rw [Cache.names, Option.isSome_map]
    exact ends more enough
  dAncestor ancestor dentry live := (shaped.rooted dentry live).search_ends ancestor
  isSubdir ancestor dentry live := by
    obtain ⟨rounds, ends⟩ := (shaped.rooted dentry live).search_ends ancestor
    refine ⟨rounds, fun more enough => ?_⟩
    rw [Cache.isSubdir]
    split
    · rfl
    · exact ends more enough

/-- A move that would put a dentry beneath itself changes no dentry and is refused. -/
structure State.RefusesCycles [Fintype τ] (isDir : ι → Bool) (state : State τ ν ι) : Prop where
  unalias : ∀ thread call old frame ask other place rounds next,
    state.calls thread = some (call, .looking old frame) →
    frame.phase = .aliasing ask other place → Above state.cache.parent other ask.dentry →
    state.step isDir (.turn thread (.unalias rounds)) = some next →
    next = state.goOn thread state.cache call
      (.looking old (frame.at (.ending ask (.error .filesystemLoop))))
  rename : ∀ thread oldDir oldName newDir newName flag old new rounds next,
    state.calls thread = some (.rename oldDir oldName newDir newName flag, .paired old new) →
    flagRefuses flag state.cache new = none → AtOrAbove state.cache.parent old newDir →
    state.step isDir (.check thread rounds) = some next →
    next = state.goOn thread state.cache (.rename oldDir oldName newDir newName flag)
      (.ended (.error .invalidInput))
  exchange : ∀ thread oldDir oldName newDir newName old new rounds next,
    state.calls thread =
      some (.rename oldDir oldName newDir newName (some .exchange), .cleared old new) →
    AtOrAbove state.cache.parent new oldDir →
    state.step isDir (.check thread rounds) = some next →
    next = state.goOn thread state.cache
      (.rename oldDir oldName newDir newName (some .exchange)) (.ended (.error .invalidInput))

theorem State.refusesCycles [Fintype τ] (isDir : ι → Bool) (state : State τ ν ι) :
    state.RefusesCycles isDir where
  unalias thread call old frame ask other place rounds next stood phase above taken := by
    simp only [State.step, stood, turn, phase] at taken
    obtain ⟨told, turned, same⟩ := Option.map_eq_some_iff.mp taken
    obtain ⟨out, unaliased, paired⟩ := Option.map_eq_some_iff.mp turned
    unfold Dentries.unalias at unaliased
    split at unaliased
    · cases unaliased
    · rename_i beneath searched
      rw [if_pos (.inl ((ancestorWithin_iff searched).mpr above))] at unaliased
      cases unaliased
      rw [← same, ← paired]
  rename thread oldDir oldName newDir newName flag old new rounds next stood allowed above taken := by
    simp only [State.step, State.check, stood, allowed] at taken
    split at taken
    · cases taken
    · exact (Option.some.inj taken).symm
    · rename_i searched
      have found := (isSubdir_iff searched).mpr above
      simp at found
  exchange thread oldDir oldName newDir newName old new rounds next stood above taken := by
    simp only [State.step, State.check, stood] at taken
    split at taken
    · cases taken
    · exact (Option.some.inj taken).symm
    · rename_i searched
      have found := (isSubdir_iff searched).mpr above
      simp at found

/-- In every run of lookups, changes and moves in which a directory's dentry is moved only to the
name of a dentry that still stands where it stood when the name was read, the dentries form a
forest, and a move that would put one beneath itself is refused. -/
theorem dentries_form_a_forest [Fintype τ] (isDir : ι → Bool) (unnamed : ν) (root : ι)
    (events : List (Event τ ν ι)) (state : State τ ν ι)
    (ran : run (State.step isDir) (State.start unnamed root) events = some state)
    (along : Along (State.step isDir) State.SplicesInPlace (State.start unnamed root) events) :
    state.cache.Forest ∧ state.RefusesCycles isDir := by
  have orderly : state.Orderly :=
    run_preserves_along (State.step isDir)
      (fun _ _ _ orderly splices taken => State.Orderly.step isDir orderly splices taken)
      events _ state (State.start_orderly unnamed root) along ran
  exact ⟨orderly.placed.shaped.forest, state.refusesCycles isDir⟩

/-- Two opens of `n` in `p`, which stands in `a`, race a walk that finds nothing there, so that each
asks about the dentry again. One hears of a directory new at `n`; the other hears of `a` and reads
where to put it. Before it does, a walk finds the new directory at `m` in `q` and takes the dentry
there. -/
def cycle : List (Event (Fin 3) String Nat) :=
  List.flatten
    [looksUp 0 0 "a" 1 [.found 1], looksUp 0 1 "p" 2 [.found 2], looksUp 0 0 "q" 3 [.found 3],
      [.start 0 (.openLast 2 "n" false) false, .start 1 (.openLast 2 "n" false) false],
      looksUp 2 2 "n" 4 [.absent],
      [.lock 0, .enter 0, .turn 0 (.alloc 0), .turn 0 .begin, .lock 1, .enter 1,
        .turn 1 (.alloc 0), .turn 1 .begin, .turn 1 (.found 4), .turn 1 .finish, .answer 1,
        .leave 1, .turn 0 (.found 1), .turn 0 .read],
      [.start 2 (.lookup 3 "m") false, .lock 2, .enter 2, .turn 2 (.alloc 5), .turn 2 .begin,
        .turn 2 (.found 4), .turn 2 .read, .turn 2 (.unalias 5), .turn 0 (.unalias 5)]]

/-- The dentry of `a` ends up beneath `p`, which stands in it. -/
theorem dentries_form_a_cycle :
    ¬∀ (events : List (Event (Fin 3) String Nat)) (state : State (Fin 3) String Nat),
      run (State.step fun _ => true) (State.start "" 0) events = some state →
      state.cache.Forest := by
  intro forest
  have parents : (run (State.step fun _ => true) (State.start "" 0) cycle).map
      (fun state => (state.cache.live 1, state.cache.parent 1, state.cache.parent 2)) =
      some (true, some 2, some 1) := by decide +kernel
  obtain ⟨state, ran, told⟩ := Option.map_eq_some_iff.mp parents
  simp only [Prod.mk.injEq] at told
  refine (forest cycle state ran).acyclic 1 told.1 ?_
  exact (above_iff told.2.1).mpr (.inr ((above_iff told.2.2).mpr (.inl rfl)))

/-- A walk that finds the directory of `a` at `b`, `b` being in lookup, and moves its dentry. -/
def splice : List (Event Unit String Nat) :=
  List.flatten [looksUp () 0 "a" 1 [.found 1], looksUp () 0 "b" 2 [.found 1, .read, .unalias 3]]

theorem dentries_form_a_forest_spliced :
    ∃ state : State Unit String Nat,
      run (State.step fun _ => true) (State.start "" 0) splice = some state ∧
      state.cache.parentAndName 1 = (0, "b") ∧ state.cache.Forest ∧
      state.RefusesCycles fun _ => true := by
  have moved : (run (State.step fun _ => true) (State.start "" 0) splice).map
      (fun state => state.cache.parentAndName 1) = some (0, "b") := by decide +kernel
  obtain ⟨state, ran, told⟩ := Option.map_eq_some_iff.mp moved
  exact ⟨state, ran, told,
    dentries_form_a_forest (fun _ => true) "" 0 splice state ran (by decide +kernel)⟩

end Kobako.Dentries
