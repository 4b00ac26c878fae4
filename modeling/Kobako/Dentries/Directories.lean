import Kobako.Dentries.Placed
import Kobako.Dentries.Calls
import Kobako.Run

/-!
# A directory stands at one dentry

The dentry an inode keeps is the only one that is held and records it, as long as the Filesystem
records no directory on a dentry while another stands for it. What a lookup finds at another name
is left to the dentry it has, which is moved there or not.
-/

namespace Kobako.Dentries

open Kobako.Dcache (LookupState Dentry Key)
open Kobako.Vfs (FsError)

variable {τ ν ι : Type} [DecidableEq ν]

/-- Every directory's dentry that is held is the one its inode keeps. -/
def Cache.KeptByInode (isDir : ι → Bool) (cache : Cache τ ν ι) : Prop :=
  ∀ dentry inode, cache.live dentry = true → cache.inode dentry = some inode →
    isDir inode = true → cache.inodeDentry inode = some dentry

/-- No dentry that is held records more than it did. -/
structure Cache.RecordsNothing (cache next : Cache τ ν ι) : Prop where
  kept : next.inodeDentry = cache.inodeDentry
  inode : ∀ dentry inode, next.live dentry = true → next.inode dentry = some inode →
    cache.live dentry = true ∧ cache.inode dentry = some inode

section Keeps

variable {isDir : ι → Bool} {cache next : Cache τ ν ι} {dentry : Nat}

omit [DecidableEq ν] in
theorem Cache.RecordsNothing.keptByInode (nothing : cache.RecordsNothing next)
    (kept : cache.KeptByInode isDir) : next.KeptByInode isDir := by
  intro other inode live names directory
  obtain ⟨held, named⟩ := nothing.inode other inode live names
  rw [nothing.kept]
  exact kept other inode held named directory

omit [DecidableEq ν] in
theorem Cache.RecordsNothing.refl (cache : Cache τ ν ι) : cache.RecordsNothing cache :=
  ⟨rfl, fun _ _ live names => ⟨live, names⟩⟩

omit [DecidableEq ν] in
/-- What leaves the inodes and the holders as they are. -/
theorem Cache.RecordsNothing.of_same (kept : next.inodeDentry = cache.inodeDentry)
    (live : next.live = cache.live) (inode : next.inode = cache.inode) :
    cache.RecordsNothing next := by
  refine ⟨kept, fun other entry held names => ?_⟩
  rw [live] at held
  rw [inode] at names
  exact ⟨held, names⟩

theorem Cache.rehash_recordsNothing (cache : Cache τ ν ι) (dentry : Nat) :
    cache.RecordsNothing (cache.rehash dentry) := by
  refine .of_same rfl rfl ?_
  funext other
  by_cases same : other = dentry
  · simp [Cache.inode, rehash, set, same]
  · simp [Cache.inode, rehash, set, same]

omit [DecidableEq ν] in
theorem Cache.beginAsk_recordsNothing (cache : Cache τ ν ι) (dentry : Nat) (thread : τ) :
    cache.RecordsNothing (cache.beginAsk dentry thread) :=
  .of_same rfl rfl (cache.beginAsk_turns dentry thread).inodes

theorem Cache.lookupDone_recordsNothing (cache : Cache τ ν ι) (dentry : Nat) :
    cache.RecordsNothing (cache.lookupDone dentry) := by
  by_cases within : (cache.asked dentry).inLookup = true
  · have turns := lookupDone_turns within
    exact .of_same turns.held turns.live turns.inodes
  · rw [lookupDone, if_neg within]
    exact .refl cache

theorem Cache.unhash_recordsNothing (cache : Cache τ ν ι) (dentry : Nat) :
    cache.RecordsNothing (cache.unhash dentry) := by
  have unhashes := cache.unhash_unhashes dentry
  exact .of_same unhashes.held unhashes.live unhashes.inodes

theorem Cache.moveTo_recordsNothing (cache : Cache τ ν ι) (dentry : Nat) (place : Nat × ν) :
    cache.RecordsNothing (cache.moveTo dentry place) := by
  have rehangs := cache.moveTo_rehangs dentry place
  exact .of_same rehangs.held rehangs.live rehangs.inode

theorem Cache.make_recordsNothing (cache : Cache τ ν ι) (thread : τ) (place : Nat × ν)
    (address : Nat) : cache.RecordsNothing (cache.make thread place address) := by
  refine ⟨rfl, fun other inode held names => ?_⟩
  obtain new | ⟨old, held⟩ := make_live held
  · rw [new, Cache.inode, make_new.1] at names
    cases names
  · rw [Cache.inode, (make_old old).1] at names
    exact ⟨held, names⟩

omit [DecidableEq ν] in
theorem Cache.drop_recordsNothing (cache : Cache τ ν ι) (dentry : Nat) :
    cache.RecordsNothing (cache.drop dentry) :=
  ⟨rfl, fun _ _ held names => ⟨(drop_live held).2, names⟩⟩

omit [DecidableEq ν] in
/-- An inode recorded on a dentry, no other dentry standing for a directory. -/
theorem Cache.instantiate_keptByInode [DecidableEq ι] {inode : ι} (kept : cache.KeptByInode isDir)
    (alone : isDir inode = true → cache.inode dentry = none →
      cache.findAlias inode dentry = none) :
    (cache.instantiate isDir dentry inode).KeptByInode isDir := by
  unfold instantiate
  split
  · exact kept
  · rename_i unnamed
    intro other entry held names directory
    by_cases same : other = dentry
    · subst same
      have found : inode = entry := by simpa [Cache.inode, set] using names
      subst found
      simp [directory]
    · have named : cache.inode other = some entry := by
        simpa [Cache.inode, set, same] using names
      have before := kept other entry held named directory
      have apart : entry ≠ inode := by
        intro found
        subst found
        have stands : cache.findAlias entry dentry = some other := by
          have live : cache.live other = true := held
          rw [findAlias, upgrade_eq_some.mpr ⟨before, live⟩]
          simp [same]
        simp [alone directory unnamed] at stands
      dsimp only
      split
      · rw [Function.update_of_ne apart]
        exact before
      · exact before

theorem Cache.add_keptByInode [DecidableEq ι] {inode : Option ι} (kept : cache.KeptByInode isDir)
    (alone : ∀ entry ∈ inode, isDir entry = true → cache.inode dentry = none →
      cache.findAlias entry dentry = none) :
    (cache.add isDir dentry inode).KeptByInode isDir := by
  cases inode with
  | none => exact (cache.rehash_recordsNothing dentry).keptByInode kept
  | some inode =>
    have recorded := instantiate_keptByInode kept (alone inode rfl)
    exact ((cache.instantiate isDir dentry inode).rehash_recordsNothing dentry).keptByInode
      recorded

end Keeps

/-! ## Every step -/

variable [DecidableEq τ] [DecidableEq ι]

/-- The dentry `atomic_open` records an inode on itself, and that inode. -/
def Frame.adds (frame : Frame ν ι) : Act ν ι → Option (Nat × ι)
  | .add (some inode) =>
    match frame.phase with
    | .asking ask => some (ask.dentry, inode)
    | _ => none
  | _ => none

/-- The dentry a Filesystem records an inode on itself, and that inode. -/
def State.adds (state : State τ ν ι) : Event τ ν ι → Option (Nat × ι)
  | .turn thread act =>
    match state.calls thread with
    | some (_, .looking _ frame) => frame.adds act
    | _ => none
  | .record thread (some inode) =>
    match state.calls thread with
    | some (_, .found child) => some (child, inode)
    | _ => none
  | _ => none

/-- A directory is recorded on a dentry only where no other stands for it. -/
def Cache.Alone (isDir : ι → Bool) (cache : Cache τ ν ι) (added : Option (Nat × ι)) : Prop :=
  ∀ entry ∈ added, isDir entry.2 = true → cache.inode entry.1 = none →
    cache.findAlias entry.2 entry.1 = none

instance (isDir : ι → Bool) (cache : Cache τ ν ι) (added : Option (Nat × ι)) :
    Decidable (cache.Alone isDir added) :=
  inferInstanceAs (Decidable (∀ entry ∈ added, _))

/-- What a Filesystem records itself it records only where no other dentry stands for it. -/
def State.AddsAlone (isDir : ι → Bool) (state : State τ ν ι) (event : Event τ ν ι) : Prop :=
  state.cache.Alone isDir (state.adds event)

instance (isDir : ι → Bool) (state : State τ ν ι) (event : Event τ ν ι) :
    Decidable (state.AddsAlone isDir event) :=
  inferInstanceAs (Decidable (Cache.Alone _ _ _))

section Turn

variable {isDir : ι → Bool} {semaphores : Lock ι → Locking.Holders τ} {cache : Cache τ ν ι}
  {thread : τ} {opens : Bool} {frame : Frame ν ι} {told : Cache τ ν ι × Frame ν ι}

omit [DecidableEq τ] [DecidableEq ι] in
theorem allocTurn_recordsNothing {address : Nat}
    (taken : allocTurn thread cache frame address = some told) : cache.RecordsNothing told.1 := by
  unfold allocTurn at taken
  split at taken
  · cases taken
    exact .refl cache
  · split at taken
    · cases taken
      exact .refl cache
    · split at taken
      · cases taken
        exact cache.make_recordsNothing thread frame.place address
      · cases taken

omit [DecidableEq ι] in
theorem awake_recordsNothing {waited : Nat} (taken : awake thread cache frame waited = some told) :
    cache.RecordsNothing told.1 := by
  unfold awake at taken
  split at taken
  · split at taken
    · cases taken
      exact .refl cache
    · cases taken
  · cases taken
    exact .refl cache

omit [DecidableEq ν] [DecidableEq ι] in
theorem beginLookup_recordsNothing {dentry : Nat}
    (taken : beginLookup thread opens cache frame dentry = some told) :
    cache.RecordsNothing told.1 := by
  unfold beginLookup at taken
  split at taken
  · split at taken
    · cases taken
      exact .refl cache
    · cases taken
  · split at taken
    · cases taken
      exact cache.beginAsk_recordsNothing dentry thread
    · cases taken
  · cases taken
    exact cache.beginAsk_recordsNothing dentry thread
  · split at taken
    · cases taken
      exact .refl cache
    · cases taken
      exact .refl cache

omit [DecidableEq τ] [DecidableEq ι] in
/-- `unalias` moves the dentry there is, or fails and changes nothing. -/
theorem unalias_cases {rounds dentry other : Nat} {place : Nat × ν}
    {out : Cache τ ν ι × Except FsError Nat}
    (taken : unalias semaphores thread cache rounds dentry other place = some out) :
    out = (cache.moveTo other place, .ok other) ∨ ∃ e, out = (cache, .error e) := by
  unfold unalias at taken
  split at taken
  · cases taken
  · split at taken
    · exact .inr ⟨_, (Option.some.inj taken).symm⟩
    · split at taken
      · exact .inl (Option.some.inj taken).symm
      · exact .inr ⟨_, (Option.some.inj taken).symm⟩

omit [DecidableEq τ] in
/-- What a lookup finds it records where no other dentry stands for it. -/
theorem found_keptByInode (kept : cache.KeptByInode isDir) (inode : ι) (dentry : Nat) :
    (cache.findAliasOrAdd isDir inode dentry).1.KeptByInode isDir := by
  unfold Cache.findAliasOrAdd
  split
  · exact kept
  · rename_i alone
    dsimp only
    refine Cache.add_keptByInode kept fun entry named _ _ => ?_
    have same : inode = entry := Option.some.inj named
    exact same ▸ alone

theorem turn_keptByInode {act : Act ν ι} (kept : cache.KeptByInode isDir)
    (alone : cache.Alone isDir (frame.adds act))
    (taken : turn isDir semaphores thread opens cache frame act = some told) :
    told.1.KeptByInode isDir := by
  cases turns_of_turn taken with
  | alloc _ went => exact (allocTurn_recordsNothing went).keptByInode kept
  | awake _ went => exact (awake_recordsNothing went).keptByInode kept
  | stale => exact (cache.unhash_recordsNothing _).keptByInode kept
  | begin _ went => exact (beginLookup_recordsNothing went).keptByInode kept
  | absent => exact (cache.rehash_recordsNothing _).keptByInode kept
  | @found ask inode _ _ went =>
    have found := found_keptByInode kept inode ask.dentry
    rwa [went] at found
  | @aliased ask inode _ _ _ went =>
    have found := found_keptByInode kept inode ask.dentry
    rwa [went] at found
  | @add ask inode phase =>
    refine Cache.add_keptByInode kept fun entry named => alone (ask.dentry, entry) ?_
    have recorded : inode = some entry := named
    simp [Frame.adds, recorded, phase]
  | @unalias _ other place _ _ _ went =>
    obtain moved | ⟨e, failed⟩ := unalias_cases went
    · rw [moved]
      exact (cache.moveTo_recordsNothing other place).keptByInode kept
    · rw [failed]
      exact kept
  | finish =>
    dsimp only
    split
    · exact (cache.lookupDone_recordsNothing _).keptByInode kept
    · exact kept
  -- the others change no dentry
  | _ => exact kept

end Turn

section Step

variable [Fintype τ] {isDir : ι → Bool} {state next : State τ ν ι}

theorem State.step_keptByInode {event : Event τ ν ι} (kept : state.cache.KeptByInode isDir)
    (alone : state.AddsAlone isDir event) (taken : state.step isDir event = some next) :
    next.cache.KeptByInode isDir := by
  cases State.steps_of_step taken with
  | turn stood turned =>
    simp only [State.AddsAlone, State.adds, stood] at alone
    exact turn_keptByInode kept alone turned
  | @record thread inode call child stood =>
    refine Cache.add_keptByInode kept fun entry named => alone (child, entry) ?_
    have recorded : inode = some entry := named
    simp [State.adds, recorded, stood]
  | unhashNew stood => exact (state.cache.unhash_recordsNothing _).keptByInode kept
  | move stood => exact (state.cache.moveTo_recordsNothing _ _).keptByInode kept
  | exchange stood apart =>
    have rehangs := Cache.exchange_rehangs state.cache apart
    exact (Cache.RecordsNothing.of_same rehangs.held rehangs.live rehangs.inode).keptByInode kept
  | unhash live => exact (state.cache.unhash_recordsNothing _).keptByInode kept
  | drop childless free => exact (state.cache.drop_recordsNothing _).keptByInode kept
  -- the others change no dentry
  | _ => exact kept

end Step

/-! ## Every run -/

/-- No two dentries that are held and hashed record one directory. -/
def Cache.OneDentry (isDir : ι → Bool) (cache : Cache τ ν ι) : Prop :=
  ∀ one two inode, isDir inode = true →
    cache.live one = true → cache.hashed one = true → cache.inode one = some inode →
    cache.live two = true → cache.hashed two = true → cache.inode two = some inode → one = two

omit [DecidableEq τ] [DecidableEq ν] [DecidableEq ι] in
theorem Cache.KeptByInode.oneDentry {isDir : ι → Bool} {cache : Cache τ ν ι}
    (kept : cache.KeptByInode isDir) : cache.OneDentry isDir := by
  intro one two inode directory liveOne _ namesOne liveTwo _ namesTwo
  have keptOne := kept one inode liveOne namesOne directory
  have keptTwo := kept two inode liveTwo namesTwo directory
  exact Option.some.inj (keptOne.symm.trans keptTwo)

/-- A lookup that finds a directory another dentry stands for changes nothing, reads the name it
was to be recorded at, and then moves that dentry there or fails without changing any. -/
structure State.MovesOrFails [Fintype τ] (isDir : ι → Bool) (state : State τ ν ι) : Prop where
  found : ∀ thread call old frame ask inode other next,
    state.calls thread = some (call, .looking old frame) → frame.phase = .asking ask →
    state.cache.findAlias inode ask.dentry = some other →
    state.step isDir (.turn thread (.found inode)) = some next →
    next = state.goOn thread state.cache call (.looking old (frame.at (.aliased ask other)))
  read : ∀ thread call old frame ask other act next,
    state.calls thread = some (call, .looking old frame) → frame.phase = .aliased ask other →
    state.step isDir (.turn thread act) = some next →
    next = state.goOn thread state.cache call
      (.looking old (frame.at (.aliasing ask other (state.cache.parentAndName ask.dentry))))
  unalias : ∀ thread call old frame ask other place act next,
    state.calls thread = some (call, .looking old frame) →
    frame.phase = .aliasing ask other place →
    state.step isDir (.turn thread act) = some next →
    next = state.goOn thread (state.cache.moveTo other place) call
        (.looking old (frame.at (.ending ask (.ok other)))) ∨
      ∃ e, next = state.goOn thread state.cache call
        (.looking old (frame.at (.ending ask (.error e))))

theorem State.movesOrFails [Fintype τ] (isDir : ι → Bool) (state : State τ ν ι) :
    state.MovesOrFails isDir where
  found thread call old frame ask inode other next stood phase stands taken := by
    simp only [State.step, stood, turn, phase, Cache.findAliasOrAdd, stands] at taken
    obtain ⟨told, turned, same⟩ := Option.map_eq_some_iff.mp taken
    split at turned
    · cases turned
      exact same.symm
    · cases turned
  read thread call old frame ask other act next stood phase taken := by
    simp only [State.step, stood] at taken
    obtain ⟨told, turned, same⟩ := Option.map_eq_some_iff.mp taken
    cases act <;> simp only [turn, phase] at turned <;> cases turned
    exact same.symm
  unalias thread call old frame ask other place act next stood phase taken := by
    simp only [State.step, stood] at taken
    obtain ⟨told, turned, same⟩ := Option.map_eq_some_iff.mp taken
    cases act <;> simp only [turn, phase] at turned
    case unalias rounds =>
      obtain ⟨out, unaliased, spliced⟩ := Option.map_eq_some_iff.mp turned
      rw [← same, ← spliced]
      obtain moved | ⟨e, failed⟩ := unalias_cases unaliased
      · left
        rw [moved]
      · right
        exact ⟨e, by rw [failed]⟩
    all_goals cases turned

omit [DecidableEq τ] [DecidableEq ν] in
theorem State.start_keptByInode (isDir : ι → Bool) (unnamed : ν) (root : ι) :
    (State.start unnamed root : State τ ν ι).cache.KeptByInode isDir := by
  intro dentry inode live names _
  have only : dentry = 0 := by simpa [State.start, Cache.start] using live
  have same : root = inode := Option.some.inj names
  subst only same
  simp [State.start, Cache.start]

/-- In every run of lookups, changes and moves in which the Filesystem itself records a directory
only where no other dentry stands for it, no two dentries a walk finds record one directory, and
one found at another name is moved there or the lookup fails with nothing recorded. -/
theorem directory_stands_at_one_dentry [Fintype τ] (isDir : ι → Bool) (unnamed : ν) (root : ι)
    (events : List (Event τ ν ι)) (state : State τ ν ι)
    (ran : run (State.step isDir) (State.start unnamed root) events = some state)
    (along : Along (State.step isDir) (State.AddsAlone isDir) (State.start unnamed root) events) :
    state.cache.OneDentry isDir ∧ state.MovesOrFails isDir := by
  have kept : state.cache.KeptByInode isDir :=
    run_preserves_along (State.step isDir)
      (fun _ _ _ kept alone taken => State.step_keptByInode kept alone taken)
      events _ state (State.start_keptByInode isDir unnamed root) along ran
  exact ⟨kept.oneDentry, state.movesOrFails isDir⟩

/-- A call has made the directory `x` in `p` and is yet to record it when a walk finds it at `y`. -/
def recordsTwice : List (Event (Fin 2) String Nat) :=
  List.flatten
    [looksUp 0 0 "p" 1 [.found 1],
      [.start 0 (.change 1 "x") false, .lock 0, .enter 0, .turn 0 (.alloc 2), .turn 0 .begin,
        .turn 0 .absent, .turn 0 .finish, .answer 0],
      looksUp 1 0 "y" 3 [.found 2], [.record 0 (some 2)]]

/-- Both dentries record it from then on, and a walk finds either. -/
theorem directory_stands_at_two_dentries :
    ¬∀ (events : List (Event (Fin 2) String Nat)) (state : State (Fin 2) String Nat),
      run (State.step fun _ => true) (State.start "" 0) events = some state →
      state.cache.OneDentry fun _ => true := by
  intro one
  have recorded : (run (State.step fun _ => true) (State.start "" 0) recordsTwice).map
      (fun state => ((state.cache.live 2, state.cache.hashed 2, state.cache.inode 2),
        state.cache.live 3, state.cache.hashed 3, state.cache.inode 3)) =
      some ((true, true, some 2), true, true, some 2) := by decide +kernel
  obtain ⟨state, ran, told⟩ := Option.map_eq_some_iff.mp recorded
  simp only [Prod.mk.injEq] at told
  obtain ⟨⟨liveOne, hashedOne, namesOne⟩, liveTwo, hashedTwo, namesTwo⟩ := told
  have same := one recordsTwice state ran 2 3 2 rfl liveOne hashedOne namesOne liveTwo hashedTwo
    namesTwo
  exact absurd same (by decide)

/-- A directory made and recorded, then found at another name. -/
def recordsOnce : List (Event (Fin 2) String Nat) :=
  List.flatten
    [[.start 0 (.change 0 "x") false, .lock 0, .enter 0, .turn 0 (.alloc 1), .turn 0 .begin,
        .turn 0 .absent, .turn 0 .finish, .answer 0, .record 0 (some 1), .finish 0, .leave 0],
      looksUp 0 0 "y" 2 [.found 1, .read, .unalias 3]]

theorem directory_stands_at_one_dentry_moved :
    ∃ state : State (Fin 2) String Nat,
      run (State.step fun _ => true) (State.start "" 0) recordsOnce = some state ∧
      state.cache.find (state.cache.keyAt (0, "y")) = some 1 ∧
      (state.cache.OneDentry fun _ => true) ∧ state.MovesOrFails fun _ => true := by
  have moved : (run (State.step fun _ => true) (State.start "" 0) recordsOnce).map
      (fun state => state.cache.find (state.cache.keyAt (0, "y"))) = some (some 1) := by
    decide +kernel
  obtain ⟨state, ran, told⟩ := Option.map_eq_some_iff.mp moved
  exact ⟨state, ran, told,
    directory_stands_at_one_dentry (fun _ => true) "" 0 recordsOnce state ran (by decide +kernel)⟩

end Kobako.Dentries
