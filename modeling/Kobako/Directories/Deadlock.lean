import Kobako.Directories.Order
import Kobako.Locking.Exclusion
import Kobako.Waiting

/-!
# No set of calls waits for itself

What every interleaving keeps: the names form a forest, the semaphores tell what each call holds,
and every call takes its locks in order. There is one move between directories at a time, so the
orders of all calls fit into one, and a set of threads that waits for itself would have no last
lock in it.
-/

namespace Kobako.Directories

open Kobako.Locking (Holders)

variable {τ ν ι : Type} [LinearOrder ι] {isDir : ι → Bool}

/-! ## What every call finds -/

variable [DecidableEq τ] [DecidableEq ν]

namespace State

/-- The names form a forest, the semaphores tell what each call has taken, and every call takes its
locks in order. -/
structure Sound (isDir : ι → Bool) (state : State τ ν ι) : Prop where
  tree : state.tree.Sound isDir
  alone : ∀ lock writer, (state.semaphores lock).writer = some writer →
    (state.semaphores lock).readers = []
  holds : ∀ thread lock, state.Holds thread lock ↔
    ∃ call stage, state.calls thread = some (call, stage) ∧ lock ∈ stage.taken
  writes : ∀ thread call stage lock, state.calls thread = some (call, stage) →
    lock ∈ stage.taken → call.exclusive = true → (state.semaphores lock).writer = some thread
  staged : ∀ thread call stage, state.calls thread = some (call, stage) →
    Staged isDir state.tree call stage

variable {state : State τ ν ι} {thread other : τ} {call : Call ν ι} {stage : Stage ι}

section

variable (sound : state.Sound isDir)

include sound

omit [DecidableEq τ] [DecidableEq ν] in
/-- What a call holds exclusive no other thread holds. -/
theorem Sound.exclusive (running : state.calls thread = some (call, stage)) {lock : Lock ι}
    (taken : lock ∈ stage.taken) (writes : call.exclusive = true) (held : state.Holds other lock) :
    other = thread := by
  have written := sound.writes thread call stage lock running taken writes
  obtain writer | reader := held
  · exact Option.some.inj (writer.symm.trans written)
  · rw [sound.alone lock thread written] at reader
    cases reader

omit [DecidableEq ν] in
/-- A thread that goes on with what it holds. -/
theorem Sound.goOn {next : Stage ι} (same : ∀ lock, lock ∈ next.taken ↔ state.Holds thread lock)
    (writes : ∀ lock ∈ next.taken, call.exclusive = true →
      (state.semaphores lock).writer = some thread)
    (staged : Staged isDir state.tree call next) :
    (state.goOn thread call next).Sound isDir := by
  refine ⟨sound.tree, sound.alone, fun here lock => ?_, fun here told at_ lock running => ?_,
    fun here told at_ running => ?_⟩
  · change state.Holds here lock ↔ _
    by_cases own : here = thread
    · subst own
      rw [← same lock, goOn_calls_self]
      simp
    · rw [goOn_calls_of_ne state own]
      exact sound.holds here lock
  · by_cases own : here = thread
    · subst own
      obtain ⟨rfl, rfl⟩ : call = told ∧ next = at_ := by simpa using running
      exact writes lock
    · rw [goOn_calls_of_ne state own] at running
      exact sound.writes here told at_ lock running
  · by_cases own : here = thread
    · subst own
      obtain ⟨rfl, rfl⟩ : call = told ∧ next = at_ := by simpa using running
      exact staged
    · rw [goOn_calls_of_ne state own] at running
      exact sound.staged here told at_ running

omit [DecidableEq ν] in
/-- A thread that goes on with the locks it has taken. -/
theorem Sound.advance (running : state.calls thread = some (call, stage)) {next : Stage ι}
    (same : next.taken = stage.taken) (staged : Staged isDir state.tree call next) :
    (state.goOn thread call next).Sound isDir := by
  refine sound.goOn (fun lock => ?_) (fun lock taken => ?_) staged
  · rw [same, sound.holds thread lock]
    simp [running]
  · exact sound.writes thread call stage lock running (same ▸ taken)

omit sound [LinearOrder ι] [DecidableEq ν] in
theorem mem_without {holders : Holders τ} {here : τ} :
    ((without thread holders).writer = some here ∨ here ∈ (without thread holders).readers) ↔
      (holders.writer = some here ∨ here ∈ holders.readers) ∧ here ≠ thread := by
  simp only [without, Option.filter_eq_some_iff, List.mem_filter, decide_eq_true_eq]
  tauto

omit [DecidableEq ν] in
/-- A call that returns. -/
theorem Sound.leave (thread : τ) : (state.leave thread).Sound isDir := by
  refine ⟨sound.tree, fun lock writer written => ?_, fun here lock => ?_,
    fun here told at_ lock running taken writes => ?_, fun here told at_ running => ?_⟩
  · simp only [State.leave, without, Option.filter_eq_some_iff] at written
    simp [State.leave, without, sound.alone lock writer written.1]
  · simp only [State.Holds, State.leave, mem_without]
    by_cases own : here = thread
    · simp [own]
    · simpa [own, State.Holds, Function.update_of_ne own] using sound.holds here lock
  · by_cases own : here = thread
    · simp [own] at running
    · rw [leave_calls_of_ne state own] at running
      have written := sound.writes here told at_ lock running taken writes
      simp [State.leave, without, written, own]
  · by_cases own : here = thread
    · simp [own] at running
    · rw [leave_calls_of_ne state own] at running
      exact sound.staged here told at_ running

omit [DecidableEq τ] [DecidableEq ν] in
/-- The names changed, and every call's locks still in order. -/
theorem Sound.retree {tree : Tree ν ι} (whole : tree.Sound isDir)
    (staged : ∀ thread call stage, state.calls thread = some (call, stage) →
      Staged isDir tree call stage) : State.Sound isDir { state with tree := tree } :=
  ⟨whole, sound.alone, sound.holds, sound.writes, staged⟩

omit [DecidableEq ν] in
/-- A lock its semaphore granted. -/
theorem Sound.lock {phase : Phase ι} {taken todo : List (Lock ι)} {lock : Lock ι} {held : Holders τ}
    (running : state.calls thread = some (call, ⟨phase, taken, lock :: todo⟩))
    (granted : (state.semaphores lock).take call.exclusive thread = .ok (true, held)) :
    State.Sound isDir { state.goOn thread call ⟨phase, taken ++ [lock], todo⟩ with
      semaphores := Function.update state.semaphores lock held } := by
  obtain ⟨unwritten, grants⟩ := (Holders.take_granted granted).1
  have own (asked : Lock ι) (among : asked ∈ taken) : state.Holds thread asked :=
    (sound.holds thread asked).mpr ⟨call, _, running, among⟩
  have holding (here : τ) : (held.writer = some here ∨ here ∈ held.readers) ↔
      state.Holds here lock ∨ here = thread := by
    obtain ⟨-, unread, rfl⟩ | ⟨-, rfl⟩ := grants
    · simp [State.Holds, unwritten, unread, eq_comm]
    · simp [State.Holds, unwritten]
  refine ⟨sound.tree, fun asked writer written => ?_, fun here asked => ?_,
    fun here told at_ asked going among writes => ?_, fun here told at_ going => ?_⟩
  · by_cases same : asked = lock
    · subst same
      simp only [Function.update_self] at written ⊢
      obtain ⟨-, unread, rfl⟩ | ⟨-, rfl⟩ := grants
      · exact unread
      · simp [unwritten] at written
    · simp only [Function.update_of_ne same] at written ⊢
      exact sound.alone asked writer written
  · have before := sound.holds here asked
    by_cases mine : here = thread
    · subst mine
      rw [running] at before
      simp only [State.Holds, goOn_calls_self, Option.some.injEq, Prod.mk.injEq, ↓existsAndEq,
        true_and, List.mem_append, List.mem_singleton] at before ⊢
      by_cases same : asked = lock
      · subst same
        simp only [Function.update_self]
        simpa using (holding here).mpr (.inr rfl)
      · rw [Function.update_of_ne same, or_iff_left same]
        exact before
    · simp only [State.Holds, goOn_calls_of_ne state mine]
      by_cases same : asked = lock
      · subst same
        rw [Function.update_self, holding here, or_iff_left mine]
        exact before
      · rw [Function.update_of_ne same]
        exact before
  · by_cases mine : here = thread
    · subst mine
      obtain ⟨rfl, rfl⟩ : call = told ∧ ⟨phase, taken ++ [lock], todo⟩ = at_ := by
        simpa using going
      by_cases same : asked = lock
      · subst same
        simp only [Function.update_self]
        obtain ⟨-, -, rfl⟩ | ⟨shared, -⟩ := grants
        · rfl
        · simp [writes] at shared
      · have among : asked ∈ taken := by simpa [same] using among
        simpa [Function.update_of_ne same] using sound.writes here call _ asked running among writes
    · simp only [goOn_calls_of_ne state mine] at going
      have written := sound.writes here told at_ asked going among writes
      by_cases same : asked = lock
      · subst same
        simp [unwritten] at written
      · simpa [Function.update_of_ne same] using written
  · by_cases mine : here = thread
    · subst mine
      obtain ⟨rfl, rfl⟩ : call = told ∧ ⟨phase, taken ++ [lock], todo⟩ = at_ := by
        simpa using going
      exact (sound.staged here call _ running).lock
    · simp only [goOn_calls_of_ne state mine] at going
      exact sound.staged here told at_ going

omit [DecidableEq ν] in
/-- A change made under the locks it needs, after which the call returns. -/
theorem Sound.changes {tree : Tree ν ι} {touched : ι → Prop} {hung : Prop}
    (running : state.calls thread = some (call, stage)) (exclusive : call.exclusive = true)
    (whole : tree.Sound isDir) (changed : Tree.Changed touched hung state.tree tree)
    (within : ∀ dir, touched dir → .inode dir ∈ stage.taken)
    (mutex : hung → .renameMutex ∈ stage.taken) :
    State.Sound isDir { state.leave thread with tree := tree } := by
  refine (sound.leave thread).retree whole fun here told at_ going => ?_
  have apart : here ≠ thread := by
    rintro rfl
    simp at going
  rw [leave_calls_of_ne state apart] at going
  have foreign (lock : Lock ι) (mine : lock ∈ stage.taken) (theirs : lock ∈ at_.taken) : False := by
    have held := (sound.holds here lock).mpr ⟨told, at_, going, theirs⟩
    exact apart (sound.exclusive running mine exclusive held)
  refine (sound.staged here told at_ going).kept sound.tree changed ?_ ?_
  · exact fun theirs moved => foreign _ (mutex moved) theirs
  · exact fun _ _ _ dir theirs here => foreign _ (within dir here) theirs

theorem Sound.make {taken : List (Lock ι)} {child dir : ι} {name : ν}
    (running : state.calls thread = some (call, ⟨.dirs, taken, []⟩))
    (making : making isDir child call = some (dir, name)) (fresh : state.tree.known child = false) :
    State.Sound isDir
      { state.leave thread with tree := state.tree.addAt isDir dir name child } := by
  have staged := sound.staged thread call _ running
  have unknown : state.tree.known child = true → isDir child = false := by simp [fresh]
  have told : call.exclusive = true ∧ dir ∈ call.dirs := by
    cases call with
    | make at_ called =>
      obtain ⟨rfl, rfl⟩ : at_ = dir ∧ called = name := by simpa [Directories.making] using making
      simp [Call.exclusive, Call.dirs]
    | openLast at_ called create =>
      simp only [Directories.making] at making
      split at making
      · rename_i creates
        cases making
        simp [Call.exclusive, Call.dirs, creates.1]
      · cases making
    | lookup at_ => cases making
    | truncate file => cases making
    | link old at_ called => cases making
    | remove at_ called rmdir => cases making
    | rename oldDir oldName newDir newName flag => cases making
  have held : .inode dir ∈ taken := by simpa using staged.phased.2.2.1.2 dir told.2
  refine sound.changes running told.1 (sound.tree.addAt (staged.known dir (by simp [held])) unknown)
    (Tree.changed_addAt unknown) ?_ False.elim
  rintro _ rfl
  exact held

/-- The change a call makes once it holds all it asked for. -/
theorem Sound.commit {taken : List (Lock ι)} {old : ι} {new whiteout : Option ι}
    (running : state.calls thread = some (call, ⟨.victims old new, taken, []⟩))
    (leaves : mayLeave isDir whiteout call = true) :
    State.Sound isDir
      { state.leave thread with tree := committed isDir state.tree old new whiteout call } := by
  have staged := sound.staged thread call _ running
  obtain ⟨guarded, found⟩ := staged.phased
  cases call with
  | lookup dir => cases found
  | openLast dir name create => cases found
  | truncate file => cases found
  | make dir name => cases found
  | link target dir name =>
    obtain ⟨rfl, plain⟩ := found
    refine sound.changes running rfl
      (sound.tree.addAt (staged.handed dir (by simp [Call.nodes])) fun _ => plain)
      (Tree.changed_addAt fun _ => plain) ?_ False.elim
    rintro _ rfl
    exact guarded.2 _ (by simp [Call.dirs])
  | remove dir name rmdir =>
    refine sound.changes running rfl (sound.tree.removeAt dir old name)
      (Tree.changed_removeAt state.tree dir old name) ?_ False.elim
    rintro _ rfl
    exact guarded.2 _ (by simp [Call.dirs])
  | rename oldDir oldName newDir newName flag =>
    obtain ⟨stood, other, linked, clear⟩ := found
    have knownOld := staged.handed oldDir (by simp [Call.nodes])
    have knownNew := staged.handed newDir (by simp [Call.nodes])
    have hold : ∀ dir, dir = oldDir ∨ dir = newDir → .inode dir ∈ taken := fun dir either =>
      guarded.2 dir (by simpa [Call.dirs] using either)
    have mutex : oldDir ≠ newDir → .renameMutex ∈ taken := fun differ =>
      guarded.1 (by simp [Call.crosses, differ])
    have away (directory : isDir old = true) : ¬AtOrAbove state.tree.parent old newDir := by
      by_cases within : oldDir = newDir
      · exact within ▸ sound.tree.child_clear (sound.tree.placed stood directory)
      · exact (clear within).1
    simp only [committed]
    split
    · rename_i target
      have free (directory : isDir target = true) :
          ¬AtOrAbove state.tree.parent target oldDir := by
        by_cases within : oldDir = newDir
        · exact within ▸ sound.tree.child_clear (sound.tree.placed other directory)
        · exact (clear within).2 target rfl
      obtain ⟨whole, changed⟩ := sound.tree.exchange stood other (fun same => linked (by rw [same]))
        knownOld knownNew away free
      exact sound.changes running rfl whole changed hold mutex
    · have plain : ∀ node ∈ whiteout, isDir node = false := by
        intro node left
        cases flag with
        | none => simp_all [mayLeave]
        | some flag => cases flag <;> simp_all [mayLeave]
      exact sound.changes running rfl (sound.tree.move stood knownNew away plain)
        (sound.tree.changed_move stood) hold mutex

omit [DecidableEq τ] in
/-- A lookup that moves a directory's dentry to where it found the directory. -/
theorem Sound.unalias {taken : List (Lock ι)} {dir other above : ι} {name : ν} {rounds : Nat}
    (running : state.calls thread = some (call, ⟨.dirs, taken, []⟩))
    (stands : state.tree.parent other = some above) (among : dir ∈ call.dirs)
    (directory : isDir other = true) (clear : state.tree.isSubdir rounds dir other = some false)
    (locked : above = dir ∨ state.trylocks thread above = true) :
    State.Sound isDir { state with tree := state.tree.realias dir name other } := by
  have staged := sound.staged thread call _ running
  have held : .inode dir ∈ taken := by simpa using staged.phased.2.2.1.2 dir among
  have free : ¬AtOrAbove state.tree.parent other dir := by
    intro higher
    cases (Tree.isSubdir_iff clear).mpr higher
  have granted (differ : above ≠ dir) :
      (∀ here, ¬state.Holds here .renameMutex) ∧
        (state.semaphores (.inode above)).writer = none := by
    have both := locked.resolve_left differ
    simp only [trylocks, Bool.and_eq_true, Option.isSome_iff_exists] at both
    obtain ⟨⟨_, mutex⟩, ⟨_, shared⟩⟩ := both
    obtain ⟨unwritten, ⟨-, unread, -⟩ | ⟨shares, -⟩⟩ := (Holders.tryTake_granted mutex).1
    · refine ⟨fun here => ?_, (Holders.tryTake_granted shared).1.1⟩
      simp [State.Holds, unwritten, unread]
    · cases shares
  refine sound.retree
    (sound.tree.realias directory stands (staged.known dir (by simp [held])) free)
    fun here told at_ going => ?_
  refine (sound.staged here told at_ going).kept sound.tree
    (sound.tree.changed_realias directory stands) ?_ ?_
  · intro mutex differ
    exact (granted differ).1 here ((sound.holds here _).mpr ⟨told, at_, going, mutex⟩)
  · intro old new victims place theirs
    have phased := (sound.staged here told at_ going).phased
    have exclusive : told.exclusive = true := by
      rw [Phased, victims] at phased
      cases told <;> first | rfl | cases phased.2
    -- Whoever has found its names holds the directory alone, and a lookup has not found its own.
    have elsewhere : place ≠ dir := by
      rintro rfl
      have mine : state.Holds thread (.inode place) :=
        (sound.holds thread _).mpr ⟨call, _, running, held⟩
      have same := sound.exclusive going theirs exclusive mine
      subst same
      rw [running] at going
      cases going
      cases victims
    rintro (same | same)
    · exact elsewhere same
    · subst same
      have written := sound.writes here told at_ _ going theirs exclusive
      rw [(granted elsewhere).2] at written
      cases written

end

/-- Every step keeps the forest and the order of the locks. -/
theorem step_sound (event : Event τ ν ι) (next : State τ ν ι) (sound : state.Sound isDir)
    (splices : state.SplicesInPlace event) (taken : state.step isDir event = some next) :
    next.Sound isDir := by
  cases event with
  | start thread call =>
    simp only [step] at taken
    split at taken
    · cases taken
    · rename_i idle
      split at taken
      · rename_i passed
        cases taken
        have fresh : call.stage.taken = [] := by
          unfold Call.stage
          split <;> rfl
        refine sound.goOn (fun lock => ?_) (by simp [fresh]) (staged_start passed.1 passed.2)
        simp [fresh, sound.holds thread lock, idle]
      · cases taken
  | lock thread =>
    simp only [step] at taken
    split at taken
    · rename_i call phase held lock todo running
      split at taken
      · rename_i granted
        cases taken
        exact sound.lock running granted
      · cases taken
    · cases taken
  | order thread rounds =>
    simp only [step] at taken
    split at taken
    · rename_i oldDir oldName newDir newName flag held running
      obtain ⟨todo, told, rfl⟩ := Option.map_eq_some_iff.mp taken
      exact sound.advance running rfl ((sound.staged thread _ _ running).order sound.tree told)
    · cases taken
  | unalias thread dir name other stands rounds =>
    simp only [step] at taken
    split at taken
    · rename_i call held running
      obtain ⟨rfl, among⟩ : stands = dir ∧ dir ∈ call.dirs := by
        simpa [SplicesInPlace, running] using splices
      split at taken
      · cases taken
      · rename_i above above_
        split at taken
        · rename_i passed
          cases taken
          exact sound.unalias running above_ among passed.1 passed.2.1 passed.2.2
        · cases taken
    · cases taken
  | make thread child =>
    simp only [step] at taken
    split at taken
    · rename_i call held running
      split at taken
      · cases taken
      · rename_i dir name making
        split at taken
        · rename_i passed
          cases taken
          exact sound.make running making passed.1
        · cases taken
    · cases taken
  | find thread rounds =>
    simp only [step] at taken
    split at taken
    · rename_i call held running
      obtain ⟨⟨old, new, nodes⟩, told, rfl⟩ := Option.map_eq_some_iff.mp taken
      exact sound.advance running rfl ((sound.staged thread _ _ running).find sound.tree told)
    · cases taken
  | commit thread whiteout =>
    simp only [step] at taken
    split at taken
    · rename_i call old new held running
      split at taken
      · rename_i leaves
        cases taken
        exact sound.commit running leaves
      · cases taken
    · cases taken
  | leave thread =>
    simp only [step] at taken
    split at taken
    · cases taken
      exact sound.leave thread
    · cases taken

/-- Finitely many threads are in a call. -/
def Few (state : State τ ν ι) : Prop := {thread | state.calls thread ≠ none}.Finite

/-- A step is one of a thread in a call, or begins its call. -/
theorem step_active {event : Event τ ν ι} {next : State τ ν ι}
    (taken : state.step isDir event = some next) :
    {thread | next.calls thread ≠ none} ⊆
      insert event.thread {thread | state.calls thread ≠ none} := by
  intro here running
  by_cases own : here = event.thread
  · exact .inl own
  · refine .inr ?_
    have same : next.calls here = state.calls here := by
      cases event with
      | order thread rounds =>
        simp only [step] at taken
        split at taken
        · obtain ⟨todo, -, rfl⟩ := Option.map_eq_some_iff.mp taken
          exact goOn_calls_of_ne state own _ _
        · cases taken
      | find thread rounds =>
        simp only [step] at taken
        split at taken
        · obtain ⟨told, -, rfl⟩ := Option.map_eq_some_iff.mp taken
          exact goOn_calls_of_ne state own _ _
        · cases taken
      | unalias thread dir name other stands rounds =>
        simp only [step] at taken
        repeat' split at taken
        all_goals cases taken
        rfl
      | start thread call | lock thread =>
        simp only [step] at taken
        repeat' split at taken
        all_goals cases taken
        exact goOn_calls_of_ne state own _ _
      | make thread child | commit thread whiteout =>
        simp only [step] at taken
        repeat' split at taken
        all_goals cases taken
        exact leave_calls_of_ne state own
      | leave thread =>
        simp only [step] at taken
        split at taken
        · cases taken
          exact leave_calls_of_ne state own
        · cases taken
    intro idle
    exact running (same.trans idle)

/-! ## Nobody waits for themselves -/

omit [LinearOrder ι] [DecidableEq τ] [DecidableEq ν] in
/-- The lock a thread asks for stands first among those it has yet to take. -/
theorem wants_eq_some {lock : Lock ι} (asks : state.wants thread = some lock) :
    ∃ call phase taken todo, state.calls thread = some (call, ⟨phase, taken, lock :: todo⟩) := by
  obtain ⟨⟨call, phase, taken, todo⟩, running, head⟩ := Option.bind_eq_some_iff.mp asks
  cases todo with
  | nil => cases head
  | cons first rest =>
    cases head
    exact ⟨call, phase, taken, rest, running⟩

/-- A directory the one move between directories holds, and the one it asks for. -/
def Reaches (isDir : ι → Bool) (state : State τ ν ι) (held asked : ι) : Prop :=
  ∃ thread call phase taken todo,
    state.calls thread = some (call, ⟨phase, taken, .inode asked :: todo⟩) ∧
      call.crosses = true ∧ .inode held ∈ taken ∧ isDir asked = true

/-- The order every call takes its locks in: the rename lock, then directories from the root down,
those the move between directories holds before the one it asks for, then files by address. -/
def Before (isDir : ι → Bool) (state : State τ ν ι) : Lock ι → Lock ι → Prop
  | .renameMutex, .inode _ => True
  | _, .renameMutex => False
  | .inode first, .inode second =>
    if isDir second then
      isDir first = true ∧ Extended (Above state.tree.parent) (state.Reaches isDir) first second
    else isDir first = false → first < second

omit [DecidableEq τ] [DecidableEq ν]

/-- There is one move between directories, and it asks for nothing at or above what it holds. -/
theorem Sound.reaches_clear (sound : state.Sound isDir) {held asked other wanted : ι}
    (one : state.Reaches isDir held asked) (two : state.Reaches isDir other wanted) :
    asked = wanted ∧ asked ≠ other ∧ ¬Above state.tree.parent asked other := by
  obtain ⟨mover, call, phase, taken, todo, running, crosses, holding, directory⟩ := one
  obtain ⟨again, call', phase', taken', todo', running', crosses', holding', directory'⟩ := two
  have staged := sound.staged mover call _ running
  have staged' := sound.staged again call' _ running'
  have mutex := staged.mutex_taken crosses held (by simp [holding])
  have mutex' := staged'.mutex_taken crosses' other (by simp [holding'])
  have exclusive : call.exclusive = true := by
    cases call <;> simp_all [Call.crosses, Call.exclusive]
  have same := sound.exclusive running mutex exclusive
    ((sound.holds again _).mpr ⟨call', _, running', mutex'⟩)
  subst same
  rw [running] at running'
  cases running'
  have before : Precedes isDir state.tree call (.inode other) (.inode asked) :=
    (List.pairwise_append.mp staged.ordered).2.2 _ holding' _ (by simp)
  simp only [Precedes, if_pos directory, if_pos crosses] at before
  obtain ⟨apart, free⟩ := not_or.mp before.2
  exact ⟨rfl, fun same => apart same.symm, free⟩

theorem Sound.before_trans (sound : state.Sound isDir) {first second third : Lock ι}
    (one : state.Before isDir first second) (two : state.Before isDir second third) :
    state.Before isDir first third := by
  cases third with
  | renameMutex => cases second <;> cases two
  | inode third =>
    cases first with
    | renameMutex => trivial
    | inode first =>
      cases second with
      | renameMutex => cases one
      | inode second =>
        simp only [Before] at one two ⊢
        cases kind : isDir third with
        | true =>
          simp only [kind, if_true] at two ⊢
          rw [if_pos two.1] at one
          refine ⟨one.1, one.2.trans (fun upper lower => upper.trans lower) ?_ ?_ two.2⟩
          · intro held wanted other reaches again
            exact (sound.reaches_clear reaches again).2
          · intro held wanted other next reaches again
            exact (sound.reaches_clear reaches again).1
        | false =>
          simp only [kind, Bool.false_eq_true, if_false] at two ⊢
          intro plain
          cases middle : isDir second with
          | true => simp [middle, plain] at one
          | false =>
            simp only [middle, Bool.false_eq_true, if_false] at one
            exact (one plain).trans (two middle)

theorem Sound.before_irrefl (sound : state.Sound isDir) (lock : Lock ι) :
    ¬state.Before isDir lock lock := by
  cases lock with
  | renameMutex => exact id
  | inode node =>
    simp only [Before]
    split
    · rintro ⟨-, cycle⟩
      refine Extended.irrefl (fun upper lower => upper.trans lower)
        (fun node => (sound.tree.rooted node).irrefl) ?_ node cycle
      intro held wanted other reaches again
      exact (sound.reaches_clear reaches again).2
    · rename_i plain
      intro cycle
      exact lt_irrefl node (cycle (by simpa using plain))

/-- What a thread asks for comes after all it holds. -/
theorem Sound.asks_after (sound : state.Sound isDir) {lock asked : Lock ι}
    (holds : state.Holds thread lock) (asks : state.wants thread = some asked) :
    state.Before isDir lock asked := by
  obtain ⟨call, phase, taken, todo, running⟩ := wants_eq_some asks
  obtain ⟨_, _, running', held⟩ := (sound.holds thread lock).mp holds
  rw [running] at running'
  cases running'
  have staged := sound.staged thread call _ running
  have before : Precedes isDir state.tree call lock asked :=
    (List.pairwise_append.mp staged.ordered).2.2 _ held _ (by simp)
  cases asked with
  | renameMutex => cases lock <;> cases before
  | inode lower =>
    cases lock with
    | renameMutex => trivial
    | inode upper =>
      simp only [Precedes, Before] at before ⊢
      split
      · rename_i directory
        rw [if_pos directory] at before
        refine ⟨before.1, ?_⟩
        cases crosses : call.crosses with
        | true =>
          exact .inr ⟨upper, lower, ⟨thread, call, phase, taken, todo, running, crosses, held,
            directory⟩, .inl rfl, .inl rfl⟩
        | false =>
          simp only [crosses, Bool.false_eq_true, if_false] at before
          exact .inl (.single before.2.2)
      · rename_i plain
        rwa [if_neg plain] at before

end State

/-- Whatever threads change one Filesystem's directories, in whatever order their steps are taken,
a directory's dentry being moved only to a name whose dentry still stands where it was looked up: no
set of them waits, each for an inode's lock or the rename lock that another of the set holds; no
thread asks for a lock it holds itself; and while a call is under way, some thread in a call waits
for nothing or for a lock nobody holds. -/
theorem directory_changes_never_deadlock (tree : Tree ν ι) (whole : tree.Sound isDir)
    (events : List (Event τ ν ι)) (last : State τ ν ι)
    (ran : run (State.step isDir) (.start tree) events = some last)
    (along : Along (State.step isDir) State.SplicesInPlace (.start tree) events) :
    (∀ threads : Finset τ, threads.Nonempty → ¬Deadlocked last.Holds last.wants threads) ∧
      (∀ thread lock, last.wants thread = some lock → ¬last.Holds thread lock) ∧
      ∀ thread, last.calls thread ≠ none → ∃ other, last.calls other ≠ none ∧
        ∀ lock, last.wants other = some lock → ∀ holder, ¬last.Holds holder lock := by
  have initial : (State.start tree : State τ ν ι).Sound isDir :=
    ⟨whole, nofun, by simp [State.Holds, State.start, Holders.empty], nofun, nofun⟩
  have sound : last.Sound isDir :=
    run_preserves_along (State.step isDir) (fun _ event next sound splices taken =>
      State.step_sound event next sound splices taken) events _ last initial along ran
  have free (threads : Finset τ) (inhabited : threads.Nonempty) :
      ¬Deadlocked last.Holds last.wants threads :=
    not_deadlocked (last.Before isDir) sound.before_trans sound.before_irrefl
      (fun _ _ _ _ holds asks => sound.asks_after holds asks) inhabited
  refine ⟨free, ?_, ?_⟩
  · intro thread lock asks holds
    exact sound.before_irrefl lock (sound.asks_after holds asks)
  · intro thread running
    by_contra stuck
    push Not at stuck
    have finite : last.Few := by
      refine run_preserves (State.step isDir) (fun state event next few taken => ?_) events _ last
        (by simp [State.Few, State.start]) ran
      exact (few.insert event.thread).subset (State.step_active taken)
    have active (here : τ) : here ∈ Set.Finite.toFinset finite ↔ last.calls here ≠ none :=
      Set.Finite.mem_toFinset finite
    refine free _ ⟨thread, (active thread).mpr running⟩ fun waiter among => ?_
    obtain ⟨lock, asks, holder, holds⟩ := stuck waiter ((active waiter).mp among)
    obtain ⟨call, stage, going, -⟩ := (sound.holds holder lock).mp holds
    refine ⟨lock, asks, holder, (active holder).mpr (by simp [going]), ?_, holds⟩
    rintro rfl
    exact sound.before_irrefl lock (sound.asks_after holds asks)

/-- A root with two directories, one of which holds a third. -/
def twoAndOne : Tree Bool Nat where
  parent node := if node = 1 ∨ node = 2 then some 0 else if node = 3 then some 1 else none
  entry dir name :=
    if dir = 0 then some (if name then 2 else 1) else if dir = 1 ∧ name = true then some 3 else none
  dead _ := false
  known node := node < 4

theorem twoAndOne_sound : twoAndOne.Sound fun _ => true := by
  have top : Rooted twoAndOne.parent 0 := .root rfl
  have one : Rooted twoAndOne.parent 1 := .under rfl top
  refine ⟨fun node => ?_, ?_, ?_, ?_, ?_⟩
  · by_cases child : node = 1 ∨ node = 2
    · exact .under (by simp [twoAndOne, child]) top
    · by_cases third : node = 3
      · exact .under (by simp [twoAndOne, third]) one
      · exact .root (by simp [twoAndOne, child, third])
  · intro dir name child found _
    simp only [twoAndOne] at found ⊢
    grind
  · intro dir name place called child found again _
    simp only [twoAndOne] at found again
    grind
  · intro dir name child found
    simp only [twoAndOne] at found ⊢
    grind
  · intro node unknown
    simp only [twoAndOne, decide_eq_false_iff_not] at unknown ⊢
    grind

/-- A lookup in the second directory finds the third there and moves its dentry. Then one thread
moves it back while another removes the first directory. -/
def aliasedAndMoved : List (Event Bool Bool Nat) :=
  [.start true (.lookup 2), .lock true, .unalias true 2 false 3 2 9, .leave true,
    .start false (.rename 2 false 1 true none), .lock false, .order false 9, .lock false,
    .lock false, .start true (.remove 0 false true), .lock true, .find true 9]

/-- The second thread waits for a lock the first holds, and the first goes on. -/
theorem directory_changes_never_deadlock_remove :
    ∃ last : State Bool Bool Nat,
      run (State.step fun _ => true) (.start twoAndOne) aliasedAndMoved = some last ∧
        last.wants true = some (.inode 1) ∧ last.Holds false (.inode 1) ∧
        ¬Deadlocked last.Holds last.wants {false, true} := by
  obtain ⟨last, ran⟩ : ∃ last : State Bool Bool Nat,
      run (State.step fun _ => true) (.start twoAndOne) aliasedAndMoved = some last :=
    ⟨_, rfl⟩
  have along : Along (State.step fun _ => true) State.SplicesInPlace (.start twoAndOne)
      aliasedAndMoved := by decide
  refine ⟨last, ran, ?_, ?_,
    (directory_changes_never_deadlock twoAndOne twoAndOne_sound _ last ran along).1 _
      ⟨true, by simp⟩⟩
  · cases ran
    rfl
  · cases ran
    exact .inl rfl

/-- A lookup in the third directory reads its place, the name's dentry is taken to the root, and
the first directory is hung beneath the third, which stands in it: two removals then hold one of
them each and ask for the other. -/
def outOfPlace : List (Event Bool Bool Nat) :=
  [.start true (.lookup 3), .lock true, .unalias true 3 true 1 0 9, .leave true,
    .start false (.remove 1 true true), .lock false, .find false 9,
    .start true (.remove 3 true true), .lock true, .find true 9]

example : ∃ last : State Bool Bool Nat,
    run (State.step fun _ => true) (.start twoAndOne) outOfPlace = some last ∧
      Deadlocked last.Holds last.wants {false, true} := by
  refine ⟨_, rfl, fun thread among => ?_⟩
  cases thread with
  | false => exact ⟨.inode 3, rfl, true, by simp, by simp, .inl rfl⟩
  | true => exact ⟨.inode 1, rfl, false, by simp, by simp, .inl rfl⟩

end Kobako.Directories
