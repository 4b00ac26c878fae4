import Kobako.Directories.Forest

/-!
# The order of a call's locks

A call takes the rename lock first, then directories, then files by their address. One that holds no
rename lock holds one directory and asks for what stands in it. One that does may hold two
directories that have nothing to do with each other, and asks for none that stands at or above what
it holds. What another call changes in directories it does not hold leaves all that as it is.
-/

namespace Kobako.Directories

open Kobako.Overlay (RenameFlag)

variable {ν ι : Type} [LinearOrder ι] {isDir : ι → Bool}

/-! ## What a call locks, in order -/

/-- One lock may be held while a call asks for another. -/
def Precedes (isDir : ι → Bool) (tree : Tree ν ι) (call : Call ν ι) : Lock ι → Lock ι → Prop
  | .renameMutex, .inode _ => True
  | _, .renameMutex => False
  | .inode first, .inode second =>
    if isDir second then
      isDir first = true ∧
        if call.crosses then ¬AtOrAbove tree.parent second first
        else first ∈ call.dirs ∧ tree.parent second = some first
    else isDir first = false → first < second

/-- Only what is told of two directories depends on the tree. -/
theorem Precedes.imp {tree after : Tree ν ι} {call : Call ν ι} {first second : Lock ι}
    (before : Precedes isDir tree call first second)
    (dirs : ∀ upper lower, first = .inode upper → second = .inode lower →
      (if call.crosses then ¬AtOrAbove tree.parent lower upper
        else upper ∈ call.dirs ∧ tree.parent lower = some upper) →
      if call.crosses then ¬AtOrAbove after.parent lower upper
        else upper ∈ call.dirs ∧ after.parent lower = some upper) :
    Precedes isDir after call first second := by
  cases second with
  | renameMutex => cases first <;> exact before
  | inode lower =>
    cases first with
    | renameMutex => trivial
    | inode upper =>
      simp only [Precedes] at before ⊢
      split
      · rename_i directory
        rw [if_pos directory] at before
        exact ⟨before.1, dirs upper lower rfl rfl before.2⟩
      · rename_i plain
        rwa [if_neg plain] at before

/-- What a call relies on of what it found. -/
def Found (isDir : ι → Bool) (tree : Tree ν ι) (old : ι) (new : Option ι) : Call ν ι → Prop
  | .link target _ _ => old = target ∧ isDir old = false
  | .remove dir name _ => tree.entry dir name = some old
  | .rename oldDir oldName newDir newName _ =>
    tree.entry oldDir oldName = some old ∧ tree.entry newDir newName = new ∧
      (new = some old → isDir old = false) ∧
      (oldDir ≠ newDir → ¬AtOrAbove tree.parent old newDir ∧
        ∀ target ∈ new, ¬AtOrAbove tree.parent target oldDir)
  | .lookup _ | .openLast _ _ _ | .truncate _ | .make _ _ => False

/-- A call holds what it works in. -/
def Guarded (call : Call ν ι) (taken : List (Lock ι)) : Prop :=
  (call.crosses = true → .renameMutex ∈ taken) ∧ ∀ dir ∈ call.dirs, .inode dir ∈ taken

/-- What holds of a call's locks in each phase. -/
def Phased (isDir : ι → Bool) (tree : Tree ν ι) (call : Call ν ι) (stage : Stage ι) : Prop :=
  match stage.phase with
  | .mutex => call.crosses = true ∧ stage.taken ++ stage.todo = [.renameMutex]
  | .dirs =>
    (call.crosses = true → .renameMutex ∈ stage.taken) ∧
      (call.crosses = false → stage.taken ++ stage.todo = (call.dirs.take 1).map .inode) ∧
      Guarded call (stage.taken ++ stage.todo) ∧
      ∀ node, .inode node ∈ stage.taken ++ stage.todo → node ∈ call.dirs
  | .victims old new => Guarded call stage.taken ∧ Found isDir tree old new call

/-- A call takes its locks in order. -/
structure Staged (isDir : ι → Bool) (tree : Tree ν ι) (call : Call ν ι) (stage : Stage ι) :
    Prop where
  ordered : (stage.taken ++ stage.todo).Pairwise (Precedes isDir tree call)
  known : ∀ node, .inode node ∈ stage.taken ++ stage.todo → tree.known node = true
  handed : ∀ node ∈ call.nodes, tree.known node = true
  kinds : ∀ dir ∈ call.dirs, isDir dir = !call.truncates
  mover : .renameMutex ∈ stage.taken ++ stage.todo → call.crosses = true
  phased : Phased isDir tree call stage

/-- Two files are locked once each, the lower address first. -/
theorem lockTwoNondirectories_sorted (old : ι) (new : Option ι) :
    (lockTwoNondirectories (some old) new).Pairwise (· < ·) ∧
      ∀ node ∈ lockTwoNondirectories (some old) new, node = old ∨ new = some node := by
  cases new with
  | none => simp [lockTwoNondirectories]
  | some target =>
    obtain lower | rfl | higher := lt_trichotomy old target
    · have first : old ≤ target := lower.le
      simp [lockTwoNondirectories, first, lower, lower.ne, List.destutter]
    · simp [lockTwoNondirectories, List.destutter]
    · have second : ¬old ≤ target := not_le.mpr higher
      simp [lockTwoNondirectories, second, higher, higher.ne, List.destutter]

/-- What a move locks besides its directories: what moves, a directory only where it leaves its own,
and what it moves onto, directories before files. -/
theorem lockMoved_ordered (isDir : ι → Bool) (old : ι) (new : Option ι) (sameDir : Bool)
    (flag : Option RenameFlag) :
    (∀ node ∈ lockMoved isDir old new sameDir flag,
      (node = old ∧ (isDir old = true → sameDir = false)) ∨ new = some node) ∧
    (lockMoved isDir old new sameDir flag).Pairwise fun first second =>
      if isDir second then isDir first = true ∧ sameDir = false ∧ first = old ∧ new = some second
      else isDir first = false → first < second := by
  unfold lockMoved
  cases oldKind : isDir old with
  | true =>
    simp only
    constructor
    · intro node among
      simp only [List.mem_append, Option.mem_toList, Option.filter_eq_some_iff] at among
      obtain source | target := among
      · split at source
        · rename_i leaves
          obtain rfl : node = old := by simpa using source
          exact .inl ⟨rfl, fun _ => by simpa using leaves⟩
        · cases source
      · exact .inr target.1
    · rw [List.pairwise_append]
      refine ⟨by split <;> simp, ?_, fun first source second target => ?_⟩
      · cases new.filter _ <;> simp
      · simp only [Option.mem_toList, Option.filter_eq_some_iff] at target
        split at source
        · rename_i leaves
          obtain rfl : first = old := by simpa using source
          split
          · exact ⟨oldKind, by simpa using leaves, rfl, target.1⟩
          · simp [oldKind]
        · cases source
  | false =>
    cases newKind : new.any isDir with
    | true =>
      simp only
      constructor
      · intro node among
        simp only [List.mem_append, Option.mem_toList, Option.filter_eq_some_iff,
          List.mem_singleton] at among
        obtain target | source := among
        · exact .inr target.1
        · exact .inl ⟨source, by simp⟩
      · rw [List.pairwise_append]
        refine ⟨?_, by simp, fun first target second source => ?_⟩
        · cases new.filter _ <;> simp
        · simp only [Option.mem_toList, Option.filter_eq_some_iff] at target
          obtain rfl : second = old := by simpa using source
          have directory : isDir first = true := by simpa [target.1] using newKind
          simp [oldKind, directory]
    | false =>
      simp only
      obtain ⟨sorted, members⟩ := lockTwoNondirectories_sorted old new
      refine ⟨fun node among => (members node among).imp (fun same => ⟨same, by simp⟩) id, ?_⟩
      refine sorted.imp_of_mem fun {first second} _ secondIn before => ?_
      have plain : isDir second = false := by
        obtain rfl | target := members second secondIn
        · exact oldKind
        · simpa [target] using newKind
      simp [plain, before]

section Stage

variable {tree after : Tree ν ι} {call : Call ν ι} {stage : Stage ι}

/-- A move between directories holds the rename lock when it asks for one. -/
theorem Staged.mutex_taken (staged : Staged isDir tree call stage) (crosses : call.crosses = true)
    (node : ι) (listed : .inode node ∈ stage.taken ++ stage.todo) :
    .renameMutex ∈ stage.taken := by
  have phased := staged.phased
  unfold Phased at phased
  split at phased
  · rw [phased.2] at listed
    simp at listed
  · exact phased.1 crosses
  · exact phased.1.1 crosses

omit [LinearOrder ι] in
/-- Nothing a change keeps from a call's directory brings one above another. -/
theorem clear_kept {touched : ι → Prop} {hung : Prop} (sound : tree.Sound isDir)
    (changed : Tree.Changed touched hung tree after) (still : ¬hung) {first second : ι}
    (known : tree.known first = true) (clear : ¬AtOrAbove tree.parent second first) :
    ¬AtOrAbove after.parent second first := by
  intro higher
  refine clear (higher.imp id fun above => above.of_unchanged fun upper at_ => ?_)
  obtain same | ⟨moved, -⟩ := changed.parent upper (sound.above_known known at_)
  · exact same
  · exact absurd moved still

/-- What another call changes leaves a call's locks in order. -/
theorem Staged.kept {touched : ι → Prop} {hung : Prop} (staged : Staged isDir tree call stage)
    (sound : tree.Sound isDir) (changed : Tree.Changed touched hung tree after)
    (still : .renameMutex ∈ stage.taken → ¬hung)
    (away : ∀ old new, stage.phase = .victims old new → ∀ dir, .inode dir ∈ stage.taken →
      ¬touched dir) : Staged isDir after call stage := by
  have phased := staged.phased
  have ordered : (stage.taken ++ stage.todo).Pairwise (Precedes isDir after call) := by
    cases crosses : call.crosses with
    | true =>
      refine staged.ordered.imp_of_mem fun firstIn _ before => before.imp ?_
      rintro upper lower rfl - beneath
      rw [if_pos crosses] at beneath ⊢
      exact clear_kept sound changed (still (staged.mutex_taken crosses upper firstIn))
        (staged.known upper firstIn) beneath
    | false =>
      unfold Phased at phased
      split at phased
      · simp [crosses] at phased
      · rw [phased.2.1 crosses]
        cases call.dirs with
        | nil => simp
        | cons dir rest => simp
      · rename_i old new victims
        refine staged.ordered.imp_of_mem fun _ secondIn before => before.imp ?_
        rintro upper lower - rfl beneath
        simp only [crosses, Bool.false_eq_true, if_false] at beneath ⊢
        have untouched := away old new victims upper (phased.1.2 upper beneath.1)
        refine ⟨beneath.1, ?_⟩
        obtain same | ⟨-, dir, here, was⟩ := changed.parent lower (staged.known lower secondIn)
        · exact same.trans beneath.2
        · exact absurd (Option.some.inj (beneath.2.symm.trans was) ▸ here) untouched
  refine ⟨ordered, fun node listed => changed.known node (staged.known node listed),
    fun node listed => changed.known node (staged.handed node listed), staged.kinds, staged.mover,
    ?_⟩
  unfold Phased at phased ⊢
  split
  · rename_i mutex
    simpa [mutex] using phased
  · rename_i dirs
    simpa [dirs] using phased
  · rename_i old new victims
    rw [victims] at phased
    refine ⟨phased.1, ?_⟩
    have found := phased.2
    cases call with
    | rename oldDir oldName newDir newName flag =>
      obtain ⟨stood, other, linked, clear⟩ := found
      have guarded := phased.1.2
      have oldHeld : .inode oldDir ∈ stage.taken := guarded oldDir (by simp [Call.dirs])
      have newHeld : .inode newDir ∈ stage.taken := guarded newDir (by simp [Call.dirs])
      refine ⟨?_, ?_, linked, fun differ => ?_⟩
      · rw [changed.entry oldDir (away old new victims oldDir oldHeld)]
        exact stood
      · rw [changed.entry newDir (away old new victims newDir newHeld)]
        exact other
      · have fixed : ¬hung := still (phased.1.1 (by simp [Call.crosses, differ]))
        obtain ⟨one, rest⟩ := clear differ
        refine ⟨clear_kept sound changed fixed ?_ one, fun target at_ => ?_⟩
        · exact staged.handed newDir (by simp [Call.nodes])
        · exact clear_kept sound changed fixed (staged.handed oldDir (by simp [Call.nodes]))
            (rest target at_)
    | remove dir name rmdir =>
      have held : .inode dir ∈ stage.taken := phased.1.2 dir (by simp [Call.dirs])
      simp only [Found] at found ⊢
      rw [changed.entry dir (away old new victims dir held)]
      exact found
    | link target dir name => exact found
    | lookup dir => exact found
    | openLast dir name create => exact found
    | truncate file => exact found
    | make dir name => exact found

/-- A call at its start has its first lock to take. -/
theorem staged_start (handed : ∀ node ∈ call.nodes, tree.known node = true)
    (kinds : ∀ dir ∈ call.dirs, isDir dir = !call.truncates) :
    Staged isDir tree call call.stage := by
  cases crosses : call.crosses with
  | true =>
    rw [Call.stage, if_pos crosses]
    exact ⟨by simp, by simp, handed, kinds, fun _ => crosses, ⟨crosses, rfl⟩⟩
  | false =>
    rw [Call.stage, if_neg (by simp [crosses])]
    have within (node : ι) (listed : (.inode node : Lock ι) ∈ [] ++ (call.dirs.take 1).map .inode) :
        node ∈ call.dirs := by
      simp only [List.nil_append, List.mem_map, Lock.inode.injEq, exists_eq_right] at listed
      exact List.mem_of_mem_take listed
    have among (node : ι) (listed : node ∈ call.dirs) : node ∈ call.nodes := by
      cases call <;> simp_all [Call.dirs, Call.nodes]
    have held (dir : ι) (listed : dir ∈ call.dirs) :
        (.inode dir : Lock ι) ∈ [] ++ (call.dirs.take 1).map .inode := by
      cases call <;> simp_all [Call.dirs, Call.crosses]
    have inodes : (.renameMutex : Lock ι) ∉ [] ++ (call.dirs.take 1).map .inode := by
      simp only [List.nil_append, List.mem_map, reduceCtorEq, and_false, exists_false,
        not_false_eq_true]
    refine ⟨?_, fun node listed => handed node (among node (within node listed)), handed, kinds,
      fun listed => absurd listed inodes, by simp [crosses], fun _ => rfl,
      ⟨by simp [crosses], held⟩, within⟩
    cases call.dirs with
    | nil => simp
    | cons dir rest => simp

/-- A lock taken leaves the list of them as it is. -/
theorem Staged.lock {phase : Phase ι} {taken todo : List (Lock ι)} {lock : Lock ι}
    (staged : Staged isDir tree call ⟨phase, taken, lock :: todo⟩) :
    Staged isDir tree call ⟨phase, taken ++ [lock], todo⟩ := by
  have same : (taken ++ [lock]) ++ todo = taken ++ lock :: todo := by simp
  have more {held : Lock ι} (was : held ∈ taken) : held ∈ taken ++ [lock] := by simp [was]
  refine ⟨same ▸ staged.ordered, same ▸ staged.known, staged.handed, staged.kinds,
    same ▸ staged.mover, ?_⟩
  have phased := staged.phased
  cases phase with
  | mutex => exact ⟨phased.1, same ▸ phased.2⟩
  | dirs =>
    exact ⟨fun crosses => more (phased.1 crosses), fun within => same.trans (phased.2.1 within),
      same ▸ phased.2.2.1, same ▸ phased.2.2.2⟩
  | victims old new =>
    exact ⟨⟨fun crosses => more (phased.1.1 crosses), fun dir among => more (phased.1.2 dir among)⟩,
      phased.2⟩

variable {rounds : Nat} {taken : List (Lock ι)}

/-- The two directories of a move put in order. -/
theorem Staged.order {oldDir newDir : ι} {oldName newName : ν} {flag : Option RenameFlag}
    {taken todo : List (Lock ι)} (sound : tree.Sound isDir)
    (staged : Staged isDir tree (.rename oldDir oldName newDir newName flag) ⟨.mutex, taken, []⟩)
    (told : lockTwoDirectories tree rounds oldDir newDir = some todo) :
    Staged isDir tree (.rename oldDir oldName newDir newName flag) ⟨.dirs, taken, todo⟩ := by
  have crosses := staged.phased.1
  obtain rfl : taken = [.renameMutex] := by simpa using staged.phased.2
  have oldDirectory : isDir oldDir = true := staged.kinds oldDir (by simp [Call.dirs])
  have newDirectory : isDir newDir = true := staged.kinds newDir (by simp [Call.dirs])
  have differ : oldDir ≠ newDir := by simpa [Call.crosses] using crosses
  have listed : todo.Perm [.inode oldDir, .inode newDir] ∧
      todo.Pairwise (Precedes isDir tree (.rename oldDir oldName newDir newName flag)) := by
    unfold lockTwoDirectories at told
    split at told
    · cases told
    · rename_i beneath
      cases told
      have under := (Tree.isSubdir_iff beneath).mp rfl
      refine ⟨List.Perm.swap _ _ _, ?_⟩
      simp only [List.pairwise_cons, List.mem_singleton, forall_eq, List.not_mem_nil,
        false_imp_iff, implies_true, List.Pairwise.nil, and_true, Precedes, if_pos oldDirectory,
        newDirectory, if_pos crosses, true_and]
      rintro (same | higher)
      · exact differ same.symm
      · exact (sound.rooted newDir).irrefl (under.trans_above higher)
    · rename_i free
      cases told
      refine ⟨.refl _, ?_⟩
      simp only [List.pairwise_cons, List.mem_singleton, forall_eq, List.not_mem_nil,
        false_imp_iff, implies_true, List.Pairwise.nil, and_true, Precedes, if_pos newDirectory,
        oldDirectory, if_pos crosses, true_and]
      intro higher
      have answered := (Tree.isSubdir_iff free).mpr higher
      cases answered
  have member (lock : Lock ι) : lock ∈ todo ↔ lock = .inode oldDir ∨ lock = .inode newDir := by
    simp [listed.1.mem_iff]
  refine ⟨?_, fun node among => ?_, staged.handed, staged.kinds, fun _ => crosses, ?_⟩
  · rw [List.singleton_append, List.pairwise_cons]
    refine ⟨fun lock among => ?_, listed.2⟩
    obtain rfl | rfl := (member lock).mp among <;> trivial
  · have among : (.inode node : Lock ι) ∈ todo := by simpa using among
    obtain same | same := (member _).mp among
    · exact staged.handed node (by simp_all [Call.nodes])
    · exact staged.handed node (by simp_all [Call.nodes])
  · refine ⟨fun _ => by simp, fun within => by simp [crosses] at within, ⟨fun _ => by simp, ?_⟩, ?_⟩
    · intro dir among
      have either : dir = oldDir ∨ dir = newDir := by simpa [Call.dirs] using among
      have found : (.inode dir : Lock ι) ∈ todo := (member _).mpr (by simpa using either)
      simp [found]
    · intro node among
      have among : (.inode node : Lock ι) ∈ todo := by simpa using among
      simpa [Call.dirs] using (member _).mp among

/-- A call that found one entry in its one directory and asks for it. -/
theorem Staged.findOne {dir old : ι} (within : call.crosses = false) (single : call.dirs = [dir])
    (untruncated : call.truncates = false) (staged : Staged isDir tree call ⟨.dirs, taken, []⟩)
    (known : tree.known old = true) (placed : isDir old = true → tree.parent old = some dir)
    (found : Found isDir tree old none call) :
    Staged isDir tree call ⟨.victims old none, taken, [.inode old]⟩ := by
  obtain rfl : taken = [.inode dir] := by simpa [single] using staged.phased.2.1 within
  have directory : isDir dir = true := by simpa [untruncated] using staged.kinds dir (by simp [single])
  refine ⟨?_, fun node listed => ?_, staged.handed, staged.kinds, by simp,
    ⟨by simp [within], by simp [single]⟩, found⟩
  · simp only [List.singleton_append, List.pairwise_cons, List.mem_singleton, forall_eq,
      List.not_mem_nil, false_imp_iff, implies_true, List.Pairwise.nil, and_true, Precedes, within,
      Bool.false_eq_true, if_false, directory, single, true_and]
    split
    · rename_i lower
      exact placed lower
    · simp
  · obtain same | same : node = dir ∨ node = old := by simpa using listed
    · exact same ▸ staged.known dir (by simp)
    · exact same ▸ known

/-- A move that found its two names asks for what moves and what it moves onto. -/
theorem Staged.findTwo {oldDir newDir old : ι} {oldName newName : ν} {flag : Option RenameFlag}
    (sound : tree.Sound isDir)
    (staged : Staged isDir tree (.rename oldDir oldName newDir newName flag) ⟨.dirs, taken, []⟩)
    (stood : tree.entry oldDir oldName = some old)
    (above : tree.isSubdir rounds newDir old = some false)
    (below : ∀ target ∈ tree.entry newDir newName, tree.isSubdir rounds oldDir target = some false)
    (apart : ¬(oldDir = newDir ∧ oldName = newName)) :
    Staged isDir tree (.rename oldDir oldName newDir newName flag)
      ⟨.victims old (tree.entry newDir newName), taken,
        (lockMoved isDir old (tree.entry newDir newName) (oldDir == newDir) flag).map .inode⟩ := by
  have clear : ¬AtOrAbove tree.parent old newDir := by
    intro higher
    cases (Tree.isSubdir_iff above).mpr higher
  have free (target : ι) (at_ : tree.entry newDir newName = some target) :
      ¬AtOrAbove tree.parent target oldDir := by
    intro higher
    cases (Tree.isSubdir_iff (below target at_)).mpr higher
  -- Two names of one entry: a directory has one.
  have linked (same : tree.entry newDir newName = some old) : isDir old = false := by
    cases directory : isDir old with
    | false => rfl
    | true => exact absurd (sound.once stood same directory) apart
  obtain ⟨members, sorted⟩ :=
    lockMoved_ordered isDir old (tree.entry newDir newName) (oldDir == newDir) flag
  have phased := staged.phased
  have guarded : Guarded (.rename oldDir oldName newDir newName flag) taken := by
    simpa using phased.2.2.1
  have directories (dir : ι) (among : dir = oldDir ∨ dir = newDir) : isDir dir = true :=
    staged.kinds dir (by simpa [Call.dirs] using among)
  refine ⟨?_, fun node listed => ?_, staged.handed, staged.kinds, fun listed => ?_, guarded, stood,
    rfl, linked, fun _ => ⟨clear, free⟩⟩
  · simp only [List.pairwise_append, List.pairwise_map]
    refine ⟨by simpa using staged.ordered, sorted.imp fun {first second} before => ?_, ?_⟩
    · -- Of two directories among them the source is asked for first.
      simp only [Precedes]
      split
      · rename_i directory
        rw [if_pos directory] at before
        obtain ⟨lower, crosses, rfl, target⟩ := before
        have differ : oldDir ≠ newDir := by simpa using crosses
        rw [if_pos (by simp [Call.crosses, differ])]
        refine ⟨lower, ?_⟩
        rintro (same | higher)
        · simp [linked (same ▸ target)] at lower
        · exact free second target ((above_iff (sound.placed stood lower)).mp higher)
      · rename_i plain
        rwa [if_neg plain] at before
    · intro lock held asked listed
      obtain ⟨node, among, rfl⟩ := List.mem_map.mp listed
      cases lock with
      | renameMutex => trivial
      | inode dir =>
        have either : dir = oldDir ∨ dir = newDir := by
          simpa [Call.dirs] using phased.2.2.2 dir (by simpa using held)
        simp only [Precedes]
        split
        · rename_i directory
          refine ⟨directories dir either, ?_⟩
          obtain ⟨rfl, leaves⟩ | target := members node among
          · -- A directory that moves is asked for only where it leaves its own.
            have differ : oldDir ≠ newDir := by simpa using leaves directory
            rw [if_pos (by simp [Call.crosses, differ])]
            obtain rfl | rfl := either
            · exact sound.child_clear (sound.placed stood directory)
            · exact clear
          · have placed := sound.placed target directory
            split
            · obtain rfl | rfl := either
              · exact free node target
              · exact sound.child_clear placed
            · rename_i within
              obtain rfl : oldDir = newDir := by simpa [Call.crosses] using within
              obtain rfl : dir = oldDir := by simpa using either
              exact ⟨by simp [Call.dirs], placed⟩
        · simp [directories dir either]
  · rw [List.mem_append] at listed
    obtain held | asked := listed
    · exact staged.known node (by simpa using held)
    · obtain ⟨other, among, same⟩ := List.mem_map.mp asked
      cases same
      obtain ⟨rfl, -⟩ | target := members node among
      · exact sound.made stood
      · exact sound.made target
  · refine staged.mover ?_
    rw [List.mem_append] at listed
    obtain held | asked := listed
    · simpa using held
    · obtain ⟨other, -, same⟩ := List.mem_map.mp asked
      cases same

/-- A call that found its names asks for what it changes besides its directories in order. -/
theorem Staged.find [DecidableEq ν] {old : ι} {new : Option ι} {nodes : List ι}
    (sound : tree.Sound isDir) (staged : Staged isDir tree call ⟨.dirs, taken, []⟩)
    (told : Directories.found isDir tree rounds call = some (old, new, nodes)) :
    Staged isDir tree call ⟨.victims old new, taken, nodes.map .inode⟩ := by
  cases call with
  | lookup dir => cases told
  | openLast dir name create => cases told
  | truncate file => cases told
  | make dir name => cases told
  | link target dir name =>
    simp only [Directories.found] at told
    split at told
    · rename_i passed
      cases told
      exact staged.findOne rfl rfl rfl (staged.handed _ (by simp [Call.nodes]))
        (by simp [passed.2.2]) ⟨rfl, passed.2.2⟩
    · cases told
  | remove dir name rmdir =>
    simp only [Directories.found] at told
    split at told
    · cases told
    · rename_i child stood
      split at told
      · cases told
        exact staged.findOne rfl rfl rfl (sound.made stood) (sound.placed stood) stood
      · cases told
  | rename oldDir oldName newDir newName flag =>
    simp only [Directories.found] at told
    split at told
    · cases told
    · rename_i source stood
      split at told
      · rename_i passed
        cases told
        obtain ⟨-, above, below, apart, -⟩ := passed
        exact staged.findTwo sound stood above below apart
      · cases told

end Stage

end Kobako.Directories
