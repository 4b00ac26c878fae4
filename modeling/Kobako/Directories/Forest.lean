import Kobako.Directories.Calls

/-!
# The forest of directories

What every change keeps of the names: each directory's pointers end at a root, a directory stands at
one name, in the directory it points at. Each change is told by the directories it touches and
whether it hangs a directory elsewhere, which is all another call has to know of it.
-/

namespace Kobako.Directories

variable {ν ι : Type} {isDir : ι → Bool}

namespace Tree

/-- The directories form a forest, each at one name in the directory it points at. -/
structure Sound (isDir : ι → Bool) (tree : Tree ν ι) : Prop where
  rooted : ∀ node, Rooted tree.parent node
  placed : ∀ {dir name child}, tree.entry dir name = some child → isDir child = true →
    tree.parent child = some dir
  once : ∀ {dir name place called child}, tree.entry dir name = some child →
    tree.entry place called = some child → isDir child = true → dir = place ∧ name = called
  made : ∀ {dir name child}, tree.entry dir name = some child → tree.known child = true
  /-- What is not made yet stands beneath nothing and above nothing. -/
  apart : ∀ {node}, tree.known node = false →
    tree.parent node = none ∧ ∀ lower, tree.parent lower ≠ some node

/-- What one change did: names changed in the directories it touched alone, and a directory was
hung elsewhere only out of one of them, where `hung` says so. -/
structure Changed (touched : ι → Prop) (hung : Prop) (before after : Tree ν ι) : Prop where
  entry : ∀ dir, ¬touched dir → after.entry dir = before.entry dir
  parent : ∀ node, before.known node = true → after.parent node = before.parent node ∨
    hung ∧ ∃ dir, touched dir ∧ before.parent node = some dir
  known : ∀ node, before.known node = true → after.known node = true

variable {tree : Tree ν ι}

variable {node dir : ι} {parent : ι → Option ι} {name : ν} {oldName newName : ν}
  {oldDir newDir old new : ι}

/-- What a directory stands in was made. -/
theorem Sound.parent_known (sound : tree.Sound isDir) (points : tree.parent node = some dir) :
    tree.known dir = true := by
  cases known : tree.known dir with
  | true => rfl
  | false => exact absurd points ((sound.apart known).2 node)

/-- What stands in a directory was made. -/
theorem Sound.child_known (sound : tree.Sound isDir) (points : tree.parent node = some dir) :
    tree.known node = true := by
  cases known : tree.known node with
  | true => rfl
  | false => exact absurd ((sound.apart known).1.symm.trans points) nofun

/-- What was made stands beneath what was made. -/
theorem Sound.above_known (sound : tree.Sound isDir) {node upper : ι}
    (known : tree.known node = true) (higher : AtOrAbove tree.parent upper node) :
    tree.known upper = true := by
  obtain same | higher := higher
  · exact same ▸ known
  · obtain ⟨lower, points⟩ : ∃ lower, tree.parent lower = some upper := by
      cases higher with
      | single points => exact ⟨_, points⟩
      | tail _ points => exact ⟨_, points⟩
    exact sound.parent_known points

/-- What stands in a directory is not at or above it. -/
theorem Sound.child_clear (sound : tree.Sound isDir) (points : tree.parent node = some dir) :
    ¬AtOrAbove tree.parent node dir := by
  intro higher
  exact (sound.rooted node).irrefl ((above_iff points).mpr higher)

variable [DecidableEq ι] [DecidableEq ν]

omit [DecidableEq ν] in
/-- The answer of `is_subdir` once its loop has ended. -/
theorem isSubdir_iff {rounds : Nat} {dir ancestor : ι} {answer : Bool}
    (ended : tree.isSubdir rounds dir ancestor = some answer) :
    answer = true ↔ AtOrAbove tree.parent ancestor dir := by
  unfold isSubdir at ended
  split at ended
  · rename_i same
    have told : true = answer := Option.some.inj ended
    simp [← told, AtOrAbove, same]
  · rename_i apart
    rw [ancestorWithin_iff ended, AtOrAbove, or_iff_right apart]

/-- A name a change did not set stands for what it did. -/
theorem setEntry_of_ne {dir place : ι} {name called : ν} (child : Option ι)
    (apart : ¬(place = dir ∧ called = name)) :
    tree.setEntry dir name child place called = tree.entry place called := by
  simp [setEntry, apart]

theorem setEntry_self (dir : ι) (name : ν) (child : Option ι) :
    tree.setEntry dir name child dir name = child := by
  simp [setEntry]

theorem setEntry_of_dir {dir place : ι} (name : ν) (child : Option ι) (apart : place ≠ dir) :
    tree.setEntry dir name child place = tree.entry place := by
  funext called
  exact tree.setEntry_of_ne child fun here => apart here.1

theorem hang_of_ne {child node : ι} (dir : ι) (apart : node ≠ child) :
    hang isDir parent child dir node = parent node := by
  unfold hang
  split
  · exact Function.update_of_ne apart _ _
  · rfl

theorem hang_self {child : ι} (dir : ι) (directory : isDir child = true) :
    hang isDir parent child dir child = some dir := by
  simp [hang, directory]

theorem hang_of_not {child : ι} (dir : ι) (plain : isDir child = false) :
    hang isDir parent child dir = parent := by
  simp [hang, plain]

/-- A directory hung where it does not stand above leaves every pointer ending at a root. -/
theorem rooted_hang {child dir : ι} (rooted : ∀ node, Rooted parent node)
    (clear : isDir child = true → ¬AtOrAbove parent child dir) (node : ι) :
    Rooted (hang isDir parent child dir) node := by
  unfold hang
  split
  · rename_i directory
    exact (rooted node).hang (rooted dir) (clear directory)
  · exact rooted node

omit [DecidableEq ι] [DecidableEq ν] in
/-- A change that gives some directories a new name each, and leaves the others and what is told of
them as they were, keeps the forest. -/
theorem Sound.reseat (sound : tree.Sound isDir) {after : Tree ν ι} (seat : ι → Option (ι × ν))
    (rooted : ∀ node, Rooted after.parent node)
    (seated : ∀ node place, isDir node = true → seat node = some place →
      after.parent node = some place.1 ∧
        ∀ dir name, after.entry dir name = some node → (dir, name) = place)
    (kept : ∀ node, isDir node = true → seat node = none →
      after.parent node = tree.parent node ∧
        ∀ dir name, after.entry dir name = some node → tree.entry dir name = some node)
    (made : ∀ dir name child, after.entry dir name = some child → after.known child = true)
    (known : ∀ node, tree.known node = true → after.known node = true)
    (pointed : ∀ node, after.parent node = tree.parent node ∨
      after.known node = true ∧ ∃ dir, after.parent node = some dir ∧ after.known dir = true) :
    after.Sound isDir := by
  refine ⟨rooted, ?_, ?_, fun found => made _ _ _ found, ?_⟩
  · intro dir name child found directory
    cases at_ : seat child with
    | none =>
      obtain ⟨same, stood⟩ := kept child directory at_
      rw [same]
      exact sound.placed (stood dir name found) directory
    | some place =>
      obtain ⟨points, only⟩ := seated child place directory at_
      rw [points, ← only dir name found]
  · intro dir name place called child found again directory
    cases at_ : seat child with
    | none =>
      obtain ⟨-, stood⟩ := kept child directory at_
      exact sound.once (stood dir name found) (stood place called again) directory
    | some seat =>
      obtain ⟨-, only⟩ := seated child seat directory at_
      have same : (dir, name) = (place, called) := (only _ _ found).trans (only _ _ again).symm
      exact Prod.mk.inj same
  · intro node unknown
    have before : tree.known node = false := by
      cases told : tree.known node with
      | true => simp [known node told] at unknown
      | false => rfl
    constructor
    · obtain same | ⟨made, -⟩ := pointed node
      · exact same.trans (sound.apart before).1
      · simp [unknown] at made
    · intro lower
      obtain same | ⟨-, dir, points, made⟩ := pointed lower
      · exact same ▸ (sound.apart before).2 lower
      · rintro again
        rw [Option.some.inj (points.symm.trans again), unknown] at made
        cases made

/-! ## Entries made and removed -/

/-- An entry made of what is new, or linked to what is no directory. -/
theorem Sound.addAt (sound : tree.Sound isDir) {dir child : ι} (known : tree.known dir = true)
    (fresh : tree.known child = true → isDir child = false) :
    (tree.addAt isDir dir name child).Sound isDir := by
  have other {place : ι} {called : ν} {node : ι}
      (found : tree.entry place called = some node) (directory : isDir node = true) :
      node ≠ child := by
    rintro rfl
    simp [fresh (sound.made found)] at directory
  have kept (node : ι) (was : tree.known node = true) :
      (tree.addAt isDir dir name child).known node = true := by
    by_cases same : node = child
    · simp [Tree.addAt, same]
    · simpa [Tree.addAt, Function.update_of_ne same] using was
  refine sound.reseat (fun node => if node = child then some (dir, name) else none) ?_ ?_ ?_ ?_
    kept ?_
  · refine rooted_hang sound.rooted fun directory higher => ?_
    have made := sound.above_known known higher
    simp [fresh made] at directory
  · intro node place directory seat
    obtain ⟨rfl, rfl⟩ : node = child ∧ place = (dir, name) := by
      by_cases same : node = child
      · exact ⟨same, by simpa [same] using seat.symm⟩
      · simp [same] at seat
    refine ⟨hang_self dir directory, fun there called found => ?_⟩
    by_contra apart
    have unset : ¬(there = dir ∧ called = name) := fun here => apart (by rw [here.1, here.2])
    simp only [Tree.addAt, setEntry_of_ne _ unset] at found
    exact other found directory rfl
  · intro node directory unseated
    have apart : node ≠ child := by
      rintro rfl
      simp at unseated
    refine ⟨hang_of_ne dir apart, fun place called found => ?_⟩
    by_cases here : place = dir ∧ called = name
    · obtain ⟨rfl, rfl⟩ := here
      simp only [Tree.addAt, setEntry_self] at found
      exact absurd (Option.some.inj found).symm apart
    · simpa [Tree.addAt, setEntry_of_ne _ here] using found
  · intro place called node found
    by_cases here : place = dir ∧ called = name
    · obtain ⟨rfl, rfl⟩ := here
      simp only [Tree.addAt, setEntry_self] at found
      simp [Tree.addAt, Option.some.inj found]
    · simp only [Tree.addAt, setEntry_of_ne _ here] at found
      exact kept node (sound.made found)
  · intro node
    by_cases same : node = child
    · cases directory : isDir child with
      | true =>
        exact .inr ⟨by simp [Tree.addAt, same], dir, by simp [Tree.addAt, hang, same, directory],
          kept dir known⟩
      | false => exact .inl (by simp [Tree.addAt, hang, directory])
    · exact .inl (hang_of_ne dir same)

theorem changed_addAt {dir child : ι} (fresh : tree.known child = true → isDir child = false) :
    Changed (· = dir) False tree (tree.addAt isDir dir name child) := by
  refine ⟨fun place apart => setEntry_of_dir name _ apart, fun node known => .inl ?_, ?_⟩
  · by_cases same : node = child
    · simp [Tree.addAt, hang, fresh (same ▸ known)]
    · exact hang_of_ne dir same
  · intro node known
    by_cases same : node = child
    · simp [Tree.addAt, same]
    · simpa [Tree.addAt, Function.update_of_ne same] using known

theorem Sound.removeAt (sound : tree.Sound isDir) (dir child : ι) (name : ν) :
    (tree.removeAt isDir dir name child).Sound isDir := by
  have kept (place : ι) (called : ν) (node : ι)
      (found : (tree.removeAt isDir dir name child).entry place called = some node) :
      tree.entry place called = some node := by
    by_cases here : place = dir ∧ called = name
    · obtain ⟨rfl, rfl⟩ := here
      simp [Tree.removeAt, setEntry_self] at found
    · simpa [Tree.removeAt, setEntry_of_ne _ here] using found
  exact ⟨sound.rooted, fun found => sound.placed (kept _ _ _ found),
    fun found again => sound.once (kept _ _ _ found) (kept _ _ _ again),
    fun found => sound.made (kept _ _ _ found), sound.apart⟩

theorem changed_removeAt (tree : Tree ν ι) (dir child : ι) (name : ν) :
    Changed (· = dir) False tree (tree.removeAt isDir dir name child) :=
  ⟨fun _ apart => setEntry_of_dir name _ apart, fun _ _ => .inl rfl, fun _ known => known⟩

/-! ## Moves -/

/-- Two names set one after the other, told by where one looks. -/
theorem setEntry_setEntry {oldDir newDir place : ι} {oldName newName called : ν}
    {first second : Option ι} :
    ({ tree with entry := tree.setEntry oldDir oldName first }).setEntry newDir newName second place
        called =
      if place = newDir ∧ called = newName then second
      else if place = oldDir ∧ called = oldName then first else tree.entry place called := by
  simp only [setEntry]

section

variable (sound : tree.Sound isDir)

include sound

/-- What stands at a name moved to another, out of the way of where it stands above. -/
theorem Sound.move {oldDir newDir old : ι} {new whiteout : Option ι}
    (stood : tree.entry oldDir oldName = some old) (known : tree.known newDir = true)
    (clear : isDir old = true → ¬AtOrAbove tree.parent old newDir)
    (plain : ∀ node ∈ whiteout, isDir node = false) :
    (tree.move isDir oldDir oldName newDir newName old new whiteout).Sound isDir := by
  have kept (node : ι) (was : tree.known node = true) :
      (tree.move isDir oldDir oldName newDir newName old new whiteout).known node = true := by
    simp [Tree.move, was]
  refine sound.reseat (fun node => if node = old then some (newDir, newName) else none)
    (rooted_hang sound.rooted clear) ?_ ?_ ?_ kept ?_
  · intro node place directory seat
    obtain ⟨rfl, rfl⟩ : node = old ∧ place = (newDir, newName) := by
      by_cases same : node = old
      · exact ⟨same, by simpa [same] using seat.symm⟩
      · simp [same] at seat
    refine ⟨hang_self newDir directory, fun dir name found => ?_⟩
    simp only [Tree.move, setEntry_setEntry] at found
    split at found
    · rename_i here
      rw [here.1, here.2]
    · split at found
      · simp [plain node found] at directory
      · rename_i elsewhere
        exact absurd (sound.once found stood directory) elsewhere
  · intro node directory unseated
    have apart : node ≠ old := by
      rintro rfl
      simp at unseated
    refine ⟨hang_of_ne newDir apart, fun dir name found => ?_⟩
    simp only [Tree.move, setEntry_setEntry] at found
    split at found
    · exact absurd (Option.some.inj found).symm apart
    · split at found
      · simp [plain node found] at directory
      · exact found
  · intro dir name child found
    simp only [Tree.move, setEntry_setEntry] at found
    split at found
    · rw [← Option.some.inj found]
      exact kept old (sound.made stood)
    · split at found
      · simp [Tree.move, found]
      · exact kept child (sound.made found)
  · intro node
    by_cases same : node = old
    · cases directory : isDir old with
      | true =>
        refine .inr ⟨kept node (same ▸ sound.made stood), newDir, ?_, kept newDir known⟩
        simp [Tree.move, hang, same, directory]
      | false => exact .inl (by simp [Tree.move, hang, directory])
    · exact .inl (hang_of_ne newDir same)

theorem Sound.changed_move {oldDir newDir old : ι} {new whiteout : Option ι}
    (stood : tree.entry oldDir oldName = some old) :
    Changed (fun dir => dir = oldDir ∨ dir = newDir) (oldDir ≠ newDir) tree
      (tree.move isDir oldDir oldName newDir newName old new whiteout) := by
  refine ⟨fun dir apart => ?_, fun node _ => ?_, fun node known => by simp [Tree.move, known]⟩
  · obtain ⟨fromOld, fromNew⟩ := not_or.mp apart
    funext name
    simp [Tree.move, setEntry_setEntry, fromOld, fromNew]
  · by_cases same : node = old
    · cases directory : isDir old with
      | true =>
        have points := sound.placed stood directory
        by_cases within : oldDir = newDir
        · exact .inl (by simp [Tree.move, hang, same, directory, points, within])
        · exact .inr ⟨within, oldDir, .inl rfl, same ▸ points⟩
      | false => exact .inl (by simp [Tree.move, hang, directory])
    · exact .inl (hang_of_ne newDir same)

omit sound in
/-- Two names of one entry that is no directory traded are the names they were. -/
theorem exchange_self {oldDir newDir old : ι} (stood : tree.entry oldDir oldName = some old)
    (other : tree.entry newDir newName = some old) (plain : isDir old = false) :
    tree.exchange isDir oldDir oldName newDir newName old old = tree := by
  have entries (place : ι) (called : ν) :
      (if place = newDir ∧ called = newName then some old
        else if place = oldDir ∧ called = oldName then some old else tree.entry place called) =
      tree.entry place called := by
    split
    · rename_i here
      rw [here.1, here.2, other]
    · split
      · rename_i there
        rw [there.1, there.2, stood]
      · rfl
  simp only [Tree.exchange, hang_of_not _ plain]
  congr 1
  funext place called
  exact setEntry_setEntry.trans (entries place called)

/-- What stands at two names traded, neither above where it goes. -/
theorem Sound.exchange_apart (stood : tree.entry oldDir oldName = some old)
    (other : tree.entry newDir newName = some new) (apart : new ≠ old)
    (knownOld : tree.known oldDir = true) (knownNew : tree.known newDir = true)
    (clear : isDir old = true → ¬AtOrAbove tree.parent old newDir)
    (free : isDir new = true → ¬AtOrAbove tree.parent new oldDir) :
    (tree.exchange isDir oldDir oldName newDir newName old new).Sound isDir := by
  have unmoved (upper : ι) (higher : AtOrAbove tree.parent upper oldDir) :
      hang isDir tree.parent old newDir upper = tree.parent upper := by
    unfold hang
    split
    · rename_i directory
      refine Function.update_of_ne ?_ _ _
      rintro rfl
      exact sound.child_clear (sound.placed stood directory) higher
    · rfl
  refine sound.reseat
    (fun node => if node = old then some (newDir, newName)
      else if node = new then some (oldDir, oldName) else none) ?_ ?_ ?_ ?_ (fun _ was => was) ?_
  · refine rooted_hang (rooted_hang sound.rooted clear) fun directory higher => ?_
    exact free directory (higher.imp id fun above => above.of_unchanged unmoved)
  · intro node place directory seat
    by_cases first : node = old
    · subst first
      obtain rfl : (newDir, newName) = place := by simpa using seat
      refine ⟨?_, fun dir name found => ?_⟩
      · simp only [Tree.exchange, hang_of_ne oldDir apart.symm, hang_self newDir directory]
      · simp only [Tree.exchange, setEntry_setEntry] at found
        split at found
        · rename_i here
          rw [here.1, here.2]
        · split at found
          · exact absurd (Option.some.inj found) apart
          · rename_i elsewhere
            exact absurd (sound.once found stood directory) elsewhere
    · by_cases second : node = new
      · subst second
        obtain rfl : (oldDir, oldName) = place := by simpa [first] using seat
        refine ⟨hang_self oldDir directory, fun dir name found => ?_⟩
        simp only [Tree.exchange, setEntry_setEntry] at found
        split at found
        · exact absurd (Option.some.inj found).symm apart
        · rename_i elsewhere
          split at found
          · rename_i here
            rw [here.1, here.2]
          · exact absurd (sound.once found other directory) elsewhere
      · simp [first, second] at seat
  · intro node directory unseated
    have first : node ≠ old := by
      rintro rfl
      simp at unseated
    have second : node ≠ new := by
      rintro rfl
      simp [first] at unseated
    refine ⟨?_, fun dir name found => ?_⟩
    · simp only [Tree.exchange, hang_of_ne oldDir second, hang_of_ne newDir first]
    · simp only [Tree.exchange, setEntry_setEntry] at found
      split at found
      · exact absurd (Option.some.inj found).symm first
      · split at found
        · exact absurd (Option.some.inj found).symm second
        · exact found
  · intro dir name child found
    simp only [Tree.exchange, setEntry_setEntry] at found
    split at found
    · exact Option.some.inj found ▸ sound.made stood
    · split at found
      · exact Option.some.inj found ▸ sound.made other
      · exact sound.made found
  · intro node
    by_cases second : node = new
    · subst second
      cases directory : isDir node with
      | true => exact .inr ⟨sound.made other, oldDir, hang_self oldDir directory, knownOld⟩
      | false =>
        refine .inl ?_
        simp only [Tree.exchange, hang_of_not oldDir directory, hang_of_ne newDir apart]
    · by_cases first : node = old
      · subst first
        simp only [Tree.exchange, hang_of_ne oldDir second]
        cases directory : isDir node with
        | true => exact .inr ⟨sound.made stood, newDir, hang_self newDir directory, knownNew⟩
        | false => exact .inl (by rw [hang_of_not newDir directory])
      · refine .inl ?_
        simp only [Tree.exchange, hang_of_ne oldDir second, hang_of_ne newDir first]

/-- What an exchange of two entries did. -/
theorem Sound.changed_exchange_apart (stood : tree.entry oldDir oldName = some old)
    (other : tree.entry newDir newName = some new) (apart : new ≠ old) :
    Changed (fun dir => dir = oldDir ∨ dir = newDir) (oldDir ≠ newDir) tree
      (tree.exchange isDir oldDir oldName newDir newName old new) := by
  refine ⟨fun dir away => ?_, fun node _ => ?_, fun node known => known⟩
  · obtain ⟨fromOld, fromNew⟩ := not_or.mp away
    funext name
    simp [Tree.exchange, setEntry_setEntry, fromOld, fromNew]
  · by_cases second : node = new
    · subst second
      cases directory : isDir node with
      | true =>
        have points := sound.placed other directory
        by_cases within : oldDir = newDir
        · exact .inl (by simp [Tree.exchange, hang, directory, points, within])
        · exact .inr ⟨within, newDir, .inr rfl, points⟩
      | false =>
        refine .inl ?_
        simp only [Tree.exchange, hang_of_not oldDir directory, hang_of_ne newDir apart]
    · by_cases first : node = old
      · subst first
        simp only [Tree.exchange, hang_of_ne oldDir second]
        cases directory : isDir node with
        | true =>
          have points := sound.placed stood directory
          by_cases within : oldDir = newDir
          · exact .inl (by simp [hang, directory, points, within])
          · exact .inr ⟨within, oldDir, .inl rfl, points⟩
        | false => exact .inl (by simp [hang, directory])
      · refine .inl ?_
        simp only [Tree.exchange, hang_of_ne oldDir second, hang_of_ne newDir first]

/-- What stands at two names traded, also where both name one entry. -/
theorem Sound.exchange (stood : tree.entry oldDir oldName = some old)
    (other : tree.entry newDir newName = some new) (linked : new = old → isDir old = false)
    (knownOld : tree.known oldDir = true) (knownNew : tree.known newDir = true)
    (clear : isDir old = true → ¬AtOrAbove tree.parent old newDir)
    (free : isDir new = true → ¬AtOrAbove tree.parent new oldDir) :
    (tree.exchange isDir oldDir oldName newDir newName old new).Sound isDir ∧
      Changed (fun dir => dir = oldDir ∨ dir = newDir) (oldDir ≠ newDir) tree
        (tree.exchange isDir oldDir oldName newDir newName old new) := by
  by_cases same : new = old
  · subst same
    rw [exchange_self stood other (linked rfl)]
    exact ⟨sound, fun _ _ => rfl, fun _ _ => .inl rfl, fun _ known => known⟩
  · exact ⟨sound.exchange_apart stood other same knownOld knownNew clear free,
      sound.changed_exchange_apart stood other same⟩

/-- A directory found at another name than its dentry's, out of the way of where it stands above. -/
theorem Sound.realias {dir other above : ι} (directory : isDir other = true)
    (stands : tree.parent other = some above) (known : tree.known dir = true)
    (clear : ¬AtOrAbove tree.parent other dir) :
    (tree.realias dir name other).Sound isDir := by
  refine sound.reseat (fun node => if node = other then some (dir, name) else none) ?_ ?_ ?_ ?_
    (fun _ was => was) ?_
  · exact fun node => (sound.rooted node).hang (sound.rooted dir) clear
  · intro node place _ seat
    obtain ⟨rfl, rfl⟩ : node = other ∧ place = (dir, name) := by
      by_cases same : node = other
      · exact ⟨same, by simpa [same] using seat.symm⟩
      · simp [same] at seat
    refine ⟨by simp [Tree.realias], fun there called found => ?_⟩
    by_contra apart
    have unset : ¬(there = dir ∧ called = name) := fun here => apart (by rw [here.1, here.2])
    simp [Tree.realias, setEntry_of_ne _ unset, Option.filter_eq_some_iff] at found
  · intro node _ unseated
    have apart : node ≠ other := by
      rintro rfl
      simp at unseated
    refine ⟨Function.update_of_ne apart _ _, fun there called found => ?_⟩
    by_cases here : there = dir ∧ called = name
    · obtain ⟨rfl, rfl⟩ := here
      simp only [Tree.realias, setEntry_self] at found
      exact absurd (Option.some.inj found).symm apart
    · simp only [Tree.realias, setEntry_of_ne _ here] at found
      exact (Option.filter_eq_some_iff.mp found).1
  · intro there called child found
    by_cases here : there = dir ∧ called = name
    · obtain ⟨rfl, rfl⟩ := here
      simp only [Tree.realias, setEntry_self] at found
      exact Option.some.inj found ▸ sound.child_known stands
    · simp only [Tree.realias, setEntry_of_ne _ here] at found
      exact sound.made (Option.filter_eq_some_iff.mp found).1
  · intro node
    by_cases same : node = other
    · subst same
      exact .inr ⟨sound.child_known stands, dir, by simp [Tree.realias], known⟩
    · exact .inl (Function.update_of_ne same _ _)

theorem Sound.changed_realias {dir other above : ι} (directory : isDir other = true)
    (stands : tree.parent other = some above) :
    Changed (fun place => place = dir ∨ place = above) (above ≠ dir) tree
      (tree.realias dir name other) := by
  refine ⟨fun place away => ?_, fun node _ => ?_, fun _ known => known⟩
  · obtain ⟨here, there⟩ := not_or.mp away
    funext called
    have unset : ¬(place = dir ∧ called = name) := fun both => here both.1
    simp only [Tree.realias, setEntry_of_ne _ unset]
    cases found : tree.entry place called with
    | none => rfl
    | some child =>
      have apart : child ≠ other := by
        rintro rfl
        exact there (Option.some.inj ((sound.placed found directory).symm.trans stands))
      simp [Option.filter, apart]
  · by_cases same : node = other
    · by_cases within : above = dir
      · exact .inl (by simp [Tree.realias, same, stands, within])
      · exact .inr ⟨within, above, .inr rfl, same ▸ stands⟩
    · exact .inl (Function.update_of_ne same _ _)

end

end Tree

end Kobako.Directories
