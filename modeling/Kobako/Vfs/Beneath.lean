import Kobako.Vfs.Tree

/-!
# Containment

A walk steps down into a directory it found where it stands, or up by a `..` that is refused where
it started, whether the caller's path or a link's target spells it. While no directory is moved,
every directory it steps into is therefore the start or beneath it, and so is what it ends on,
whatever else changes on the way.
-/

namespace Kobako.Vfs.Nameidata

variable {D : Type} [DecidableEq D] (env : Env D)

/-- A walk that started at `start` and has not left what is beneath it. -/
structure Inside (start : D) (nd : Nameidata D) : Prop where
  /-- It climbs no further than `start`. -/
  root : nd.root = start
  /-- It stands at or beneath `start`. -/
  dir : env.Beneath start nd.dir
  /-- Every directory it stepped into is at or beneath `start`. -/
  steps : ∀ d ∈ nd.steps, env.Beneath start d

/-- A walk that ended on an entry at or beneath `start`. -/
def EndedWithin (start : D) (nd : Nameidata D) : Prop :=
  ∃ e, nd.path = some e ∧ env.Within start e

variable {env} {start : D} {nd : Nameidata D}

section

omit [DecidableEq D]

/-- Only where the walk stands and what it stepped into is read. -/
theorem Inside.same (inside : Inside env start nd) (nd' : Nameidata D) (root : nd'.root = nd.root)
    (dir : nd'.dir = nd.dir) (steps : nd'.steps = nd.steps) : Inside env start nd' :=
  ⟨root.trans inside.root, dir ▸ inside.dir, steps ▸ inside.steps⟩

/-- Time passing moves no walk. -/
theorem Inside.tick (inside : Inside env start nd) : Inside env start nd.tick :=
  inside.same _ rfl rfl rfl

/-- Stepping into a directory beneath `start` stays inside. -/
theorem Inside.stepInto (inside : Inside env start nd) {d : D} (beneath : env.Beneath start d) :
    Inside env start (nd.stepInto d) :=
  ⟨inside.root, beneath, List.forall_mem_cons.mpr ⟨beneath, inside.steps⟩⟩

/-- A directory found in one beneath `start` is beneath it while it is not moved. -/
theorem beneath_child (still : env.Still) {d c : D} {found seen : Nat}
    (above : env.Beneath start d) (parent : env.parent found c = d) (inner : env.isRoot c = false)
    (dir : env.kind seen c = some .dir) : env.Beneath start c := by
  have isDir : env.IsDir c := ⟨seen, dir⟩
  exact .child above isDir (fun now => (still c isDir now found).trans parent) inner

theorem pickLink_inside (inside : Inside env start nd) (dentry : D) :
    Inside env start (nd.pickLink env dentry).walk := by
  unfold pickLink
  dsimp only
  split
  · exact inside.same _ rfl rfl rfl
  · split
    · exact inside.same _ rfl rfl rfl
    · split
      · exact inside.same _ rfl rfl rfl
      · exact inside.same _ rfl rfl rfl

theorem walkComponent_inside (still : env.Still) (inside : Inside env start nd) (name : String) :
    Inside env start (nd.walkComponent env name).walk := by
  unfold walkComponent
  split
  · exact inside.same _ rfl rfl rfl
  · rename_i dentry found
    obtain ⟨parent, inner⟩ := env.lookup_child found
    dsimp only
    split
    · exact inside.same _ rfl rfl rfl
    · exact pickLink_inside inside.tick.tick dentry
    · rename_i dir
      have beneath := beneath_child still inside.dir parent inner dir
      exact inside.tick.tick.stepInto beneath
    · exact inside.same _ rfl rfl rfl

end

/-- A `..` is refused at the start, so anywhere else it stays beneath it. -/
theorem followDotdot_inside (inside : Inside env start nd) :
    Inside env start (nd.followDotdot env).walk := by
  unfold followDotdot
  split
  · exact inside
  · rename_i below
    have beneath : env.Beneath start (env.parent nd.clock nd.dir) := by
      cases standing : inside.dir with
      | here => exact absurd (.inl inside.root.symm) below
      | child above isDir parent inner =>
        rw [parent nd.clock]
        exact above
    have moved := inside.tick.stepInto beneath
    dsimp only
    split
    · exact moved.same _ rfl rfl rfl
    · exact moved.same _ rfl rfl rfl

theorem advance_inside (still : env.Still) (inside : Inside env start nd) (part : String) :
    Inside env start (nd.advance env part).walk := by
  unfold advance
  split
  · exact inside
  · split
    · exact followDotdot_inside inside
    · exact walkComponent_inside still inside part

/-- The walk to the last name stays inside, whatever links it follows. -/
theorem linkPathWalk_inside (still : env.Still) (inside : Inside env start nd) :
    Inside env start (nd.linkPathWalk env).walk := by
  fun_induction linkPathWalk env nd with
  | case1 nd error refused => exact inside.same _ rfl rfl rfl
  | case2 nd allowed none => exact inside.same _ rfl rfl rfl
  | case3 nd allowed part rest pending slashes left last => exact inside.same _ rfl rfl rfl
  | case4 nd allowed part rest pending slashes left more error after advanced =>
    have moved := advance_inside still
      (inside.same { nd.tick with pending := left } rfl rfl rfl) part
    rw [advanced, Walked.walk] at moved
    exact moved
  | case5 nd allowed part rest pending slashes left more after advanced ih =>
    have moved := advance_inside still
      (inside.same { nd.tick with pending := left } rfl rfl rfl) part
    rw [advanced, Walked.walk] at moved
    exact ih moved

theorem followLast_inside (still : env.Still) (inside : Inside env start nd) (child : D) :
    Inside env start (nd.followLast env child).walk := by
  have picked := pickLink_inside inside child
  unfold followLast
  split
  · rename_i after failed
    rw [failed, Walked.walk] at picked
    exact picked
  · rename_i after followed
    rw [followed, Walked.walk] at picked
    exact linkPathWalk_inside still picked

/-- A last `.` or `..` ends on the directory the walk stands in. -/
theorem handleDots_inside (inside : Inside env start nd) :
    Inside env start (nd.handleDots env).walk ∧
      ∀ nd', nd.handleDots env = .ok () nd' → EndedWithin env start nd' := by
  have moved := followDotdot_inside inside
  unfold handleDots
  split
  · split
    · rename_i after failed
      rw [failed, Walked.walk] at moved
      exact ⟨moved, fun _ ended => by cases ended⟩
    · rename_i after climbed
      rw [climbed, Walked.walk] at moved
      refine ⟨moved.same _ rfl rfl rfl, ?_⟩
      rintro nd' ⟨⟩
      exact ⟨after.dir, rfl, .inl moved.dir⟩
  · refine ⟨inside.same _ rfl rfl rfl, ?_⟩
    rintro nd' ⟨⟩
    exact ⟨nd.dir, rfl, .inl inside.dir⟩

/-- Looking the last name up stays inside and ends inside. -/
theorem lookupLast_inside (still : env.Still) (inside : Inside env start nd) (follow : Bool) :
    Inside env start (nd.lookupLast env follow).walk ∧
      ∀ nd', nd.lookupLast env follow = .ok () nd' → EndedWithin env start nd' := by
  fun_induction lookupLast env nd follow with
  | case1 nd follow dots => exact handleDots_inside inside
  | case2 nd follow norm asked error failed =>
    exact ⟨inside.same _ rfl rfl rfl, fun _ ended => by cases ended⟩
  | case3 nd follow norm asked child found ended none =>
    exact ⟨inside.same _ rfl rfl rfl, fun _ ended => by cases ended⟩
  | case4 nd follow norm following asked child found ended kind stands last done =>
    obtain ⟨parent, inner⟩ := env.lookup_child found
    refine ⟨inside.same _ rfl rfl rfl, ?_⟩
    rintro nd' ⟨⟩
    exact ⟨child, rfl, .inr ⟨nd.dir, asked.clock, inside.dir, parent, inner⟩⟩
  | case5 nd follow norm following asked child found ended kind stands last more error after
      followed =>
    have moved := followLast_inside still (inside.same last.tick rfl rfl rfl) child
    rw [followed, Walked.walk] at moved
    exact ⟨moved, fun _ ended => by cases ended⟩
  | case6 nd follow norm following asked child found ended kind stands last more after followed
      ih =>
    have moved := followLast_inside still (inside.same last.tick rfl rfl rfl) child
    rw [followed, Walked.walk] at moved
    exact ih moved

theorem completeWalk_inside (inside : Inside env start nd) :
    Inside env start (nd.completeWalk env).walk := by
  unfold completeWalk
  split
  · exact inside.same _ rfl rfl rfl
  · exact inside.same _ rfl rfl rfl

variable {nd' : Nameidata D} {how : OpenHow} {result : Opened}

/-- Completing a walk changes nothing it ended on. -/
theorem completeWalk_ok (completed : nd.completeWalk env = .ok () nd') :
    nd' = nd.tick := by
  unfold completeWalk at completed
  split at completed
  · cases completed
    rfl
  · cases completed

theorem pathLookupat_inside (still : env.Still) (inside : Inside env start nd) (follow : Bool) :
    Inside env start (nd.pathLookupat env follow).walk ∧
      ∀ nd', nd.pathLookupat env follow = .ok () nd' → EndedWithin env start nd' := by
  have walked := linkPathWalk_inside still inside
  unfold pathLookupat
  split
  · rename_i after failed
    rw [failed, Walked.walk] at walked
    exact ⟨walked, fun _ ended => by cases ended⟩
  · rename_i middle reached
    rw [reached, Walked.walk] at walked
    obtain ⟨looked, ends⟩ := lookupLast_inside still walked follow
    split
    · rename_i after failed
      rw [failed, Walked.walk] at looked
      exact ⟨looked, fun _ ended => by cases ended⟩
    · rename_i last found
      rw [found, Walked.walk] at looked
      have within := ends last found
      have completed := completeWalk_inside looked
      split
      · rename_i after failed
        rw [failed, Walked.walk] at completed
        exact ⟨completed, fun _ ended => by cases ended⟩
      · rename_i after done
        rw [done, Walked.walk] at completed
        have same := completeWalk_ok done
        split
        · exact ⟨completed.same _ rfl rfl rfl, fun _ ended => by cases ended⟩
        · split
          · exact ⟨completed.same _ rfl rfl rfl, fun _ ended => by cases ended⟩
          · refine ⟨completed.same _ rfl rfl rfl, ?_⟩
            rintro nd' ⟨⟩
            rw [same]
            exact within

/-! ## Opens -/

/-- A dentry that stood in `d` when it was found. -/
def FoundIn (env : Env D) (d c : D) : Prop := ∃ now, env.parent now c = d ∧ env.isRoot c = false

section

omit [DecidableEq D]

/-- What an open's lookup hands back was found in the directory asked. -/
theorem askOpen_spliced {given c : D} {gotWrite : Except FsError Unit} {opened : AtomicOpen D}
    (asked : (nd.askOpen env given how gotWrite).1 = .ok opened)
    (spliced : opened.spliced = some c) : FoundIn env nd.dir c := by
  unfold askOpen at asked
  dsimp only at asked
  split at asked
  · cases asked
  · exact ⟨_, env.spliced_child asked spliced⟩
  · split at asked
    · cases asked
      cases spliced
    · exact ⟨_, env.spliced_child asked spliced⟩

/-- A settled open ends on the dentry it was settled for. -/
theorem settleOpen_ok {child c : D} {opened : AtomicOpen D} {refused : Option FsError}
    (settled : nd.settleOpen env how child opened refused = .ok (c, result) nd') :
    c = child ∧ nd'.path = some child := by
  unfold settleOpen at settled
  dsimp only at settled
  split at settled
  · cases settled
  · split at settled
    · cases settled
      exact ⟨rfl, rfl⟩
    · split at settled
      · cases settled
      · split at settled
        · cases settled
        · cases settled
          exact ⟨rfl, rfl⟩

theorem openGiven_ok {gotWrite : Except FsError Unit} {given c : D}
    (taken : FoundIn env nd.dir given)
    (opened : nd.openGiven env how gotWrite given = .ok (c, result) nd') :
    nd'.path = some c ∧ FoundIn env nd.dir c := by
  unfold openGiven at opened
  split at opened
  · cases opened
  · cases opened
  · rename_i answer refused asked
    obtain ⟨rfl, path⟩ := settleOpen_ok opened
    refine ⟨path, ?_⟩
    cases spliced : answer.spliced with
    | none => exact taken
    | some other =>
      have told : (nd.askOpen env given how gotWrite).1 = .ok answer := by rw [asked]
      exact askOpen_spliced told spliced

theorem lookupOpen_ok {c : D} (opened : nd.lookupOpen env how = .ok (c, result) nd') :
    nd'.path = some c ∧ FoundIn env nd.dir c := by
  unfold lookupOpen at opened
  dsimp only at opened
  split at opened
  · cases opened
  · split at opened
    · cases opened
    · rename_i given allocated
      have taken : FoundIn env nd.tick.tick.tick.dir given := ⟨_, env.alloc_child allocated⟩
      obtain ⟨ends, found⟩ := openGiven_ok taken opened
      exact ⟨ends, found⟩

/-- What an open finds at its last name was found in the directory the walk stands in. -/
theorem findForOpen_ok {c : D} (opened : nd.findForOpen env how = .ok (c, result) nd') :
    nd'.path = some c ∧ FoundIn env nd.dir c := by
  unfold findForOpen at opened
  split at opened
  · cases opened
  · rename_i child after held
    dsimp only at opened
    split at opened
    · cases opened
    · cases opened
      refine ⟨rfl, nd.clock, ?_⟩
      unfold lookupFastForOpen at held
      split at held
      · cases held
      · split at held
        · cases held
        · rename_i found answered
          have filtered := (EStateM.Result.ok.inj held).1
          obtain ⟨rfl, -⟩ := Option.filter_eq_some_iff.mp filtered
          exact env.lookupFast_child answered
  · rename_i after none
    have stays : nd.Stays after := by
      unfold lookupFastForOpen at none
      split at none
      · cases none
        exact ⟨rfl, rfl, rfl, rfl⟩
      · split at none
        · cases none
        · obtain ⟨-, rfl⟩ := EStateM.Result.ok.inj none
          exact ⟨rfl, rfl, rfl, rfl⟩
    have found := lookupOpen_ok opened
    rw [stays.dir] at found
    exact found

/-- Finding the last name steps nowhere. -/
theorem Inside.findForOpen (inside : Inside env start nd) (how : OpenHow) :
    Inside env start (Nameidata.findForOpen env
      { nd with lookupDirectory := nd.lookupDirectory || nd.trailingSlash } how).walk :=
  have stays := findForOpen_stays env _ how
  inside.same _ stays.root stays.dir stays.steps

end

/-- Finding the last name of an open stays inside and ends inside. -/
theorem openLastLookups_inside (still : env.Still) (inside : Inside env start nd) (how : OpenHow)
    (follow : Bool) :
    Inside env start (nd.openLastLookups env how follow).walk ∧
      ∀ opened nd', nd.openLastLookups env how follow = .ok opened nd' →
        EndedWithin env start nd' := by
  fun_induction openLastLookups env nd how follow with
  | case1 nd follow dots error after failed =>
    have moved := (handleDots_inside inside).1
    rw [failed, Walked.walk] at moved
    exact ⟨moved, fun _ _ ended => by cases ended⟩
  | case2 nd follow dots after ended =>
    obtain ⟨moved, ends⟩ := handleDots_inside inside
    rw [ended, Walked.walk] at moved
    refine ⟨moved, ?_⟩
    rintro opened nd' ⟨⟩
    exact ends after ended
  | case3 nd follow norm makes => exact ⟨inside, fun _ _ ended => by cases ended⟩
  | case4 nd follow norm keeps error after failed =>
    have moved := inside.findForOpen how
    rw [failed, Walked.walk] at moved
    exact ⟨moved, fun _ _ ended => by cases ended⟩
  | case5 nd follow norm keeps following child opened after found done =>
    have moved := inside.findForOpen how
    rw [found, Walked.walk] at moved
    obtain ⟨path, now, parent, inner⟩ := findForOpen_ok found
    refine ⟨moved.same _ rfl rfl rfl, ?_⟩
    rintro opened nd' ⟨⟩
    exact ⟨child, path, .inr ⟨nd.dir, now, inside.dir, parent, inner⟩⟩
  | case6 nd follow norm keeps following child opened after found more error onward followed =>
    have moved := inside.findForOpen how
    rw [found, Walked.walk] at moved
    have walked := followLast_inside still (moved.same after.tick rfl rfl rfl) child
    rw [followed, Walked.walk] at walked
    exact ⟨walked, fun _ _ ended => by cases ended⟩
  | case7 nd follow norm keeps following child opened after found more onward followed ih =>
    have moved := inside.findForOpen how
    rw [found, Walked.walk] at moved
    have walked := followLast_inside still (moved.same after.tick rfl rfl rfl) child
    rw [followed, Walked.walk] at walked
    exact ih walked

/-- Opening what the walk ended on opens that and steps nowhere. -/
theorem doOpen_inside (inside : Inside env start nd) {child : D} (within : env.Within start child)
    (opened : Opened) (op : OpenFlags) :
    Inside env start (nd.doOpen env child opened op).walk ∧
      ∀ e nd', nd.doOpen env child opened op = .ok e nd' → env.Within start e := by
  have refused : ∀ (error : FsError) (after : Nameidata D), Inside env start after →
      Inside env start (Walked.walk (.error error after : Walked D D)) ∧
        ∀ e nd', (.error error after : Walked D D) = .ok e nd' → env.Within start e :=
    fun _ _ kept => ⟨kept, fun _ _ ended => by cases ended⟩
  have completed : Inside env start (Walked.walk (if opened.file || opened.created then
      (.ok () nd : Walked D Unit) else nd.completeWalk env)) := by
    split
    · exact inside
    · exact completeWalk_inside inside
  unfold doOpen
  dsimp only
  split
  · rename_i after failed
    rw [failed, Walked.walk] at completed
    exact refused _ _ completed
  · rename_i after done
    rw [done, Walked.walk] at completed
    split
    · exact refused _ _ completed.tick
    · split
      · exact refused _ _ completed.tick
      · split
        · exact refused _ _ completed.tick.tick
        · split
          · exact refused _ _ completed.tick.tick.tick
          · split
            · exact refused _ _ completed.tick.tick.tick.tick
            · refine ⟨completed.tick.tick.tick.tick, ?_⟩
              rintro e nd' ⟨⟩
              exact within

theorem doOPath_inside (still : env.Still) (inside : Inside env start nd) (op : OpenFlags) :
    Inside env start (nd.doOPath env op).walk ∧
      ∀ e nd', nd.doOPath env op = .ok e nd' → env.Within start e := by
  obtain ⟨looked, ends⟩ := pathLookupat_inside still inside op.lookupFollow
  unfold doOPath
  split
  · rename_i after failed
    rw [failed, Walked.walk] at looked
    exact ⟨looked, fun _ _ ended => by cases ended⟩
  · rename_i after found
    rw [found, Walked.walk] at looked
    obtain ⟨entry, path, within⟩ := ends after found
    rw [path]
    dsimp only
    split
    · exact ⟨looked.same _ rfl rfl rfl, fun _ _ ended => by cases ended⟩
    · split
      · exact ⟨looked.same _ rfl rfl rfl, fun _ _ ended => by cases ended⟩
      · refine ⟨looked.same _ rfl rfl rfl, ?_⟩
        rintro e nd' ⟨⟩
        exact within

theorem pathOpenat_inside (still : env.Still) (inside : Inside env start nd) (op : OpenFlags) :
    Inside env start (nd.pathOpenat env op).walk ∧
      ∀ e nd', nd.pathOpenat env op = .ok e nd' → env.Within start e := by
  have begun : Inside env start { nd with lookupDirectory := op.lookupDirectory } :=
    inside.same _ rfl rfl rfl
  have walked := linkPathWalk_inside still begun
  unfold pathOpenat
  dsimp only
  split
  · exact doOPath_inside still begun op
  · split
    · rename_i after failed
      rw [failed, Walked.walk] at walked
      exact ⟨walked, fun _ _ ended => by cases ended⟩
    · rename_i middle reached
      rw [reached, Walked.walk] at walked
      obtain ⟨looked, ends⟩ := openLastLookups_inside still walked op.openFlag op.lookupFollow
      split
      · rename_i after failed
        rw [failed, Walked.walk] at looked
        exact ⟨looked, fun _ _ ended => by cases ended⟩
      · rename_i opened after found
        rw [found, Walked.walk] at looked
        obtain ⟨entry, path, within⟩ := ends opened after found
        rw [path]
        exact doOpen_inside looked within opened op

/-! ## Calls -/

omit [DecidableEq D] in
/-- A walk a call makes starts inside, having stepped only where the one before it did. -/
theorem setNameidata_inside (path : String) (carried : Carried D)
    (steps : ∀ d ∈ carried.steps, env.Beneath start d) :
    Inside env start (setNameidata env start path carried).walk := by
  have begun : Inside env start (fresh start path carried) := ⟨rfl, .here, steps⟩
  unfold setNameidata
  dsimp only
  split
  · exact begun
  · split
    · exact begun
    · split
      · exact begun.same _ rfl rfl rfl
      · exact begun.same _ rfl rfl rfl
      · exact begun.same _ rfl rfl rfl

omit [DecidableEq D] in
/-- A call whose walks stay inside stays inside when one is made again. -/
theorem walkWithReval_inside {α : Type} {walk : Carried D → Walked D α}
    {Ends : α → Nameidata D → Prop}
    (inside : ∀ carried : Carried D, (∀ d ∈ carried.steps, env.Beneath start d) →
      Inside env start (walk carried).walk ∧ ∀ a nd, walk carried = .ok a nd → Ends a nd) :
    Inside env start (walkWithReval walk).walk ∧
      ∀ a nd, walkWithReval walk = .ok a nd → Ends a nd := by
  have first := inside ⟨0, 0, []⟩ (by simp)
  unfold walkWithReval
  split
  · rename_i after stale
    rw [stale, Walked.walk] at first
    exact inside after.carry first.1.steps
  · exact first

/-- While no directory is moved, every directory a walk steps into is the one it started from or
beneath it, whether it answers or fails, and so is what it ends on: the entry a lookup finds, the
directory a name is left in, and the entry an open opens or makes. -/
theorem walks_stay_beneath (env : Env D) (still : env.Still) (start : D) (path : String) :
    (∀ follow,
      (∀ d ∈ (filenameLookup env start path follow).walk.steps, env.Beneath start d) ∧
        ∀ nd, filenameLookup env start path follow = .ok () nd → EndedWithin env start nd) ∧
      ((∀ d ∈ (filenameParentat env start path).walk.steps, env.Beneath start d) ∧
        ∀ nd, filenameParentat env start path = .ok () nd → env.Beneath start nd.dir) ∧
      ∀ op,
        (∀ d ∈ (doFileOpen env start path op).walk.steps, env.Beneath start d) ∧
          ∀ e nd, doFileOpen env start path op = .ok e nd → env.Within start e := by
  have begins : ∀ carried : Carried D, (∀ d ∈ carried.steps, env.Beneath start d) →
      Inside env start (setNameidata env start path carried).walk :=
    fun carried steps => setNameidata_inside path carried steps
  refine ⟨?_, ?_, ?_⟩
  · intro follow
    have inside : Inside env start (filenameLookup env start path follow).walk ∧
        ∀ (a : Unit) nd, filenameLookup env start path follow = .ok a nd →
          EndedWithin env start nd := by
      apply walkWithReval_inside
      intro carried steps
      have begun := begins carried steps
      split
      · rename_i after failed
        rw [failed, Walked.walk] at begun
        exact ⟨begun, fun _ _ ended => by cases ended⟩
      · rename_i nd ready
        rw [ready, Walked.walk] at begun
        obtain ⟨kept, ends⟩ := pathLookupat_inside still begun follow
        exact ⟨kept, fun _ nd' ended => ends nd' ended⟩
    exact ⟨inside.1.steps, inside.2 ()⟩
  · have inside : Inside env start (filenameParentat env start path).walk ∧
        ∀ (a : Unit) nd, filenameParentat env start path = .ok a nd →
          env.Beneath start nd.dir := by
      apply walkWithReval_inside
      intro carried steps
      have begun := begins carried steps
      split
      · rename_i after failed
        rw [failed, Walked.walk] at begun
        exact ⟨begun, fun _ _ ended => by cases ended⟩
      · rename_i nd ready
        rw [ready, Walked.walk] at begun
        have walked := linkPathWalk_inside still begun
        split
        · rename_i after failed
          rw [failed, Walked.walk] at walked
          exact ⟨walked, fun _ _ ended => by cases ended⟩
        · rename_i after reached
          rw [reached, Walked.walk] at walked
          refine ⟨completeWalk_inside walked, ?_⟩
          intro _ nd' completed
          rw [completeWalk_ok completed]
          exact walked.dir
    exact ⟨inside.1.steps, inside.2 ()⟩
  · intro op
    have inside : Inside env start (doFileOpen env start path op).walk ∧
        ∀ e (nd : Nameidata D), doFileOpen env start path op = .ok e nd →
          env.Within start e := by
      apply walkWithReval_inside
      intro carried steps
      have begun := begins carried steps
      split
      · rename_i after failed
        rw [failed, Walked.walk] at begun
        exact ⟨begun, fun _ _ ended => by cases ended⟩
      · rename_i nd ready
        rw [ready, Walked.walk] at begun
        exact pathOpenat_inside still begun op
    exact ⟨inside.1.steps, inside.2⟩

/-- A link up out of `sub` and one out of `d` followed from `d` step only into `d` and `sub`. -/
theorem walks_stay_beneath_shared :
    Tree.shared.env.Still ∧
      ∀ d ∈ (filenameLookup Tree.shared.env ["d"] "sub/up/out" true).walk.steps,
        Tree.shared.env.Beneath ["d"] d :=
  have still := Tree.shared.env_still
  ⟨still, ((walks_stay_beneath Tree.shared.env still ["d"] "sub/up/out").1 true).1⟩

end Kobako.Vfs.Nameidata
