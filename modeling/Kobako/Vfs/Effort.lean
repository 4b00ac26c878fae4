import Kobako.Vfs.Namei

/-!
# What a walk costs

How much work the loops of a walk do: how many rounds they make, how many names they take off those
still to walk, and how many links they follow. Each loop is counted by a function that makes its
choices again and adds up what each round does. A link is counted once one more may be followed,
and puts its target's names before the ones left, so what is taken off was there from the start or
was put there by a link counted: two walks of one path and `MAXSYMLINKS` links bound a whole call,
whatever the links point at.
-/

namespace Kobako.Vfs

/-- The work done by the loops of a walk. -/
structure Effort where
  /-- How many rounds the loops made. -/
  rounds : Nat
  /-- How many names were taken off those still to walk. -/
  names : Nat
  /-- How many links were followed. -/
  links : Nat
deriving Repr, DecidableEq

namespace Effort

/-- No work at all. -/
def none : Effort := ⟨0, 0, 0⟩

/-- One round begun. -/
def round : Effort := ⟨1, 0, 0⟩

instance : Add Effort := ⟨fun one two =>
  ⟨one.rounds + two.rounds, one.names + two.names, one.links + two.links⟩⟩

@[simp]
theorem add_rounds (one two : Effort) : (one + two).rounds = one.rounds + two.rounds := rfl

@[simp]
theorem add_names (one two : Effort) : (one + two).names = one.names + two.names := rfl

@[simp]
theorem add_links (one two : Effort) : (one + two).links = one.links + two.links := rfl

theorem add_assoc (one two three : Effort) : one + two + three = one + (two + three) := by
  show (⟨_, _, _⟩ : Effort) = ⟨_, _, _⟩
  simp only [Effort.mk.injEq, add_rounds, add_names, add_links]
  omega

end Effort

/-- How many names a link puts before those still to walk, one where it points nowhere. -/
def targetParts (target : String) : Nat := (parts (if target.isEmpty then "." else target)).length

namespace Nameidata

variable {D : Type} [DecidableEq D] (env : Env D)

/-! ## Counted -/

/-- What `Nameidata::pick_link` does: a link is followed unless too many were. -/
def pickLinkEffort (nd : Nameidata D) : Effort :=
  ⟨0, 0, if nd.totalLinkCount + 1 > maxSymlinks then 0 else 1⟩

/-- What `Nameidata::walk_component` does. -/
def walkComponentEffort (nd : Nameidata D) (name : String) : Effort :=
  match env.lookup nd.clock nd.dir name with
  | .error _ => .none
  | .ok dentry =>
    match env.kind nd.tick.clock dentry with
    | some .symlink => nd.tick.tick.pickLinkEffort
    | _ => .none

/-- What a name that is not the last costs `Nameidata::link_path_walk`. -/
def advanceEffort (nd : Nameidata D) (part : String) : Effort :=
  if part = "." then .none
  else if part = ".." then .none
  else nd.walkComponentEffort env part

/-- What the loop of `Nameidata::link_path_walk` does: each round takes a name off, and the slashes
after it. -/
def linkPathWalkEffort (nd : Nameidata D) : Effort :=
  .round + match env.permission nd.clock nd.dir with
  | .error _ => .none
  | .ok () =>
    match _pending : nd.tick.pending with
    | [] => .none
    | part :: rest =>
      let slashes := (rest.takeWhile String.isEmpty).length
      let left := rest.drop slashes
      ⟨0, 1 + slashes, 0⟩ +
        if left.isEmpty then .none
        else
          { nd.tick with pending := left }.advanceEffort env part +
            match _advanced : { nd.tick with pending := left }.advance env part with
            | .error _ _ => .none
            | .ok () after => linkPathWalkEffort after
termination_by (nd.linksLeft, nd.pending.length)
decreasing_by
  have spelled : nd.pending = part :: rest := _pending
  rcases advance_ok env _advanced with ⟨links, names⟩ | ⟨links, few⟩
  · have same : after.linksLeft = nd.linksLeft := by
      unfold linksLeft
      rw [links]
      rfl
    rw [same, names, spelled]
    apply Prod.Lex.right
    rw [List.length_drop, List.length_cons]
    omega
  · apply Prod.Lex.left
    have counted : after.totalLinkCount = nd.totalLinkCount + 1 := links
    unfold linksLeft
    omega

/-- What a link at the last name costs. -/
def followLastEffort (nd : Nameidata D) (child : D) : Effort :=
  nd.pickLinkEffort + match nd.pickLink env child with
  | .error _ _ => .none
  | .ok () nd => nd.linkPathWalkEffort env

/-- What the loop of `Nameidata::lookup_last` does. -/
def lookupLastEffort (nd : Nameidata D) (follow : Bool) : Effort :=
  .round + if nd.lastType ≠ .norm then .none
  else
    let follow := follow || nd.trailingSlash
    let nd' := { nd with lookupDirectory := nd.lookupDirectory || nd.trailingSlash }
    match env.lookup nd'.clock nd'.dir nd'.last with
    | .error _ => .none
    | .ok child =>
      let nd' := { nd'.tick with path := some child }
      match env.kind nd'.clock child with
      | none => .none
      | some _ =>
        let nd' := nd'.tick
        if follow = false ∨ env.kind nd'.clock child ≠ some .symlink then .none
        else
          nd'.tick.followLastEffort env child +
            match _followed : nd'.tick.followLast env child with
            | .error _ _ => .none
            | .ok () after => lookupLastEffort after follow
termination_by nd.linksLeft
decreasing_by
  have fewer := followLast_ok env _followed
  exact fewer

/-- What the loop of `Nameidata::open_last_lookups` does. -/
def openLastLookupsEffort (nd : Nameidata D) (how : OpenHow) (follow : Bool) : Effort :=
  .round + if nd.lastType ≠ .norm then .none
  else if nd.trailingSlash && how.create then .none
  else
    let follow := follow || nd.trailingSlash
    match _found : { nd with
        lookupDirectory := nd.lookupDirectory || nd.trailingSlash }.findForOpen env how with
    | .error _ _ => .none
    | .ok (child, opened) after =>
      if opened.file || opened.created || !follow ||
          env.kind after.clock child ≠ some .symlink then .none
      else
        after.tick.followLastEffort env child +
          match _followed : after.tick.followLast env child with
          | .error _ _ => .none
          | .ok () onward => openLastLookupsEffort onward how follow
termination_by nd.linksLeft
decreasing_by
  have fewer := followLast_ok env _followed
  have ticked : after.tick.linksLeft = after.linksLeft := rfl
  have stays := findForOpen_stays env { nd with
    lookupDirectory := nd.lookupDirectory || nd.trailingSlash } how
  rw [_found] at stays
  have kept : after.linksLeft = nd.linksLeft := by
    have links : after.totalLinkCount = nd.totalLinkCount := stays.links
    unfold linksLeft
    rw [links]
  omega

/-- What `namei::path_lookupat` does. -/
def pathLookupatEffort (nd : Nameidata D) (follow : Bool) : Effort :=
  nd.linkPathWalkEffort env + match nd.linkPathWalk env with
  | .error _ _ => .none
  | .ok () nd => nd.lookupLastEffort env follow

/-- What `namei::path_openat` does. -/
def pathOpenatEffort (nd : Nameidata D) (op : OpenFlags) : Effort :=
  let nd := { nd with lookupDirectory := op.lookupDirectory }
  if !op.openFlag.read && !op.openFlag.write then nd.pathLookupatEffort env op.lookupFollow
  else
    nd.linkPathWalkEffort env + match nd.linkPathWalk env with
    | .error _ _ => .none
    | .ok () nd => nd.openLastLookupsEffort env op.openFlag op.lookupFollow

/-- What the walks `namei::walk_with_reval` makes do, each as `effort` counts it. -/
def walkWithRevalEffort {α : Type} (walk : Carried D → Walked D α) (effort : Carried D → Effort) :
    Effort :=
  effort ⟨0, 0, []⟩ + match walk ⟨0, 0, []⟩ with
  | .error .staleNetworkFileHandle nd => effort nd.carry
  | _ => .none

/-- One walk of `namei::filename_parentat`. -/
def parentatWalk (start : D) (path : String) (carried : Carried D) : Walked D Unit :=
  match setNameidata env start path carried with
  | .error error nd => .error error nd
  | .ok () nd =>
    match nd.linkPathWalk env with
    | .error error nd => .error error nd
    | .ok () nd => nd.completeWalk env

/-- One walk of `namei::filename_lookup`. -/
def lookupWalk (start : D) (path : String) (follow : Bool) (carried : Carried D) : Walked D Unit :=
  match setNameidata env start path carried with
  | .error error nd => .error error nd
  | .ok () nd => nd.pathLookupat env follow

/-- One walk of `namei::do_file_open`. -/
def openWalk (start : D) (path : String) (op : OpenFlags) (carried : Carried D) : Walked D D :=
  match setNameidata env start path carried with
  | .error error nd => .error error nd
  | .ok () nd => nd.pathOpenat env op

/-- What a walk set up for a path does, `effort` where it is not refused. -/
def startedEffort (start : D) (path : String) (effort : Nameidata D → Effort)
    (carried : Carried D) : Effort :=
  match setNameidata env start path carried with
  | .error _ _ => .none
  | .ok () nd => effort nd

/-- What `namei::filename_parentat` does. -/
def filenameParentatEffort (start : D) (path : String) : Effort :=
  walkWithRevalEffort (parentatWalk env start path)
    (startedEffort env start path fun nd => nd.linkPathWalkEffort env)

/-- What `namei::filename_lookup` does. -/
def filenameLookupEffort (start : D) (path : String) (follow : Bool) : Effort :=
  walkWithRevalEffort (lookupWalk env start path follow)
    (startedEffort env start path fun nd => nd.pathLookupatEffort env follow)

/-- What `namei::do_file_open` does. -/
def doFileOpenEffort (start : D) (path : String) (op : OpenFlags) : Effort :=
  walkWithRevalEffort (openWalk env start path op)
    (startedEffort env start path fun nd => nd.pathOpenatEffort env op)

/-! ## Spent -/

/-- No link points at more than so many names. -/
def ShortLinks (env : Env D) (most : Nat) : Prop :=
  ∀ now dentry target, env.getLink now dentry = .ok target → targetParts target ≤ most

/-- What a method of a walk spends: the names it takes off were there or come from links it
followed, each of at most `most` names; it makes a round for each name, two for each link and so
many more; it follows no link too many, and every link it followed is counted on. -/
structure Spent {α : Type} (most slack : Nat) (nd : Nameidata D) (effort : Effort)
    (walked : Walked D α) : Prop where
  names : ShortLinks env most →
    effort.names + walked.walk.pending.length ≤ nd.pending.length + effort.links * most
  rounds : effort.rounds ≤ effort.names + 2 * effort.links + slack
  links : nd.totalLinkCount ≤ maxSymlinks → nd.totalLinkCount + effort.links ≤ maxSymlinks
  counted : walked.walk.totalLinkCount = nd.totalLinkCount + effort.links ∨
    ∃ after, walked = .error .filesystemLoop after

namespace Spent

variable {env} {α β : Type} {most slack more : Nat} {nd nd' after : Nameidata D} {effort other : Effort}

omit [DecidableEq D]

variable {walked : Walked D α}

/-- A method that takes no name and follows no link spends nothing. -/
theorem quiet (pending : walked.walk.pending = nd.pending)
    (links : walked.walk.totalLinkCount = nd.totalLinkCount) :
    Spent env most slack nd .none walked where
  names := by simp [Effort.none, pending]
  rounds := by simp [Effort.none]
  links few := by simpa [Effort.none] using few
  counted := .inl links

/-- One method after another spends what both do. -/
theorem next {a : α} {walked : Walked D β}
    (one : Spent env most slack nd effort (.ok a nd' : Walked D α))
    (two : Spent env most more nd' other walked) :
    Spent env most (slack + more) nd (effort + other) walked where
  names short := by
    have first := one.names short
    have second := two.names short
    simp only [Walked.walk] at first
    rw [Effort.add_names, Effort.add_links, Nat.add_mul]
    omega
  rounds := by
    have first := one.rounds
    have second := two.rounds
    rw [Effort.add_rounds, Effort.add_names, Effort.add_links]
    omega
  links few := by
    have first := one.links few
    rcases one.counted with same | ⟨_, failed⟩
    · simp only [Walked.walk] at same
      have second := two.links (by omega)
      rw [Effort.add_links]
      omega
    · cases failed
  counted := by
    rcases one.counted with same | ⟨_, failed⟩
    · simp only [Walked.walk] at same
      rcases two.counted with counted | failed
      · refine .inl ?_
        rw [Effort.add_links]
        omega
      · exact .inr failed
    · cases failed

/-- A failure is handed on as it is. -/
theorem recast {error : FsError}
    (spent : Spent env most slack nd effort (.error error after : Walked D α)) :
    Spent env most slack nd effort (.error error after : Walked D β) where
  names := spent.names
  rounds := spent.rounds
  links := spent.links
  counted := by
    rcases spent.counted with counted | ⟨last, same⟩
    · exact .inl counted
    · cases same
      exact .inr ⟨after, rfl⟩

/-- A failure ends the method it happens in. -/
theorem failed {error : FsError}
    (spent : Spent env most slack nd effort (.error error after : Walked D α)) :
    Spent env most slack nd (effort + .none) (.error error after : Walked D β) :=
  spent.recast

/-- What comes after a method and neither takes a name nor follows a link spends no more. -/
theorem stays {a : α} {walked : Walked D β}
    (spent : Spent env most slack nd effort (.ok a nd' : Walked D α))
    (pending : walked.walk.pending = nd'.pending)
    (links : walked.walk.totalLinkCount = nd'.totalLinkCount) :
    Spent env most slack nd effort walked where
  names short := by
    rw [pending]
    exact spent.names short
  rounds := spent.rounds
  links := spent.links
  counted := by
    rcases spent.counted with counted | ⟨_, failed⟩
    · rw [links]
      exact .inl counted
    · cases failed

/-- What the rounds are bounded by may be told otherwise. -/
theorem rated (spent : Spent env most slack nd effort walked)
    (rounds : effort.rounds ≤ effort.names + 2 * effort.links + more) :
    Spent env most more nd effort walked where
  names := spent.names
  rounds := rounds
  links := spent.links
  counted := spent.counted

theorem looser (spent : Spent env most slack nd effort walked) :
    Spent env most (slack + 1) nd effort walked :=
  spent.rated (Nat.le_succ_of_le spent.rounds)

/-- A round begun before what a method spends. -/
theorem begun (spent : Spent env most slack nd effort walked) :
    Spent env most (slack + 1) nd (.round + effort) walked where
  names := by
    rw [Effort.add_names, Effort.add_links, Effort.round, Nat.zero_add, Nat.zero_add]
    exact spent.names
  rounds := by
    have rounds := spent.rounds
    simp only [Effort.add_rounds, Effort.add_names, Effort.add_links, Effort.round]
    omega
  links := by
    rw [Effort.add_links, Effort.round, Nat.zero_add]
    exact spent.links
  counted := by
    rw [Effort.add_links, Effort.round, Nat.zero_add]
    exact spent.counted

/-- A round that takes no name and follows no link. -/
theorem ended (pending : walked.walk.pending = nd.pending)
    (links : walked.walk.totalLinkCount = nd.totalLinkCount) :
    Spent env most 1 nd (.round + .none) walked :=
  begun (quiet pending links)

/-- Only the names left and the links counted matter of where a method starts. -/
theorem congr (spent : Spent env most slack nd effort walked) (pending : nd'.pending = nd.pending)
    (links : nd'.totalLinkCount = nd.totalLinkCount) :
    Spent env most slack nd' effort walked where
  names := by
    rw [pending]
    exact spent.names
  rounds := spent.rounds
  links := by
    rw [links]
    exact spent.links
  counted := by
    rw [links]
    exact spent.counted

end Spent

section Bounds

omit [DecidableEq D] in
theorem pickLink_spent (env : Env D) (most : Nat) (nd : Nameidata D) (dentry : D) :
    Spent env most 0 nd nd.pickLinkEffort (nd.pickLink env dentry) := by
  unfold pickLink pickLinkEffort
  dsimp only
  split
  · exact ⟨by simp [Walked.walk], Nat.zero_le _, id, .inr ⟨_, rfl⟩⟩
  · have pushed : ∀ (error : FsError) (next : Nameidata D), next.pending = nd.pending →
        next.totalLinkCount = nd.totalLinkCount + 1 →
        Spent env most 0 nd ⟨0, 0, 1⟩ (.error error next : Walked D Unit) := by
      intro error next pending links
      refine ⟨?_, Nat.zero_le _, fun _ => by dsimp only; omega, .inl links⟩
      simp only [Walked.walk, pending]
      omega
    split
    · exact pushed _ _ rfl rfl
    · rename_i target answered
      split
      · exact pushed _ _ rfl rfl
      · refine ⟨fun short => ?_, Nat.zero_le _, fun _ => by dsimp only; omega, .inl rfl⟩
        have bound := short _ _ _ answered
        unfold targetParts at bound
        simp only [Walked.walk, List.length_append]
        omega

omit [DecidableEq D] in
theorem walkComponent_spent (env : Env D) (most : Nat) (nd : Nameidata D) (name : String) :
    Spent env most 0 nd (nd.walkComponentEffort env name) (nd.walkComponent env name) := by
  unfold walkComponent walkComponentEffort
  cases env.lookup nd.clock nd.dir name with
  | error error => exact .quiet rfl rfl
  | ok dentry =>
    dsimp only
    cases env.kind nd.tick.clock dentry with
    | none => exact .quiet rfl rfl
    | some kind =>
      cases kind with
      | symlink => exact (pickLink_spent env most nd.tick.tick dentry).congr rfl rfl
      | dir => exact .quiet rfl rfl
      | regFile => exact .quiet rfl rfl
      | fifo => exact .quiet rfl rfl
      | sock => exact .quiet rfl rfl
      | blkdev => exact .quiet rfl rfl
      | chrdev => exact .quiet rfl rfl
      | unknown => exact .quiet rfl rfl

/-- A `..` takes no other name off. -/
theorem followDotdot_quiet (env : Env D) (nd : Nameidata D) :
    (nd.followDotdot env).walk.pending = nd.pending ∧
      (nd.followDotdot env).walk.totalLinkCount = nd.totalLinkCount := by
  unfold followDotdot
  split
  · exact ⟨rfl, rfl⟩
  · dsimp only
    split
    · exact ⟨rfl, rfl⟩
    · exact ⟨rfl, rfl⟩

/-- A last `.` or `..` takes no name off. -/
theorem handleDots_quiet (env : Env D) (nd : Nameidata D) :
    (nd.handleDots env).walk.pending = nd.pending ∧
      (nd.handleDots env).walk.totalLinkCount = nd.totalLinkCount := by
  have above := followDotdot_quiet env nd
  unfold handleDots
  split
  · cases followed : nd.followDotdot env with
    | error error after =>
      rw [followed] at above
      exact above
    | ok answer after =>
      rw [followed] at above
      exact above
  · exact ⟨rfl, rfl⟩

theorem advance_spent (env : Env D) (most : Nat) (nd : Nameidata D) (part : String) :
    Spent env most 0 nd (nd.advanceEffort env part) (nd.advance env part) := by
  unfold advance advanceEffort
  split
  · exact .quiet rfl rfl
  · split
    · exact .quiet (followDotdot_quiet env nd).1 (followDotdot_quiet env nd).2
    · exact walkComponent_spent env most nd part

omit [DecidableEq D] in
/-- A name taken off, and the slashes after it. -/
theorem taken_spent {env : Env D} {most : Nat} {nd : Nameidata D} {part : String}
    {rest : List String} (pending : nd.tick.pending = part :: rest) (walked : Nameidata D)
    (left : walked.pending = rest.drop (rest.takeWhile String.isEmpty).length)
    (links : walked.totalLinkCount = nd.totalLinkCount) :
    Spent env most 0 nd (.round + ⟨0, 1 + (rest.takeWhile String.isEmpty).length, 0⟩)
      (.ok () walked : Walked D Unit) where
  names := by
    have within := (List.takeWhile_sublist (l := rest) String.isEmpty).length_le
    have spelled : nd.pending = part :: rest := pending
    simp only [Effort.add_names, Effort.add_links, Effort.round, Walked.walk, left, spelled,
      List.length_drop, List.length_cons]
    omega
  rounds := by
    simp only [Effort.add_rounds, Effort.add_names, Effort.add_links, Effort.round]
    omega
  links few := by simpa [Effort.round] using few
  counted := .inl links

/-- What a round that takes a name off costs, and the rounds after it. -/
theorem linkPathWalkEffort_eq {env : Env D} {nd : Nameidata D} {part : String}
    {rest left : List String} (allowed : env.permission nd.clock nd.dir = .ok ())
    (pending : nd.tick.pending = part :: rest)
    (spelled : left = rest.drop (rest.takeWhile String.isEmpty).length) (onward : Effort)
    (stops : ∀ error after, { nd.tick with pending := left }.advance env part = .error error after →
      onward = .none)
   
    (goes : ∀ after, { nd.tick with pending := left }.advance env part = .ok () after →
      onward = after.linkPathWalkEffort env) :
    nd.linkPathWalkEffort env =
      .round + (⟨0, 1 + (rest.takeWhile String.isEmpty).length, 0⟩ +
        if left.isEmpty then .none
        else { nd.tick with pending := left }.advanceEffort env part + onward) := by
  subst spelled
  rw [linkPathWalkEffort]
  simp only [allowed]
  split
  · rename_i empty
    rw [pending] at empty
    cases empty
  · rename_i part' rest' filled
    rw [pending] at filled
    cases filled
    by_cases last : (rest.drop (rest.takeWhile String.isEmpty).length).isEmpty = true
    · rw [if_pos last, if_pos last]
    · rw [if_neg last, if_neg last]
      split
      · rename_i error after advanced
        rw [stops error after advanced]
      · rename_i after advanced
        rw [goes after advanced]

/-- A walk over every name but the last makes one round for each name it takes off, and may begin
one more. -/
theorem linkPathWalk_spent (env : Env D) (most : Nat) (nd : Nameidata D) :
    Spent env most 1 nd (nd.linkPathWalkEffort env) (nd.linkPathWalk env) := by
  fun_induction linkPathWalk env nd with
  | case1 nd error refused =>
    have counted : nd.linkPathWalkEffort env = .round + .none := by
      rw [linkPathWalkEffort]
      simp only [refused]
    rw [counted]
    exact .ended rfl rfl
  | case2 nd allowed pending =>
    have counted : nd.linkPathWalkEffort env = .round + .none := by
      rw [linkPathWalkEffort]
      simp only [allowed]
      split
      · rfl
      · rename_i filled
        rw [pending] at filled
        cases filled
    rw [counted]
    exact .ended rfl rfl
  | case3 nd allowed part rest pending slashes left last =>
    have taken : Spent env most 0 nd _ _ := taken_spent pending { nd.tick with pending := left } rfl rfl
    have counted : nd.linkPathWalkEffort env = .round + (⟨0, 1 + slashes, 0⟩ + .none) := by
      rw [linkPathWalkEffort]
      simp only [allowed]
      split
      · rename_i empty
        rw [pending] at empty
        cases empty
      · rename_i part' rest' filled
        rw [pending] at filled
        cases filled
        rw [if_pos last]
    rw [counted, ← Effort.add_assoc]
    have ended : Spent env most 1 { nd.tick with pending := left } .none
        (.ok () ({ nd.tick with pending := left }.setLast part (decide (slashes > 0))) :
          Walked D Unit) := .quiet rfl rfl
    exact taken.next ended
  | case4 nd allowed part rest pending slashes left more error after advanced =>
    have spent := advance_spent env most { nd.tick with pending := left } part
    rw [advanced] at spent
    have taken : Spent env most 0 nd _ _ := taken_spent pending { nd.tick with pending := left } rfl rfl
    have counted := linkPathWalkEffort_eq allowed pending rfl .none (fun _ _ _ => rfl) (by
      intro after' again
      cases advanced.symm.trans again)
    rw [counted, if_neg more, ← Effort.add_assoc]
    have failed : Spent env most 0 { nd.tick with pending := left } _
        (.error error after : Walked D Unit) := spent.failed
    exact taken.next failed.looser
  | case5 nd allowed part rest pending slashes left more after advanced ih =>
    have spent := advance_spent env most { nd.tick with pending := left } part
    rw [advanced] at spent
    have taken : Spent env most 0 nd _ _ := taken_spent pending { nd.tick with pending := left } rfl rfl
    have counted := linkPathWalkEffort_eq allowed pending rfl (after.linkPathWalkEffort env) (by
      intro error after' again
      cases advanced.symm.trans again) (by
      intro after' again
      cases advanced.symm.trans again
      rfl)
    rw [counted, if_neg more, ← Effort.add_assoc]
    exact taken.next (spent.next ih)

/-- A link at the last name followed, if it is, grants two rounds: the walk over its names begins
one round more than it takes names. -/
theorem followLast_spent (env : Env D) (most : Nat) (nd : Nameidata D) (child : D) :
    Spent env most 0 nd (nd.followLastEffort env child) (nd.followLast env child) ∧
      ∀ after, nd.followLast env child = .ok () after →
        (nd.followLastEffort env child).rounds + 1 ≤
          (nd.followLastEffort env child).names + 2 * (nd.followLastEffort env child).links := by
  have picked := pickLink_spent env most nd child
  unfold followLast followLastEffort
  cases found : nd.pickLink env child with
  | error error after =>
    rw [found] at picked
    refine ⟨picked.failed, fun _ ended => ?_⟩
    cases ended
  | ok answer after =>
    rw [found] at picked
    have walked := linkPathWalk_spent env most after
    have spent := picked.next walked
    have once : nd.pickLinkEffort = ⟨0, 0, 1⟩ := by
      have few := (pickLink_ok found).2
      rw [pickLinkEffort, if_neg (by omega)]
    have rounds := walked.rounds
    have less : (nd.pickLinkEffort + after.linkPathWalkEffort env).rounds + 1 ≤
        (nd.pickLinkEffort + after.linkPathWalkEffort env).names +
          2 * (nd.pickLinkEffort + after.linkPathWalkEffort env).links := by
      rw [once]
      simp only [Effort.add_rounds, Effort.add_names, Effort.add_links]
      omega
    exact ⟨spent.rated (by omega), fun _ _ => less⟩

/-- A round of a last name that follows a link there, and the rounds after it. -/
theorem followed_spent {α : Type} (env : Env D) (most : Nat) {nd after : Nameidata D} {child : D}
    {onward : Effort} {walked : Walked D α} (followed : nd.followLast env child = .ok () after)
    (rest : Spent env most 1 after onward walked) :
    Spent env most 1 nd (.round + (nd.followLastEffort env child + onward)) walked := by
  obtain ⟨one, less⟩ := followLast_spent env most nd child
  have granted := less after followed
  have later := rest.rounds
  rw [followed] at one
  have both := one.next rest
  refine Spent.begun (both.rated ?_)
  simp only [Effort.add_rounds, Effort.add_names, Effort.add_links]
  omega

/-- A round of a last name that fails at the link there. -/
theorem unfollowed_spent {α : Type} (env : Env D) (most : Nat) {nd after : Nameidata D}
    {child : D} {error : FsError} (failed : nd.followLast env child = .error error after) :
    Spent env most 1 nd (.round + (nd.followLastEffort env child + .none))
      (.error error after : Walked D α) := by
  have one := (followLast_spent env most nd child).1
  rw [failed] at one
  exact one.failed.begun

/-- Finding what the last name stands for follows links one after another. -/
theorem lookupLast_spent (env : Env D) (most : Nat) (nd : Nameidata D) (follow : Bool) :
    Spent env most 1 nd (nd.lookupLastEffort env follow) (nd.lookupLast env follow) := by
  fun_induction lookupLast env nd follow with
  | case1 nd follow dots =>
    rw [lookupLastEffort, if_pos dots]
    exact .ended (handleDots_quiet env nd).1 (handleDots_quiet env nd).2
  | case2 nd follow named nd' error looked =>
    have counted : nd.lookupLastEffort env follow = .round + .none := by
      rw [lookupLastEffort, if_neg named]
      simp only [nd'] at looked
      simp only [looked]
    rw [counted]
    exact .ended rfl rfl
  | case3 nd follow named nd' child looked held absent =>
    have counted : nd.lookupLastEffort env follow = .round + .none := by
      rw [lookupLastEffort, if_neg named]
      simp only [nd', held] at looked absent
      simp only [looked, absent]
    rw [counted]
    exact .ended rfl rfl
  | case4 nd follow named follow' nd' child looked held kind found told ends =>
    have counted : nd.lookupLastEffort env follow = .round + .none := by
      rw [lookupLastEffort, if_neg named]
      simp only [nd', held, told] at looked found ends
      simp only [looked, found]
      rw [if_pos ends]
    rw [counted]
    exact .ended rfl rfl
  | case5 nd follow named follow' nd' child looked held kind found told goes error after failed =>
    have counted : nd.lookupLastEffort env follow =
        .round + (told.tick.followLastEffort env child + .none) := by
      rw [lookupLastEffort, if_neg named]
      simp only [nd', held, told] at looked found goes failed ⊢
      simp only [looked, found]
      rw [if_neg goes]
      split
      · rfl
      · rename_i after' again
        cases failed.symm.trans again
    rw [counted]
    exact (unfollowed_spent env most failed).congr rfl rfl
  | case6 nd follow named follow' nd' child looked held kind found told goes after followed ih =>
    have counted : nd.lookupLastEffort env follow =
        .round + (told.tick.followLastEffort env child + after.lookupLastEffort env follow') := by
      rw [lookupLastEffort, if_neg named]
      simp only [nd', held, told] at looked found goes followed ⊢
      simp only [looked, found]
      rw [if_neg goes]
      split
      · rename_i again
        cases followed.symm.trans again
      · rename_i after' again
        cases followed.symm.trans again
        rfl
    rw [counted]
    exact (followed_spent env most followed ih).congr rfl rfl

omit [DecidableEq D] in
/-- Finding the last name of an open takes no name off. -/
theorem findForOpen_pending (env : Env D) (nd : Nameidata D) (how : OpenHow) :
    (nd.findForOpen env how).walk.pending = nd.pending := by
  have settled : ∀ (nd : Nameidata D) child opened refused,
      (nd.settleOpen env how child opened refused).walk.pending = nd.pending := by
    intro nd child opened refused
    unfold settleOpen
    dsimp only
    repeat' split
    all_goals rfl
  have given : ∀ (nd : Nameidata D) gotWrite given,
      (nd.openGiven env how gotWrite given).walk.pending = nd.pending := by
    intro nd gotWrite given
    unfold openGiven
    split
    · rfl
    · rfl
    · exact settled _ _ _ _
  have opened : ∀ nd : Nameidata D, (nd.lookupOpen env how).walk.pending = nd.pending := by
    intro nd
    unfold lookupOpen
    dsimp only
    split
    · rfl
    · split
      · rfl
      · exact given _ _ _
  have fast : (nd.lookupFastForOpen env how).walk.pending = nd.pending := by
    unfold lookupFastForOpen
    repeat' split
    all_goals rfl
  unfold findForOpen
  split
  · rename_i after failed
    rw [failed] at fast
    exact fast
  · rename_i child after held
    rw [held] at fast
    dsimp only
    split
    · exact fast
    · exact fast
  · rename_i after none
    rw [none] at fast
    exact (opened after).trans fast

/-- Finding the last name of an open follows links one after another. -/
theorem openLastLookups_spent (env : Env D) (most : Nat) (nd : Nameidata D) (how : OpenHow)
    (follow : Bool) :
    Spent env most 1 nd (nd.openLastLookupsEffort env how follow) (nd.openLastLookups env how follow) := by
  have quiet : ∀ nd : Nameidata D, ({ nd with
      lookupDirectory := nd.lookupDirectory || nd.trailingSlash }.findForOpen env how).walk.pending =
        nd.pending ∧ ({ nd with
      lookupDirectory := nd.lookupDirectory || nd.trailingSlash }.findForOpen env
        how).walk.totalLinkCount = nd.totalLinkCount :=
    fun nd => ⟨findForOpen_pending env _ how, (findForOpen_stays env _ how).links⟩
  fun_induction openLastLookups env nd how follow with
  | case1 nd follow dots error after handled | case2 nd follow dots after handled =>
    rw [openLastLookupsEffort, if_pos dots]
    have still := handleDots_quiet env nd
    rw [handled] at still
    exact .ended still.1 still.2
  | case3 nd follow named refused =>
    rw [openLastLookupsEffort, if_neg named, if_pos refused]
    exact .ended rfl rfl
  | case4 nd follow named allowed error after failed =>
    have counted : nd.openLastLookupsEffort env how follow = .round + .none := by
      rw [openLastLookupsEffort, if_neg named, if_neg allowed]
      simp only
      split
      · rfl
      · rename_i again
        cases failed.symm.trans again
    have still := quiet nd
    rw [failed] at still
    rw [counted]
    exact .ended still.1 still.2
  | case5 nd follow named allowed follow' child opened after found ends =>
    have counted : nd.openLastLookupsEffort env how follow = .round + .none := by
      rw [openLastLookupsEffort, if_neg named, if_neg allowed]
      simp only
      split
      · rfl
      · rename_i again
        cases found.symm.trans again
        rw [if_pos ends]
    have still := quiet nd
    rw [found] at still
    rw [counted]
    exact .ended still.1 still.2
  | case6 nd follow named allowed follow' child opened after found goes error onward failed =>
    have counted : nd.openLastLookupsEffort env how follow =
        .round + (after.tick.followLastEffort env child + .none) := by
      rw [openLastLookupsEffort, if_neg named, if_neg allowed]
      simp only
      split
      · rename_i again
        cases found.symm.trans again
      · rename_i again
        cases found.symm.trans again
        rw [if_neg goes]
        split
        · rfl
        · rename_i again
          cases failed.symm.trans again
    have still := quiet nd
    rw [found] at still
    rw [counted]
    exact (unfollowed_spent env most failed).congr still.1.symm still.2.symm
  | case7 nd follow named allowed follow' child opened after found goes onward followed ih =>
    have counted : nd.openLastLookupsEffort env how follow = .round +
        (after.tick.followLastEffort env child + onward.openLastLookupsEffort env how follow') := by
      rw [openLastLookupsEffort, if_neg named, if_neg allowed]
      simp only
      split
      · rename_i again
        cases found.symm.trans again
      · rename_i again
        cases found.symm.trans again
        rw [if_neg goes]
        split
        · rename_i again
          cases followed.symm.trans again
        · rename_i again
          cases followed.symm.trans again
          rfl
    have still := quiet nd
    rw [found] at still
    rw [counted]
    exact (followed_spent env most followed ih).congr still.1.symm still.2.symm

/-! ## Calls -/

theorem completeWalk_quiet (env : Env D) (nd : Nameidata D) :
    (nd.completeWalk env).walk.pending = nd.pending ∧
      (nd.completeWalk env).walk.totalLinkCount = nd.totalLinkCount := by
  unfold completeWalk
  split
  · exact ⟨rfl, rfl⟩
  · exact ⟨rfl, rfl⟩

/-- A walk to what its path names makes at most two rounds more than it takes names and follows
links twice. -/
theorem pathLookupat_spent (env : Env D) (most : Nat) (nd : Nameidata D) (follow : Bool) :
    Spent env most 2 nd (nd.pathLookupatEffort env follow) (nd.pathLookupat env follow) := by
  have walked := linkPathWalk_spent env most nd
  unfold pathLookupat pathLookupatEffort
  cases first : nd.linkPathWalk env with
  | error error after =>
    rw [first] at walked
    exact walked.failed.looser
  | ok answer middle =>
    rw [first] at walked
    have looked := lookupLast_spent env most middle follow
    have both := walked.next looked
    dsimp only
    cases second : middle.lookupLast env follow with
    | error error after =>
      rw [second] at both
      exact both
    | ok answer found =>
      rw [second] at both
      obtain ⟨pending, links⟩ := completeWalk_quiet env found
      dsimp only
      cases third : found.completeWalk env with
      | error error after =>
        rw [third] at pending links
        exact both.stays pending links
      | ok answer after =>
        rw [third] at pending links
        dsimp only
        split
        · exact both.stays pending links
        · split
          · exact both.stays pending links
          · exact both.stays pending links

/-- What `namei::do_open` does takes no name off. -/
theorem doOpen_quiet (env : Env D) (nd : Nameidata D) (child : D) (opened : Opened)
    (op : OpenFlags) :
    (nd.doOpen env child opened op).walk.pending = nd.pending ∧
      (nd.doOpen env child opened op).walk.totalLinkCount = nd.totalLinkCount := by
  have completed : ∀ completed : Walked D Unit,
      completed = (if opened.file || opened.created then .ok () nd else nd.completeWalk env) →
      completed.walk.pending = nd.pending ∧ completed.walk.totalLinkCount = nd.totalLinkCount := by
    intro completed same
    subst same
    split
    · exact ⟨rfl, rfl⟩
    · exact completeWalk_quiet env nd
  unfold doOpen
  dsimp only
  split
  · rename_i error after failed
    exact completed _ failed.symm
  · rename_i after done
    have still := completed _ done.symm
    repeat' split
    all_goals simpa only [Walked.walk, tick] using still

/-- A walk to its last name that opens it. -/
theorem pathOpenat_spent (env : Env D) (most : Nat) (nd : Nameidata D) (op : OpenFlags) :
    Spent env most 2 nd (nd.pathOpenatEffort env op) (nd.pathOpenat env op) := by
  unfold pathOpenat pathOpenatEffort
  dsimp only
  split
  · have looked := pathLookupat_spent env most { nd with lookupDirectory := op.lookupDirectory }
      op.lookupFollow
    unfold doOPath
    cases walked : { nd with
        lookupDirectory := op.lookupDirectory }.pathLookupat env op.lookupFollow with
    | error error after =>
      rw [walked] at looked
      exact looked.recast.congr rfl rfl
    | ok answer after =>
      rw [walked] at looked
      dsimp only
      repeat' split
      all_goals exact (looked.stays rfl rfl).congr rfl rfl
  · have walked := linkPathWalk_spent env most { nd with lookupDirectory := op.lookupDirectory }
    cases first : { nd with lookupDirectory := op.lookupDirectory }.linkPathWalk env with
    | error error after =>
      rw [first] at walked
      exact walked.failed.looser.congr rfl rfl
    | ok answer middle =>
      rw [first] at walked
      have looked := openLastLookups_spent env most middle op.openFlag op.lookupFollow
      have both : Spent env most 2 nd _ _ := (walked.next looked).congr rfl rfl
      dsimp only
      cases second : middle.openLastLookups env op.openFlag op.lookupFollow with
      | error error after =>
        rw [second] at both
        exact both.recast
      | ok opened found =>
        rw [second] at both
        dsimp only
        split
        · exact both.stays rfl rfl
        · rename_i child _
          obtain ⟨pending, links⟩ := doOpen_quiet env found child opened op
          exact both.stays pending links

omit [DecidableEq D] in
/-- A walk set up for a path spends what it does from there, if it is not refused at once. -/
theorem started_spent {α : Type} (env : Env D) (most : Nat) (start : D) (path : String)
    (effort : Nameidata D → Effort) (walk : Carried D → Walked D α)
    (refuses : ∀ carried error nd, setNameidata env start path carried = .error error nd →
      walk carried = .error error nd)
    (goes : ∀ carried nd, setNameidata env start path carried = .ok () nd →
      Spent env most 2 nd (effort nd) (walk carried)) (carried : Carried D) :
    Spent env most 2 (fresh start path carried) (startedEffort env start path effort carried)
      (walk carried) := by
  have begins : (setNameidata env start path carried).walk.pending = parts path ∧
      (setNameidata env start path carried).walk.totalLinkCount = carried.links := by
    unfold setNameidata
    dsimp only
    repeat' split
    all_goals exact ⟨rfl, rfl⟩
  unfold startedEffort
  cases set : setNameidata env start path carried with
  | error error nd =>
    rw [set] at begins
    rw [refuses carried error nd set]
    exact .quiet begins.1 begins.2
  | ok answer nd =>
    rw [set] at begins
    exact (goes carried nd set).congr begins.1.symm begins.2.symm

omit [DecidableEq D] in
/-- One walk of a path takes off its names and those of the links it follows. -/
theorem Spent.walk_names {α : Type} {env : Env D} {most : Nat} {start : D} {path : String}
    {carried : Carried D} {effort : Effort} {walked : Walked D α}
    (spent : Spent env most 2 (fresh start path carried) effort walked)
    (short : ShortLinks env most) : effort.names ≤ (parts path).length + effort.links * most :=
  Nat.le_trans (Nat.le_add_right _ _) (spent.names short)

section Reval

variable {α : Type} {env : Env D} {start : D} {path : String} {walk : Carried D → Walked D α}
  {effort : Carried D → Effort}

omit [DecidableEq D]

/-- What the walk made again for ESTALE does, nothing where none is: the links of the first walk
are counted on. -/
theorem walkWithRevalEffort_again (spends : ∀ most carried,
      Spent env most 2 (fresh start path carried) (effort carried) (walk carried)) :
    ∃ again, walkWithRevalEffort walk effort = effort ⟨0, 0, []⟩ + again ∧
      (effort ⟨0, 0, []⟩).links + again.links ≤ maxSymlinks ∧
      (∀ most, ShortLinks env most → again.names ≤ (parts path).length + again.links * most) ∧
      again.rounds ≤ again.names + 2 * again.links + 2 := by
  have first := spends 0 ⟨0, 0, []⟩
  have few : (effort ⟨0, 0, []⟩).links ≤ maxSymlinks := by
    have links := first.links (Nat.zero_le _)
    simp only [fresh] at links
    omega
  have nothing : (effort ⟨0, 0, []⟩).links + Effort.none.links ≤ maxSymlinks ∧
      (∀ most, ShortLinks env most →
        Effort.none.names ≤ (parts path).length + Effort.none.links * most) ∧
      Effort.none.rounds ≤ Effort.none.names + 2 * Effort.none.links + 2 :=
    ⟨few, fun _ _ => Nat.zero_le _, Nat.zero_le _⟩
  unfold walkWithRevalEffort
  split
  · rename_i nd stale
    have carried : nd.totalLinkCount = (effort ⟨0, 0, []⟩).links := by
      have counted := first.counted
      rw [stale] at counted
      rcases counted with same | ⟨_, other⟩
      · simpa [Walked.walk, fresh] using same
      · cases other
    have begun : (fresh start path nd.carry).totalLinkCount = (effort ⟨0, 0, []⟩).links := carried
    have links := (spends 0 nd.carry).links (by omega)
    rw [begun] at links
    exact ⟨_, rfl, links, fun most short => (spends most nd.carry).walk_names short,
      (spends 0 nd.carry).rounds⟩
  · exact ⟨_, rfl, nothing⟩

/-- Two walks of one path together stay within what one call may do. -/
theorem walkWithReval_within (spends : ∀ most carried,
      Spent env most 2 (fresh start path carried) (effort carried) (walk carried)) :
    (walkWithRevalEffort walk effort).links ≤ maxSymlinks ∧
      (∀ most, ShortLinks env most → (walkWithRevalEffort walk effort).names ≤
        2 * (parts path).length + maxSymlinks * most) ∧
      (walkWithRevalEffort walk effort).rounds ≤
        (walkWithRevalEffort walk effort).names + 2 * maxSymlinks + 4 := by
  obtain ⟨again, both, links, names, rounds⟩ := walkWithRevalEffort_again spends
  have first := (spends 0 ⟨0, 0, []⟩).rounds
  rw [both]
  simp only [Effort.add_links, Effort.add_names, Effort.add_rounds]
  refine ⟨links, fun most short => ?_, by omega⟩
  have one := (spends most ⟨0, 0, []⟩).walk_names short
  have two := names most short
  have pushed := Nat.mul_le_mul_right most links
  rw [Nat.add_mul] at pushed
  omega

end Reval

/-- A call that walks a path. -/
inductive Call where
  | filenameParentat
  | filenameLookup (follow : Bool)
  | doFileOpen (op : OpenFlags)
deriving Repr, DecidableEq

/-- What the walks of a call do. -/
def Call.effort (env : Env D) (start : D) (path : String) : Call → Effort
  | .filenameParentat => filenameParentatEffort env start path
  | .filenameLookup follow => filenameLookupEffort env start path follow
  | .doFileOpen op => doFileOpenEffort env start path op

/-- However the links of a tree point at one another, every call that walks a path follows at most
`MAXSYMLINKS` links, the walk made again for ESTALE counted in. It takes no more names off than
two walks of the path and that many links put there, and its loops make no more rounds than there
are names taken off and links to follow. -/
theorem walks_end (env : Env D) (start : D) (path : String) (call : Call) :
    (call.effort env start path).links ≤ maxSymlinks ∧
      (∀ most, ShortLinks env most → (call.effort env start path).names ≤
        2 * (parts path).length + maxSymlinks * most) ∧
      (call.effort env start path).rounds ≤
        (call.effort env start path).names + 2 * maxSymlinks + 4 := by
  cases call with
  | filenameParentat =>
    refine walkWithReval_within fun most => started_spent env most start path _ _ ?_ ?_
    · intro carried error nd refused
      rw [parentatWalk, refused]
    · intro carried nd set
      have walked := linkPathWalk_spent env most nd
      rw [parentatWalk, set]
      dsimp only
      cases ended : nd.linkPathWalk env with
      | error error after =>
        rw [ended] at walked
        exact walked.looser
      | ok answer after =>
        rw [ended] at walked
        obtain ⟨pending, links⟩ := completeWalk_quiet env after
        exact walked.looser.stays pending links
  | filenameLookup follow =>
    refine walkWithReval_within fun most => started_spent env most start path _ _ ?_ ?_
    · intro carried error nd refused
      rw [lookupWalk, refused]
    · intro carried nd set
      rw [lookupWalk, set]
      exact pathLookupat_spent env most nd follow
  | doFileOpen op =>
    refine walkWithReval_within fun most => started_spent env most start path _ _ ?_ ?_
    · intro carried error nd refused
      rw [openWalk, refused]
    · intro carried nd set
      rw [openWalk, set]
      exact pathOpenat_spent env most nd op

end Bounds

/-- A directory whose one entry is a link to itself. -/
def selfLinked : Env Bool where
  parent _ _ := true
  isRoot d := d
  depth _ d := if d then 0 else 1
  kind _ d := some (if d then .dir else .symlink)
  permission _ _ := .ok ()
  lookup _ d _ := if d then .ok false else .error .notADirectory
  getLink _ _ := .ok "a"
  seqRetry _ _ := false
  lookupFast _ _ _ := .ok none
  mntWantWrite _ := .ok ()
  isDeaddir _ _ := false
  dAllocParallel _ _ _ := .error .notFound
  beginLookup _ _ := .ok false
  mayOCreate _ _ _ := .ok ()
  atomicOpen _ _ _ _ := .error .notFound
  doDentryOpen _ _ _ := .ok ()
  mayOpen _ _ _ := .ok ()
  deeper _ d inner := by
    cases d with
    | true => cases inner
    | false => decide
  lookup_child := by
    intro now d name c found
    cases d with
    | true =>
      cases found
      exact ⟨rfl, rfl⟩
    | false => cases found
  lookupFast_child := by
    intro now d name c found
    cases found
  alloc_child := by
    intro now d name c found
    cases found
  spliced_child := by
    intro now d given how opened c found
    cases found

/-- A link to itself is followed no more often than any other, and the names its walk takes off are
those of the path and of so many links. -/
theorem walks_end_self_linked :
    ((Call.filenameLookup true).effort selfLinked true "a").links ≤ 40 ∧
      ((Call.filenameLookup true).effort selfLinked true "a").names ≤ 42 := by
  have ended := walks_end selfLinked true "a" (.filenameLookup true)
  refine ⟨ended.1, ended.2.1 1 ?_⟩
  intro now dentry target found
  cases found
  decide

end Nameidata

end Kobako.Vfs
