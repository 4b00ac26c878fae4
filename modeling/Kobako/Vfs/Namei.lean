import Kobako.Vfs.Dentry

/-!
# Walks

`Nameidata` and the walks of `namei.rs`. A walk carries the names still to walk as the path spells
them, an empty one between two slashes and after a last one; it walks every name but the last,
which is left for the call to look up, open, or act on. A link is followed by putting where it
points before the names left. Each loop is bounded by the links one call may follow: a round that
follows none uses up a name, and one that follows a link uses up one of `MAXSYMLINKS`.

Every method changes the walk in place and keeps what it changed when it fails, so a result
carries the walk either way: the links counted go into a walk made again, and the directories
stepped into are what a reader of the walk sees.
-/

namespace Kobako.Vfs

/-- `namei::MAXSYMLINKS`. -/
def maxSymlinks : Nat := 40

/-- `PATH_MAX`. -/
def pathMax : Nat := 4096

/-- `namei::LastType`. -/
inductive LastType where
  | norm
  | dot
  | dotDot
deriving Repr, DecidableEq

/-- `namei::Nameidata`, with the questions asked so far and the directories stepped into. -/
structure Nameidata (D : Type) where
  /-- The directory the walk started from. -/
  root : D
  /-- When the walk began, as `r_seq` reads `RENAME_LOCK`. -/
  rSeq : Nat
  /-- The directory the walk stands in. -/
  dir : D
  /-- The names still to walk. -/
  pending : List String
  /-- The links followed through every walk of one call. -/
  totalLinkCount : Nat
  /-- The last name, empty unless it is a `norm` one. -/
  last : String
  /-- What the last name is. -/
  lastType : LastType
  /-- Whether a `/` follows the last name. -/
  trailingSlash : Bool
  /-- The dentry the walk ended on. -/
  path : Option D
  /-- Whether only a directory satisfies the path. -/
  lookupDirectory : Bool
  /-- How many questions the walks of the call asked. -/
  clock : Nat
  /-- Every directory the walks of the call stepped into, the last first. -/
  steps : List D
deriving Repr, DecidableEq

/-- What a method of a walk answers, with the walk as it left it. -/
abbrev Walked (D α : Type) := EStateM.Result FsError (Nameidata D) α

/-- The walk as a method left it, whether it answered or failed. -/
def Walked.walk {D α : Type} : Walked D α → Nameidata D
  | .ok _ nd => nd
  | .error _ nd => nd

/-- Whether a path starts with a `/`. -/
def isAbsolute (path : String) : Bool := path.toList.head? = some '/'

/-- `namei::parts`: each name of `path`, empty between two slashes and after a last one. -/
def parts (path : String) : List String := (path.toList.splitOn '/').map String.ofList

namespace Nameidata

variable {D : Type}

/-- One more question asked. -/
def tick (nd : Nameidata D) : Nameidata D := { nd with clock := nd.clock + 1 }

/-- Stand in `d`. -/
def stepInto (nd : Nameidata D) (d : D) : Nameidata D :=
  { nd with dir := d, steps := d :: nd.steps }

/-- `Nameidata::pick_link`. -/
def pickLink (env : Env D) (nd : Nameidata D) (dentry : D) : Walked D Unit :=
  let nd := { nd with totalLinkCount := nd.totalLinkCount + 1 }
  if nd.totalLinkCount > maxSymlinks then .error .filesystemLoop nd
  else
    match env.getLink nd.clock dentry with
    | .error error => .error error nd.tick
    | .ok target =>
      if isAbsolute target then .error .escape nd.tick
      else
        -- A link pointing nowhere leaves the walk where it stands.
        let target := if target.isEmpty then "." else target
        .ok () { nd.tick with pending := parts target ++ nd.pending }

/-- `Nameidata::walk_component`. -/
def walkComponent (env : Env D) (nd : Nameidata D) (name : String) : Walked D Unit :=
  match env.lookup nd.clock nd.dir name with
  | .error error => .error error nd.tick
  | .ok dentry =>
    let nd := nd.tick
    match env.kind nd.clock dentry with
    | none => .error .notFound nd.tick
    | some .symlink => pickLink env nd.tick dentry
    | some .dir => .ok () (nd.tick.stepInto dentry)
    | some _ => .error .notADirectory nd.tick

section Walk

variable [DecidableEq D] (env : Env D)

/-- `Nameidata::follow_dotdot`. -/
def followDotdot (nd : Nameidata D) : Walked D Unit :=
  if nd.dir = nd.root ∨ env.isRoot nd.dir = true then .error .escape nd
  else
    let nd := nd.tick.stepInto (env.parent nd.clock nd.dir)
    if env.seqRetry nd.rSeq nd.clock then .error .wouldBlock nd.tick else .ok () nd.tick

/-- The `match` of `Nameidata::link_path_walk` on a name that is not the last. -/
def advance (nd : Nameidata D) (part : String) : Walked D Unit :=
  if part = "." then .ok () nd
  else if part = ".." then nd.followDotdot env
  else walkComponent env nd part

/-- `Nameidata::set_last`. -/
def setLast (nd : Nameidata D) (name : String) (trailingSlash : Bool) : Nameidata D :=
  let lastType : LastType := if name = "." then .dot else if name = ".." then .dotDot else .norm
  { nd with
    lastType
    last := match lastType with
      | .norm => name
      | _ => ""
    trailingSlash }

/-- The links a walk may still follow, and the one more that is refused. -/
def linksLeft (nd : Nameidata D) : Nat := maxSymlinks + 1 - nd.totalLinkCount

variable {nd nd' : Nameidata D}

omit [DecidableEq D] in
/-- A link followed counts toward the most a call follows. -/
theorem pickLink_ok {env : Env D} {dentry : D} (picked : nd.pickLink env dentry = .ok () nd') :
    nd'.totalLinkCount = nd.totalLinkCount + 1 ∧ nd.totalLinkCount + 1 ≤ maxSymlinks := by
  unfold pickLink at picked
  dsimp only at picked
  split at picked
  · cases picked
  · rename_i few
    split at picked
    · cases picked
    · split at picked
      · cases picked
      · cases picked
        exact ⟨rfl, by omega⟩

/-- A name walked leaves the names after it, or the links fewer. -/
theorem advance_ok {part : String} (advanced : nd.advance env part = .ok () nd') :
    (nd'.totalLinkCount = nd.totalLinkCount ∧ nd'.pending = nd.pending) ∨
      (nd'.totalLinkCount = nd.totalLinkCount + 1 ∧ nd.totalLinkCount + 1 ≤ maxSymlinks) := by
  unfold advance at advanced
  split at advanced
  · cases advanced
    exact .inl ⟨rfl, rfl⟩
  · split at advanced
    · unfold followDotdot at advanced
      split at advanced
      · cases advanced
      · dsimp only at advanced
        split at advanced
        · cases advanced
        · cases advanced
          exact .inl ⟨rfl, rfl⟩
    · unfold walkComponent at advanced
      split at advanced
      · cases advanced
      · dsimp only at advanced
        split at advanced
        · cases advanced
        · have picked := pickLink_ok advanced
          exact .inr picked
        · cases advanced
          exact .inl ⟨rfl, rfl⟩
        · cases advanced

/-- `Nameidata::link_path_walk`. -/
def linkPathWalk (nd : Nameidata D) : Walked D Unit :=
  match env.permission nd.clock nd.dir with
  | .error error => .error error nd.tick
  | .ok () =>
    match _pending : nd.tick.pending with
    | [] => .error .notFound nd.tick
    | part :: rest =>
      let slashes := (rest.takeWhile String.isEmpty).length
      let left := rest.drop slashes
      if left.isEmpty then
        .ok () ({ nd.tick with pending := left }.setLast part (decide (slashes > 0)))
      else
        match _advanced : { nd.tick with pending := left }.advance env part with
        | .error error after => .error error after
        | .ok () after => linkPathWalk after
termination_by (nd.linksLeft, nd.pending.length)
decreasing_by
  have spelled : nd.pending = part :: rest := _pending
  rcases advance_ok env _advanced with ⟨links, names⟩ | ⟨links, few⟩
  · have same : after.linksLeft = nd.linksLeft := by
      unfold linksLeft
      rw [links]
      rfl
    rw [same, names, spelled]
    apply Prod.Lex.right
    rw [List.length_drop, List.length_cons]
    omega
  · apply Prod.Lex.left
    have counted : after.totalLinkCount = nd.totalLinkCount + 1 := links
    unfold linksLeft
    omega

/-- The links followed are never forgotten. -/
theorem linkPathWalk_links (walked : nd.linkPathWalk env = .ok () nd') :
    nd.totalLinkCount ≤ nd'.totalLinkCount := by
  fun_induction linkPathWalk env nd with
  | case1 => cases walked
  | case2 => cases walked
  | case3 =>
    cases walked
    exact Nat.le_refl _
  | case4 => cases walked
  | case5 nd allowed part rest pending slashes left more after advanced ih =>
    have onward := ih walked
    rcases advance_ok env advanced with ⟨links, -⟩ | ⟨links, -⟩
    · have counted : after.totalLinkCount = nd.totalLinkCount := links
      omega
    · have counted : after.totalLinkCount = nd.totalLinkCount + 1 := links
      omega

/-- `Nameidata::handle_dots`. -/
def handleDots (nd : Nameidata D) : Walked D Unit :=
  if nd.lastType = .dotDot then
    match nd.followDotdot env with
    | .error error nd => .error error nd
    | .ok () nd => .ok () { nd with path := some nd.dir }
  else .ok () { nd with path := some nd.dir }

/-- A link at the last name followed to another last name, as the loops of
`Nameidata::lookup_last` and `Nameidata::open_last_lookups` do. -/
def followLast (nd : Nameidata D) (child : D) : Walked D Unit :=
  match nd.pickLink env child with
  | .error error nd => .error error nd
  | .ok () nd => nd.linkPathWalk env

/-- Following a last link uses up one of those a call follows. -/
theorem followLast_ok {child : D} (followed : nd.followLast env child = .ok () nd') :
    nd'.linksLeft < nd.linksLeft := by
  unfold followLast at followed
  split at followed
  · cases followed
  · rename_i middle picked
    obtain ⟨counted, few⟩ := pickLink_ok picked
    have onward := linkPathWalk_links env followed
    unfold linksLeft
    omega

/-- `Nameidata::lookup_last`. -/
def lookupLast (nd : Nameidata D) (follow : Bool) : Walked D Unit :=
  if nd.lastType ≠ .norm then nd.handleDots env
  else
    let follow := follow || nd.trailingSlash
    let nd' := { nd with lookupDirectory := nd.lookupDirectory || nd.trailingSlash }
    match env.lookup nd'.clock nd'.dir nd'.last with
    | .error error => .error error nd'.tick
    | .ok child =>
      let nd' := { nd'.tick with path := some child }
      match env.kind nd'.clock child with
      | none => .error .notFound nd'.tick
      | some _ =>
        let nd' := nd'.tick
        if follow = false ∨ env.kind nd'.clock child ≠ some .symlink then .ok () nd'.tick
        else
          match _followed : nd'.tick.followLast env child with
          | .error error after => .error error after
          | .ok () after => lookupLast after follow
termination_by nd.linksLeft
decreasing_by
  have fewer := followLast_ok env _followed
  exact fewer

/-- `Nameidata::complete_walk`. -/
def completeWalk (nd : Nameidata D) : Walked D Unit :=
  if env.isSubdir nd.clock (nd.path.getD nd.dir) nd.root then .ok () nd.tick
  else .error .escape nd.tick

/-- `namei::path_lookupat`. -/
def pathLookupat (nd : Nameidata D) (follow : Bool) : Walked D Unit :=
  match nd.linkPathWalk env with
  | .error error nd => .error error nd
  | .ok () nd =>
    match nd.lookupLast env follow with
    | .error error nd => .error error nd
    | .ok () nd =>
      match nd.completeWalk env with
      | .error error nd => .error error nd
      | .ok () nd =>
        match nd.path.bind (env.kind nd.clock) with
        | none => .error .notFound nd.tick
        | some kind =>
          if nd.lookupDirectory = true ∧ kind ≠ .dir then .error .notADirectory nd.tick
          else .ok () nd.tick

end Walk

/-! ## Opens -/

/-- What `Nameidata::lookup_open` leaves `namei::do_open`. -/
structure Opened where
  /-- Whether the Filesystem opened the file. -/
  file : Bool
  /-- Whether the open made the file. -/
  created : Bool
deriving Repr, DecidableEq

/-- `OpenFlags`. -/
structure OpenFlags where
  /-- The flags the open was made with. -/
  openFlag : OpenHow
  /-- Whether the walk follows a link at the end. -/
  lookupFollow : Bool
  /-- Whether the walk must end on a directory. -/
  lookupDirectory : Bool
deriving Repr, DecidableEq

section Open

variable (env : Env D)

variable (nd : Nameidata D)

/-- `Nameidata::lookup_fast_for_open`. -/
def lookupFastForOpen (how : OpenHow) : Walked D (Option D) :=
  if how.create && how.exclusive then .ok none nd
  else
    match env.lookupFast nd.clock nd.dir nd.last with
    | .error error => .error error nd.tick
    | .ok found =>
      .ok (found.filter fun child => !how.create || (env.kind nd.tick.clock child).isSome)
        nd.tick.tick

/-- The flags `Nameidata::lookup_open` hands `atomic_open`: no truncate without a write on the
mount, and no file made where it was refused. -/
def atomicOpenHow (how : OpenHow) (gotWrite : Except FsError Unit) (createError : Option FsError) :
    OpenHow :=
  { how with
    truncate := how.truncate && gotWrite.isOk && !(how.create && how.exclusive)
    create := how.create && createError.isNone
    directory := how.directory || nd.lookupDirectory }

/-- Why an open that may make a file may not here, as the `create_error` of
`Nameidata::lookup_open`. -/
def createError (given : D) (how : OpenHow) (gotWrite : Except FsError Unit) :
    Option FsError :=
  if how.create then
    match gotWrite with
    | .error error => some error
    | .ok () =>
      match env.mayOCreate nd.clock nd.dir given with
      | .error error => some error
      | .ok () => none
  else none

/-- What `Nameidata::lookup_open` is told of the name it took, and why a file was not made: a name
no lookup answered, or a negative one, is asked `atomic_open`. -/
def askOpen (given : D) (how : OpenHow) (gotWrite : Except FsError Unit) :
    Except FsError (AtomicOpen D) × Option FsError :=
  let refused := nd.createError env given how gotWrite
  let ask := env.atomicOpen nd.tick.clock nd.dir given (nd.atomicOpenHow how gotWrite refused)
  match env.beginLookup nd.clock given with
  | .error error => (.error error, none)
  | .ok true => (ask, refused)
  | .ok false =>
    if (env.kind nd.clock given).isSome then (.ok ⟨false, false, none⟩, none) else (ask, refused)

/-- The end of `Nameidata::lookup_open`: the dentry is what the walk ended on, and a file the
Filesystem opened is finished here. -/
def settleOpen (how : OpenHow) (child : D) (opened : AtomicOpen D) (refused : Option FsError) :
    Walked D (D × Opened) :=
  let nd := { nd with path := some child }
  if env.kind nd.clock child = none then .error (refused.getD .notFound) nd.tick
  else if opened.file = false then .ok (child, ⟨false, opened.created⟩) nd.tick
  else
    match env.kind nd.tick.clock child with
    | none => .error .notFound nd.tick.tick
    | some _ =>
      match env.doDentryOpen nd.tick.tick.clock child how with
      | .error error => .error error nd.tick.tick.tick
      | .ok () => .ok (child, ⟨true, opened.created⟩) nd.tick.tick.tick

/-- `Nameidata::lookup_open` once the name is taken. -/
def openGiven (how : OpenHow) (gotWrite : Except FsError Unit) (given : D) :
    Walked D (D × Opened) :=
  match nd.askOpen env given how gotWrite with
  | (.error .notFound, some refused) => .error refused nd.tick
  | (.error error, _) => .error error nd.tick
  | (.ok opened, refused) => nd.tick.settleOpen env how (opened.spliced.getD given) opened refused

/-- `Nameidata::lookup_open`. -/
def lookupOpen (how : OpenHow) : Walked D (D × Opened) :=
  let gotWrite :=
    if how.create || how.truncate || how.write then env.mntWantWrite nd.clock
    else .error .readOnlyFilesystem
  if env.isDeaddir nd.tick.clock nd.dir then .error .notFound nd.tick.tick
  else
    match env.dAllocParallel nd.tick.tick.clock nd.dir nd.last with
    | .error error => .error error nd.tick.tick.tick
    | .ok given => nd.tick.tick.tick.openGiven env how gotWrite given

/-- The dentry of the last name of an open and what became of it: the one the dcache holds, or
what `Nameidata::lookup_open` finds. -/
def findForOpen (how : OpenHow) : Walked D (D × Opened) :=
  match nd.lookupFastForOpen env how with
  | .error error nd => .error error nd
  | .ok (some child) nd =>
    let nd := { nd with path := some child }
    if env.kind nd.clock child = none then .error .notFound nd.tick
    else .ok (child, ⟨false, false⟩) nd.tick
  | .ok none nd => nd.lookupOpen env how

/-- Two walks standing in the same place, having stepped into the same directories and followed
the same links. -/
structure Stays (nd nd' : Nameidata D) : Prop where
  /-- The start is kept. -/
  root : nd'.root = nd.root
  /-- The directory is kept. -/
  dir : nd'.dir = nd.dir
  /-- No link is followed. -/
  links : nd'.totalLinkCount = nd.totalLinkCount
  /-- No directory is stepped into. -/
  steps : nd'.steps = nd.steps

theorem Stays.trans {nd nd' nd'' : Nameidata D} (first : nd.Stays nd') (second : nd'.Stays nd'') :
    nd.Stays nd'' :=
  ⟨second.root.trans first.root, second.dir.trans first.dir, second.links.trans first.links,
    second.steps.trans first.steps⟩

theorem tick_stays : nd.Stays nd.tick := ⟨rfl, rfl, rfl, rfl⟩

theorem settleOpen_stays (how : OpenHow) (child : D) (opened : AtomicOpen D)
    (refused : Option FsError) : nd.Stays (nd.settleOpen env how child opened refused).walk := by
  unfold settleOpen
  dsimp only
  split
  · exact ⟨rfl, rfl, rfl, rfl⟩
  · split
    · exact ⟨rfl, rfl, rfl, rfl⟩
    · split
      · exact ⟨rfl, rfl, rfl, rfl⟩
      · split
        · exact ⟨rfl, rfl, rfl, rfl⟩
        · exact ⟨rfl, rfl, rfl, rfl⟩

theorem lookupOpen_stays (how : OpenHow) :
    nd.Stays (nd.lookupOpen env how).walk := by
  have given : ∀ (nd : Nameidata D) gotWrite given,
      nd.Stays (nd.openGiven env how gotWrite given).walk := by
    intro nd gotWrite given
    unfold openGiven
    split
    · exact nd.tick_stays
    · exact nd.tick_stays
    · exact nd.tick_stays.trans (nd.tick.settleOpen_stays ..)
  unfold lookupOpen
  dsimp only
  split
  · exact nd.tick_stays.trans nd.tick.tick_stays
  · have asked := (nd.tick_stays.trans nd.tick.tick_stays).trans nd.tick.tick.tick_stays
    split
    · exact asked
    · exact asked.trans (given _ _ _)

/-- Finding the last name of an open leaves the walk where it stands. -/
theorem findForOpen_stays (how : OpenHow) :
    nd.Stays (nd.findForOpen env how).walk := by
  have fast : nd.Stays (nd.lookupFastForOpen env how).walk := by
    unfold lookupFastForOpen
    repeat' split
    all_goals exact ⟨rfl, rfl, rfl, rfl⟩
  unfold findForOpen
  split
  · rename_i after failed
    rw [failed] at fast
    exact fast
  · rename_i child after held
    rw [held] at fast
    dsimp only
    split
    · exact ⟨fast.root, fast.dir, fast.links, fast.steps⟩
    · exact ⟨fast.root, fast.dir, fast.links, fast.steps⟩
  · rename_i after none
    rw [none] at fast
    have slow := after.lookupOpen_stays env how
    exact fast.trans slow

end Open

section Open

variable [DecidableEq D] (env : Env D)

/-- `Nameidata::open_last_lookups`. -/
def openLastLookups (nd : Nameidata D) (how : OpenHow) (follow : Bool) : Walked D Opened :=
  if nd.lastType ≠ .norm then
    match nd.handleDots env with
    | .error error nd => .error error nd
    | .ok () nd => .ok ⟨false, false⟩ nd
  else if nd.trailingSlash && how.create then .error .isADirectory nd
  else
    let follow := follow || nd.trailingSlash
    match _found : { nd with
        lookupDirectory := nd.lookupDirectory || nd.trailingSlash }.findForOpen env how with
    | .error error after => .error error after
    | .ok (child, opened) after =>
      if opened.file || opened.created || !follow ||
          env.kind after.clock child ≠ some .symlink then
        .ok opened after.tick
      else
        match _followed : after.tick.followLast env child with
        | .error error onward => .error error onward
        | .ok () onward => openLastLookups onward how follow
termination_by nd.linksLeft
decreasing_by
  have fewer := followLast_ok env _followed
  have ticked : after.tick.linksLeft = after.linksLeft := rfl
  have stays := findForOpen_stays env { nd with
    lookupDirectory := nd.lookupDirectory || nd.trailingSlash } how
  rw [_found] at stays
  have kept : after.linksLeft = nd.linksLeft := by
    have links : after.totalLinkCount = nd.totalLinkCount := stays.links
    unfold linksLeft
    rw [links]
  omega

/-- Why `namei::do_open` refuses what stands at the end, by its kind. -/
def doOpenRefusal (nd : Nameidata D) (how : OpenHow) (created : Bool) (kind : FileType) :
    Option FsError :=
  if how.create && how.exclusive && !created then some .alreadyExists
  else if kind = .dir then if how.create then some .isADirectory else none
  else if nd.lookupDirectory then some .notADirectory
  else none

/-- `namei::do_open`. -/
def doOpen (nd : Nameidata D) (child : D) (opened : Opened) (op : OpenFlags) : Walked D D :=
  let how := op.openFlag
  let completed : Walked D Unit :=
    if opened.file || opened.created then .ok () nd else nd.completeWalk env
  match completed with
  | .error error nd => .error error nd
  | .ok () nd =>
    match env.kind nd.clock child with
    | none => .error .notFound nd.tick
    | some kind =>
      let nd := nd.tick
      match nd.doOpenRefusal how opened.created kind with
      | some error => .error error nd
      | none =>
        let truncate := !opened.created && how.truncate && decide (kind = .regFile)
        match if truncate then env.mntWantWrite nd.clock else .ok () with
        | .error error => .error error nd.tick
        | .ok () =>
          let nd := nd.tick
          match env.mayOpen nd.clock child truncate with
          | .error error => .error error nd.tick
          | .ok () =>
            let nd := nd.tick
            match if opened.file then .ok () else env.doDentryOpen nd.clock child how with
            | .error error => .error error nd.tick
            | .ok () => .ok child nd.tick

/-- `namei::do_o_path`, which opens nothing. -/
def doOPath (nd : Nameidata D) (op : OpenFlags) : Walked D D :=
  match nd.pathLookupat env op.lookupFollow with
  | .error error nd => .error error nd
  | .ok () nd =>
    match nd.path with
    | none => .error .notFound nd
    | some child =>
      match env.kind nd.clock child with
      | none => .error .notFound nd.tick
      | some _ =>
        match env.doDentryOpen nd.tick.clock child op.openFlag with
        | .error error => .error error nd.tick.tick
        | .ok () => .ok child nd.tick.tick

/-- `namei::path_openat`: the dentry the file stands for. -/
def pathOpenat (nd : Nameidata D) (op : OpenFlags) : Walked D D :=
  let nd := { nd with lookupDirectory := op.lookupDirectory }
  if !op.openFlag.read && !op.openFlag.write then nd.doOPath env op
  else
    match nd.linkPathWalk env with
    | .error error nd => .error error nd
    | .ok () nd =>
      match nd.openLastLookups env op.openFlag op.lookupFollow with
      | .error error nd => .error error nd
      | .ok opened nd =>
        match nd.path with
        | none => .error .notFound nd
        | some child => nd.doOpen env child opened op

end Open

/-! ## Calls -/

/-- What the walks of one call carry from one to the next. -/
structure Carried (D : Type) where
  /-- The links followed, as the call's `total_link_count`. -/
  links : Nat
  /-- The questions asked. -/
  clock : Nat
  /-- The directories stepped into. -/
  steps : List D
deriving Repr, DecidableEq

/-- `namei::getname`. -/
def getname (path : String) : Except FsError Unit :=
  if path.isEmpty then .error .notFound
  else if path.utf8ByteSize ≥ pathMax then .error .invalidFilename
  else if path.toList.contains '\x00' then .error .invalidInput
  else .ok ()

/-- The walk `namei::set_nameidata` makes. -/
def fresh (start : D) (path : String) (carried : Carried D) : Nameidata D :=
  ⟨start, carried.clock, start, parts path, carried.links, "", .dot, false, none, false,
    carried.clock, carried.steps⟩

section Calls

variable [DecidableEq D] (env : Env D)

/-- `namei::set_nameidata`. -/
def setNameidata (start : D) (path : String) (carried : Carried D) : Walked D Unit :=
  let nd := fresh start path carried
  match getname path with
  | .error error => .error error nd
  | .ok () =>
    if isAbsolute path then .error .escape nd
    else
      match env.kind nd.clock start with
      | none => .error .notFound nd.tick
      | some .dir => .ok () nd.tick
      | some _ => .error .notADirectory nd.tick

/-- What a walk leaves the next one of its call. -/
def carry (nd : Nameidata D) : Carried D := ⟨nd.totalLinkCount, nd.clock, nd.steps⟩

/-- `namei::walk_with_reval`: made once more where it answers ESTALE, the links counted so far
counted on. -/
def walkWithReval {α : Type} (walk : Carried D → Walked D α) : Walked D α :=
  match walk ⟨0, 0, []⟩ with
  | .error .staleNetworkFileHandle nd => walk nd.carry
  | answered => answered

/-- `namei::filename_lookup`. -/
def filenameLookup (start : D) (path : String) (follow : Bool) : Walked D Unit :=
  walkWithReval fun carried =>
    match setNameidata env start path carried with
    | .error error nd => .error error nd
    | .ok () nd => nd.pathLookupat env follow

/-- `namei::filename_parentat`. -/
def filenameParentat (start : D) (path : String) : Walked D Unit :=
  walkWithReval fun carried =>
    match setNameidata env start path carried with
    | .error error nd => .error error nd
    | .ok () nd =>
      match nd.linkPathWalk env with
      | .error error nd => .error error nd
      | .ok () nd => nd.completeWalk env

/-- `namei::do_file_open`: the dentry the file stands for. -/
def doFileOpen (start : D) (path : String) (op : OpenFlags) : Walked D D :=
  walkWithReval fun carried =>
    match setNameidata env start path carried with
    | .error error nd => .error error nd
    | .ok () nd => nd.pathOpenat env op

end Calls

end Nameidata

end Kobako.Vfs
