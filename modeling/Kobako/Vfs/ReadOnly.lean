import Kobako.Vfs.Licences

/-!
# Read-only mounts

Through a mount that allows only reads, or of a super block nothing changes beneath, no run of
requests asks a Filesystem for a change: not by a name, not through a file opened before, and not
by an open. What an open hands down keeps three flags that ask for nothing there: an entry found
standing is opened with the `create` the caller gave, an `atomic_open` that may only look up is
handed the caller's `write`, and what a Filesystem said it made, though not asked to, is opened
with the caller's `truncate`.
-/

namespace Kobako.Vfs

variable {M D F : Type}

/-- An operation that asks to change a regular file or a directory, after the events of `log`, which
the same request asked. An `open` asks so where it writes, or truncates what the Filesystem did not
say it had just made; an `atomic_open` where it may make the file or empty it. -/
def Op.Mutates (sys : System M D F) (log : List (Event M D)) (now : Nat) (m : M) : Op D → Prop
  | .create .. | .mkdir .. | .symlink .. | .link .. | .unlink .. | .rmdir .. | .rename ..
  | .setattr .. => True
  | .writeIter _ kind | .fallocate _ kind => kind = .regFile ∨ kind = .dir
  | .open child how => (∃ kind, sys.env.kind now child = some kind ∧ (kind = .regFile ∨ kind = .dir)) ∧
    (how.write = true ∨ how.truncate = true ∧ .made m child ∉ log)
  | .atomicOpen _ _ how => how.create = true ∨ how.truncate = true

/-- A kind that is a regular file or a directory is not special. -/
theorem specialFile_plain {kind : FileType} (plain : kind = .regFile ∨ kind = .dir) :
    specialFile kind = false := by
  rcases plain with rfl | rfl
  · rfl
  · rfl

/-- A licensed operation that mutates goes through a mount that takes a write. -/
theorem LicensedOp.writable {sys : System M D F} {setting : Setting M D F}
    {log : List (Event M D)} {now : Nat} {m : M} {op : Op D}
    (licensed : LicensedOp sys setting log now m op) (mutates : op.Mutates sys log now m) :
    sys.Writable m := by
  cases op with
  | create dir child => exact licensed.1
  | mkdir dir child => exact licensed.1
  | symlink dir child target => exact licensed.1
  | link old dir child => exact licensed.1
  | unlink dir child => exact licensed.1
  | rmdir dir child => exact licensed.1
  | rename oldDir old newDir new => exact licensed.1
  | setattr child attr => exact licensed.1
  | writeIter d kind => exact licensed.1 (specialFile_plain mutates)
  | fallocate d kind => exact licensed.1 (specialFile_plain mutates)
  | atomicOpen dir child how =>
    rcases mutates with create | truncate
    · exact (licensed.1 create).1
    · exact licensed.2 truncate
  | «open» child how =>
    obtain ⟨⟨kind, told, plain⟩, asks⟩ := mutates
    obtain ⟨writes, empties⟩ := licensed.1 kind told plain
    rcases asks with write | ⟨truncate, unmade⟩
    · exact writes write
    · exact (empties truncate).resolve_right unmade

/-- No request of a run asks for a change through a read-only mount, whatever the Filesystem and
the security modules answer: none of the operations logged mutates, after what the request that
asked it had asked before. -/
theorem readOnly_never_mutates [DecidableEq M] [DecidableEq D] (sys : System M D F)
    (requests : List (System.Request M D)) (newer older : List (Event M D)) (now : Nat) (m : M)
    (op : Op D) (readOnly : sys.isReadonly m = true)
    (asked : (sys.runRequests requests World.start).log = newer ++ .op now m op :: older) :
    ∃ before request own, sys.AskedBy requests (.op now m op) older before request own ∧
      ¬op.Mutates sys own now m := by
  have judges : AllJudge (fun _ _ => True) requests := fun _ _ _ _ _ _ _ _ => trivial
  obtain ⟨before, request, own, askedBy, all⟩ := event_licensed judges asked
  refine ⟨before, request, own, askedBy, fun mutates => ?_⟩
  have licensed : LicensedOp sys (Setting.of (fun _ _ => True) request (sys.after before)) own now m
      op := all.1
  have writable : sys.isReadonly m = false := licensed.writable mutates
  rw [readOnly] at writable
  cases writable

/-! ## The flags an open keeps -/

/-- A directory and the regular file `f` in it. -/
def oneFileEnv (cached : Bool) : Env Bool where
  parent _ _ := false
  isRoot d := !d
  depth _ d := d.toNat
  kind _ d := some (if d then .regFile else .dir)
  permission _ _ := .ok ()
  lookup _ d _ := if d then .error .notADirectory else .ok true
  getLink _ _ := .error .invalidInput
  seqRetry _ _ := false
  lookupFast _ d _ := .ok (if cached && !d then some true else none)
  mntWantWrite _ := .ok ()
  isDeaddir _ _ := false
  dAllocParallel _ d _ := if d then .error .notADirectory else .ok true
  beginLookup _ _ := .ok true
  mayOCreate _ _ _ := .ok ()
  atomicOpen _ _ _ _ := .ok ⟨false, false, none⟩
  doDentryOpen _ _ _ := .ok ()
  mayOpen _ _ _ := .ok ()
  deeper _ d inner := by
    cases d with
    | false => cases inner
    | true => decide
  lookup_child := by
    intro now d name c found
    cases d with
    | true => cases found
    | false =>
      cases found
      exact ⟨rfl, rfl⟩
  lookupFast_child := by
    intro now d name c found
    cases d with
    | true =>
      rw [Bool.not_true, Bool.and_false] at found
      cases found
    | false =>
      cases cached with
      | true =>
        cases found
        exact ⟨rfl, rfl⟩
      | false => cases found
  alloc_child := by
    intro now d name c found
    cases d with
    | true => cases found
    | false =>
      cases found
      exact ⟨rfl, rfl⟩
  spliced_child := by
    rintro now d given how opened c ⟨⟩ spliced
    cases spliced

/-- A mount of it: the Filesystem leaves `atomic_open` to the default, or answers `finish`, and
empties what it opens so or not. -/
def oneFile (readOnly cached : Bool) (finish : Option (Finish Unit)) (empties : Bool) :
    System Unit Bool Unit where
  env := oneFileEnv cached
  kind_stays _ told := told
  readOnly _ := readOnly
  rdonly _ := false
  pathRaw _ d := if d then "/f" else "/"
  inodeLock _ _ := .ok ()
  lookupOneQstrExcl _ _ _ := .ok true
  inLookup _ _ := true
  addCi _ _ _ := .ok true
  spliceAlias _ _ _ := .ok none
  namesTheEntryOf _ _ _ := false
  lockRename _ _ _ := .ok ()
  lockMoved _ _ _ := .ok ()
  fs :=
    { permission := fun _ _ _ => .ok ()
      nlink := fun _ _ => .ok 1
      lookup := fun _ _ _ => .ok .found
      atomicOpen := fun _ _ _ _ => finish.map .ok
      empties := fun _ _ => empties
      «open» := fun _ _ _ => .ok ()
      change := fun _ _ => .ok ()
      writeIter := fun _ _ _ buf => .ok (buf.length, 0)
      fallocate := fun _ _ _ _ => .ok ()
      isStream := fun _ => false
      emptyFops := () }

/-- An open of `f` in the directory. -/
def openF (cred : Cred Unit Bool) (how : OpenAsk) : System.Request Unit Bool :=
  .open cred (fun _ => .ok ((), false)) "f" how

/-- The walk to the directory of `f`. -/
theorem oneFile_linkPathWalk (cached : Bool) (w : World Unit Bool Unit) (nd : Nameidata Bool)
    (pending : nd.pending = ["f"]) :
    Call.onWalk (Nameidata.linkPathWalk (oneFileEnv cached)) nd w =
      .ok ((), ({ nd with
        clock := w.clock + 1, totalLinkCount := w.links, pending := [] } : Nameidata Bool).setLast
          "f" false) { w with clock := w.clock + 1 } := by
  unfold Call.onWalk
  rw [Nameidata.linkPathWalk]
  obtain ⟨root, seq, dir, pend, total, last, lastType, slash, path, directory, clock, steps⟩ := nd
  subst pending
  rfl

/-- What is left of an open of `f` once the walk to its directory is made. -/
def openLast (sys : System Unit Bool Unit) (cred : Cred Unit Bool) (op : AskedFlags) :
    Call Unit Bool Unit (File Unit Bool Unit) := do
  let nd : Nameidata Bool := { Nameidata.fresh false "f" ⟨0, 2, []⟩ with
    clock := 3, pending := [], lookupDirectory := op.lookupDirectory }
  let (opened, nd) ← sys.openLastLookups cred () op.openFlag (FMode.of op.openFlag.toOpenHow)
    (maxSymlinks + 2) (nd.setLast "f" false) op.lookupFollow
  let child ← System.pathOf nd
  sys.doOpen cred () nd child opened op

/-- A walk that is not stale is made once. -/
theorem walkWithReval_once {M D F α : Type} {walk : Call M D F α} {w : World M D F}
    {ok : α → World M D F → Prop} {failed : FsError → World M D F → Prop}
    (walked : Ends walk { w with links := 0 } ok
      fun e after => failed e after ∧ e ≠ .staleNetworkFileHandle) :
    Ends (System.walkWithReval walk) w ok failed := by
  have counted : Ends (modify fun w => { w with links := 0 } : Call M D F PUnit) w
      (fun _ after => after = { w with links := 0 }) failed := rfl
  refine counted.bind fun _ after known => ?_
  subst known
  have tried : Ends (attempt walk) { w with links := 0 }
      (fun
        | .ok a, after => ok a after
        | .error e, after => failed e after ∧ e ≠ .staleNetworkFileHandle) failed :=
    Ends.attempt walked
  refine tried.bind fun answer after known => ?_
  cases answer with
  | ok a => exact Ends.pure known
  | error e =>
    split
    · rename_i stale
      cases stale
      exact absurd rfl known.2
    · exact Ends.throw known.1

/-- What an open of `f` asks, the walk to its directory being made. -/
theorem oneFile_open_log {sys : System Unit Bool Unit} {readOnly cached empties : Bool}
    {finish : Option (Finish Unit)} (one : sys = oneFile readOnly cached finish empties)
    {cred : Cred Unit Bool} {how : OpenAsk} {op : AskedFlags}
    (built : buildOpenFlags how = .ok op)
    (path : (FMode.of op.openFlag.toOpenHow).path = false) {log : List (Event Unit Bool)}
    (asked : Ends (openLast sys cred op) ⟨3, 0, [], []⟩ (fun _ after => after.log = log)
      fun e after => after.log = log ∧ e ≠ .staleNetworkFileHandle) :
    (sys.runRequests [openF cred how] World.start).log = log := by
  have walked : (do
        let (m, nd) ← sys.setNameidata (fun _ => .ok ((), false)) "f"
        sys.pathOpenat cred m nd op) World.start = openLast sys cred op ⟨3, 0, [], []⟩ := by
    subst one
    have named : (oneFile readOnly cached finish empties).setNameidata
        (fun _ => .ok ((), false)) "f" World.start =
        .ok ((), Nameidata.fresh false "f" ⟨0, 2, []⟩) ⟨2, 0, [], []⟩ := rfl
    rw [bind_eq named]
    unfold System.pathOpenat
    dsimp only
    rw [if_neg (by rw [path]; decide)]
    exact bind_eq (oneFile_linkPathWalk cached _ _ rfl)
  have opened : Ends (sys.doFileOpen cred (fun _ => .ok ((), false)) "f" op) World.start
      (fun _ after => after.log = log) fun _ after => after.log = log := by
    refine walkWithReval_once ?_
    unfold Ends at asked ⊢
    rw [← walked] at asked
    exact asked
  have performed : Ends (sys.perform (openF cred how)) World.start
      (fun _ after => after.log = log) fun _ after => after.log = log := by
    have flags : Ends (Call.given (buildOpenFlags how) : Call Unit Bool Unit AskedFlags)
        World.start (fun op' after => op' = op ∧ after = World.start)
        fun _ after => after.log = log := by
      rw [built]
      exact ⟨rfl, rfl⟩
    refine flags.bind fun op' after known => ?_
    obtain ⟨rfl, rfl⟩ := known
    exact opened.bind fun file after known => Ends.modify known
  unfold Ends at performed
  unfold System.runRequests
  cases ended : sys.perform (openF cred how) World.start with
  | ok a after =>
    rw [ended] at performed
    exact performed
  | error e after =>
    rw [ended] at performed
    exact performed

/-- An open to read. -/
def openRead : OpenAsk := { OpenAsk.none with read := true }

/-- An open to read and write. -/
def openReadWrite : OpenAsk := { OpenAsk.none with read := true, write := true }

/-- An open to read that empties the file. -/
def openEmptied : OpenAsk := { OpenAsk.none with read := true, truncate := true }

/-- An open to read that may make the file. -/
def openOrCreate : OpenAsk := { OpenAsk.none with read := true, create := true }

/-- What the open of a name not looked up asks beneath a read-only mount. -/
theorem oneFile_write_log :
    ((oneFile true false none false).runRequests [openF [] openReadWrite] World.start).log =
      [.hook 20 (.inodePermission true { write := true, read := true, «open» := true }),
        .op 10 () (.atomicOpen false true openReadWrite)] := by
  have built : buildOpenFlags openReadWrite =
      .ok ⟨openReadWrite, { write := true, read := true }, false, false⟩ := rfl
  exact oneFile_open_log rfl built rfl ⟨rfl, by decide⟩

/-- What the open of a file found standing asks beneath a read-only mount. -/
theorem oneFile_create_log :
    ((oneFile true true none false).runRequests [openF [] openOrCreate] World.start).log =
      [.op 14 () (.open true openOrCreate),
        .hook 12 (.fileOpen ((), true) .regFile (FMode.of openOrCreate.toOpenHow) openOrCreate),
        .hook 11 (.inodePermission true { read := true, «open» := true })] := by
  have built : buildOpenFlags openOrCreate =
      .ok ⟨openOrCreate, { read := true }, false, false⟩ := rfl
  exact oneFile_open_log rfl built rfl rfl

/-- What the open of a name not looked up asks beneath a read-only mount of a Filesystem that says
it made the file. -/
theorem oneFile_made_log :
    ((oneFile true false (some (.noOpen true)) false).runRequests [openF [] openEmptied]
      World.start).log =
      [.op 19 () (.open true openEmptied),
        .hook 17 (.fileOpen ((), true) .regFile
          { FMode.of openEmptied.toOpenHow with created := true } openEmptied),
        .hook 16 (.inodePermission true { «open» := true }),
        .made () true, .op 10 () (.atomicOpen false true openRead)] := by
  have built : buildOpenFlags openEmptied =
      .ok ⟨openEmptied, { write := true, read := true }, false, false⟩ := rfl
  exact oneFile_open_log rfl built rfl rfl

/-- Opened to be written, a name not looked up is handed to `atomic_open`, which mutates nothing
there. -/
theorem readOnly_never_mutates_oneFile :
    ∃ before request own, (oneFile true false none false).AskedBy [openF [] openReadWrite]
        (.op 10 () (.atomicOpen false true openReadWrite)) [] before request own ∧
      ¬(Op.atomicOpen false true openReadWrite).Mutates (oneFile true false none false) own 10 () :=
  readOnly_never_mutates (oneFile true false none false) [openF [] openReadWrite]
    [.hook 20 (.inodePermission true { write := true, read := true, «open» := true })] [] 10 () _
    rfl oneFile_write_log

/-- An operation that asks to change a regular file or a directory, any flag of an open to create,
write or truncate taken to ask so. -/
def Op.AsksChange (sys : System M D F) (now : Nat) : Op D → Prop
  | .create .. | .mkdir .. | .symlink .. | .link .. | .unlink .. | .rmdir .. | .rename ..
  | .setattr .. => True
  | .writeIter _ kind | .fallocate _ kind => kind = .regFile ∨ kind = .dir
  | .open child how => (∃ kind, sys.env.kind now child = some kind ∧ (kind = .regFile ∨ kind = .dir)) ∧
    (how.create = true ∨ how.write = true ∨ how.truncate = true)
  | .atomicOpen _ _ how => how.create = true ∨ how.write = true ∨ how.truncate = true

/-- Beneath a read-only mount an `atomic_open` is handed the flag to write, an `open` the flag to
create, and an `open` of what the Filesystem said it made the flag to truncate. -/
theorem readOnly_hands_flags :
    ((oneFile true false none false).isReadonly () = true ∧
      ∃ now dir child how, .op now () (.atomicOpen dir child how) ∈
        ((oneFile true false none false).runRequests [openF [] openReadWrite] World.start).log ∧
        (Op.atomicOpen dir child how).AsksChange (oneFile true false none false) now) ∧
    ((oneFile true true none false).isReadonly () = true ∧
      ∃ now child how, .op now () (.open child how) ∈
        ((oneFile true true none false).runRequests [openF [] openOrCreate] World.start).log ∧
        (Op.open child how).AsksChange (oneFile true true none false) now) ∧
    ((oneFile true false (some (.noOpen true)) false).isReadonly () = true ∧
      ∃ now child how, how.create = false ∧ how.write = false ∧ .op now () (.open child how) ∈
        ((oneFile true false (some (.noOpen true)) false).runRequests [openF [] openEmptied]
          World.start).log ∧
        (Op.open child how).AsksChange (oneFile true false (some (.noOpen true)) false) now) := by
  refine ⟨⟨rfl, 10, false, true, openReadWrite, ?_, .inr (.inl rfl)⟩,
    ⟨rfl, 14, true, openOrCreate, ?_, ⟨.regFile, rfl, .inl rfl⟩, .inl rfl⟩,
    ⟨rfl, 19, true, openEmptied, rfl, rfl, ?_, ⟨.regFile, rfl, .inl rfl⟩, .inr (.inr rfl)⟩⟩
  · rw [oneFile_write_log]
    exact List.mem_cons_of_mem _ List.mem_cons_self
  · rw [oneFile_create_log]
    exact List.mem_cons_self
  · rw [oneFile_made_log]
    exact List.mem_cons_self

end Kobako.Vfs
