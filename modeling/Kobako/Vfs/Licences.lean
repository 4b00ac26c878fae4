import Kobako.Vfs.Mediation
import Mathlib.Data.List.Induction

/-!
# Licences

Every call of the VFS asks a Filesystem only for what the log licenses. There is one lemma for
each function, proved from those of the functions it calls; what it says besides is what a caller
needs: that a mount took a write, that a hook was asked, that a file was opened through it. The
last ones say it of one request, and of each request of any run of them.
-/

namespace Kobako.Vfs

variable {M D F : Type}

/-! ## Permission -/

/-- What every module of `cred` allows is granted. -/
def Judges (granted : Nat → Hook M D → Prop) (cred : Cred M D) : Prop :=
  ∀ now hook kept, cred.callIntHook now hook = .ok kept → granted now hook

section Functions

variable {sys : System M D F} {setting : Setting M D F} {fact : Fact M D} {cred : Cred M D}

/-- A super block nothing changes beneath is asked nothing. -/
theorem sbPermission_yields (m : M) (d : D) (mask : Mask) :
    Yields sys setting fact (sys.sbPermission m d mask) fun _ => .any := by
  unfold System.sbPermission
  split
  · refine (Yields.read _).seq fun kind => ?_
    split
    · exact Yields.throw
    · exact Yields.throw
    · exact Yields.throw
    · exact Yields.throw
    · exact Yields.pure fun _ _ => trivial
  · exact Yields.pure fun _ _ => trivial

/-- What is asked before an entry is entered licenses nothing yet. -/
theorem inodePermission_yields (judges : Judges setting.granted cred) (m : M) (d : D)
    (mask : Mask) :
    Yields sys setting fact (sys.inodePermission cred m d mask) fun _ => .any := by
  unfold System.inodePermission
  refine (sbPermission_yields m d mask).seq fun _ => ?_
  refine (Yields.kindOf d).seq fun _ => ?_
  refine (Yields.ask _).seq fun _ => ?_
  refine (Yields.security (judges · _)).seq fun _ => ?_
  exact Yields.pure fun _ _ => trivial

/-- What is asked before a name is made licenses nothing yet. -/
theorem mayCreateDentry_yields (judges : Judges setting.granted cred) (m : M) (dir child : D) :
    Yields sys setting fact (sys.mayCreateDentry cred m dir child) fun _ => .any := by
  unfold System.mayCreateDentry
  refine (Yields.read _).seq fun kind => ?_
  refine Yields.check fun _ => ?_
  refine (Yields.read _).seq fun dead => ?_
  refine Yields.check fun _ => ?_
  exact inodePermission_yields judges m dir _

/-- What is asked before a name is removed licenses nothing yet. -/
theorem mayDeleteDentry_yields (judges : Judges setting.granted cred) (m : M) (dir : D)
    (victim : Option FileType) (isDir : Bool) :
    Yields sys setting fact (sys.mayDeleteDentry cred m dir victim isDir) fun _ => .any := by
  unfold System.mayDeleteDentry
  cases victim with
  | none => exact Yields.throw
  | some victim =>
    refine (inodePermission_yields judges m dir _).seq fun _ => ?_
    refine Yields.check fun _ => ?_
    refine Yields.check fun _ => ?_
    refine (Yields.read _).seq fun dead => ?_
    split
    · exact Yields.throw
    · exact Yields.pure fun _ _ => trivial

/-! ## Opens -/

/-- A Filesystem said it made the file, asked to or not. -/
def Fact.madeBy (sys : System M D F) (m : M) (child : D) : Fact M D where
  holds log := ∃ now dir how, .op now m (.atomicOpen dir child how) ∈ log ∧
    (how.create = true ∨
      ∃ finish, sys.fs.atomicOpen now dir child how = some (.ok finish) ∧ finish.made = true)
  lasts := by
    rintro log event ⟨now, dir, how, mem, said⟩
    exact ⟨now, dir, how, List.mem_cons_of_mem _ mem, said⟩

/-- What is known before an `atomic_open`: the mount takes a write where it is asked to make or to
empty the file, and the hook judged what it makes. -/
def Fact.mayAtomicOpen (sys : System M D F) (m : M) (child : D) (how : OpenAsk) : Fact M D :=
  (Fact.given (how.create = true) ((Fact.const (sys.Writable m)).and
    (.asked (.pathMknod (m, child))))).and (.const (how.truncate = true → sys.Writable m))

/-- The default makes a file only where it is asked to. -/
theorem defaultAtomicOpen_yields (m : M) (dir child : D) (how : OpenAsk)
    (may : ∀ log, fact.holds log → (Fact.mayAtomicOpen sys m child how).holds log) :
    Yields sys setting fact (sys.defaultAtomicOpen m dir child how)
      fun finish => .const (finish.made = true → how.create = true) := by
  unfold System.defaultAtomicOpen
  refine (Yields.read _).seq fun inLookup => ?_
  have found : ∀ answer : Lookup, Yields sys setting fact
      (if (inLookup && (!how.create || answer ≠ .absent)) = true then
          pure (.lookup answer : Finish F)
        else if (!how.create) = true then pure (.noOpen false)
        else do
          Call.invoke m (.create dir child) (sys.fs.change · (.create dir child))
          pure (.noOpen true))
      fun finish => .const (finish.made = true → how.create = true) := by
    intro answer
    split
    · exact Yields.pure fun _ _ made => by cases made
    · split
      · exact Yields.pure fun _ _ made => by cases made
      · rename_i create
        have create : how.create = true := by simpa using create
        have licensed : ∀ log now, fact.holds log →
            LicensedOp sys setting log now m (.create dir child) :=
          fun log _ known => (may log known).1 create
        refine (Yields.invoke _ licensed).seq fun _ => ?_
        exact Yields.pure fun _ _ _ => create
  dsimp only
  split
  · exact (Yields.ask _).seq found
  · have absent : Yields sys setting fact (pure Lookup.absent : Call M D F Lookup)
        fun _ => .any := Yields.pure fun _ _ => trivial
    exact absent.seq found

/-- A Filesystem that says it made a file was asked to open it. -/
theorem fsAtomicOpen_yields (m : M) (dir child : D) (how : OpenAsk)
    (may : ∀ log, fact.holds log → (Fact.mayAtomicOpen sys m child how).holds log) :
    Yields sys setting fact (sys.fsAtomicOpen m dir child how)
      fun finish => .given (finish.made = true) (.madeBy sys m child) := by
  unfold System.fsAtomicOpen
  have licensed : ∀ log now, fact.holds log →
      LicensedOp sys setting log now m (.atomicOpen dir child how) := fun log _ known => may log known
  refine (Yields.invoke _ licensed).bind fun answer => ?_
  obtain ⟨answer, empties⟩ := answer
  cases answer with
  | none =>
    refine (defaultAtomicOpen_yields m dir child how ?_).mono ?_
    · exact fun log known => may log known.1
    · rintro finish log ⟨known, now, told, mem⟩ made asked
      exact ⟨now, dir, how, mem, .inl (made asked)⟩
  | some answer =>
    dsimp only
    refine Yields.optional (fun both => Yields.note ?_) ?_
    · rintro log ⟨known, now, told, mem⟩
      have both : how.truncate = true ∧ empties = true := by simpa using both
      obtain ⟨-, emptied⟩ : _ ∧ sys.fs.empties now child = empties := by simpa using told
      exact ⟨now, dir, how, mem, both.1, emptied.trans both.2⟩
    · refine (Yields.given answer).mono ?_
      rintro finish log ⟨⟨known, now, told, mem⟩, -⟩ answered made
      obtain ⟨said, -⟩ : sys.fs.atomicOpen now dir child how = some answer ∧ _ := by
        simpa using told
      exact ⟨now, dir, how, mem, .inr ⟨finish, answered ▸ said, made⟩⟩

/-- A file made is noted, at the dentry that was handed down. -/
theorem atomicOpen_yields (m : M) (dir child : D) (how : OpenAsk)
    (may : ∀ log, fact.holds log → (Fact.mayAtomicOpen sys m child how).holds log) :
    Yields sys setting fact (sys.atomicOpen m dir child how) fun opened =>
      .given (opened.created = true)
        ((Fact.logged (.made m child)).and (.const (opened.spliced = none))) := by
  unfold System.atomicOpen
  refine (Yields.kindOf dir).seq fun _ => ?_
  refine (fsAtomicOpen_yields m dir child how may).bind fun finish => ?_
  cases finish with
  | «open» file created =>
    refine Yields.optional (fun made => Yields.note fun log known => known.2 made) ?_
    exact Yields.pure fun log known made => ⟨known.2 made, rfl⟩
  | spelled file name =>
    refine (Yields.ask _).seq fun spelled => ?_
    exact Yields.pure fun log known made => by cases made
  | noOpen created =>
    refine Yields.optional (fun made => Yields.note fun log known => known.2 made) ?_
    exact Yields.pure fun log known made => ⟨known.2 made, rfl⟩
  | lookup answer =>
    refine (Yields.ask _).seq fun spliced => ?_
    exact Yields.pure fun log known made => by cases made

/-- What is known once `do_dentry_open` asked the hook: it was asked, and the mount takes a write
where the file does. -/
def Fact.mayOpenFile (sys : System M D F) (m : M) (d : D) (kind : FileType) (mode : FMode)
    (how : OpenAsk) : Fact M D :=
  (Fact.const (mode.write = true → specialFile kind = false → sys.Writable m)).and
    (.asked (.fileOpen (m, d) kind mode how))

/-- An open is asked where the log licenses it. -/
theorem dentryOpen_yields (m : M) (d : D) (how : OpenAsk)
    (licensed : ∀ log now, fact.holds log → LicensedOp sys setting log now m (.open d how)) :
    Yields sys setting fact (sys.dentryOpen m d how) fun _ => .any := by
  unfold System.dentryOpen
  refine (Yields.kindOf d).seq fun _ => ?_
  exact (Yields.invoke _ licensed).mono fun _ _ _ _ => trivial

/-- An open for more than a path goes through the hook. -/
theorem doDentryOpen_yields (judges : Judges setting.granted cred) (m : M) (d : D) (kind : FileType)
    (mode : FMode) (how : OpenAsk) {opens : Call M D F F}
    (opening : ∀ fact' : Fact M D, (∀ log, fact'.holds log → fact.holds log ∧ (Fact.mayOpenFile sys
      m d kind mode how).holds log) → Yields sys setting fact' opens fun _ => .any) :
    Yields sys setting fact (sys.doDentryOpen cred m d kind mode how opens)
      fun _ => .given (mode.path = false) (.mayOpenFile sys m d kind mode how) := by
  unfold System.doDentryOpen
  split
  · rename_i path
    exact Yields.pure fun log _ other => by rw [path] at other; cases other
  · refine Yields.optional (fun _ => Yields.wantWrite m) ?_
    refine (Yields.security (judges · _)).bind fun kept => ?_
    have may : ∀ log, ((fact.and (.given ((mode.write && !specialFile kind) = true)
        (.const (sys.Writable m)))).and (.asked (.fileOpen (m, d) kind mode how))).holds log →
        fact.holds log ∧ (Fact.mayOpenFile sys m d kind mode how).holds log := by
      rintro log ⟨⟨known, took⟩, asked⟩
      refine ⟨known, fun write ordinary => took ?_, asked⟩
      rw [write, ordinary]
      rfl
    refine (opening _ may).seq fun file => ?_
    exact Yields.pure fun log known _ => (may log known).2

/-- What `lookup_open` leaves `do_open`, as the log knows it: the mode the open asked for, a file
made only where the Filesystem said so, and a file it opened through the hook. -/
structure Left (sys : System M D F) (log : List (Event M D)) (m : M) (child : D) (mode : FMode)
    (how : OpenAsk) (left : OpenLeft F) : Prop where
  /-- Reading is what the open asked. -/
  read : left.mode.read = mode.read
  /-- Writing is what the open asked. -/
  write : left.mode.write = mode.write
  /-- Standing for a path is what the open asked. -/
  path : left.mode.path = mode.path
  /-- The Filesystem said that it made the file. -/
  made : left.mode.created = true → .made m child ∈ log
  /-- The file the Filesystem opened went through the hook. -/
  opened : left.file.isSome = true → ∃ kind, (∃ now, sys.env.kind now child = some kind) ∧
    (mode.path = false → (Fact.mayOpenFile sys m child kind left.mode how).holds log)

/-- What `lookup_open` left is known. -/
def Fact.left (sys : System M D F) (m : M) (child : D) (mode : FMode) (how : OpenAsk)
    (left : OpenLeft F) : Fact M D where
  holds log := Left sys log m child mode how left
  lasts := by
    intro log event known
    refine ⟨known.read, known.write, known.path, ?_, ?_⟩
    · exact fun created => List.mem_cons_of_mem _ (known.made created)
    · intro some
      obtain ⟨kind, told, may⟩ := known.opened some
      exact ⟨kind, told, fun path => (Fact.mayOpenFile ..).lasts log event (may path)⟩

/-- An open that may make a file took the write and asked the hook. -/
theorem createError_yields (judges : Judges setting.granted cred) (m : M) (dir given : D)
    (how : OpenAsk) (gotWrite : Except FsError Unit) :
    Yields sys setting fact (sys.createError cred m dir given how gotWrite) fun refused =>
      .given (how.create = true ∧ refused = none)
        ((Fact.const (gotWrite = .ok ())).and (.asked (.pathMknod (m, given)))) := by
  unfold System.createError
  split
  · cases gotWrite with
    | error error => exact Yields.pure fun _ _ both => by cases both.2
    | ok _ =>
      have made : Yields sys setting fact (sys.mayOCreate cred m dir given)
          fun _ => .asked (.pathMknod (m, given)) := by
        unfold System.mayOCreate
        refine (Yields.security (judges · _)).bind fun kept => ?_
        exact (mayCreateDentry_yields judges m dir given).mono fun _ _ known _ => known.2
      refine made.tried.bind fun tried => ?_
      cases tried with
      | error error => exact Yields.pure fun _ _ both => by cases both.2
      | ok _ => exact Yields.pure fun _ known _ => ⟨rfl, known.2⟩
  · rename_i asks
    exact Yields.pure fun _ _ both => absurd both.1 asks

/-- What an `atomic_open` tried leaves known. -/
def Fact.atomicOpened (m : M) (given : D) : Except FsError (AtomicOpened D F) → Fact M D
  | .ok opened => .given (opened.created = true)
      ((Fact.logged (.made m given)).and (.const (opened.spliced = none)))
  | .error _ => .any

/-- What an `atomic_open` is handed was licensed. -/
theorem askOpen_yields (judges : Judges setting.granted cred) (m : M) (nd : Nameidata D) (given : D)
    (how : OpenAsk) {gotWrite : Except FsError Unit}
    (took : gotWrite = .ok () → sys.Writable m) :
    Yields sys setting fact (sys.askOpen cred m nd given how gotWrite)
      fun asked => .atomicOpened m given asked.1 := by
  unfold System.askOpen
  refine (createError_yields judges m nd.dir given how gotWrite).bind fun refused => ?_
  have may : ∀ log,
      (fact.and (.given (how.create = true ∧ refused = none)
        ((Fact.const (gotWrite = .ok ())).and (.asked (.pathMknod (m, given)))))).holds log →
      (Fact.mayAtomicOpen sys m given
        { how with toOpenHow := nd.atomicOpenHow how.toOpenHow gotWrite refused }).holds log := by
    rintro log ⟨-, judged⟩
    refine ⟨fun create => ?_, fun truncate => ?_⟩
    · have both : how.create = true ∧ refused = none := by
        simpa [Nameidata.atomicOpenHow] using create
      obtain ⟨wrote, asked⟩ := judged both
      exact ⟨took wrote, asked⟩
    · have wrote : gotWrite.isOk = true := by
        have all := truncate
        simp only [Nameidata.atomicOpenHow, Bool.and_eq_true] at all
        exact all.1.2
      apply took
      cases gotWrite with
      | ok _ => rfl
      | error error => cases wrote
  refine (atomicOpen_yields m nd.dir given _ may).tried.bind fun asked => ?_
  cases asked with
  | ok opened => exact Yields.pure fun _ known => known.2
  | error error => exact Yields.pure fun _ _ => trivial

/-- What a name that was taken is asked was licensed. -/
theorem askGiven_yields (judges : Judges setting.granted cred) (m : M) (nd : Nameidata D)
    (given : D) (how : OpenAsk) {gotWrite : Except FsError Unit}
    (took : gotWrite = .ok () → sys.Writable m) :
    Yields sys setting fact (sys.askGiven cred m nd given how gotWrite)
      fun asked => .atomicOpened m given asked.1 := by
  unfold System.askGiven
  refine (Yields.ask _).tried.seq fun begun => ?_
  cases begun with
  | error error => exact Yields.pure fun _ _ => trivial
  | ok begun =>
    cases begun with
    | true => exact askOpen_yields judges m nd given how took
    | false =>
      refine (Yields.read _).seq fun kind => ?_
      split
      · exact Yields.pure fun _ _ created => by cases created
      · exact askOpen_yields judges m nd given how took

variable {mode : FMode}

section

variable (judges : Judges setting.granted cred)

include judges

/-- What `lookup_open` hands on is as the log knows it. -/
theorem settleOpen_yields (m : M) (nd : Nameidata D) (child : D) (opened : AtomicOpened D F)
    (refused : Option FsError) (how : OpenAsk) (fresh : mode.created = false)
    (made : ∀ log, fact.holds log → opened.created = true → .made m child ∈ log) :
    Yields sys setting fact (sys.settleOpen cred m nd child opened refused how mode)
      fun found => (Fact.left sys m found.1.1 mode how found.1.2).and
        (.const (found.2.path = some found.1.1)) := by
  unfold System.settleOpen
  dsimp only
  refine (Yields.read _).seq fun kind => ?_
  refine Yields.check fun _ => ?_
  have settled : ∀ file log, fact.holds log →
      (file.isSome = true → ∃ kind, (∃ now, sys.env.kind now child = some kind) ∧
        (mode.path = false → (Fact.mayOpenFile sys m child kind
          (if opened.created then { mode with created := true } else mode) how).holds log)) →
      Left sys log m child mode how
        ⟨file, if opened.created then { mode with created := true } else mode⟩ := by
    intro file log known opening
    cases created : opened.created with
    | true => exact ⟨rfl, rfl, rfl, fun _ => made log known created, by simpa [created] using opening⟩
    | false =>
      refine ⟨rfl, rfl, rfl, fun other => ?_, by simpa [created] using opening⟩
      have never : mode.created = true := other
      rw [fresh] at never
      cases never
  cases opened.file with
  | none => exact Yields.pure fun log known => ⟨settled none log known (fun some => by cases some), rfl⟩
  | some file =>
    refine (Yields.kindOf child).bind fun kind => ?_
    refine (doDentryOpen_yields judges m child kind _ how fun fact' _ =>
      Yields.pure fun _ _ => trivial).bind fun finished => ?_
    refine Yields.pure fun log known => ⟨settled _ log known.1.1 fun _ => ?_, rfl⟩
    refine ⟨kind, known.1.2, fun path => known.2 ?_⟩
    split
    · exact path
    · exact path

/-- What `lookup_open` finds is as the log knows it. -/
theorem lookupOpen_yields (m : M) (nd : Nameidata D) (how : OpenAsk)
    (fresh : mode.created = false) :
    Yields sys setting fact (sys.lookupOpen cred m nd how mode)
      fun found => (Fact.left sys m found.1.1 mode how found.1.2).and
        (.const (found.2.path = some found.1.1)) := by
  unfold System.lookupOpen
  dsimp only
  have took : (if (how.create || how.truncate || how.write) = true then sys.mntWantWrite m
      else .error .readOnlyFilesystem) = .ok () → sys.Writable m := by
    split
    · exact sys.isReadonly_of_mntWantWrite
    · intro never
      cases never
  refine (Yields.ask _).seq fun _ => ?_
  refine (Yields.read _).seq fun dead => ?_
  refine Yields.check fun _ => ?_
  refine (Yields.ask _).seq fun given => ?_
  refine (askGiven_yields judges m nd given how took).bind fun asked => ?_
  obtain ⟨asked, refused⟩ := asked
  cases asked with
  | error error =>
    dsimp only
    split
    · exact Yields.throw
    · exact Yields.throw
    · rename_i never
      cases never
  | ok opened =>
    refine settleOpen_yields judges m nd (opened.spliced.getD given) opened refused how fresh ?_
    intro log known created
    obtain ⟨made, unspliced⟩ := known.2 created
    rw [unspliced]
    exact made

/-- The dentry of the last name and what became of it are as the log knows them. -/
theorem findForOpen_yields (m : M) (nd : Nameidata D) (how : OpenAsk)
    (fresh : mode.created = false) :
    Yields sys setting fact (sys.findForOpen cred m nd how mode)
      fun found => (Fact.left sys m found.1.1 mode how found.1.2).and
        (.const (found.2.path = some found.1.1)) := by
  unfold System.findForOpen
  refine (Yields.onWalk _ nd).seq fun found => ?_
  obtain ⟨found, nd⟩ := found
  cases found with
  | none => exact lookupOpen_yields judges m nd how fresh
  | some child =>
    dsimp only
    refine (Yields.read _).seq fun kind => ?_
    refine Yields.check fun _ => ?_
    refine Yields.pure fun log _ => ⟨⟨rfl, rfl, rfl, fun created => ?_, fun some => ?_⟩, rfl⟩
    · have never : mode.created = true := created
      rw [fresh] at never
      cases never
    · cases some

/-- A directory is not opened to be changed. -/
theorem mayOpen_yields (m : M) (child : D) (kind : FileType) (mask : Mask) :
    Yields sys setting fact (sys.mayOpen cred m child kind mask)
      fun _ => .const (kind = .dir → mask.write = false) := by
  unfold System.mayOpen
  refine Yields.check fun _ => ?_
  refine Yields.check fun refused => ?_
  refine (inodePermission_yields judges m child _).mono fun _ _ _ _ dir => ?_
  simpa [dir] using refused

end

/-- A file is licensed by what opened it. -/
theorem fileNew_yields (m : M) (d : D) (ops : F) (mode : FMode) (how : OpenAsk)
    (cred : Cred M D) (kept : List FileSecurity)
    (opened : ∀ log, fact.holds log → mode.read = true ∨ mode.write = true →
      ∃ kind mode' how, OpenedFor log m d kind mode' how ∧ mode'.write = mode.write)
    (writable : ∀ log, fact.holds log → mode.write = true →
      ∀ now kind, sys.env.kind now d = some kind → specialFile kind = false → sys.Writable m) :
    Yields sys setting fact (sys.fileNew m d ops mode how cred kept)
      fun file => .file sys file := by
  unfold System.fileNew
  refine (Yields.read _).bind fun kind => ?_
  cases kind with
  | none => exact Yields.throw
  | some kind =>
    refine Yields.pure fun log known => ?_
    obtain ⟨known, now, told⟩ := known
    have same : (if sys.fs.isStream ops then mode.streamOpen else mode).read = mode.read ∧
        (if sys.fs.isStream ops then mode.streamOpen else mode).write = mode.write := by
      split
      · exact ⟨rfl, rfl⟩
      · exact ⟨rfl, rfl⟩
    refine ⟨fun asks => ?_, fun write ordinary => ?_⟩
    · dsimp only at asks ⊢
      rw [same.1, same.2] at asks
      rw [same.2]
      exact opened log known asks
    · dsimp only at write ordinary
      rw [same.2] at write
      exact writable log known write now kind told ordinary

/-- An entry is changed where the log licenses it. -/
theorem notifyChange_yields (m : M) (d : D) (attr : Iattr)
    (licensed : ∀ log, fact.holds log → sys.Writable m ∧
      (Asked log (.pathUtimes (m, d)) ∨ OpenedToChange log m d ∨ setting.held m d)) :
    Yields sys setting fact (sys.notifyChange m d attr) fun _ => .any := by
  unfold System.notifyChange
  have licensed : ∀ log now, fact.holds log → LicensedOp sys setting log now m (.setattr d attr) :=
    fun log _ known => licensed log known
  exact (Yields.invoke _ licensed).mono fun _ _ _ _ => trivial

/-- A file is emptied where it was opened to be changed. -/
theorem handleTruncate_yields (cred : Cred M D) (m : M) (d : D) (kept : List FileSecurity)
    (licensed : ∀ log, fact.holds log → sys.Writable m ∧ OpenedToChange log m d) :
    Yields sys setting fact (sys.handleTruncate cred m d kept) fun _ => .any := by
  unfold System.handleTruncate
  refine (Yields.ask _).seq fun _ => ?_
  refine (Yields.ask _).seq fun _ => ?_
  refine notifyChange_yields m d _ fun log known => ?_
  obtain ⟨writable, opened⟩ := licensed log known
  exact ⟨writable, .inr (.inl opened)⟩

/-- What is known before a file is opened at last: what stands there, that a write or a truncate of
a regular file was taken by the mount, and that no directory is opened to be changed. -/
def Fact.checked (sys : System M D F) (child : D) (m : M) (kind : FileType) (created : Bool)
    (how : OpenAsk) : Fact M D :=
  .const ((∃ now, sys.env.kind now child = some kind) ∧
    (created = false → how.truncate = true → kind = .regFile → sys.Writable m) ∧
    (created = false → how.truncate = true → kind ≠ .dir))

/-- What `do_open` opens went through the hook. -/
theorem openChild_yields (judges : Judges setting.granted cred) (m : M) (child : D)
    (kind : FileType) (opened : OpenLeft F) {how : OpenAsk} (notPath : mode.path = false)
    (writes : mode.write = how.write)
    (left : ∀ log, fact.holds log → Left sys log m child mode how opened)
    (checked : ∀ log, fact.holds log →
      (Fact.checked sys child m kind opened.mode.created how).holds log) :
    Yields sys setting fact (sys.openChild cred m child kind opened how)
      fun _ => .mayOpenFile sys m child kind opened.mode how := by
  unfold System.openChild
  cases file : opened.file with
  | some file =>
    refine Yields.pure fun log known => ?_
    obtain ⟨kind', ⟨now', told'⟩, may⟩ := (left log known).opened (by rw [file]; rfl)
    obtain ⟨⟨now, told⟩, -⟩ := checked log known
    have same : kind' = kind := sys.kind_once told' told
    exact same ▸ may notPath
  | none =>
    have opening : ∀ fact' : Fact M D, (∀ log, fact'.holds log → fact.holds log ∧
        (Fact.mayOpenFile sys m child kind opened.mode how).holds log) →
        Yields sys setting fact' (sys.dentryOpen m child how) fun _ => .any := by
      intro fact' may
      refine dentryOpen_yields m child how fun log now known => ?_
      obtain ⟨known, write, asked⟩ := may log known
      obtain ⟨⟨then_, told⟩, empty, noDir⟩ := checked log known
      have left := left log known
      refine ⟨fun kind' told' plain => ?_, fun truncate => ?_⟩
      rotate_left
      · exact ⟨kind, opened.mode, how, ⟨asked, left.made⟩, .inr truncate⟩
      have same : kind' = kind := sys.kind_once told' told
      have ordinary : specialFile kind = false := by
        rw [← same]
        rcases plain with regular | dir
        · rw [regular]
          rfl
        · rw [dir]
          rfl
      refine ⟨fun asks => write ?_ ordinary, fun truncate => ?_⟩
      · rw [left.write, writes, asks]
      · cases created : opened.mode.created with
        | true => exact .inr (left.made created)
        | false =>
          rw [created] at empty noDir
          rcases plain with regular | dir
          · exact .inl (empty rfl truncate (same ▸ regular))
          · exact absurd (same ▸ dir) (noDir rfl truncate)
    refine (doDentryOpen_yields judges m child kind opened.mode how opening).mono ?_
    intro file log known may
    exact may ((left log known).path.trans notPath)

/-- The path of a walk is the dentry it ended on. -/
theorem pathOf_yields (nd : Nameidata D) :
    Yields sys setting fact (System.pathOf nd : Call M D F D)
      fun child => .const (nd.path = some child) := by
  unfold System.pathOf
  refine (Yields.given _).mono fun child log _ told => ?_
  cases path : nd.path with
  | none =>
    rw [path] at told
    cases told
  | some found =>
    rw [path] at told
    cases told
    rfl

/-- What `build_open_flags` makes asks to write what the flags may write. -/
theorem buildOpenFlags_accMode {how : OpenAsk} {op : AskedFlags}
    (built : buildOpenFlags how = .ok op) :
    op.accMode.write = (op.openFlag.write || op.openFlag.truncate) := by
  unfold buildOpenFlags at built
  split at built
  · cases built
    rfl
  · split at built
    · cases built
    · cases built
      rfl

/-- A walk begins with nothing asked that is logged. -/
theorem setNameidata_yields (start : Start M D) (path : String) :
    Yields sys setting fact (sys.setNameidata start path) fun _ => .any := by
  unfold System.setNameidata
  refine (Yields.given _).seq fun _ => ?_
  refine Yields.check fun _ => ?_
  refine (Yields.ask _).seq fun started => ?_
  refine (Yields.kindOf _).seq fun kind => ?_
  refine Yields.check fun _ => ?_
  have state : Yields sys setting fact (get : Call M D F (World M D F)) fun _ => .any :=
    fun _ sound => Ends.get (sound.weaken fun _ known => ⟨known, trivial⟩)
  refine state.seq fun w => ?_
  exact Yields.pure fun _ _ => trivial

/-- A walk made once more knows what it knew made once. -/
theorem walkWithReval_yields {α : Type} {walk : Call M D F α} {known : α → Fact M D}
    (walked : Yields sys setting fact walk known) :
    Yields sys setting fact (System.walkWithReval walk) known := by
  unfold System.walkWithReval
  have counted : Yields sys setting fact
      (modify fun w : World M D F => { w with links := 0 }) fun _ => .any := by
    intro w sound
    have after : Sound sys setting fact { w with links := 0 } := sound.same rfl rfl
    exact Ends.modify (after.weaken fun _ known => ⟨known, trivial⟩)
  refine counted.seq fun _ => ?_
  refine Yields.rescue walked (fun a => ?_) fun error => ?_
  · exact Yields.pure fun _ both => both.2
  · split
    · exact walked
    · exact (Yields.given _).mono fun _ _ _ never => by cases never

/-- A call made once more knows what it knew made once. -/
theorem retryEstale_yields {W α : Type} {walk : Call M D F W} {act : W → Call M D F α}
    {reached : W → Fact M D} {known : α → Fact M D}
    (walked : Yields sys setting fact walk reached)
    (acted : ∀ w, Yields sys setting (fact.and (reached w)) (act w) known) :
    Yields sys setting fact (System.retryEstale walk act) known := by
  have once : Yields sys setting fact (walk >>= act) known := walked.bind acted
  intro w sound
  refine (walked w sound).bind fun found after middle => ?_
  refine Ends.bind ((acted found).tried after middle |>.mono (fun _ _ sound => sound)
    fun _ _ sound => sound.weaken fun _ both => both.1) fun tried last sound => ?_
  cases tried with
  | ok a => exact Ends.pure (sound.weaken fun _ both => ⟨both.1.1, both.2⟩)
  | error error =>
    have start : Sound sys setting fact last := sound.weaken fun _ both => both.1.1
    split
    · exact once last start
    · exact Ends.throw start

/-- A name is made only where the mount takes a write. -/
theorem filenameCreate_yields (m : M) (nd : Nameidata D) (wantDir : Bool) :
    Yields sys setting fact (sys.filenameCreate m nd wantDir)
      fun _ => .const (sys.Writable m) := by
  unfold System.filenameCreate
  refine Yields.check fun _ => ?_
  dsimp only
  refine (Yields.ask _).seq fun _ => ?_
  refine (Yields.ask _).seq fun child => ?_
  refine (Yields.read _).seq fun kind => ?_
  refine Yields.check fun _ => ?_
  refine Yields.check fun _ => ?_
  refine (Yields.wantWrite m).bind fun _ => ?_
  exact Yields.pure fun _ known => known.2

/-- The name to remove is found with nothing asked that is logged. -/
theorem startDirop_yields (nd : Nameidata D) :
    Yields sys setting fact (sys.startDirop nd) fun _ => .any := by
  unfold System.startDirop
  refine (Yields.ask _).seq fun _ => ?_
  refine (Yields.ask _).seq fun child => ?_
  refine (Yields.kindOf child).seq fun _ => ?_
  exact Yields.pure fun _ _ => trivial

/-- The last step of a change: an operation the log licenses. -/
theorem Yields.change {m : M} {op : Op D}
    (licensed : ∀ log now, fact.holds log → LicensedOp sys setting log now m op) :
    Yields sys setting fact (Call.invoke m op (sys.fs.change · op)) fun _ => .any :=
  (Yields.invoke _ licensed).mono fun _ _ _ _ => trivial

/-! ## Walks -/

section Walks

variable [DecidableEq D]

section

variable (judges : Judges setting.granted cred)

include judges

/-- What the last lookups of an open end on is as the log knows it. -/
theorem openLastLookups_yields (m : M) (how : OpenAsk) {mode : FMode} (fresh : mode.created = false)
    (rounds : Nat) (nd : Nameidata D) (follow : Bool) :
    Yields sys setting fact (sys.openLastLookups cred m how mode rounds nd follow)
      fun found => ⟨fun log => ∀ child, found.2.path = some child →
        Left sys log m child mode how found.1,
        fun log event known child path => (Fact.left ..).lasts log event (known child path)⟩ := by
  induction rounds generalizing fact nd follow with
  | zero => exact Yields.throw
  | succ rounds ih =>
    unfold System.openLastLookups
    split
    · refine (Yields.onWalk _ nd).seq fun dotted => ?_
      refine Yields.pure fun log _ child _ => ⟨rfl, rfl, rfl, fun created => ?_, fun some => ?_⟩
      · have never : mode.created = true := created
        rw [fresh] at never
        cases never
      · cases some
    · refine Yields.check fun _ => ?_
      dsimp only
      refine (findForOpen_yields judges m _ how fresh).bind fun found => ?_
      obtain ⟨⟨child, opened⟩, nd⟩ := found
      refine (Yields.read _).seq fun kind => ?_
      split
      · refine Yields.pure fun log known other path => ?_
        have same : other = child := by
          have path' : nd.path = some child := known.2.2
          rw [path', Option.some.injEq] at path
          exact path.symm
        rw [same]
        exact known.2.1
      · refine (Yields.onWalk _ nd).seq fun followed => ?_
        exact ih followed.2 _

/-- A file opened is licensed. -/
theorem doOpen_yields (m : M) (nd : Nameidata D) (child : D) (opened : OpenLeft F) (op : AskedFlags)
    {mode : FMode} (notPath : mode.path = false) (writes : mode.write = op.openFlag.write)
    (asks : op.accMode.write = (op.openFlag.write || op.openFlag.truncate))
    (left : ∀ log, fact.holds log → Left sys log m child mode op.openFlag opened) :
    Yields sys setting fact (sys.doOpen cred m nd child opened op)
      fun file => .file sys file := by
  unfold System.doOpen
  dsimp only
  refine Yields.maybe (Yields.onWalk _ nd) ?_
  refine (Yields.kindOf child).bind fun kind => ?_
  split
  · exact Yields.throw
  · refine Yields.optional (fun _ => Yields.wantWrite m) ?_
    refine (mayOpen_yields judges m child kind _).bind fun _ => ?_
    have checked : ∀ log, (((fact.and (.const (∃ now, sys.env.kind now child = some kind))).and
        (.given ((!opened.mode.created && op.openFlag.truncate && decide (kind = .regFile)) = true)
          (.const (sys.Writable m)))).and
        (.const (kind = .dir →
          (if opened.mode.created = true then {} else op.accMode : Mask).write = false))).holds log →
        (Fact.checked sys child m kind opened.mode.created op.openFlag).holds log := by
      rintro log ⟨⟨⟨-, told⟩, took⟩, noDir⟩
      refine ⟨told, fun stood truncate regular => took ?_, fun stood truncate dir => ?_⟩
      · rw [stood, truncate, regular]
        rfl
      · have never := noDir dir
        rw [stood] at never
        simp only [Bool.false_eq_true, if_false] at never
        rw [asks, truncate, Bool.or_true] at never
        cases never
    refine (openChild_yields judges m child kind opened notPath writes ?_ checked).bind
      fun finished => ?_
    · exact fun log known => left log known.1.1.1
    refine Yields.optional (fun emptying => handleTruncate_yields cred m child _ ?_) ?_
    · have emptying : (opened.mode.created = false ∧ op.openFlag.truncate = true) ∧
          kind = .regFile := by simpa using emptying
      refine fun log known => ⟨?_, ?_⟩
      · obtain ⟨-, empty, -⟩ := checked log known.1
        exact empty emptying.1.1 emptying.1.2 emptying.2
      · refine ⟨kind, opened.mode, op.openFlag, ⟨known.2.2, fun created => ?_⟩, .inr emptying.1.2⟩
        rw [emptying.1.1] at created
        cases created
    · refine fileNew_yields m child finished.1 opened.mode op.openFlag cred finished.2 ?_ ?_
      · intro log known _
        have left := left log known.1.1.1.1.1
        exact ⟨kind, opened.mode, op.openFlag, ⟨known.1.2.2, left.made⟩, rfl⟩
      · intro log known write now kind' told ordinary
        obtain ⟨⟨then_, told'⟩, -⟩ := checked log known.1.1
        have same : kind' = kind := sys.kind_once told told'
        exact known.1.2.1 write (same ▸ ordinary)

omit judges in
/-- A file that stands only for its path is licensed. -/
theorem doOPath_yields (cred : Cred M D) (m : M) (nd : Nameidata D) (op : AskedFlags) :
    Yields sys setting fact (sys.doOPath cred m nd op) fun file => .file sys file := by
  unfold System.doOPath
  refine (Yields.onWalk _ nd).seq fun walked => ?_
  refine (pathOf_yields _).seq fun child => ?_
  refine (Yields.kindOf child).seq fun kind => ?_
  have opens : Yields sys setting fact (sys.doDentryOpen cred m child kind .pathOnly op.openFlag
      (sys.dentryOpen m child op.openFlag)) fun _ => .any :=
    Yields.pure fun _ _ => trivial
  refine opens.seq fun finished => ?_
  refine fileNew_yields m child finished.1 .pathOnly op.openFlag cred finished.2 ?_ ?_
  · rintro log - (never | never)
    · cases never
    · cases never
  · intro log _ never
    cases never

/-- A path opened hands out a licensed file. -/
theorem pathOpenat_yields (m : M) (nd : Nameidata D) {op : AskedFlags}
    (asks : op.accMode.write = (op.openFlag.write || op.openFlag.truncate)) :
    Yields sys setting fact (sys.pathOpenat cred m nd op) fun file => .file sys file := by
  unfold System.pathOpenat
  dsimp only
  split
  · exact doOPath_yields cred m _ op
  · rename_i notPath
    have notPath : (FMode.of op.openFlag.toOpenHow).path = false := Bool.not_eq_true _ ▸ notPath
    have mode : FMode.of op.openFlag.toOpenHow =
        ⟨op.openFlag.read, op.openFlag.write, true, true, true, false, false, false⟩ := by
      unfold FMode.of at notPath ⊢
      split
      · rename_i neither
        rw [if_pos neither] at notPath
        cases notPath
      · rfl
    refine (Yields.onWalk _ _).seq fun walked => ?_
    refine (openLastLookups_yields judges m op.openFlag (by rw [mode]) _ _ _).bind fun found => ?_
    obtain ⟨opened, nd⟩ := found
    refine (pathOf_yields nd).bind fun child => ?_
    exact doOpen_yields judges m nd child opened op notPath (by rw [mode]) asks
      fun log known => known.1.2 child known.2

omit judges in
/-- A walk to an entry asks nothing that is logged. -/
theorem filenameLookup_yields (start : Start M D) (path : String) (follow : Bool) :
    Yields sys setting fact (sys.filenameLookup start path follow) fun _ => .any := by
  refine walkWithReval_yields ?_
  refine (setNameidata_yields start path).seq fun started => ?_
  refine (Yields.onWalk _ _).seq fun walked => ?_
  exact Yields.pure fun _ _ => trivial

omit judges in
/-- A walk to a parent asks nothing that is logged. -/
theorem filenameParentat_yields (start : Start M D) (path : String) :
    Yields sys setting fact (sys.filenameParentat start path) fun _ => .any := by
  refine walkWithReval_yields ?_
  refine (setNameidata_yields start path).seq fun started => ?_
  refine (Yields.onWalk _ _).seq fun walked => ?_
  refine (Yields.onWalk _ _).seq fun completed => ?_
  exact Yields.pure fun _ _ => trivial

/-- An open hands out a licensed file. -/
theorem doFileOpen_yields (start : Start M D) (path : String) {op : AskedFlags}
    (asks : op.accMode.write = (op.openFlag.write || op.openFlag.truncate)) :
    Yields sys setting fact (sys.doFileOpen cred start path op) fun file => .file sys file := by
  refine walkWithReval_yields ?_
  refine (setNameidata_yields start path).seq fun started => ?_
  exact pathOpenat_yields judges started.1 started.2 asks

/-- A link is made once both names were judged. -/
theorem filenameLinkat_yields [DecidableEq M] (oldStart : Start M D) (oldPath : String)
    (newStart : Start M D) (newPath : String) (follow : Bool) :
    Yields sys setting fact (sys.filenameLinkat cred oldStart oldPath newStart newPath follow)
      fun _ => .any := by
  have walked : Yields sys setting fact (do
      let old ← sys.filenameLookup oldStart oldPath follow
      let target ← System.pathOf old.2
      let new ← sys.filenameParentat newStart newPath
      let child ← sys.filenameCreate new.1 new.2 false
      pure (old.1, target, new.1, new.2, child) : Call M D F (M × D × M × Nameidata D × D))
      fun found => .const (sys.Writable found.2.2.1) := by
    refine (filenameLookup_yields oldStart oldPath follow).seq fun old => ?_
    refine (pathOf_yields old.2).seq fun target => ?_
    refine (filenameParentat_yields newStart newPath).seq fun new => ?_
    refine (filenameCreate_yields new.1 new.2 false).bind fun child => ?_
    exact Yields.pure fun _ known => known.2
  refine retryEstale_yields walked fun found => ?_
  obtain ⟨oldMnt, target, newMnt, new, child⟩ := found
  refine Yields.check fun same => ?_
  have same : oldMnt = newMnt := not_not.mp same
  subst same
  refine (Yields.security (judges · _)).bind fun _ => ?_
  unfold System.vfsLink
  refine (mayCreateDentry_yields judges oldMnt new.dir child).seq fun _ => ?_
  refine (Yields.kindOf target).seq fun _ => ?_
  refine Yields.check fun _ => ?_
  refine (Yields.ask _).seq fun _ => ?_
  refine (Yields.ask _).seq fun _ => ?_
  refine Yields.check fun _ => ?_
  exact Yields.change fun log now known => ⟨known.1.2, known.2⟩

omit judges in
/-- The walk to a name that is made ends where the mount takes a write. -/
theorem walkToCreate_yields (start : Start M D) (path : String) (wantDir : Bool) :
    Yields sys setting fact (do
      let (m, nd) ← sys.filenameParentat start path
      let child ← sys.filenameCreate m nd wantDir
      pure (m, nd, child) : Call M D F (M × Nameidata D × D))
      fun found => .const (sys.Writable found.1) := by
  refine (filenameParentat_yields start path).seq fun found => ?_
  refine (filenameCreate_yields found.1 found.2 wantDir).bind fun child => ?_
  exact Yields.pure fun _ known => known.2

/-- A symbolic link is made once its name was judged. -/
theorem filenameSymlinkat_yields (target : String) (start : Start M D) (path : String) :
    Yields sys setting fact (sys.filenameSymlinkat cred target start path) fun _ => .any := by
  unfold System.filenameSymlinkat
  refine (Yields.given _).seq fun _ => ?_
  refine retryEstale_yields (walkToCreate_yields start path false) fun found => ?_
  obtain ⟨m, nd, child⟩ := found
  refine (Yields.security (judges · _)).bind fun _ => ?_
  unfold System.vfsSymlink
  refine (mayCreateDentry_yields judges m nd.dir child).seq fun _ => ?_
  exact Yields.change fun log now known => ⟨known.1.2, known.2⟩

/-- A directory is made once its name was judged. -/
theorem filenameMkdirat_yields (start : Start M D) (path : String) :
    Yields sys setting fact (sys.filenameMkdirat cred start path) fun _ => .any := by
  refine retryEstale_yields (walkToCreate_yields start path true) fun found => ?_
  obtain ⟨m, nd, child⟩ := found
  refine (Yields.security (judges · _)).bind fun _ => ?_
  unfold System.vfsMkdir
  refine (mayCreateDentry_yields judges m nd.dir child).seq fun _ => ?_
  exact Yields.change fun log now known => ⟨known.1.2, known.2⟩

/-- A directory is removed once its name was judged. -/
theorem filenameRmdir_yields (start : Start M D) (path : String) :
    Yields sys setting fact (sys.filenameRmdir cred start path) fun _ => .any := by
  refine retryEstale_yields (filenameParentat_yields start path) fun found => ?_
  obtain ⟨m, nd⟩ := found
  cases last : nd.lastType with
  | dot =>
    simp only [last]
    exact Yields.throw
  | dotDot =>
    simp only [last]
    exact Yields.throw
  | norm =>
    simp only [last]
    refine (Yields.wantWrite m).bind fun _ => ?_
    refine (startDirop_yields nd).seq fun child => ?_
    refine (Yields.security (judges · _)).bind fun _ => ?_
    unfold System.vfsRmdir
    refine (Yields.read _).seq fun kind => ?_
    refine (mayDeleteDentry_yields judges m nd.dir kind true).seq fun _ => ?_
    refine (Yields.ask _).seq fun _ => ?_
    exact Yields.change fun log now known => ⟨known.1.2, known.2⟩

/-- A file is removed once its name was judged. -/
theorem filenameUnlinkat_yields (start : Start M D) (path : String) :
    Yields sys setting fact (sys.filenameUnlinkat cred start path) fun _ => .any := by
  refine retryEstale_yields (filenameParentat_yields start path) fun found => ?_
  obtain ⟨m, nd⟩ := found
  refine Yields.check fun _ => ?_
  refine (Yields.wantWrite m).bind fun _ => ?_
  refine (startDirop_yields nd).seq fun child => ?_
  have removed : Yields sys setting ((fact.and .any).and (.const (sys.Writable m))) (do
      let _ ← Call.security cred (.pathUnlink (m, child))
      sys.vfsUnlink cred m nd.dir child) fun _ => .any := by
    refine (Yields.security (judges · _)).bind fun _ => ?_
    unfold System.vfsUnlink
    refine (Yields.read _).seq fun kind => ?_
    refine (mayDeleteDentry_yields judges m nd.dir kind false).seq fun _ => ?_
    refine (Yields.ask _).seq fun _ => ?_
    exact Yields.change fun log now known => ⟨known.1.2, known.2⟩
  split
  · refine (Yields.read _).seq fun kind => ?_
    have refused : ∀ e, Yields sys setting ((fact.and .any).and (.const (sys.Writable m)))
        (throw e : Call M D F Unit) fun _ => .const False := fun _ => Yields.throw
    exact (refused _).bind fun _ _ sound => sound.never
  · exact removed

omit judges in
/-- The two names of a move were judged while something stood at the first. -/
def Fact.judgedRename (sys : System M D F) (m : M) (old new : D) : Fact M D where
  holds log := ∃ then_, .hook then_ (.pathRename (m, old) (m, new)) ∈ log ∧
    (sys.env.kind then_ old).isSome = true
  lasts := by
    rintro log event ⟨then_, mem, stood⟩
    exact ⟨then_, List.mem_cons_of_mem _ mem, stood⟩

omit [DecidableEq D] in
/-- Both names of a move are judged while something stands at the first. -/
theorem judgeRename_yields (m : M) (old new : D) (slash : Bool) :
    Yields sys setting fact (sys.judgeRename cred m old new slash)
      fun _ => .judgedRename sys m old new := by
  intro w sound
  have start : Sound sys setting fact { w with clock := w.clock + 1 } := sound.same rfl rfl
  have asked : Ends (sys.kindOf old) w
      (fun kind after => after = { w with clock := w.clock + 1 } ∧
        sys.env.kind w.clock old = some kind)
      fun _ after => Sound sys setting fact after := by
    have told : Ends (Call.read (sys.env.kind · old) : Call M D F (Option FileType)) w
        (fun kind after => after = { w with clock := w.clock + 1 } ∧
          sys.env.kind w.clock old = kind)
        fun _ after => Sound sys setting fact after := ⟨rfl, rfl⟩
    refine told.bind fun kind after known => ?_
    obtain ⟨rfl, told⟩ := known
    cases kind with
    | none => exact Ends.throw start
    | some kind => exact Ends.pure ⟨rfl, told⟩
  refine asked.bind fun kind after known => ?_
  obtain ⟨rfl, told⟩ := known
  -- The dentry named something a moment before the hook was asked, so it does then.
  have stood : (sys.env.kind (w.clock + 1) old).isSome = true := by
    rw [sys.kind_stays (Nat.le_succ _) told]
    rfl
  have judged : Ends (Call.security cred (.pathRename (m, old) (m, new)))
      { w with clock := w.clock + 1 }
      (fun _ after => Sound sys setting (fact.and (.judgedRename sys m old new)) after)
      fun _ after => Sound sys setting fact after := by
    unfold Ends Call.security
    dsimp only
    cases allowed : cred.callIntHook (w.clock + 1) (.pathRename (m, old) (m, new)) with
    | error e => exact sound.same rfl rfl
    | ok kept =>
      have before : ∀ log, fact.holds log → Licensed sys setting log
          (.hook (w.clock + 1) (.pathRename (m, old) (m, new))) := fun _ _ => judges _ _ kept allowed
      have after : Sound sys setting
          (fact.and (.logged (.hook (w.clock + 1) (.pathRename (m, old) (m, new)))))
          { w with
            clock := w.clock + 1 + 1
            log := .hook (w.clock + 1) (.pathRename (m, old) (m, new)) :: w.log } :=
        start.push before rfl rfl
      exact after.weaken fun _ both => ⟨both.1, w.clock + 1, both.2, stood⟩
  dsimp only
  split
  · exact Ends.throw start
  · exact judged.bind fun _ _ sound => Ends.pure sound

/-- A move is asked once both its names were judged. -/
theorem vfsRename_yields (m : M) (oldDir old newDir new : D) (licensed : ∀ log, fact.holds log →
      sys.Writable m ∧ (Fact.judgedRename sys m old new).holds log) :
    Yields sys setting fact (sys.vfsRename cred m oldDir old newDir new) fun _ => .any := by
  unfold System.vfsRename
  refine (Yields.read _).seq fun moving => ?_
  refine (Yields.read _).seq fun target => ?_
  split
  · exact Yields.pure fun _ _ => trivial
  · rename_i other
    refine (Yields.read _).seq fun linked => ?_
    split
    · exact Yields.pure fun _ _ => trivial
    · refine (mayDeleteDentry_yields judges m oldDir moving _).seq fun _ => ?_
      have onward : Yields sys setting fact
          (if oldDir ≠ newDir ∧ moving = some .dir then do
              sys.inodePermission cred m old { write := true }
              Call.ask (sys.lockMoved · old new)
              Call.invoke m (.rename oldDir old newDir new)
                (sys.fs.change · (.rename oldDir old newDir new))
            else do
              Call.ask (sys.lockMoved · old new)
              Call.invoke m (.rename oldDir old newDir new)
                (sys.fs.change · (.rename oldDir old newDir new)))
          fun _ => .any := by
        refine Yields.maybe (inodePermission_yields judges m old _) ?_
        refine (Yields.ask _).seq fun _ => ?_
        refine Yields.change fun log now known => ?_
        obtain ⟨writable, judged⟩ := licensed log known
        exact ⟨writable, other, judged⟩
      cases target with
      | none => exact (mayCreateDentry_yields judges m newDir new).seq fun _ => onward
      | some kind => exact (mayDeleteDentry_yields judges m newDir _ _).seq fun _ => onward

/-- A name is moved once both names were judged. -/
theorem filenameRenameat2_yields [DecidableEq M] (source : Start M D) (sourcePath : String)
    (target : Start M D) (targetPath : String) :
    Yields sys setting fact (sys.filenameRenameat2 cred source sourcePath target targetPath)
      fun _ => .any := by
  have walked : Yields sys setting fact (do
      let source ← sys.filenameParentat source sourcePath
      let target ← sys.filenameParentat target targetPath
      pure (source, target) : Call M D F ((M × Nameidata D) × M × Nameidata D))
      fun _ => .any := by
    refine (filenameParentat_yields source sourcePath).seq fun source => ?_
    refine (filenameParentat_yields target targetPath).seq fun target => ?_
    exact Yields.pure fun _ _ => trivial
  refine retryEstale_yields walked fun found => ?_
  obtain ⟨⟨m, source⟩, other, target⟩ := found
  refine Yields.check fun _ => ?_
  refine Yields.check fun _ => ?_
  refine (Yields.wantWrite m).bind fun _ => ?_
  have started : Yields sys setting ((fact.and .any).and (.const (sys.Writable m)))
      (sys.startRenaming source.dir source.last target.dir target.last) fun _ => .any := by
    unfold System.startRenaming
    refine (Yields.ask _).seq fun _ => ?_
    refine (Yields.ask _).seq fun old => ?_
    refine (Yields.kindOf old).seq fun _ => ?_
    refine (Yields.ask _).seq fun new => ?_
    refine (Yields.read _).seq fun above => ?_
    refine Yields.check fun _ => ?_
    refine (Yields.read _).seq fun above => ?_
    refine Yields.check fun _ => ?_
    exact Yields.pure fun _ _ => trivial
  refine started.seq fun found => ?_
  obtain ⟨old, new⟩ := found
  refine (judgeRename_yields judges m old new _).bind fun _ => ?_
  exact vfsRename_yields judges m source.dir old target.dir new
    fun log known => ⟨known.1.2, known.2⟩

end

/-! ## Times and open files -/

omit [DecidableEq D] in
/-- Times are set once their path was judged. -/
theorem vfsUtimes_yields (judges : Judges setting.granted cred) (m : M) (d : D) (times : Iattr) :
    Yields sys setting fact (sys.vfsUtimes cred m d times) fun _ => .any := by
  unfold System.vfsUtimes
  refine (Yields.wantWrite m).bind fun _ => ?_
  refine (Yields.security (judges · _)).bind fun _ => ?_
  refine (Yields.ask _).seq fun _ => ?_
  exact notifyChange_yields m d times fun log known => ⟨known.1.2, .inl known.2⟩

/-- Times are set by path once the path was judged. -/
theorem doUtimesPath_yields (judges : Judges setting.granted cred) (start : Start M D)
    (path : String) (follow : Bool) (times : Iattr) :
    Yields sys setting fact (sys.doUtimesPath cred start path follow times) fun _ => .any := by
  refine retryEstale_yields (filenameLookup_yields start path follow) fun found => ?_
  refine (pathOf_yields found.2).seq fun d => ?_
  exact vfsUtimes_yields judges found.1 d times

/-- The file a request is made on may be changed by it: opened to write, it is on a mount that takes
a write or is special, and what it was opened to change is held. -/
structure Held (sys : System M D F) (setting : Setting M D F) (file : File M D F) : Prop where
  /-- A file opened to write that is not special is on a mount that takes a write. -/
  writable : file.mode.write = true → specialFile file.kind = false → sys.Writable file.mnt
  /-- A file opened to write was opened to change its entry. -/
  held : file.mode.write = true → setting.held file.mnt file.dentry

variable {file : File M D F} {w : World M D F}

omit [DecidableEq D] in
/-- A file that may be written to was opened to write. -/
theorem mayWrite_ok (may : System.mayWrite file = .ok ()) :
    file.mode.write = true := by
  unfold System.mayWrite at may
  split at may
  · rename_i write
    exact write
  · cases may

section

variable (held : Held sys setting file)

include held

omit [DecidableEq D] in
/-- A file is written to where it was opened to write. -/
theorem writeIter_yields (iocb : Kiocb) (buf : List UInt8)
    (write : ∀ log, fact.holds log → file.mode.write = true) :
    Yields sys setting fact (sys.writeIter file iocb buf) fun _ => .any := by
  unfold System.writeIter
  have before : ∀ log now, fact.holds log →
      LicensedOp sys setting log now file.mnt (.writeIter file.dentry file.kind) := by
    intro log now known
    exact ⟨held.writable (write log known), held.held (write log known)⟩
  exact (Yields.invoke _ before).mono fun _ _ _ _ => trivial

omit held in
/-- The file a call leaves is the one it was made on, at some position. -/
def SameFile (file after : File M D F) : Prop := ∃ pos, after = { file with pos }

omit [DecidableEq D]

/-- A write leaves the file it was made on. -/
theorem write_yields (buf : List UInt8) :
    Yields sys setting fact (sys.write file buf) fun after => .const (SameFile file after) := by
  unfold System.write
  refine (Yields.given _).bind fun _ => ?_
  dsimp only
  generalize (if file.mode.stream = true then none else some file.pos) = ppos
  refine (Yields.given _).seq fun _ => ?_
  refine (writeIter_yields held _ buf ?_).seq fun written => ?_
  · exact fun log known => mayWrite_ok known.2
  · obtain ⟨count, pos⟩ := written
    dsimp only
    split
    · exact Yields.pure fun _ _ => ⟨pos, rfl⟩
    · exact Yields.pure fun _ _ => ⟨file.pos, rfl⟩

/-- A write at a position leaves the file it was made on. -/
theorem pwrite_yields (buf : List UInt8) (pos : Nat) :
    Yields sys setting fact (sys.pwrite file buf pos)
      fun after => .const (SameFile file after) := by
  unfold System.pwrite
  refine (Yields.given _).bind fun _ => ?_
  refine (Yields.given _).seq fun _ => ?_
  refine (writeIter_yields held _ buf ?_).seq fun written => ?_
  · intro log known
    have may : System.mayPwrite file pos = .ok () := known.2
    unfold System.mayPwrite at may
    split at may
    · cases may
    · split at may
      · cases may
      · exact mayWrite_ok may
  · exact Yields.pure fun _ _ => ⟨file.pos, rfl⟩

/-- A truncate leaves the file it was made on. -/
theorem truncate_yields (len : Nat) :
    Yields sys setting fact (sys.truncate file len)
      fun after => .const (SameFile file after) := by
  unfold System.truncate
  refine Yields.check fun may => ?_
  have may : (file.kind = .regFile ∧ file.mode.write = true) ∧ len ≤ offsetMax := by
    simpa using may
  refine (Yields.ask _).seq fun _ => ?_
  refine (Yields.ask _).seq fun _ => ?_
  refine (notifyChange_yields file.mnt file.dentry _ fun log known => ?_).seq fun _ => ?_
  · refine ⟨held.writable may.1.2 ?_, .inr (.inr (held.held may.1.2))⟩
    rw [may.1.1]
    rfl
  · exact Yields.pure fun _ _ => ⟨file.pos, rfl⟩

/-- Reserving bytes leaves the file it was made on. -/
theorem fallocate_yields (offset len : Nat) :
    Yields sys setting fact (sys.fallocate file offset len)
      fun after => .const (SameFile file after) := by
  unfold System.fallocate
  refine Yields.check fun _ => ?_
  refine (Yields.given _).bind fun _ => ?_
  refine (Yields.given _).seq fun _ => ?_
  refine Yields.check fun _ => ?_
  have before : ∀ log now, (fact.and (.const (System.mayWrite file = .ok ()))).holds log →
      LicensedOp sys setting log now file.mnt (.fallocate file.dentry file.kind) := by
    intro log now known
    have write := mayWrite_ok known.2
    exact ⟨held.writable write, held.held write⟩
  refine (Yields.invoke _ before).seq fun _ => ?_
  exact Yields.pure fun _ _ => ⟨file.pos, rfl⟩

end

/-! ## One request -/

/-- The file a request writes to, empties or reserves bytes of. -/
def System.Request.writes : System.Request M D → Option Nat
  | .write fd _ | .pwrite fd _ _ | .truncate fd _ | .fallocate fd _ _ => some fd
  | .open .. | .utimesFd .. | .utimes .. | .mkdir .. | .symlink .. | .link .. | .rmdir ..
  | .unlink .. | .rename .. => none

/-- A request writes through a file opened to write the entry `d` of the mount `m`. -/
def WritesThrough (w : World M D F) (request : System.Request M D) (fd : Nat) (m : M) (d : D) :
    Prop :=
  request.writes = some fd ∧ ∃ file, w.files[fd]? = some file ∧ file.mnt = m ∧ file.dentry = d ∧
    file.mode.write = true

/-- The setting of a request made in `w`. -/
def Setting.of (granted : Nat → Hook M D → Prop) (request : System.Request M D)
    (w : World M D F) : Setting M D F where
  granted := granted
  held m d := ∃ fd, WritesThrough w request fd m d
  found := w

/-- What a request leaves of the open files: it hands one out, moves one to another position, or
leaves them. -/
def FilesLeft (sys : System M D F) (asked : List (Event M D)) (before after : List (File M D F)) :
    Prop :=
  after = before ∨ (∃ file, after = before ++ [file] ∧ LicensedFile sys asked file) ∨
    ∃ fd file left, before[fd]? = some file ∧ SameFile file left ∧ after = before.set fd left

/-- What a request leaves: the events it asked, each licensed by those before, and the files. -/
def Leaves (sys : System M D F) (setting : Setting M D F) (after : World M D F) : Prop :=
  ∃ asked, after.log = asked ++ setting.found.log ∧ AllLicensed sys setting asked ∧
    FilesLeft sys asked setting.found.files after.files

/-- Every file opened to write that is not special is on a mount that takes a write. -/
def World.TakesWrites (sys : System M D F) (w : World M D F) : Prop :=
  ∀ file ∈ w.files, file.mode.write = true → specialFile file.kind = false →
    sys.Writable file.mnt

section

omit [DecidableEq D]

/-- A sound request that hands out no file leaves what it found of them. -/
theorem Sound.leaves (sound : Sound sys setting fact w) :
    Leaves sys setting w := by
  obtain ⟨asked, log, licensed, -⟩ := sound.asked
  exact ⟨asked, log, licensed, .inl sound.files⟩

/-- A request is sound where it begins. -/
theorem Setting.of_sound (granted : Nat → Hook M D → Prop) (request : System.Request M D)
    (w : World M D F) : Sound sys (Setting.of granted request w) .any w :=
  ⟨⟨[], rfl, trivial, trivial⟩, rfl⟩

/-- A request made on an open file leaves it at some position. -/
theorem onFile_leaves {fd : Nat} {act : File M D F → Call M D F (File M D F)}
    (start : Sound sys setting .any w) (acted : ∀ file, w.files[fd]? = some file →
      Yields sys setting .any (act file) fun after => .const (SameFile file after)) :
    Ends (System.onFile fd act) w (fun _ after => Leaves sys setting after)
      fun _ after => Leaves sys setting after := by
  have state : Ends (get : Call M D F (World M D F)) w (fun got after => got = w ∧ after = w)
      fun _ after => Leaves sys setting after := ⟨rfl, rfl⟩
  refine state.bind fun got after known => ?_
  obtain ⟨rfl, same⟩ := known
  subst same
  cases found : after.files[fd]? with
  | none => exact Ends.throw start.leaves
  | some file =>
    refine ((acted file found after start).mono (fun _ _ sound => sound)
      fun _ _ sound => sound.leaves).bind fun left last ended => ?_
    obtain ⟨asked, log, licensed, -, same⟩ := ended.asked
    refine Ends.modify ⟨asked, log, licensed, .inr (.inr ⟨fd, file, left, ?_, same, ?_⟩)⟩
    · rw [← start.files]
      exact found
    · dsimp only
      rw [ended.files]

/-- A file that takes writes, made a request on, is held by it. -/
theorem World.TakesWrites.held (takes : w.TakesWrites sys) {granted : Nat → Hook M D → Prop}
    {request : System.Request M D} {fd : Nat} (writes : request.writes = some fd)
    (found : w.files[fd]? = some file) :
    Held sys (Setting.of granted request w) file :=
  ⟨takes file (List.mem_of_getElem? found), fun write => ⟨fd, writes, file, found, rfl, rfl, write⟩⟩

end

/-- One request adds to the log only licensed events, and hands out only a licensed file. -/
theorem perform_leaves [DecidableEq M] {granted : Nat → Hook M D → Prop}
    (request : System.Request M D) (judges : ∀ cred ∈ request.creds, Judges granted cred)
    (takes : w.TakesWrites sys) :
    Ends (sys.perform request) w
      (fun _ after => Leaves sys (Setting.of granted request w) after)
      fun _ after => Leaves sys (Setting.of granted request w) after := by
  have begun : Sound sys (Setting.of granted request w) .any w := Setting.of_sound granted request w
  have done : ∀ {program : Call M D F Unit},
      Yields sys (Setting.of granted request w) .any program (fun _ => .any) →
      Ends program w (fun _ after => Leaves sys (Setting.of granted request w) after)
        fun _ after => Leaves sys (Setting.of granted request w) after :=
    fun yields => (yields w begun).mono (fun _ _ sound => sound.leaves)
      fun _ _ sound => sound.leaves
  cases request with
  | «open» cred start path how =>
    have judges : Judges granted cred := judges cred List.mem_cons_self
    have built : Ends (Call.given (buildOpenFlags how)) w
        (fun op after => after = w ∧ buildOpenFlags how = .ok op)
        fun _ after => Leaves sys (Setting.of granted (.open cred start path how) w) after := by
      cases buildOpenFlags how with
      | ok op => exact Ends.pure ⟨rfl, rfl⟩
      | error e => exact Ends.throw begun.leaves
    refine built.bind fun op after known => ?_
    obtain ⟨rfl, made⟩ := known
    refine ((doFileOpen_yields judges start path (buildOpenFlags_accMode made) after begun).mono
      (fun _ _ sound => sound) fun _ _ sound => sound.leaves).bind fun file last ended => ?_
    obtain ⟨asked, log, licensed, -, opened⟩ := ended.asked
    refine Ends.modify ⟨asked, log, licensed, .inr (.inl ⟨file, ?_, opened⟩)⟩
    dsimp only
    rw [ended.files]
  | write fd buf =>
    exact onFile_leaves begun fun file found => write_yields (takes.held rfl found) buf
  | pwrite fd buf pos =>
    exact onFile_leaves begun fun file found => pwrite_yields (takes.held rfl found) buf pos
  | truncate fd len =>
    exact onFile_leaves begun fun file found => truncate_yields (takes.held rfl found) len
  | fallocate fd offset len =>
    exact onFile_leaves begun fun file found => fallocate_yields (takes.held rfl found) offset len
  | utimesFd cred fd times =>
    refine onFile_leaves begun fun file _ => ?_
    refine (vfsUtimes_yields (judges cred List.mem_cons_self) file.mnt file.dentry times).seq
      fun _ => ?_
    exact Yields.pure fun _ _ => ⟨file.pos, rfl⟩
  | utimes cred start path follow times =>
    exact done (doUtimesPath_yields (judges cred List.mem_cons_self) start path follow times)
  | mkdir cred start path =>
    exact done (filenameMkdirat_yields (judges cred List.mem_cons_self) start path)
  | symlink cred target start path =>
    exact done (filenameSymlinkat_yields (judges cred List.mem_cons_self) target start path)
  | link cred oldStart oldPath newStart newPath follow =>
    exact done (filenameLinkat_yields (judges cred List.mem_cons_self) oldStart oldPath newStart
      newPath follow)
  | rmdir cred start path =>
    exact done (filenameRmdir_yields (judges cred List.mem_cons_self) start path)
  | unlink cred start path =>
    exact done (filenameUnlinkat_yields (judges cred List.mem_cons_self) start path)
  | rename cred source sourcePath target targetPath =>
    exact done (filenameRenameat2_yields (judges cred List.mem_cons_self) source sourcePath target
      targetPath)

end Walks

end Functions

/-! ## Runs -/

/-- Where a run begins: nothing asked and no file open. -/
def World.start : World M D F := ⟨0, 0, [], []⟩

section Runs

variable [DecidableEq M] [DecidableEq D] (sys : System M D F)

/-- What a run of requests leaves. -/
def System.after (requests : List (System.Request M D)) : World M D F :=
  sys.runRequests requests World.start

/-- The events a request asks, made after others. -/
def System.Asks (before : List (System.Request M D)) (request : System.Request M D)
    (asked : List (Event M D)) : Prop :=
  (sys.after (before ++ [request])).log = asked ++ (sys.after before).log

/-- An event of a run, with `older` logged before it, is one that `request` asked, made after
`before`, and `own` is what it had asked until then. -/
structure System.AskedBy (requests : List (System.Request M D)) (event : Event M D)
    (older : List (Event M D)) (before : List (System.Request M D)) (request : System.Request M D)
    (own : List (Event M D)) : Prop where
  /-- The request is one of the run. -/
  made : ∃ rest, requests = before ++ request :: rest
  /-- It asked the event. -/
  asked : ∃ newer, sys.Asks before request (newer ++ event :: own)
  /-- What was logged before is what it had asked and what the requests before it had. -/
  older : older = own ++ (sys.after before).log

/-- The file at `fd` was handed out by `opening`, made after `earlier`, which asked `asked`. -/
structure System.HandedOut (requests : List (System.Request M D)) (fd : Nat)
    (earlier : List (System.Request M D)) (opening : System.Request M D)
    (asked : List (Event M D)) : Prop where
  /-- The request is one of the run. -/
  made : ∃ rest, requests = earlier ++ opening :: rest
  /-- It found `fd` files open. -/
  first : (sys.after earlier).files.length = fd
  /-- It left one more. -/
  last : (sys.after (earlier ++ [opening])).files.length = fd + 1
  /-- It asked these events. -/
  asked : sys.Asks earlier opening asked

variable {sys} {granted : Nat → Hook M D → Prop}

/-- A run one request longer. -/
theorem after_concat (before : List (System.Request M D)) (request : System.Request M D) :
    Ends (sys.perform request) (sys.after before)
      (fun _ left => sys.after (before ++ [request]) = left)
      fun _ left => sys.after (before ++ [request]) = left := by
  have longer : ∀ (requests : List (System.Request M D)) (w : World M D F),
      Ends (sys.perform request) (sys.runRequests requests w)
        (fun _ left => sys.runRequests (requests ++ [request]) w = left)
        fun _ left => sys.runRequests (requests ++ [request]) w = left := by
    intro requests
    induction requests with
    | nil =>
      intro w
      unfold Ends
      cases ended : sys.perform request w with
      | ok a left => simp only [List.nil_append, System.runRequests, ended]
      | error e left => simp only [List.nil_append, System.runRequests, ended]
    | cons first rest ih =>
      intro w
      rw [List.cons_append]
      simp only [System.runRequests]
      cases sys.perform first w with
      | ok a left => exact ih left
      | error e left => exact ih left
  exact longer before World.start

variable {before : List (System.Request M D)} {request : System.Request M D}
  {requests : List (System.Request M D)}

/-- What is known of a request however it ends is known of the run one request longer. -/
theorem after_ends {left : World M D F → Prop}
    (ends : Ends (sys.perform request) (sys.after before) (fun _ after => left after)
      fun _ after => left after) : left (sys.after (before ++ [request])) := by
  have both := ends.and (after_concat before request)
  unfold Ends at both
  cases ended : sys.perform request (sys.after before) with
  | ok a after =>
    rw [ended] at both
    exact both.2 ▸ both.1
  | error e after =>
    rw [ended] at both
    exact both.2 ▸ both.1

/-- What one request of a run asks, and leaves of the open files. -/
theorem after_leaves (judges : ∀ cred ∈ request.creds, Judges granted cred)
    (takes : (sys.after before).TakesWrites sys) :
    ∃ asked, sys.Asks before request asked ∧
      AllLicensed sys (Setting.of granted request (sys.after before)) asked ∧
      FilesLeft sys asked (sys.after before).files (sys.after (before ++ [request])).files :=
  after_ends (perform_leaves request judges takes)

variable (granted) in
/-- What is granted is what every module of every request allows. -/
def AllJudge (requests : List (System.Request M D)) : Prop :=
  ∀ request ∈ requests, ∀ cred ∈ request.creds, Judges granted cred

/-- The file at `fd` is licensed by the request that handed it out. -/
def LicensedAtOpen (sys : System M D F) (granted : Nat → Hook M D → Prop)
    (requests : List (System.Request M D)) (fd : Nat) (file : File M D F) : Prop :=
  ∃ earlier opening asked, sys.HandedOut requests fd earlier opening asked ∧
    AllLicensed sys (Setting.of granted opening (sys.after earlier)) asked ∧
    LicensedFile sys asked file

/-- A file licensed by the request that handed it out is so in a longer run. -/
theorem LicensedAtOpen.concat {fd : Nat} {file left : File M D F}
    (licensed : LicensedAtOpen sys granted requests fd file) (same : SameFile file left)
    (request : System.Request M D) :
    LicensedAtOpen sys granted (requests ++ [request]) fd left := by
  obtain ⟨earlier, opening, asked, handed, all, opened⟩ := licensed
  obtain ⟨rest, split⟩ := handed.made
  refine ⟨earlier, opening, asked, ⟨⟨rest ++ [request], ?_⟩, handed.first, handed.last,
    handed.asked⟩, all, ?_⟩
  · rw [split, List.append_assoc]
    rfl
  · obtain ⟨pos, rfl⟩ := same
    exact ⟨opened.opened, opened.writable⟩

/-- Files each licensed by the request that handed it out take writes. -/
theorem LicensedAtOpen.takesWrites
    (licensed : ∀ fd file, (sys.after requests).files[fd]? = some file →
      LicensedAtOpen sys granted requests fd file) : (sys.after requests).TakesWrites sys := by
  intro file mem
  obtain ⟨fd, found⟩ := List.mem_iff_getElem?.mp mem
  obtain ⟨_, _, _, _, _, opened⟩ := licensed fd file found
  exact opened.writable

/-- Every open file of a run is licensed by the request that handed it out. -/
theorem files_licensed (judges : AllJudge granted requests) (fd : Nat) (file : File M D F)
    (found : (sys.after requests).files[fd]? = some file) :
    LicensedAtOpen sys granted requests fd file := by
  induction requests using List.reverseRecOn generalizing fd file with
  | nil => cases found
  | append_singleton before request ih =>
    have earlier := ih fun other mem => judges other (List.mem_append_left _ mem)
    have mine : ∀ cred ∈ request.creds, Judges granted cred :=
      judges request (List.mem_append_right _ List.mem_cons_self)
    obtain ⟨asked, log, licensed, files⟩ :=
      after_leaves mine (LicensedAtOpen.takesWrites earlier)
    rcases files with same | ⟨opened, more, own⟩ | ⟨place, moved, left, stood, same, set⟩
    · rw [same] at found
      exact (earlier fd file found).concat ⟨file.pos, rfl⟩ request
    · rw [more] at found
      rcases Nat.lt_or_ge fd (sys.after before).files.length with old | new
      · have stood : (sys.after before).files[fd]? = some file := by
          rw [← found]
          exact (List.getElem?_append_left old).symm
        exact (earlier fd file stood).concat ⟨file.pos, rfl⟩ request
      · -- The file handed out is the last, so it stands where the request found none.
        have only : fd = (sys.after before).files.length ∧ opened = file := by
          have last : [opened][fd - (sys.after before).files.length]? = some file := by
            rw [← found]
            exact (List.getElem?_append_right new).symm
          obtain ⟨inside, here⟩ := List.getElem?_eq_some_iff.mp last
          simp only [List.length_singleton] at inside
          simp only [List.getElem_singleton] at here
          exact ⟨by omega, here⟩
        obtain ⟨rfl, rfl⟩ := only
        refine ⟨before, request, asked, ⟨⟨[], rfl⟩, rfl, ?_, log⟩, licensed, own⟩
        rw [more, List.length_append]
        rfl
    · rw [set] at found
      by_cases here : place = fd
      · subst here
        have inside : place < (sys.after before).files.length :=
          (List.getElem?_eq_some_iff.mp stood).1
        rw [List.getElem?_set_self inside, Option.some.injEq] at found
        subst found
        exact (earlier place moved stood).concat same request
      · rw [List.getElem?_set_ne here] at found
        exact (earlier fd file found).concat ⟨file.pos, rfl⟩ request

/-- Each request of a run asks only licensed events. -/
theorem request_licensed (judges : AllJudge granted (before ++ [request])) :
    ∃ asked, sys.Asks before request asked ∧
      AllLicensed sys (Setting.of granted request (sys.after before)) asked := by
  have earlier : AllJudge granted before := fun other mem =>
    judges other (List.mem_append_left _ mem)
  have mine : ∀ cred ∈ request.creds, Judges granted cred :=
    judges request (List.mem_append_right _ List.mem_cons_self)
  obtain ⟨asked, log, licensed, -⟩ := after_leaves mine
    (LicensedAtOpen.takesWrites fun fd file => files_licensed earlier fd file)
  exact ⟨asked, log, licensed⟩

/-- An event asked by a request of a run is one of a longer run. -/
theorem System.AskedBy.concat {requests before : List (System.Request M D)} {event : Event M D}
    {older own : List (Event M D)} (askedBy : sys.AskedBy requests event older before request own)
    (last : System.Request M D) :
    sys.AskedBy (requests ++ [last]) event older before request own := by
  obtain ⟨rest, made⟩ := askedBy.made
  refine ⟨⟨rest ++ [last], ?_⟩, askedBy.asked, askedBy.older⟩
  rw [made, List.append_assoc]
  rfl

omit [DecidableEq M] [DecidableEq D] in
/-- Licensed events are licensed without those after them. -/
theorem AllLicensed.drop {setting : Setting M D F} {newer older : List (Event M D)}
    (all : AllLicensed sys setting (newer ++ older)) : AllLicensed sys setting older := by
  induction newer with
  | nil => exact all
  | cons first newer ih => exact ih all.2

/-- Every event of a run was asked by one of its requests, licensed by what that request had
asked before. -/
theorem event_licensed (judges : AllJudge granted requests) {newer older : List (Event M D)}
    {event : Event M D} (logged : (sys.after requests).log = newer ++ event :: older) :
    ∃ before request own, sys.AskedBy requests event older before request own ∧
      AllLicensed sys (Setting.of granted request (sys.after before)) (event :: own) := by
  induction requests using List.reverseRecOn generalizing newer with
  | nil =>
    have empty : ([] : List (Event M D)) = newer ++ event :: older := logged
    simp at empty
  | append_singleton before request ih =>
    have earlier : AllJudge granted before := fun other mem =>
      judges other (List.mem_append_left _ mem)
    obtain ⟨asked, log, licensed⟩ : ∃ asked, sys.Asks before request asked ∧
        AllLicensed sys (Setting.of granted request (sys.after before)) asked :=
      request_licensed judges
    have split : asked ++ (sys.after before).log = newer ++ event :: older := log ▸ logged
    -- The event stands in what the request asked, or was logged before the request was made.
    have cases : (∃ own, asked = newer ++ event :: own ∧ older = own ++ (sys.after before).log) ∨
        ∃ rest, (sys.after before).log = rest ++ event :: older := by
      rcases List.append_eq_append_iff.mp split with ⟨more, -, rest⟩ | ⟨more, own, rest⟩
      · exact .inr ⟨more, rest⟩
      · cases more with
        | nil => exact .inr ⟨[], rest.symm⟩
        | cons first more =>
          rw [List.cons_append, List.cons.injEq] at rest
          obtain ⟨rfl, rfl⟩ := rest
          exact .inl ⟨more, own, rfl⟩
    rcases cases with ⟨own, rfl, rfl⟩ | ⟨rest, logged⟩
    · exact ⟨before, request, own, ⟨⟨[], rfl⟩, ⟨newer, log⟩, rfl⟩, licensed.drop⟩
    · obtain ⟨first, asker, own, askedBy, all⟩ := ih earlier logged
      exact ⟨first, asker, own, askedBy.concat request, all⟩

end Runs

end Kobako.Vfs
