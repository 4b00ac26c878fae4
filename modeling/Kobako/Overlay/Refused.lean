import Kobako.Overlay.Coherent

/-!
# What is refused

Why a use of a file of the view fails. A handle that was handed out reads and writes as long as the
Layer its data is on does, an upper refuses only for want of room, and an open or a truncation fails
only where a copy up it needs does: the directory it lands in cannot be made, the lower Layer
refuses, there is no room, or the upper refuses the name.
-/

namespace Kobako.Overlay

open Vfs

variable {W D F V N : Type} {layers : Layers W D F}

/-- How the Layers refuse what is asked of them for a file, and that they refuse nothing else. -/
structure Refusals (c : Contents layers N) where
  /-- How a lower Layer refuses to tell what a file is, or tells it is none to copy. -/
  stats : N → FsError → Prop
  /-- How it refuses to open one to read. -/
  opens : N → FsError → Prop
  /-- How it refuses a read of one. -/
  reads : N → FsError → Prop
  /-- How the upper refuses one more file. -/
  spent : FsError → Prop
  /-- How it refuses a file of one length another. -/
  full : Nat → Nat → FsError → Prop
  /-- How it refuses a name in a directory, as it stands. -/
  barred : W → D → String → FsError → Prop
  /-- A lower Layer tells what a file is. -/
  getattrBelow : ∀ layer d n world, layer ≠ UPPER → c.recorded layer d = some n →
    Ends (layers.getattr layer d) world
      (fun stat after => barred after = barred world ∧
        (stat.fileType ≠ .regFile → stats n .permissionDenied))
      fun e _ => stats n e
  /-- It opens one to read. -/
  openBelow : ∀ layer d how n world, layer ≠ UPPER → c.recorded layer d = some n →
    how.write = false ∧ how.truncate = false →
    Ends (layers.openRealfile layer d how) world (fun _ after => barred after = barred world)
      fun e _ => opens n e
  /-- A read is refused by a lower Layer only. -/
  readIter : ∀ layer file n pos len world, c.opened layer file = some n →
    Ends (layers.readIter layer file pos len) world (fun _ after => barred after = barred world)
      fun e _ => layer ≠ UPPER ∧ reads n e
  /-- The upper opens every file it holds, and is as it was. -/
  openUpper : ∀ d how n world, c.recorded UPPER d = some n →
    Ends (layers.openRealfile UPPER d how) world (fun _ after => after = world) fun _ _ => False
  /-- It makes a file with no name. -/
  doTmpfile : ∀ d name world, Ends (layers.doTmpfile UPPER d) world
    (fun _ after => barred after = barred world) fun e _ => spent e ∨ barred world d name e
  /-- It writes something of what it is handed. -/
  writeIter : ∀ file n pos data world, c.opened UPPER file = some n →
    Ends (layers.writeIter UPPER file pos data) world
      (fun count after => barred after = barred world ∧ (data ≠ [] → 0 < count))
      fun e _ => full (c.bytes world n).length (pos + data.length) e
  /-- It sets the times of an open file. -/
  setattrFile : ∀ file n attr world, c.opened UPPER file = some n →
    Ends (layers.setattrFile UPPER file attr) world (fun _ after => barred after = barred world)
      fun _ _ => False
  /-- It tells what a directory is. -/
  getattr : ∀ d name world, Ends (layers.getattr UPPER d) world
    (fun _ after => barred after = barred world) fun e _ => barred world d name e
  /-- It names a file. -/
  doLink : ∀ d file name n world, c.opened UPPER file = some n →
    Ends (layers.doLink UPPER d file name) world (fun _ _ => True) fun e _ => barred world d name e
  /-- It sets a size. -/
  resize : ∀ d n attr len world, c.recorded UPPER d = some n → attr.size = some len →
    Ends (layers.notifyChange UPPER d attr) world (fun _ _ => True)
      fun e _ => full (c.bytes world n).length len e

variable {c : Contents layers N} (r : Refusals c) (fs : OverlayFs D)

section Accounts

variable [DecidableEq V]

/-- The directory a change lands in cannot be made in the upper. -/
def DirRefused (layers : Layers W D F) (fs : OverlayFs D) (above : ViewDentry V)
    (s : Session W D F V) (e : FsError) : Prop :=
  ∃ after, upperDir layers fs above s = .error e after

/-- The bytes of a lower Layer's file of a length cannot be copied. -/
inductive Refusals.DataRefused (n : N) (length : Nat) : FsError → Prop
  | opens {e : FsError} (refused : r.opens n e) : DataRefused n length e
  | reads {e : FsError} (refused : r.reads n e) : DataRefused n length e
  | full {e : FsError} {held want : Nat} (within : want ≤ length) (refused : r.full held want e) :
    DataRefused n length e
  | rounds (few : fs.rounds ≤ length) :
    DataRefused n length (.other "a copy up followed no further")

/-- A lower Layer's file of a length cannot be copied up to a name in a directory of the upper. -/
inductive Refusals.LandRefused (n : N) (length : Nat) (world : W) (target : D) (name : String) :
    FsError → Prop
  | stats {e : FsError} (refused : r.stats n e) : LandRefused n length world target name e
  | data {e : FsError} (refused : r.DataRefused fs n length e) :
    LandRefused n length world target name e
  | spent {e : FsError} (refused : r.spent e) : LandRefused n length world target name e
  | barred {e : FsError} (refused : r.barred world target name e) :
    LandRefused n length world target name e

/-- A copy up fails. -/
def Refusals.CopyRefused (first : N) (length : Nat) (name : String) (above : ViewDentry V)
    (s : Session W D F V) (e : FsError) : Prop :=
  DirRefused layers fs above s e ∨
    ∃ target after, upperDir layers fs above s = .ok target after ∧
      r.LandRefused fs first length after.world target.dentry name e

/-- An open fails: the directory of what it empties cannot be made, or, while the file is a lower
Layer's, it cannot be copied up to change it or opened to read it. -/
def Refusals.OpenRefused (first : N) (copied : Bool) (length : Nat) (name : String)
    (above : ViewDentry V) (how : OpenHow) (s : Session W D F V) (e : FsError) : Prop :=
  (how.truncate = true ∧ DirRefused layers fs above s e) ∨
    (copied = false ∧ ((forChange how = true ∧ r.CopyRefused fs first length name above s e) ∨
      (forChange how = false ∧ r.opens first e)))

/-- How a use of what is shared may fail, `first` the lower Layer's file. -/
def Refusals.Accounts (first : N) (shared : Shared) (s : Session W D F V) :
    Use V → FsError → Prop
  | .opens name above how, e =>
    r.OpenRefused fs first shared.copied shared.array.length name above how s e
  | .read fd _ _, e =>
    (shared.handles.length ≤ fd ∧ e = .invalidInput) ∨ (shared.copied = false ∧ r.reads first e)
  | .write fd pos data, e =>
    ((∀ how, shared.handles[fd]? = some how → forChange how = false) ∧ e = .invalidInput) ∨
      r.full shared.array.length (pos + data.length) e
  | .append fd data, e =>
    ((∀ how, shared.handles[fd]? = some how → forChange how = false) ∧ e = .invalidInput) ∨
      r.full shared.array.length (shared.array.length + data.length) e
  | .truncate name above len, e =>
    DirRefused layers fs above s e ∨
      (shared.copied = false ∧ r.CopyRefused fs first shared.array.length name above s e) ∨
      r.full shared.array.length len e

end Accounts

/-! ## Copying -/

section Copy

variable {P : W → Prop} (source target : Nat × F)
  (writes : ∀ pos data world, P world → Ends (layers.writeIter target.1 target.2 pos data) world
    (fun _ after => P after) fun _ _ => True)

include writes

/-- What every write leaves, all of them leave. -/
theorem writeAll_leaves (pos : Nat) (data : List UInt8) (s : Session W D F V)
    (holds : P s.world) :
    Ends (writeAll layers target.1 target.2 pos data) s (fun _ after => P after.world)
      fun _ _ => True := by
  induction counted : data.length using Nat.strongRecOn generalizing pos data s with
  | ind length ih =>
    unfold writeAll
    by_cases done : data = []
    · subst done
      rw [dif_pos (by rfl)]
      exact Ends.pure holds
    · rw [dif_neg (by simpa using done)]
      refine ((ask_ends (writes pos data s.world holds)).mono (fun _ _ ended => ended.2)
        fun _ _ _ => trivial).bind fun wrote after still => ?_
      cases wrote with
      | zero => exact Ends.throw trivial
      | succ wrote =>
        have positive := List.length_pos_iff.mpr done
        refine ih (data.drop (wrote + 1)).length ?_ _ _ after still rfl
        rw [List.length_drop]
        omega

/-- What every read and every write leaves, a whole copy leaves. -/
theorem copyWhole_leaves
    (reads : ∀ pos len world, P world → Ends (layers.readIter source.1 source.2 pos len) world
      (fun _ after => P after) fun _ _ => True)
    (rounds readPos writePos : Nat) (s : Session W D F V) (holds : P s.world) :
    Ends (copyWhole layers source target rounds readPos writePos) s (fun _ after => P after.world)
      fun _ _ => True := by
  induction rounds generalizing readPos writePos s with
  | zero => exact Ends.throw trivial
  | succ rounds ih =>
    refine ((ask_ends (reads readPos (64 * 1024) s.world holds)).mono (fun _ _ ended => ended.2)
      fun _ _ _ => trivial).bind fun read one still => ?_
    split
    · exact Ends.pure still
    · exact (writeAll_leaves target writes writePos read one still).bind
        fun pos after kept => ih _ pos after kept

end Copy

section Land

variable {v : V} {name : String} {above : ViewDentry V} {real target : OverlayPath D} {n m : N}
  {s : Session W D F V}

/-- A copy of a lower Layer's file holds the bytes the file holds, or none where it is about to be
emptied. It fails as that Layer refuses, or for want of room. -/
theorem copyData_serves (below : c.recorded real.layer real.dentry = some n)
    (lower : real.layer ≠ UPPER) (held : target.layer = UPPER) {copy : F}
    (made : c.opened UPPER copy = some m) (apart : n ≠ m) (fresh : c.bytes s.world m = [])
    (truncate : Bool) :
    Ends (copyData layers fs real target copy truncate) s
      (fun _ after => OnlyWorld s after ∧ c.bytes after.world n = c.bytes s.world n ∧
        (c.bytes after.world m = if truncate then [] else c.bytes s.world n) ∧
        r.barred after.world = r.barred s.world)
      fun e after => OnlyWorld s after ∧ c.bytes after.world n = c.bytes s.world n ∧
        r.DataRefused fs n (c.bytes s.world n).length e := by
  unfold copyData
  cases truncate with
  | true => exact Ends.pure ⟨.refl s, rfl, fresh, rfl⟩
  | false =>
    have opens := ask_ends ((r.openBelow real.layer real.dentry readOnly n s.world lower below
      ⟨rfl, rfl⟩).and (c.openRealfile real.layer real.dentry readOnly n below (.inr ⟨rfl, rfl⟩)
        (c.bytes s.world) s.world rfl))
    refine (opens.mono (fun _ _ ended => ended) fun _ _ ⟨world, refused, still⟩ =>
      ⟨world, congrFun still n, .opens refused⟩).bind
      fun source now ⟨same, barred, kept, opened⟩ => ?_
    have files : ShortFiles layers (real.layer, source) (target.layer, copy)
        (fun world => c.bytes world n) (fun world => c.bytes world m)
        fun bytes e => r.DataRefused fs n bytes.length e := by
      refine ⟨?_, ?_, ?_⟩
      · intro pos len world
        apply ((c.readIter real.layer source n pos len opened (c.bytes world) world rfl).and
          (r.readIter real.layer source n pos len world opened)).mono
        · intro data after ⟨⟨still, reads⟩, _⟩
          exact ⟨reads, congrFun still n, congrFun still m⟩
        · intro e after ⟨still, _, refused⟩
          exact ⟨.reads refused, congrFun still n⟩
      · intro pos data world fits
        rw [held]
        apply ((c.writeIter copy m pos data world made).and
          (r.writeIter copy m pos data world made)).mono
        · intro count after ⟨⟨most, only, grown⟩, _⟩
          exact ⟨most, only n apart, grown⟩
        · intro e after ⟨still, full⟩
          exact ⟨.full fits full, congrFun still n⟩
      · intro pos data world some _
        rw [held]
        apply (r.writeIter copy m pos data world made).mono
        · intro count after ⟨_, wrote⟩ none
          have positive := wrote some
          omega
        · exact fun _ _ _ => trivial
    have empty : c.bytes now.world m = [] := (congrFun kept m).trans fresh
    have source_ : c.bytes now.world n = c.bytes s.world n := congrFun kept n
    have enough : Rounds (r.DataRefused fs n (c.bytes now.world n).length)
        (c.bytes now.world n).length fs.rounds := by
      by_cases few : fs.rounds ≤ (c.bytes now.world n).length
      · exact .inl (.rounds few)
      · exact .inr (by omega)
    have leaves := copyWhole_leaves (P := fun world => r.barred world = r.barred s.world)
      (real.layer, source) (target.layer, copy) (fun pos data world holds => by
        rw [held]
        exact (r.writeIter copy m pos data world made).mono
          (fun _ _ ended => ended.1.trans holds) fun _ _ _ => trivial)
      (fun pos len world holds => (r.readIter real.layer source n pos len world opened).mono
        (fun _ _ ended => ended.trans holds) fun _ _ _ => trivial)
      fs.rounds 0 0 now barred
    apply ((copyWhole_copies files empty enough).and leaves).mono
    · intro _ after ⟨⟨world, whole, still⟩, barred⟩
      exact ⟨same.trans world, still.trans source_, whole.trans source_, barred⟩
    · intro e after ⟨⟨world, refused, still⟩, _⟩
      rw [source_] at refused
      exact ⟨same.trans world, still.trans source_, refused⟩

/-- A lower Layer's file copied up lands in the upper with its bytes, or with none where it is about
to be emptied. A copy fails only as a Layer refuses it, and leaves the file as it was. -/
theorem landFile_serves [DecidableEq V] (known : realAt s.inodes v = some real)
    (lower : real.layer ≠ UPPER) (below : c.recorded real.layer real.dentry = some n)
    (held : target.layer = UPPER) (stat : Kstat) (truncate : Bool) :
    Ends (landFile layers fs ((v, name) :: above) real target stat truncate) s
      (fun _ after => ∃ real' m, Landed c v real' m s after ∧
        c.bytes after.world m = if truncate then [] else c.bytes s.world n)
      fun e after => Intact c n s after ∧
        r.LandRefused fs n (c.bytes s.world n).length s.world target.dentry name e := by
  unfold landFile OverlayPath.doTmpfile OverlayPath.getattr OverlayPath.doLink
  rw [held]
  refine ((ask_ends ((c.doTmpfile target.dentry s.world).and
    (r.doTmpfile target.dentry name s.world))).mono (fun _ _ ended => ended)
    fun _ _ ⟨world, same, refused⟩ =>
      ⟨world.intact (congrFun same n), refused.elim .spent .barred⟩).bind
    fun copy one ⟨world, ⟨m, made, fresh, only, never⟩, barred⟩ => ?_
  have apart : n ≠ m := fun same => never real.layer real.dentry lower (same ▸ below)
  have kept : c.bytes one.world n = c.bytes s.world n := only n apart
  refine ((copyData_serves r fs below lower held made apart fresh truncate).mono
    (fun _ _ ended => ended) ?_).bind fun _ two ⟨further, still, copied, here⟩ => ?_
  · intro e after ⟨further, still, refused⟩
    rw [kept] at refused
    exact ⟨(world.trans further).intact (still.trans kept), .data refused⟩
  have sofar : Intact c n s two := (world.trans further).intact (still.trans kept)
  -- From here on nothing touches the copy's bytes, and only the last step what the view keeps.
  have fails : ∀ {e : FsError} {after : Session W D F V} {world : W}, Aside c two after →
      r.barred world = r.barred s.world → r.barred world target.dentry name e →
      Intact c n s after ∧
        r.LandRefused fs n (c.bytes s.world n).length s.world target.dentry name e := by
    intro e after world aside same refused
    exact ⟨⟨(congrFun aside.bytes n).trans sofar.bytes, aside.files.trans sofar.files,
      aside.inodes.trans sofar.inodes⟩, .barred (same ▸ refused)⟩
  refine (((keeps_quiet (c.setattrFile copy (timestamps stat) rfl) two (.refl c two)).and
    (ask_ends (r.setattrFile copy m (timestamps stat) two.world made))).mono
    (fun _ _ ended => ended) fun _ _ never => never.2.2.elim).bind
    fun _ three ⟨⟨aside, _⟩, _, same⟩ => ?_
  have there : r.barred three.world = r.barred s.world := same.trans (here.trans barred)
  refine (((keeps_quiet (c.getattr _ _) three aside).and
    (ask_ends (r.getattr target.dentry name three.world))).mono (fun _ _ ended => ended)
    fun _ _ ⟨aside, _, refused⟩ => fails aside there refused).bind
    fun times four ⟨⟨aside, _⟩, _, same⟩ => ?_
  refine (((keeps_quiet (c.doLink target.dentry copy _ m made) four aside).and
    (ask_ends (r.doLink target.dentry copy name m four.world made))).mono (fun _ _ ended => ended)
    fun _ _ ⟨aside, _, refused⟩ => fails aside (same.trans there) refused).bind
    fun linked five ⟨⟨aside, named⟩, _⟩ => ?_
  have tried : Ends (attempt (target.setTimestamps layers times)) five (fun _ _ => True)
      fun (_ : FsError) _ => False := Ends.attempt (Ends.any _ five)
  refine ((((aside_setTimestamps held times).tried five aside).and tried).mono
    (fun _ _ ended => ended.1) fun _ _ never => never.2.elim).bind fun _ last ⟨aside, _⟩ => ?_
  have knows : realAt last.inodes v = some real := by
    rw [aside.inodes, sofar.inodes]
    exact known
  have lands : (target.beneath linked).layer = UPPER := held
  apply (setReal_landed knows lands named (aside.files.trans sofar.files)
    (aside.inodes.trans sofar.inodes)).mono
  · intro _ after ⟨landed, same⟩
    refine ⟨target.beneath linked, m, landed, ?_⟩
    rw [same, aside.bytes, copied, kept]
  · intro _ _ never
    exact never.elim

end Land

/-! ## Uses -/

section Uses

variable {v : V} {first n : N} {copied : Bool} {array : List UInt8} {real : OverlayPath D}
  {s : Session W D F V} {files : List (OpenFile D F V)}

/-- A file kept below was not copied up. -/
theorem Holds.uncopied (holds : Holds c v first copied array files real n s)
    (lower : real.layer ≠ UPPER) : copied = false := by
  by_contra known
  exact lower (holds.settled (by simpa using known))

/-- The upper's file opens without fail, and nothing changes. -/
theorem openUpper_same (r : Refusals c) (holds : Holds c v first copied array files real n s)
    (isUpper : real.layer = UPPER) (how : OpenHow) :
    Ends (real.openRealfile layers how : Ovl W D F V F) s (fun _ after => after = s)
      fun _ _ => False := by
  have recorded := holds.recorded
  unfold OverlayPath.openRealfile
  rw [isUpper] at recorded ⊢
  apply (ask_ends (r.openUpper real.dentry how n s.world recorded)).mono
  · rintro _ after ⟨world, same⟩
    rw [world, same]
  · exact fun _ _ never => never.2

section CopyUp

variable [DecidableEq V] (upper : fs.HasUpper) (name : String) (above : ViewDentry V)

include upper

/-- A file copied up is the upper's, its directory is held there, and the handles share what they
shared, or nothing where a lower Layer's is about to be emptied. It fails only where the directory
cannot be made, or the copy cannot, and leaves what is shared. -/
theorem copyUpFile_serves (holds : Holds c v first copied array files real n s) (truncate : Bool) :
    Ends (copyUpFile layers fs above ((v, name) :: above) truncate) s
      (fun _ after => after.files = s.files ∧ (∃ path, UpperAt after.inodes above path) ∧
        ∃ real' m now, Holds c v first copied now files real' m after ∧ real'.layer = UPPER ∧
          (now = array ∨ truncate = true ∧ now = []))
      fun e after => (after.files = s.files ∧ Shares c v first copied array files after) ∧
        (DirRefused layers fs above s e ∨
          (real.layer ≠ UPPER ∧ r.CopyRefused fs first array.length name above s e)) := by
  unfold copyUpFile
  refine (((upperDir_ends upper above holds.placed).and
    (Ends.self (upperDir layers fs above) s)).mono (fun _ _ ended => ended)
    fun _ after ended =>
      ⟨⟨ended.1.files, real, n, holds.still ended.1⟩, .inl ⟨after, ended.2⟩⟩).bind ?_
  rintro target one ⟨⟨still, held, at_⟩, made⟩
  have here := holds.still still
  rw [Ends, bind_eq (here.realOf name above .notFound), ← Ends]
  split
  · rename_i inUpper
    exact Ends.pure ⟨still.files, ⟨target, at_⟩, real, n, array, here,
      (isInUpper_iff upper real).mp inUpper, .inl rfl⟩
  · rename_i notUpper
    have lower : real.layer ≠ UPPER := fun same => notUpper ((isInUpper_iff upper real).mpr same)
    have isFirst := holds.origin lower
    subst isFirst
    have refused : ∀ e, r.LandRefused fs n array.length one.world target.dentry name e →
        DirRefused layers fs above s e ∨
          (real.layer ≠ UPPER ∧ r.CopyRefused fs n array.length name above s e) :=
      fun e land => .inr ⟨lower, .inr ⟨target, one, made, land⟩⟩
    have asked := (keeps_quiet (c.getattr real.layer real.dentry) one (.refl c one)).and
      (ask_ends (r.getattrBelow real.layer real.dentry n one.world lower here.recorded))
    refine (asked.mono (fun _ _ ended => ended) fun e after ended =>
      ⟨⟨ended.1.files.trans still.files, real, n, here.aside ended.1⟩,
        refused e (.stats ended.2.2)⟩).bind ?_
    rintro stat two ⟨⟨aside, _⟩, _, barred, regular⟩
    have there := here.aside aside
    have files := aside.files.trans still.files
    split
    · rename_i other
      exact Ends.throw ⟨⟨files, real, n, there⟩, refused _ (.stats (regular other))⟩
    · apply (landFile_serves r fs there.kept lower there.recorded held stat truncate).mono
      · rintro _ after ⟨real', m, landed, bytes⟩
        refine ⟨landed.files.trans files, ⟨target, ?_⟩, real', m, _,
          there.landed lower landed bytes, landed.upper, ?_⟩
        · obtain ⟨own, first, level, kept, shown⟩ := at_
          refine ⟨own, first, level, ?_, shown⟩
          rw [landed.levels, aside.inodes]
          exact kept
        · cases truncate with
          | true => exact .inr ⟨rfl, rfl⟩
          | false => exact .inl there.bytes
      · rintro e after ⟨intact, land⟩
        refine ⟨⟨intact.files.trans files, real, n, there.intact intact⟩, refused e ?_⟩
        rw [there.bytes] at land
        cases land with
        | stats told => exact .stats told
        | data told => exact .data told
        | spent told => exact .spent told
        | barred told => exact .barred (barred ▸ told)

/-- A size set is what the shared array then has. It is refused only where a copy up fails, or where
the upper has no room to grow, and a failure leaves the array. -/
theorem setattrFile_serves (holds : Holds c v first copied array files real n s) {attr : Iattr}
    {len : Nat} (sized : attr.size = some len) :
    Ends (setattrFile layers fs ((v, name) :: above) attr) s
      (fun _ after => after.files = s.files ∧
        Shares c v first true (Tmpfs.resized array len) files after)
      fun e after => (after.files = s.files ∧ Shares c v first copied array files after) ∧
        (DirRefused layers fs above s e ∨
          (copied = false ∧ r.CopyRefused fs first array.length name above s e) ∨
          (r.full array.length len e ∧ array.length < len)) := by
  refine ((copyUpFile_serves r fs upper name above holds false).mono (fun _ _ ended => ended) ?_).bind
    ?_
  · rintro e _ ⟨left, refused⟩
    exact ⟨left, refused.imp_right fun copying => .inl ⟨holds.uncopied copying.1, copying.2⟩⟩
  · rintro _ one ⟨same, _, real', m, now, here, isUpper, which⟩
    have kept : now = array := which.elim id fun never => absurd never.1 (by decide)
    subst kept
    rw [Ends, bind_eq (here.realOf name above .notFound), ← Ends]
    unfold OverlayPath.notifyChange
    have recorded := here.recorded
    rw [isUpper] at recorded ⊢
    have asked : ({ attr with opening := false, through := false } : Iattr).size = some len := sized
    apply (ask_ends ((r.resize real'.dentry m _ len one.world recorded asked).and
      (c.resize real'.dentry m _ len one.world recorded asked))).mono
    · rintro _ after ⟨world, _, _, bytes⟩
      rw [here.bytes] at bytes
      exact ⟨by rw [world]; exact same, real', m, (here.changed world bytes).settle isUpper⟩
    · rintro e after ⟨world, full, bytes, longer⟩
      rw [here.bytes] at full longer
      have still := here.changed world ((congrFun bytes m).trans here.bytes)
      exact ⟨⟨by rw [world]; exact same, real', m, still⟩, .inr (.inr ⟨full, longer⟩)⟩

/-- An open of the file hands out what reaches it, and fails only as the lower Layer refuses it, or
where a copy up fails. -/
theorem openFile_serves (holds : Holds c v first copied array s.files real n s) (how : OpenHow) :
    Ends (openFile layers fs above ((v, name) :: above) how) s
      (fun file after => Opened c v first copied array above how s file after ∧
        (real.layer = UPPER → after = s) ∧
        (real.layer ≠ UPPER → how.truncate = true → ∃ path, UpperAt after.inodes above path))
      fun e after => (after.files = s.files ∧ Shares c v first copied array s.files after) ∧
        r.OpenRefused fs first copied array.length name above how s e := by
  unfold openFile
  rw [Ends, bind_eq (holds.realOf name above .isADirectory), ← Ends]
  split
  · rename_i inUpper
    have isUpper := (isInUpper_iff upper real).mp inUpper
    refine (((openUpper_opened holds isUpper how).and (openUpper_same r holds isUpper how)).mono
      (fun _ _ ended => ended) fun _ _ never => never.1.elim).bind ?_
    rintro file after ⟨⟨aside, reached⟩, same⟩
    exact Ends.pure ⟨⟨aside.files, fun _ => trivial, real, n, array,
      ((holds.aside aside).join reached).settle isUpper, .inl rfl⟩, fun _ => same,
      fun lower => absurd isUpper lower⟩
  · rename_i notUpper
    have lower : real.layer ≠ UPPER := fun same => notUpper ((isInUpper_iff upper real).mpr same)
    have uncopied := holds.uncopied lower
    split
    · rename_i reading
      have plain : forChange how = false := by simp [forChange, reading]
      have asked := (keeps_quiet (c.openRealfile _ _ how n holds.recorded (.inr reading)) s
        (.refl c s)).and (ask_ends (r.openBelow real.layer real.dentry how n s.world lower
          holds.recorded reading))
      refine (asked.mono (fun _ _ ended => ended) fun _ after ended =>
        ⟨⟨ended.1.files, real, n, holds.aside ended.1⟩,
          .inr ⟨uncopied, .inr ⟨plain, holds.origin lower ▸ ended.2.2⟩⟩⟩).bind ?_
      rintro file after ⟨⟨aside, opened⟩, _⟩
      have reached : Reaches c v real n (.lower file real v none) :=
        ⟨rfl, lower, fun _ => ⟨rfl, opened⟩⟩
      refine Ends.pure ⟨⟨aside.files, fun change => ?_, real, n, array,
        ((holds.aside aside).join reached).unsettle ?_, .inl rfl⟩,
        fun isUpper => absurd isUpper lower, fun _ truncate => ?_⟩
      · rw [plain] at change
        cases change
      · rw [plain, Bool.or_false]
        exact id
      · rw [reading.2] at truncate
        cases truncate
    · rename_i changing
      have change : forChange how = true := by
        rw [forChange, Bool.or_eq_true]
        by_contra neither
        rw [not_or, Bool.not_eq_true, Bool.not_eq_true] at neither
        exact changing neither
      refine ((copyUpFile_serves r fs upper name above holds how.truncate).mono
        (fun _ _ ended => ended) fun _ _ ended =>
          ⟨ended.1, .inr ⟨uncopied, .inl ⟨change, ended.2.elim .inl And.right⟩⟩⟩).bind ?_
      rintro _ one ⟨same, ⟨path, held⟩, real', m, now, here, isUpper, which⟩
      rw [Ends, bind_eq (here.realOf name above .isADirectory), ← Ends]
      refine ((openUpper_opened here isUpper how).mono (fun _ _ ended => ended)
        fun _ _ never => never.elim).bind ?_
      rintro file after ⟨aside, reached⟩
      have there : UpperAt after.inodes above path := by
        rw [aside.inodes]
        exact held
      refine Ends.pure ⟨⟨aside.files.trans same, fun _ => trivial, real', m, now,
        ((here.aside aside).join reached).settle isUpper, ?_⟩,
        fun isUpper => absurd isUpper lower, fun _ _ => ⟨path, there⟩⟩
      exact which.imp_right fun emptied => ⟨emptied.1, emptied.2, isUpper, path, there⟩

/-- A file opened, and emptied where the open asks, is handed out sharing what the others share. The
open fails only as the lower Layer refuses it, or where a copy up or a directory it needs does. -/
theorem doOpen_serves (shares : Shares c v first copied array s.files s) (how : OpenHow) :
    Ends (doOpen layers fs ((v, name) :: above) how) s
      (fun _ after => (∃ file, after.files = s.files ++ [file] ∧
          (forChange how = true → IsReal file)) ∧
        Shares c v first (copied || forChange how) (if how.truncate then [] else array) after.files
          after)
      fun e after => (after.files = s.files ∧ Shares c v first copied array after.files after) ∧
        r.OpenRefused fs first copied array.length name above how s e := by
  obtain ⟨real, n, holds⟩ := shares
  refine ((openFile_serves r fs upper name above holds how).mono (fun _ _ ended => ended)
    fun _ after ⟨⟨same, left⟩, refused⟩ => ⟨⟨same, same ▸ left⟩, refused⟩).bind ?_
  rintro file one ⟨⟨same, isReal, real', m, now, here, which⟩, still, copies⟩
  by_cases truncate : how.truncate = true
  · rw [if_pos truncate, if_pos truncate]
    have change : forChange how = true := by simp [forChange, truncate]
    have settled := here.settled (by rw [change, Bool.or_true])
    have emptied : Ends (setattrFile layers fs ((v, name) :: above) Iattr.openTruncate) one
        (fun _ after => after.files = s.files ∧ Shares c v first true [] (s.files ++ [file]) after)
        fun e after => (after.files = s.files ∧ Shares c v first copied array after.files after) ∧
          r.OpenRefused fs first copied array.length name above how s e := by
      by_cases stands : ∃ path, UpperAt one.inodes above path
      · obtain ⟨path, held⟩ := stands
        apply (setattrFile_empties name above upper here settled held).mono
        · rintro _ after ⟨still, shares⟩
          exact ⟨still.trans same, shares⟩
        · intro _ _ never
          exact never.elim
      · -- Nothing was copied up to open it, so the directory is asked for in the same session.
        have isUpper : real.layer = UPPER := by_contra fun lower => stands (copies lower truncate)
        have kept : now = array := which.elim id fun emptied => absurd emptied.2.2.2 stands
        have unchanged := still isUpper
        subst kept unchanged
        have sized : Iattr.openTruncate.size = some 0 := rfl
        apply (setattrFile_serves r fs upper name above here sized).mono
        · rintro _ after ⟨still, shares⟩
          refine ⟨still, ?_⟩
          simpa [Tmpfs.resized] using shares
        · rintro e after ⟨⟨still, last, k, shares⟩, refused⟩
          have fewer : Holds c v first (copied || forChange how) now one.files last k after :=
            { shares with
              files := fun one member => shares.files one (List.mem_append_left _ member) }
          refine ⟨⟨still, last, k, ?_⟩, ?_⟩
          · rw [still]
            exact fewer.unsettle fun known => by rw [known, Bool.true_or]
          · obtain dir | ⟨uncopied, -⟩ | ⟨-, never⟩ := refused
            · exact .inl ⟨truncate, dir⟩
            · rw [change, Bool.or_true] at uncopied
              cases uncopied
            · omega
    refine emptied.bind ?_
    rintro _ two ⟨still, last, k, shares⟩
    refine Ends.modify ⟨⟨file, by rw [still], isReal⟩, last, k, ?_⟩
    rw [change, Bool.or_true]
    exact { shares with files := fun one member => shares.files one (still ▸ member) }
  · rw [if_neg truncate, if_neg truncate]
    have kept : now = array := which.elim id fun emptied => absurd emptied.1 truncate
    subst kept
    refine Ends.modify ⟨⟨file, by rw [same], isReal⟩, real', m, ?_⟩
    exact { here with files := fun one member => here.files one (same ▸ member) }

end CopyUp

variable {handles : List OpenHow}

/-- A read answers from the shared array. It fails only as the lower Layer refuses it, before the
file is copied up. -/
theorem readIter_serves [DecidableEq D] (shares : Shares c v first copied array s.files s)
    (handed : Handed handles s.files) (fd pos len : Nat) :
    Ends (readIter layers fd pos len) s
      (fun data after => (fd < handles.length ∧ ReadsFrom array pos len data) ∧
        Shares c v first copied array after.files after ∧ Handed handles after.files)
      fun e after =>
        ((handles.length ≤ fd ∧ e = .invalidInput) ∨ (copied = false ∧ r.reads first e)) ∧
        Shares c v first copied array after.files after ∧ Handed handles after.files := by
  obtain ⟨real, n, holds⟩ := shares
  have got : (get : Ovl W D F V (Session W D F V)) s = .ok s s := rfl
  unfold readIter
  rw [Ends, bind_eq got, ← Ends]
  have answers : ∀ (layer : Nat) (file : F) (now : Session W D F V), layer = real.layer →
      fd < handles.length → c.opened layer file = some n →
      Holds c v first copied array now.files real n now → Handed handles now.files →
      Ends (ask (layers.readIter layer file pos len)) now
        (fun data after => (fd < handles.length ∧ ReadsFrom array pos len data) ∧
          Shares c v first copied array after.files after ∧ Handed handles after.files)
        fun e after =>
          ((handles.length ≤ fd ∧ e = .invalidInput) ∨ (copied = false ∧ r.reads first e)) ∧
          Shares c v first copied array after.files after ∧ Handed handles after.files := by
    intro layer file now kept inside opened here handed
    have quiet : Quiet c.bytes (layers.readIter layer file pos len) fun _ => True :=
      fun held => (c.readIter layer file n pos len opened held).mono fun _ _ => trivial
    have both := (keeps_quiet quiet now (.refl c now)).and
      (ask_ends ((c.readIter layer file n pos len opened (c.bytes now.world) now.world rfl).and
        (r.readIter layer file n pos len now.world opened)))
    apply both.mono
    · rintro data after ⟨⟨aside, _⟩, _, ⟨_, reads⟩, _⟩
      rw [here.bytes] at reads
      exact ⟨⟨inside, reads⟩, ⟨real, n, aside.files ▸ here.aside aside⟩, aside.files ▸ handed⟩
    · rintro e after ⟨aside, _, _, lower, refused⟩
      rw [kept] at lower
      exact ⟨.inr ⟨here.uncopied lower, here.origin lower ▸ refused⟩,
        ⟨real, n, aside.files ▸ here.aside aside⟩, aside.files ▸ handed⟩
  cases opened : s.files[fd]? with
  | none =>
    have outside := List.getElem?_eq_none_iff.mp opened
    rw [handed.length] at outside
    exact Ends.throw ⟨.inl ⟨outside, rfl⟩, ⟨real, n, holds⟩, handed⟩
  | some handle =>
    have reached := holds.files handle (List.mem_of_getElem? opened)
    have inside := handed.lt opened
    cases handle with
    | dir => exact reached.elim
    | real layer file =>
      exact answers layer file s (reached.2.1.trans reached.1.symm) inside
        (reached.2.1 ▸ reached.2.2) holds handed
    | lower file before inode found =>
      refine ((realFile_reaches holds reached).mono (fun _ _ ended => ended)
        fun _ _ never => never.elim).bind ?_
      rintro answer one ⟨aside, kept, of, reaches⟩
      have here := holds.aside aside
      have there : Holds c v first copied array (one.files.set fd answer.2) real n
          { one with files := one.files.set fd answer.2 } :=
        { here with
          files := by
            intro handle member
            cases List.mem_or_eq_of_mem_set member with
            | inl old => exact here.files handle (aside.files ▸ old)
            | inr new => exact new ▸ reaches }
      refine answers _ _ _ kept inside of there ?_
      have kept : Handed handles one.files := aside.files ▸ handed
      exact kept.set (by rw [aside.files]; exact opened) id _

/-- A write through a handle opened to write changes the shared array as far as it answers. It fails
only for want of room, and a failure leaves the array. -/
theorem writeIter_serves (shares : Shares c v first copied array s.files s)
    (handed : Handed handles s.files) (start : W → Nat → F → Nat) (fd : Nat) (data : List UInt8)
    {pos : Nat}
    (starts : ∀ file n, c.opened UPPER file = some n → c.bytes s.world n = array →
      start s.world UPPER file = pos) :
    Ends (writeIter layers start fd data) s
      (fun count after => (fd < handles.length ∧ count ≤ data.length ∧ (data ≠ [] → 0 < count)) ∧
        after.files = s.files ∧
        Shares c v first copied (overwrite array pos data count) after.files after)
      fun e after => (after.files = s.files ∧ Shares c v first copied array after.files after) ∧
        (((∀ how, handles[fd]? = some how → forChange how = false) ∧ e = .invalidInput) ∨
          r.full array.length (pos + data.length) e) := by
  obtain ⟨real, n, holds⟩ := shares
  have got : (get : Ovl W D F V (Session W D F V)) s = .ok s s := rfl
  unfold writeIter
  rw [Ends, bind_eq got, ← Ends]
  cases opened : s.files[fd]? with
  | none =>
    refine Ends.throw ⟨⟨rfl, real, n, holds⟩, .inl ⟨fun how known => ?_, rfl⟩⟩
    rw [List.getElem?_eq_none_iff.mpr] at known
    · cases known
    · rw [← handed.length]
      exact List.getElem?_eq_none_iff.mp opened
  | some handle =>
    have reached := holds.files handle (List.mem_of_getElem? opened)
    cases handle with
    | dir => exact reached.elim
    | lower file before inode found =>
      refine Ends.throw ⟨⟨rfl, real, n, holds⟩, .inl ⟨fun how known => ?_, rfl⟩⟩
      by_contra change
      exact handed.isReal fd how _ known opened (by simpa using change)
    | real layer file =>
      obtain ⟨-, rfl, of⟩ := reached
      have place := starts file n of holds.bytes
      have asked : Ends (fun world => layers.writeIter UPPER file (start world UPPER file) data world)
          s.world _ _ := (c.writeIter file n _ data s.world of).and
        (r.writeIter file n (start s.world UPPER file) data s.world of)
      rw [place, holds.bytes] at asked
      apply (ask_ends asked).mono
      · rintro count after ⟨world, ⟨most, _, bytes⟩, _, wrote⟩
        have files : after.files = s.files := by rw [world]
        exact ⟨⟨handed.lt opened, most, wrote⟩, files, real, n, files ▸ holds.changed world bytes⟩
      · rintro _ after ⟨world, bytes, full⟩
        have files : after.files = s.files := by rw [world]
        exact ⟨⟨files, real, n,
          files ▸ holds.changed world ((congrFun bytes n).trans holds.bytes)⟩, .inr full⟩

end Uses

/-! ## Sequences -/

variable {v : V} {first : N} {shared : Shared} {s : Session W D F V} {size : W → Nat → F → Nat}

/-- The handles of a session share what is shared. -/
structure Serves (c : Contents layers N) (v : V) (first : N) (shared : Shared)
    (s : Session W D F V) : Prop where
  /-- Through one file. -/
  shares : Shares c v first shared.copied shared.array s.files s
  /-- As each was opened. -/
  handed : Handed shared.handles s.files

variable [DecidableEq V] [DecidableEq D]

/-- One use is answered as what is shared would be, fails only as accounted for, and leaves what
that leaves. -/
theorem perform_serves (upper : fs.HasUpper) (serves : Serves c v first shared s)
    (sizes : ∀ world file n, c.opened UPPER file = some n →
      size world UPPER file = (c.bytes world n).length) (use : Use V) :
    Ends (perform layers fs v size use) s
      (fun ended after => (∀ refused, Answered refused shared use ended) ∧
        Serves c v first (shared.after use ended) after)
      fun e after => r.Accounts fs first shared s use e ∧ Serves c v first shared after := by
  obtain ⟨shares, handed⟩ := serves
  cases use with
  | opens name above how =>
    refine ((doOpen_serves r fs upper name above shares how).mono (fun _ _ ended => ended) ?_).bind ?_
    · rintro e after ⟨⟨same, still⟩, refused⟩
      exact ⟨refused, still, same ▸ handed⟩
    · rintro _ after ⟨⟨file, files, isReal⟩, opened⟩
      exact Ends.pure ⟨fun _ => trivial, opened, files ▸ handed.join isReal⟩
  | read fd pos len =>
    refine ((readIter_serves r shares handed fd pos len).mono (fun _ _ ended => ended) ?_).bind ?_
    · rintro e after ⟨refused, still, kept⟩
      exact ⟨refused, still, kept⟩
    · rintro data after ⟨answered, still, kept⟩
      exact Ends.pure ⟨fun _ => answered, still, kept⟩
  | write fd pos data =>
    refine ((writeIter_serves r shares handed (fun _ _ _ => pos) fd data fun _ _ _ _ => rfl).mono
      (fun _ _ ended => ended) ?_).bind ?_
    · rintro e after ⟨⟨same, still⟩, refused⟩
      exact ⟨refused, still, same ▸ handed⟩
    · rintro count after ⟨wrote, same, still⟩
      exact Ends.pure ⟨fun _ => wrote, still, same ▸ handed⟩
  | append fd data =>
    have ends : ∀ file n, c.opened UPPER file = some n → c.bytes s.world n = shared.array →
        size s.world UPPER file = shared.array.length := by
      intro file n opened bytes
      rw [sizes _ _ _ opened, bytes]
    refine ((writeIter_serves r shares handed size fd data ends).mono
      (fun _ _ ended => ended) ?_).bind ?_
    · rintro e after ⟨⟨same, still⟩, refused⟩
      exact ⟨refused, still, same ▸ handed⟩
    · rintro count after ⟨wrote, same, still⟩
      exact Ends.pure ⟨fun _ => wrote, still, same ▸ handed⟩
  | truncate name above len =>
    obtain ⟨real, n, holds⟩ := id shares
    have sized : (Iattr.ofSize len).size = some len := rfl
    refine ((setattrFile_serves r fs upper name above holds sized).mono
      (fun _ _ ended => ended) ?_).bind ?_
    · rintro e after ⟨⟨same, still⟩, refused⟩
      refine ⟨?_, same ▸ still, same ▸ handed⟩
      exact refused.imp_right fun others => others.imp_right And.left
    · rintro _ after ⟨same, still⟩
      exact Ends.pure ⟨fun _ => trivial, same ▸ still, same ▸ handed⟩

/-- Every use of a sequence is answered as one array would be, and fails only as accounted for. -/
theorem serve_asOneArray (upper : fs.HasUpper)
    (sizes : ∀ world file n, c.opened UPPER file = some n →
      size world UPPER file = (c.bytes world n).length)
    (uses : List (Use V)) (s : Session W D F V) (shared : Shared)
    (serves : Serves c v first shared s) :
    AsOneArray (r.Accounts fs first) shared (serve layers fs v size s uses) := by
  induction uses generalizing s shared with
  | nil => exact trivial
  | cons use rest ih =>
    have ended := perform_serves r fs upper serves sizes use
    unfold Ends at ended
    unfold serve
    cases performed : perform layers fs v size use s with
    | ok answer after =>
      rw [performed] at ended
      exact ⟨ended.1 _, ih after _ ended.2⟩
    | error error after =>
      rw [performed] at ended
      have same : shared.after use (.failed error) = shared := by cases use <;> rfl
      refine ⟨by cases use <;> exact ended.1, ?_⟩
      rw [same]
      exact ih after shared ended.2

end Kobako.Overlay
