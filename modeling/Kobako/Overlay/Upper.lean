import Kobako.Overlay.Refused

/-!
# An upper over lower Layers

The Layers of an Overlay as a handle meets them: a Tmpfs for an upper, and below it whatever Layers
answer their opens and reads from files nothing changes. A dentry of the upper keeps the file it
recorded wherever its name goes, so what is open on it stays that file's.
-/

namespace Kobako.Overlay

open Vfs

variable {L D F V N : Type}

/-- A dentry of the upper: where it was found, and the file it recorded if what stood there was
one. -/
structure UpperDentry where
  /-- Where it was found. -/
  path : Path
  /-- The file it recorded. -/
  file : Option Nat
deriving Repr, DecidableEq

namespace Tmpfs

/-- The file that stands at a path. -/
def fileAt (t : Tmpfs) (path : Path) : Option Nat :=
  match t.node path with
  | some (.file ino) => some ino
  | _ => none

/-- What a dentry of the upper recorded, as an Overlay tells entries apart. -/
def seenAt (t : Tmpfs) (d : UpperDentry) : Option Seen :=
  if d.file.isSome then some .file else (t.node d.path).map Node.seen

/-- The inode number of what a dentry of the upper recorded, zero for none. -/
def inoOf (t : Tmpfs) (d : UpperDentry) : Nat :=
  d.file.getD (((t.node d.path).map Node.ino).getD 0)

/-- `lookup_one_unlocked` in the upper. -/
def lookupReal (dir : UpperDentry) (name : String) : TmpfsM UpperDentry := fun t =>
  .ok ⟨name :: dir.path, t.fileAt (name :: dir.path)⟩ t

/-- `getattr` of a dentry of the upper. Times are left out. -/
def getattr (d : UpperDentry) : TmpfsM Kstat := do
  let t ← get
  match t.seenAt d with
  | some seen => pure ⟨seen.fileType, UPPER, t.inoOf d, 1, none, none⟩
  | none => throw .notFound

/-- `open` of a dentry of the upper, which opens every file and empties none. -/
def openReal (d : UpperDentry) : TmpfsM Handle := do
  match d.file with
  | some ino => pure (.file ino)
  | none => if ((← get).node d.path).isSome then pure .directory else throw .notFound

/-- `TmpfsFile::read_iter`. -/
def readIter (pos len : Nat) : Handle → TmpfsM (List UInt8)
  | .file ino => do pure ((((← get).bytes ino).drop pos).take len)
  | _ => throw .isADirectory

/-- `notify_change` of a dentry of the upper: a file recorded is the one resized. -/
def notifyChange (room : Nat → Bool) (d : UpperDentry) (attr : Iattr) : TmpfsM Unit :=
  match d.file, attr.size with
  | some ino, some len => resize room ino len
  | some _, none => pure ()
  | none, _ => setattr room d.path { attr with size := none }

/-- `start_creating` and `Tmpfs::link`, with the dentry of what was linked. -/
def linkAt (dir : UpperDentry) (name : String) : Handle → TmpfsM UpperDentry
  | .file ino => do
    let path ← link (name :: dir.path) ino
    pure ⟨path, some ino⟩
  | _ => throw .readOnlyFilesystem

/-- A change of an open file. -/
def onFile {α : Type} (change : Nat → TmpfsM α) : Handle → TmpfsM α
  | .file ino => change ino
  | _ => throw .readOnlyFilesystem

end Tmpfs

/-! ## The Layers together -/

/-- A question to the upper. -/
def onTmpfs {α : Type} (question : TmpfsM α) : EStateM FsError (Tmpfs × L) α := fun (t, l) =>
  match question t with
  | .ok a t => .ok a (t, l)
  | .error e t => .error e (t, l)

/-- A question to a lower Layer. -/
def onLower {α : Type} (question : EStateM FsError L α) : EStateM FsError (Tmpfs × L) α :=
  fun (t, l) =>
    match question l with
    | .ok a l => .ok a (t, l)
    | .error e l => .error e (t, l)

/-- A question to the Layer a dentry or an open file is of. -/
def asks {A B α : Type} (above : A → TmpfsM α) (below : B → EStateM FsError L α) :
    Nat → A ⊕ B → EStateM FsError (Tmpfs × L) α
  | 0, .inl a => onTmpfs (above a)
  | _ + 1, .inr b => onLower (below b)
  | _, _ => throw .invalidInput

/-- A change, which only the upper takes. -/
def changes {A B α : Type} (change : A → TmpfsM α) : Nat → A ⊕ B → EStateM FsError (Tmpfs × L) α :=
  asks change fun _ => throw .readOnlyFilesystem

/-- What is read of the Layer a dentry is of, `none` for a dentry of another. -/
def told {A B α : Type} (above : A → α) (below : B → α) (never : α) : Nat → A ⊕ B → α
  | 0, .inl a => above a
  | _ + 1, .inr b => below b
  | _, _ => never

variable (lower : Layers L D F) (room : Nat → Bool)

/-- A Tmpfs over lower Layers, the Tmpfs refusing for want of room where `room` says. -/
def overLowers : Layers (Tmpfs × L) (UpperDentry ⊕ D) (Handle ⊕ F) where
  kind w layer := told (fun d => (w.1.seenAt d).map Seen.fileType) (lower.kind w.2 layer) none layer
  name w layer := told (fun d => d.path.headD "") (lower.name w.2 layer) "" layer
  identity w layer := told
    (fun d => if w.1.inoOf d = 0 then none else some ⟨UPPER, w.1.inoOf d⟩)
    (lower.identity w.2 layer) none layer
  tmpfs w layer := told (fun _ => true) (lower.tmpfs w.2 layer) false layer
  whiteoutAt w layer d name := told
    (fun d => decide ((w.1.node (name :: d.path)).map Node.seen = some .whiteout))
    (fun d => lower.whiteoutAt w.2 layer d name) false layer d
  opaqueDir w layer := told
    (fun d => decide ((w.1.node d.path).map Node.seen = some (.directory true)))
    (lower.opaqueDir w.2 layer) false layer
  matchesReal w layer d name real := told
    (fun d => real.elim (fun real => decide (real.path = name :: d.path)) fun _ => false)
    (fun d => real.elim (fun _ => false) (lower.matchesReal w.2 layer d name)) false layer d
  goesWhenUnused w layer := told (fun _ => false) (lower.goesWhenUnused w.2 layer) false layer
  lookupReal layer d name := asks (fun d => Sum.inl <$> Tmpfs.lookupReal d name)
    (fun d => Sum.inr <$> lower.lookupReal layer d name) layer d
  getattr layer := asks Tmpfs.getattr (lower.getattr layer) layer
  getLink layer := asks (fun _ => throw .invalidInput) (lower.getLink layer) layer
  revalidate layer := asks (fun _ => pure true) (lower.revalidate layer) layer
  openRealfile layer d how := asks (fun d => Sum.inl <$> Tmpfs.openReal d)
    (fun d => Sum.inr <$> lower.openRealfile layer d how) layer d
  entries layer := asks (fun d => do pure ((← get).entries d.path)) (lower.entries layer) layer
  readIter layer file pos len := asks (Tmpfs.readIter pos len)
    (fun file => lower.readIter layer file pos len) layer file
  fsync layer := asks (fun _ => pure ()) (lower.fsync layer) layer
  flush layer := asks (fun _ => pure ()) (lower.flush layer) layer
  doMkdir layer d name := changes (fun d => Tmpfs.mkdir room (name :: d.path)) layer d
  doCreate layer d name := changes (fun d => Tmpfs.create room (name :: d.path)) layer d
  doRmdir layer d name := changes (fun d => Tmpfs.rmdir (name :: d.path)) layer d
  doUnlink layer d name := changes (fun d => Tmpfs.unlink (name :: d.path)) layer d
  doRename layer d name layer' d' name' flag :=
    match layer', d' with
    | 0, .inl d' =>
      changes (fun d => Tmpfs.rename room (name :: d.path) (name' :: d'.path) flag) layer d
    | _, _ => throw .readOnlyFilesystem
  doWhiteout layer d name := changes (fun d => Tmpfs.whiteout room (name :: d.path)) layer d
  doTmpfile := changes fun _ => do pure (.inl (.file (← Tmpfs.tmpfile room)))
  doLink layer d file name :=
    match file with
    | .inl file => changes (fun d => Sum.inl <$> Tmpfs.linkAt d name file) layer d
    | .inr _ => throw .readOnlyFilesystem
  setOpaque := changes fun d => Tmpfs.setOpaque d.path
  notifyChange layer d attr := changes (fun d => Tmpfs.notifyChange room d attr) layer d
  setattrFile layer file _ := changes (Tmpfs.onFile fun _ => pure ()) layer file
  writeIter layer file pos data :=
    changes (Tmpfs.onFile fun ino => Tmpfs.write room ino pos data) layer file
  fallocate layer file offset len :=
    changes (Tmpfs.onFile fun ino => Tmpfs.fallocate room ino offset len) layer file

/-! ## What they hold -/

/-- Lower Layers whose files nothing changes: an open to read opens the file a dentry recorded, and
a read answers some of what the file holds there. Either may fail, and neither need answer all that
was asked. -/
structure Steady (lower : Layers L D F) (N : Type) where
  /-- What each file holds. -/
  bytes : N → List UInt8
  /-- The file a dentry recorded. -/
  recorded : Nat → D → Option N
  /-- The file an open file is of. -/
  opened : Nat → F → Option N
  /-- What is opened to read is what the dentry recorded. -/
  opens : ∀ layer d how n l, recorded layer d = some n → how.write = false → how.truncate = false →
    Ends (lower.openRealfile layer d how) l (fun file _ => opened layer file = some n)
      fun _ _ => True
  /-- What is read stands in the file. -/
  reads : ∀ layer file n pos len l, opened layer file = some n →
    Ends (lower.readIter layer file pos len) l (fun data _ => ReadsFrom (bytes n) pos len data)
      fun _ _ => True

variable {lower room}

/-- What a file holds: the upper's by its inode number, a lower Layer's for good. -/
def Steady.held (steady : Steady lower N) (w : Tmpfs × L) : Nat ⊕ N → List UInt8 :=
  Sum.elim w.1.bytes steady.bytes

/-- The file an open file of the upper is of. -/
def Handle.ino : Handle → Option Nat
  | .file ino => some ino
  | _ => none

section Laws

variable (steady : Steady lower N)

omit steady in
/-- A question to the upper ends it as it ends, and leaves the lower Layers. -/
theorem onTmpfs_ends {α : Type} {question : TmpfsM α} {w : Tmpfs × L} {ok : α → Tmpfs → Prop}
    {failed : FsError → Tmpfs → Prop} (ends : Ends question w.1 ok failed) :
    Ends (onTmpfs question) w (fun a after => ok a after.1) fun e after => failed e after.1 := by
  unfold Ends at ends ⊢
  unfold onTmpfs
  dsimp only
  cases ended : question w.1 with
  | ok a after =>
    rw [ended] at ends
    exact ends
  | error e after =>
    rw [ended] at ends
    exact ends

omit steady in
/-- A question to a lower Layer leaves the upper. -/
theorem onLower_ends {α : Type} {question : EStateM FsError L α} {w : Tmpfs × L}
    {ok : α → L → Prop} {failed : FsError → L → Prop} (ends : Ends question w.2 ok failed) :
    Ends (onLower question) w (fun a after => after.1 = w.1 ∧ ok a after.2)
      fun e after => after.1 = w.1 ∧ failed e after.2 := by
  unfold Ends at ends ⊢
  unfold onLower
  dsimp only
  cases ended : question w.2 with
  | ok a after =>
    rw [ended] at ends
    exact ⟨rfl, ends⟩
  | error e after =>
    rw [ended] at ends
    exact ⟨rfl, ends⟩

/-- The upper's bytes are all that changes of what is held. -/
theorem Steady.held_eq {w after : Tmpfs × L} (same : after.1.bytes = w.1.bytes) :
    steady.held after = steady.held w := by
  rw [Steady.held, Steady.held, same]

/-- What the upper is asked leaves every file where it leaves the upper's. -/
theorem quiet_onTmpfs {α : Type} {question : TmpfsM α} {answers : α → Prop}
    (keeps : ∀ bytes, Keeps (fun t => t.bytes = bytes) question answers) :
    Quiet steady.held (onTmpfs question : EStateM FsError (Tmpfs × L) α) answers := by
  intro held w same
  subst same
  apply (onTmpfs_ends (keeps w.1.bytes w.1 rfl)).mono
  · intro a after ⟨bytes, answered⟩
    exact ⟨steady.held_eq bytes, answered⟩
  · intro e after bytes
    exact steady.held_eq bytes

/-- What a lower Layer is asked leaves every file. -/
theorem quiet_onLower {α : Type} {question : EStateM FsError L α} {answers : α → Prop}
    (ends : ∀ l, Ends question l (fun a _ => answers a) fun _ _ => True) :
    Quiet steady.held (onLower question) answers := by
  intro held w same
  subst same
  apply (onLower_ends (ends w.2)).mono
  · intro a after ⟨upper, answered⟩
    exact ⟨steady.held_eq (by rw [upper]), answered⟩
  · intro e after ⟨upper, _⟩
    exact steady.held_eq (by rw [upper])

theorem quiet_throw {α : Type} {error : FsError} {answers : α → Prop} :
    Quiet steady.held (throw error : EStateM FsError (Tmpfs × L) α) answers :=
  fun _ => .throw

/-- A question leaves every file where either Layer it may go to does. -/
theorem quiet_asks {A B α : Type} {above : A → TmpfsM α} {below : B → EStateM FsError L α}
    {answers : α → Prop} (layer : Nat) (d : A ⊕ B)
    (keeps : ∀ a, layer = UPPER → d = .inl a →
      ∀ bytes, Keeps (fun t => t.bytes = bytes) (above a) answers)
    (ends : ∀ b, d = .inr b → layer ≠ UPPER →
      ∀ l, Ends (below b) l (fun a _ => answers a) fun _ _ => True) :
    Quiet steady.held (asks above below layer d) answers := by
  unfold asks
  split
  · exact quiet_onTmpfs steady (keeps _ rfl rfl)
  · exact quiet_onLower steady (ends _ rfl (Nat.succ_ne_zero _))
  · exact quiet_throw steady

/-- A change leaves every file where the upper's does. -/
theorem quiet_changes {A B α : Type} {change : A → TmpfsM α} {answers : α → Prop} (layer : Nat)
    (d : A ⊕ B) (keeps : ∀ a, layer = UPPER → d = .inl a →
      ∀ bytes, Keeps (fun t => t.bytes = bytes) (change a) answers) :
    Quiet steady.held (changes change layer d : EStateM FsError (Tmpfs × L) α) answers :=
  quiet_asks steady layer d keeps fun _ _ _ _ => Ends.throw trivial

end Laws

namespace Tmpfs

variable {bytes : Nat → List UInt8}

theorem keeps_take : Keeps (fun t => t.bytes = bytes) (take room) fun _ => True := by
  intro t same
  unfold Ends take
  by_cases granted : room t.asked = true
  · rw [if_pos granted]
    exact ⟨same, trivial⟩
  · rw [if_neg granted]
    exact same

theorem keeps_mayCreate (path : Path) :
    Keeps (fun t => t.bytes = bytes) (mayCreate path) fun _ => True := by
  intro t same
  unfold Ends mayCreate
  by_cases stands : (t.node path).isSome = true
  · rw [if_pos stands]
    exact same
  · rw [if_neg stands]
    exact ⟨same, trivial⟩

theorem keeps_mkdir (path : Path) :
    Keeps (fun t => t.bytes = bytes) (mkdir room path) fun _ => True :=
  (keeps_mayCreate path).bind fun _ _ => keeps_take.bind fun _ _ => .modify fun _ same => same

theorem keeps_rmdir (path : Path) : Keeps (fun t => t.bytes = bytes) (rmdir path) fun _ => True := by
  intro t same
  unfold Ends rmdir
  cases t.node path with
  | none => exact same
  | some node =>
    cases node with
    | file ino => exact same
    | whiteout => exact same
    | directory ino hides =>
      dsimp only
      by_cases empty : (t.entries path).isEmpty = true
      · rw [if_pos empty]
        exact ⟨same, trivial⟩
      · rw [if_neg empty]
        exact same

theorem keeps_replace (src dst : Path) (flag : Option RenameFlag) :
    Keeps (fun t => t.bytes = bytes) (replace room src dst flag) fun _ => True := by
  refine Keeps.get.bind fun t _ => ?_
  split
  · exact .throw
  · split
    · exact keeps_take.bind fun _ _ => .modify fun _ same => same
    · exact .modify fun _ same => same

theorem keeps_rename (src dst : Path) (flag : Option RenameFlag) :
    Keeps (fun t => t.bytes = bytes) (rename room src dst flag) fun _ => True := by
  refine Keeps.get.bind fun t held => ?_
  split
  · exact .throw
  · split
    · exact .pure trivial
    · split
      · exact fun _ _ => ⟨held, trivial⟩
      · exact keeps_replace src dst flag

theorem keeps_setattr (path : Path) (attr : Iattr) :
    Keeps (fun t => t.bytes = bytes) (setattr room path { attr with size := none })
      fun _ => True := by
  refine Keeps.get.bind fun t _ => ?_
  split
  · rename_i sized
    exact absurd sized (by simp)
  · exact .pure trivial
  · exact .pure trivial
  · exact .throw
  · exact .throw

/-- A file grows only with room, and what refuses one growth changes nothing. -/
theorem grow_ends (ino len : Nat) (t : Tmpfs) :
    Ends (grow room ino len) t (fun _ after => after.bytes = t.bytes)
      fun _ after => after.bytes = t.bytes ∧ (t.bytes ino).length < len := by
  unfold Ends grow
  by_cases longer : (t.bytes ino).length < len
  · rw [if_pos longer]
    unfold take
    dsimp only
    by_cases granted : room t.asked = true
    · rw [if_pos granted]
    · rw [if_neg granted]
      exact ⟨rfl, longer⟩
  · rw [if_neg longer]

theorem resize_ends (ino len : Nat) (t : Tmpfs) :
    Ends (resize room ino len) t
      (fun _ after => after.bytes = Function.update t.bytes ino (resized (t.bytes ino) len))
      fun _ after => after.bytes = t.bytes ∧ (t.bytes ino).length < len := by
  refine (grow_ends ino len t).bind fun _ after same => Ends.modify ?_
  dsimp only
  rw [same]

theorem write_ends (ino pos : Nat) (data : List UInt8) (t : Tmpfs) :
    Ends (write room ino pos data) t
      (fun count after => count ≤ data.length ∧
        after.bytes = Function.update t.bytes ino (overwrite (t.bytes ino) pos data count))
      fun _ after => after.bytes = t.bytes := by
  unfold write
  by_cases nothing : data = []
  · subst nothing
    rw [if_pos (by rfl)]
    refine Ends.pure ⟨Nat.zero_le _, ?_⟩
    rw [overwrite, if_pos rfl, Function.update_eq_self]
  · rw [if_neg (by simpa using nothing)]
    split
    · exact Ends.throw rfl
    · refine ((grow_ends ino _ t).mono (fun _ _ same => same) fun _ _ ended => ended.1).bind
        fun _ after same => ?_
      have positive : data.length ≠ 0 := by simpa using nothing
      refine ⟨Nat.le_refl _, ?_⟩
      show Function.update after.bytes ino (written (after.bytes ino) pos data) = _
      rw [same, overwrite, if_neg positive, List.take_length]

end Tmpfs

/-! ## The Contents -/

section Contents

variable (room) (steady : Steady lower N)

/-- A change of one file of the upper is a change of that file only. -/
theorem Steady.only {w after : Tmpfs × L} {ino : Nat} {bytes : List UInt8}
    (changed : after.1.bytes = Function.update w.1.bytes ino bytes) :
    Only steady.held (.inl ino) w after ∧ steady.held after (.inl ino) = bytes := by
  refine ⟨?_, ?_⟩
  · intro other apart
    cases other with
    | inr below => rfl
    | inl ino' =>
      have different : ino' ≠ ino := fun same => apart (by rw [same])
      show after.1.bytes ino' = w.1.bytes ino'
      rw [changed, Function.update_of_ne different]
  · show after.1.bytes ino = bytes
    rw [changed, Function.update_self]

/-- The file a dentry recorded. -/
def Steady.recordedAt (layer : Nat) : UpperDentry ⊕ D → Option (Nat ⊕ N) :=
  told (fun d => d.file.map Sum.inl) (fun d => (steady.recorded layer d).map Sum.inr) none layer

/-- The file an open file is of. -/
def Steady.openedAt (layer : Nat) : Handle ⊕ F → Option (Nat ⊕ N) :=
  told (fun file => file.ino.map Sum.inl) (fun file => (steady.opened layer file).map Sum.inr) none
    layer

variable {steady} {room}

variable {d : UpperDentry ⊕ D} {n : Nat ⊕ N} {layer : Nat} {file : Handle ⊕ F}

/-- What the upper records is one of its own dentries' file. -/
theorem Steady.recordedAt_upper (recorded : steady.recordedAt UPPER d = some n) :
    ∃ own ino, d = .inl own ∧ own.file = some ino ∧ n = .inl ino := by
  cases d with
  | inr below => exact absurd recorded (by simp [Steady.recordedAt, told, UPPER])
  | inl own =>
    obtain ⟨ino, file, same⟩ := Option.map_eq_some_iff.mp recorded
    exact ⟨own, ino, rfl, file, same.symm⟩

/-- What a lower Layer records is one of its own dentries' file. -/
theorem Steady.recordedAt_lower (below : layer ≠ UPPER)
    (recorded : steady.recordedAt layer d = some n) :
    ∃ index own m, layer = index + 1 ∧ d = .inr own ∧ steady.recorded (index + 1) own = some m ∧
      n = .inr m := by
  cases layer with
  | zero => exact absurd rfl below
  | succ index =>
    cases d with
    | inl own => exact absurd recorded (by simp [Steady.recordedAt, told])
    | inr own =>
      obtain ⟨m, known, same⟩ := Option.map_eq_some_iff.mp recorded
      exact ⟨index, own, m, rfl, rfl, known, same.symm⟩

theorem Steady.openedAt_upper (opened : steady.openedAt UPPER file = some n) :
    ∃ ino, file = .inl (.file ino) ∧ n = .inl ino := by
  cases file with
  | inr below => exact absurd opened (by simp [Steady.openedAt, told, UPPER])
  | inl own =>
    obtain ⟨ino, of, same⟩ := Option.map_eq_some_iff.mp opened
    cases own with
    | file own =>
      have held : own = ino := Option.some.inj of
      subst held
      exact ⟨own, rfl, same.symm⟩
    | bytes bytes => exact absurd of (by simp [Handle.ino])
    | directory => exact absurd of (by simp [Handle.ino])

/-- A read of what a file holds answers some of it. -/
theorem readsFrom_take (array : List UInt8) (pos len : Nat) :
    ReadsFrom array pos len ((array.drop pos).take len) where
  stands := by
    rw [List.length_take, List.take_eq_take_min]
  within := by
    rw [List.length_take]
    omega
  left := by
    intro nothing
    have none := congrArg List.length nothing
    rw [List.length_take, List.length_drop, List.length_nil] at none
    omega

/-- The upper opens what a dentry recorded. -/
theorem openRealfile_upper {own : UpperDentry} {ino : Nat} (file : own.file = some ino)
    (how : OpenHow) (w : Tmpfs × L) :
    (overLowers lower room).openRealfile UPPER (.inl own) how w = .ok (.inl (.file ino)) w := by
  show onTmpfs (Sum.inl <$> Tmpfs.openReal own) w = _
  unfold Tmpfs.openReal
  rw [file]
  rfl

/-- What is open of a lower Layer is one of its own files. -/
theorem Steady.openedAt_lower {index : Nat} (opened : steady.openedAt (index + 1) file = some n) :
    ∃ own m, file = .inr own ∧ steady.opened (index + 1) own = some m ∧ n = .inr m := by
  cases file with
  | inl own => exact absurd opened (by simp [Steady.openedAt, told])
  | inr own =>
    obtain ⟨m, known, same⟩ := Option.map_eq_some_iff.mp opened
    exact ⟨own, m, rfl, known, same.symm⟩

/-- An open to read, or of the upper's, is of the file a dentry recorded. -/
theorem openRealfile_quiet {how : OpenHow} (recorded : steady.recordedAt layer d = some n)
    (reading : layer = UPPER ∨ how.write = false ∧ how.truncate = false) :
    Quiet steady.held ((overLowers lower room).openRealfile layer d how)
      fun file => steady.openedAt layer file = some n := by
  cases layer with
  | zero =>
    obtain ⟨own, ino, rfl, file, rfl⟩ := Steady.recordedAt_upper recorded
    intro held w same
    exact Ends.of_eq (openRealfile_upper file how w) ⟨same, rfl⟩
  | succ index =>
    cases d with
    | inl own => exact absurd recorded (by simp [Steady.recordedAt, told])
    | inr below =>
      obtain ⟨m, known, rfl⟩ := Option.map_eq_some_iff.mp recorded
      have plain := reading.resolve_left (Nat.succ_ne_zero index)
      refine quiet_onLower steady fun l => ?_
      have opens := steady.opens (index + 1) below how m l known plain.1 plain.2
      have mapped : (Sum.inr <$> lower.openRealfile (index + 1) below how :
          EStateM FsError L (Handle ⊕ F)) =
          lower.openRealfile (index + 1) below how >>= fun file => pure (.inr file) := rfl
      rw [mapped]
      refine opens.bind fun file after opened => Ends.pure ?_
      show (steady.opened (index + 1) file).map Sum.inr = some (.inr m)
      rw [opened]
      rfl

/-- A read answers some of what the file holds. -/
theorem readIter_reads (pos len : Nat) (opened : steady.openedAt layer file = some n)
    (held : Nat ⊕ N → List UInt8) :
    Keeps (fun w => steady.held w = held) ((overLowers lower room).readIter layer file pos len)
      fun data => ReadsFrom (held n) pos len data := by
  cases layer with
  | zero =>
    obtain ⟨ino, rfl, rfl⟩ := Steady.openedAt_upper opened
    intro w same
    subst same
    exact ⟨rfl, readsFrom_take _ _ _⟩
  | succ index =>
    cases file with
    | inl own => exact absurd opened (by simp [Steady.openedAt, told])
    | inr below =>
      obtain ⟨m, known, rfl⟩ := Option.map_eq_some_iff.mp opened
      intro w same
      subst same
      have reads := quiet_onLower steady (fun l => steady.reads (index + 1) below m pos len l known)
      exact reads _ w rfl

/-- A file made with no name is empty and the upper's. -/
theorem doTmpfile_fresh (d : UpperDentry ⊕ D) (w : Tmpfs × L) :
    Ends ((overLowers lower room).doTmpfile UPPER d) w
      (fun file after => ∃ n, steady.openedAt UPPER file = some n ∧ steady.held after n = [] ∧
        Only steady.held n w after ∧
        ∀ layer d, layer ≠ UPPER → steady.recordedAt layer d ≠ some n)
      fun _ after => steady.held after = steady.held w := by
  cases d with
  | inr below => exact Ends.throw rfl
  | inl own =>
    have made : Ends (do pure (.inl (.file (← Tmpfs.tmpfile room))) : TmpfsM (Handle ⊕ F)) w.1
        (fun file after => ∃ ino, file = .inl (.file ino) ∧
          after.bytes = Function.update w.1.bytes ino [])
        fun _ after => after.bytes = w.1.bytes := by
      have took : Ends (Tmpfs.take room) w.1 (fun _ after => after.bytes = w.1.bytes ∧ True)
          fun _ after => after.bytes = w.1.bytes := Tmpfs.keeps_take w.1 rfl
      refine Ends.bind (took.bind fun _ after same => ?_) fun ino after changed =>
        Ends.pure ⟨ino, rfl, changed⟩
      show Function.update after.bytes after.nextIno [] = _
      rw [same.1]
    apply (onTmpfs_ends made).mono
    · intro file after ⟨ino, same, changed⟩
      subst same
      have only := steady.only changed
      refine ⟨.inl ino, rfl, only.2, only.1, ?_⟩
      intro layer d apart recorded
      cases layer with
      | zero => exact apart rfl
      | succ index =>
        cases d with
        | inl upper => exact absurd recorded (by simp [Steady.recordedAt, told])
        | inr below =>
          obtain ⟨m, _, same⟩ := Option.map_eq_some_iff.mp recorded
          exact absurd same (by simp)
    · intro _ after same
      exact steady.held_eq same

/-- A file named is what its name's dentry recorded. -/
theorem doLink_recorded (d : UpperDentry ⊕ D) (name : String)
    (opened : steady.openedAt UPPER file = some n) :
    Quiet steady.held ((overLowers lower room).doLink UPPER d file name)
      fun linked => steady.recordedAt UPPER linked = some n := by
  obtain ⟨ino, rfl, rfl⟩ := Steady.openedAt_upper opened
  cases d with
  | inr below => exact quiet_throw steady
  | inl own =>
    apply quiet_onTmpfs steady
    intro bytes
    have linked : Keeps (fun t => t.bytes = bytes) (Tmpfs.link (name :: own.path) ino)
        fun _ => True :=
      (Tmpfs.keeps_mayCreate _).bind fun _ _ _ same => ⟨same, trivial⟩
    have named : Keeps (fun t => t.bytes = bytes) (Tmpfs.linkAt own name (.file ino))
        fun linked => linked.file = some ino := linked.bind fun path _ => Keeps.pure rfl
    refine named.bind fun linked file => Keeps.pure ?_
    show linked.file.map Sum.inl = some (.inl ino)
    rw [file]
    rfl

/-- A write writes some of what it is handed. -/
theorem writeIter_writes (pos : Nat) (data : List UInt8) (w : Tmpfs × L)
    (opened : steady.openedAt UPPER file = some n) :
    Ends ((overLowers lower room).writeIter UPPER file pos data) w
      (fun count after => count ≤ data.length ∧ Only steady.held n w after ∧
        steady.held after n = overwrite (steady.held w n) pos data count)
      fun _ after => steady.held after = steady.held w := by
  obtain ⟨ino, rfl, rfl⟩ := Steady.openedAt_upper opened
  apply (onTmpfs_ends (Tmpfs.write_ends ino pos data w.1)).mono
  · intro count after ⟨most, changed⟩
    exact ⟨most, steady.only changed⟩
  · intro _ after same
    exact steady.held_eq same

/-- A size set is what the file then has, and only a growth is refused. -/
theorem notifyChange_resizes {attr : Iattr} {len : Nat} (w : Tmpfs × L)
    (recorded : steady.recordedAt UPPER d = some n) (sized : attr.size = some len) :
    Ends ((overLowers lower room).notifyChange UPPER d attr) w
      (fun _ after => Only steady.held n w after ∧
        steady.held after n = Tmpfs.resized (steady.held w n) len)
      fun _ after => steady.held after = steady.held w ∧ (steady.held w n).length < len := by
  obtain ⟨own, ino, rfl, file, rfl⟩ := Steady.recordedAt_upper recorded
  have asked : Tmpfs.notifyChange room own attr = Tmpfs.resize room ino len := by
    unfold Tmpfs.notifyChange
    rw [file, sized]
  have resized : Ends (Tmpfs.notifyChange room own attr) w.1
      (fun _ after => after.bytes =
        Function.update w.1.bytes ino (Tmpfs.resized (w.1.bytes ino) len))
      fun _ after => after.bytes = w.1.bytes ∧ (w.1.bytes ino).length < len := by
    rw [asked]
    exact Tmpfs.resize_ends ino len w.1
  apply (onTmpfs_ends resized).mono
  · intro _ after changed
    exact steady.only changed
  · intro _ after ⟨same, longer⟩
    exact ⟨steady.held_eq same, longer⟩

variable (steady room)

/-- The Layers keep the bytes of their files. -/
def Steady.contents : Contents (overLowers lower room) (Nat ⊕ N) where
  bytes := steady.held
  recorded := steady.recordedAt
  opened := steady.openedAt
  lookupReal layer d name := quiet_asks steady layer d
    (fun _ _ _ _ _ same => ⟨same, trivial⟩) fun _ _ _ l => Ends.any _ l
  getattr layer d := quiet_asks steady layer d
    (fun _ _ _ _ => Keeps.get.bind fun _ _ => by
      split
      · exact .pure trivial
      · exact .throw)
    fun _ _ _ l => Ends.any _ l
  doMkdir d name := quiet_changes steady UPPER d fun _ _ _ _ => Tmpfs.keeps_mkdir _
  doRmdir d name := quiet_changes steady UPPER d fun _ _ _ _ => Tmpfs.keeps_rmdir _
  doRename d name d' name' flag := by
    cases d' with
    | inl d' => exact quiet_changes steady UPPER d fun _ _ _ _ => Tmpfs.keeps_rename _ _ _
    | inr d' => exact quiet_throw steady
  setTimes d attr sized := quiet_changes steady UPPER d fun own _ _ _ => by
    unfold Tmpfs.notifyChange
    rw [sized]
    cases own.file with
    | some ino => exact .pure trivial
    | none => exact Tmpfs.keeps_setattr _ _
  setattrFile file attr _ := quiet_changes steady UPPER file fun own _ _ _ => by
    cases own with
    | file ino => exact .pure trivial
    | bytes bytes => exact .throw
    | directory => exact .throw
  openRealfile layer d how n recorded reading := openRealfile_quiet recorded reading
  opens d how n w recorded := by
    obtain ⟨own, ino, rfl, file, rfl⟩ := Steady.recordedAt_upper recorded
    exact Ends.of_eq (openRealfile_upper file how w) trivial
  readIter layer file n pos len opened held := readIter_reads pos len opened held
  doTmpfile d w := doTmpfile_fresh d w
  doLink d file name n opened := doLink_recorded d name opened
  writeIter file n pos data w opened := writeIter_writes pos data w opened
  resize d n attr len w recorded sized := notifyChange_resizes w recorded sized

/-! ### What they refuse -/

omit steady room in
/-- The lower Layers refuse to tell what a file is, or tell that it is none to copy up. -/
def Steady.StatRefused (steady : Steady lower N) (n : N) (e : FsError) : Prop :=
  ∃ layer d l, steady.recorded layer d = some n ∧
    ((∃ after, lower.getattr layer d l = .error e after) ∨
      ∃ stat after, lower.getattr layer d l = .ok stat after ∧ stat.fileType ≠ .regFile ∧
        e = .permissionDenied)

omit steady room in
/-- They refuse to open it to read. -/
def Steady.OpenRefused (steady : Steady lower N) (n : N) (e : FsError) : Prop :=
  ∃ layer d how l after, steady.recorded layer d = some n ∧
    (how.write = false ∧ how.truncate = false) ∧ lower.openRealfile layer d how l = .error e after

omit steady room in
/-- They refuse to read it. -/
def Steady.ReadRefused (steady : Steady lower N) (n : N) (e : FsError) : Prop :=
  ∃ layer file pos len l after, steady.opened layer file = some n ∧
    lower.readIter layer file pos len l = .error e after

omit steady in
/-- A Tmpfs has no room. -/
def Spent (e : FsError) : Prop := e = .storageFull ∧ ∃ asked, room asked = false

omit steady in
/-- A Tmpfs has no room for a file to grow, or none may grow so long. -/
def Full (held want : Nat) (e : FsError) : Prop :=
  (Spent room e ∧ held < want) ∨ (e = .invalidInput ∧ Tmpfs.offsetMax ≤ want)

omit steady room in
/-- A Tmpfs refuses a name in a directory that is gone, or that has the name. -/
def Tmpfs.Barred (t : Tmpfs) (dir : UpperDentry) (name : String) (e : FsError) : Prop :=
  (t.seenAt dir = none ∧ e = .notFound) ∨
    ((t.node (name :: dir.path)).isSome = true ∧ e = .alreadyExists)

omit steady room in
/-- The upper refuses a name in a directory, or what is none of its directories. -/
def Barred (w : Tmpfs × L) (d : UpperDentry ⊕ D) (name : String) (e : FsError) : Prop :=
  d.elim (fun own => w.1.Barred own name e) fun _ => e = .invalidInput

omit steady room in
/-- What is refused by name stands by what stands. -/
theorem Barred.congr {w after : Tmpfs × L} (same : after.1.node = w.1.node) :
    (Barred after : UpperDentry ⊕ D → String → FsError → Prop) = Barred w := by
  funext d name e
  cases d with
  | inl own => simp only [Barred, Sum.elim_inl, Tmpfs.Barred, Tmpfs.seenAt, same]
  | inr below => rfl

namespace Tmpfs

omit steady

/-- Room is refused for want of it only, and nothing moves. -/
theorem take_refused (t : Tmpfs) :
    Ends (take room) t (fun _ after => after.node = t.node) fun e _ => Spent room e := by
  unfold Ends take
  by_cases granted : room t.asked = true
  · rw [if_pos granted]
  · rw [if_neg granted]
    exact ⟨rfl, t.asked, by simpa using granted⟩

/-- A file with no name is refused for want of room only. -/
theorem tmpfile_refused (t : Tmpfs) :
    Ends (tmpfile room) t (fun _ after => after.node = t.node) fun e _ => Spent room e :=
  (take_refused room t).bind fun _ _ same => same

/-- A file grows unless there is no room for it to. -/
theorem grow_refused (ino len : Nat) (t : Tmpfs) :
    Ends (grow room ino len) t (fun _ after => after.node = t.node)
      fun e _ => Spent room e ∧ (t.bytes ino).length < len := by
  by_cases longer : (t.bytes ino).length < len
  · have asks : grow room ino len t = take room t := by rw [grow, if_pos longer]
    unfold Ends
    rw [asks, ← Ends]
    exact (take_refused room t).mono (fun _ _ same => same) fun _ _ spent => ⟨spent, longer⟩
  · unfold Ends grow
    rw [if_neg longer]

/-- A size is refused only where there is no room to grow. -/
theorem resize_refused (ino len : Nat) (t : Tmpfs) :
    Ends (resize room ino len) t (fun _ _ => True)
      fun e _ => Full room (t.bytes ino).length len e :=
  ((grow_refused room ino len t).mono (fun _ _ same => same) fun _ _ spent => .inl spent).bind
    fun _ _ _ => Ends.modify trivial

/-- A write takes something, unless there is no room to grow. -/
theorem write_refused (ino pos : Nat) (data : List UInt8) (t : Tmpfs) :
    Ends (write room ino pos data) t
      (fun count after => after.node = t.node ∧ (data ≠ [] → 0 < count))
      fun e _ => Full room (t.bytes ino).length (pos + data.length) e := by
  unfold write
  by_cases nothing : data = []
  · subst nothing
    rw [if_pos (by rfl)]
    exact Ends.pure ⟨rfl, fun some => absurd rfl some⟩
  · rw [if_neg (by simpa using nothing)]
    split
    · rename_i long
      exact Ends.throw (.inr ⟨rfl, long⟩)
    · exact ((grow_refused room ino _ t).mono (fun _ _ same => same) fun _ _ spent =>
        .inl spent).bind fun _ _ same => ⟨same, fun _ => List.length_pos_iff.mpr nothing⟩

/-- A file is named unless its directory has the name. -/
theorem link_refused (path : Path) (ino : Nat) (t : Tmpfs) :
    Ends (link path ino) t (fun _ _ => True)
      fun e _ => (t.node path).isSome = true ∧ e = .alreadyExists := by
  have may : Ends (mayCreate path) t (fun _ _ => True)
      fun e _ => (t.node path).isSome = true ∧ e = .alreadyExists := by
    unfold Ends mayCreate
    by_cases stands : (t.node path).isSome = true
    · rw [if_pos stands]
      exact ⟨stands, rfl⟩
    · rw [if_neg stands]
      trivial
  exact may.bind fun _ _ _ => trivial

/-- A directory is told of unless it is gone. -/
theorem getattr_refused (d : UpperDentry) (t : Tmpfs) :
    Ends (getattr d) t (fun _ after => after.node = t.node)
      fun e _ => t.seenAt d = none ∧ e = .notFound := by
  have got : (get : TmpfsM Tmpfs) t = .ok t t := rfl
  unfold getattr
  rw [Ends, bind_eq got, ← Ends]
  cases seen : t.seenAt d with
  | some seen => exact Ends.pure rfl
  | none => exact Ends.throw ⟨rfl, rfl⟩

end Tmpfs

omit steady in
/-- What a lower Layer is asked leaves the upper's names. -/
theorem barred_onLower {α : Type} {question : EStateM FsError L α} (w : Tmpfs × L)
    {ok : α → Prop} {failed : FsError → Prop}
    (ends : Ends question w.2 (fun a _ => ok a) fun e _ => failed e) :
    Ends (onLower question) w
      (fun a after => (Barred after : UpperDentry ⊕ D → _ → _ → Prop) = Barred w ∧ ok a)
      fun e _ => failed e :=
  (onLower_ends ends).mono (fun _ _ ended => ⟨Barred.congr (by rw [ended.1]), ended.2⟩)
    fun _ _ ended => ended.2

/-- The Layers refuse nothing else. -/
def Steady.refusals : Refusals (steady.contents room) where
  stats := Sum.elim (fun _ _ => False) steady.StatRefused
  opens := Sum.elim (fun _ _ => False) steady.OpenRefused
  reads := Sum.elim (fun _ _ => False) steady.ReadRefused
  spent := Spent room
  full := Full room
  barred := Barred
  getattrBelow layer d n w below recorded := by
    obtain ⟨index, own, m, rfl, rfl, known, rfl⟩ := Steady.recordedAt_lower below recorded
    refine barred_onLower w ((Ends.self _ w.2).mono ?_ ?_)
    · intro stat after told other
      exact ⟨index + 1, own, w.2, known, .inr ⟨stat, after, told, other, rfl⟩⟩
    · intro e after told
      exact ⟨index + 1, own, w.2, known, .inl ⟨after, told⟩⟩
  openBelow layer d how n w below recorded reading := by
    obtain ⟨index, own, m, rfl, rfl, known, rfl⟩ := Steady.recordedAt_lower below recorded
    have opens : Ends (Sum.inr <$> lower.openRealfile (index + 1) own how :
        EStateM FsError L (Handle ⊕ F)) w.2 (fun _ _ => True) fun e _ => steady.OpenRefused m e := by
      refine Ends.bind ((Ends.self (lower.openRealfile (index + 1) own how) w.2).mono
        (fun _ _ _ => trivial) ?_) fun _ _ _ => Ends.pure trivial
      exact fun e after told => ⟨index + 1, own, how, w.2, after, known, reading, told⟩
    exact (barred_onLower w opens).mono (fun _ _ ended => ended.1) fun _ _ refused => refused
  readIter layer file n pos len w opened := by
    cases layer with
    | zero =>
      obtain ⟨ino, rfl, rfl⟩ := Steady.openedAt_upper opened
      exact rfl
    | succ index =>
      obtain ⟨own, m, rfl, known, rfl⟩ := Steady.openedAt_lower opened
      have reads : Ends (lower.readIter (index + 1) own pos len) w.2 (fun _ _ => True)
          fun e _ => steady.ReadRefused m e := by
        refine (Ends.self _ w.2).mono (fun _ _ _ => trivial) ?_
        exact fun e after told => ⟨index + 1, own, pos, len, w.2, after, known, told⟩
      exact (barred_onLower w reads).mono (fun _ _ ended => ended.1)
        fun _ _ refused => ⟨Nat.succ_ne_zero index, refused⟩
  openUpper d how n w recorded := by
    obtain ⟨own, ino, rfl, file, rfl⟩ := Steady.recordedAt_upper recorded
    exact Ends.of_eq (openRealfile_upper file how w) rfl
  doTmpfile d name w := by
    cases d with
    | inr below => exact Ends.throw (.inr rfl)
    | inl own =>
      have made : Ends (do pure (.inl (.file (← Tmpfs.tmpfile room))) : TmpfsM (Handle ⊕ F)) w.1
          (fun _ after => after.node = w.1.node) fun e _ => Spent room e :=
        (Tmpfs.tmpfile_refused room w.1).bind fun _ _ same => Ends.pure same
      exact (onTmpfs_ends made).mono (fun _ _ same => Barred.congr same) fun _ _ spent => .inl spent
  writeIter file n pos data w opened := by
    obtain ⟨ino, rfl, rfl⟩ := Steady.openedAt_upper opened
    exact (onTmpfs_ends (Tmpfs.write_refused room ino pos data w.1)).mono
      (fun _ _ ended => ⟨Barred.congr ended.1, ended.2⟩) fun _ _ full => full
  setattrFile file n attr w opened := by
    obtain ⟨ino, rfl, rfl⟩ := Steady.openedAt_upper opened
    exact rfl
  getattr d name w := by
    cases d with
    | inr below => exact Ends.throw rfl
    | inl own =>
      exact (onTmpfs_ends (Tmpfs.getattr_refused own w.1)).mono
        (fun _ _ same => Barred.congr same) fun _ _ gone => .inl gone
  doLink d file name n w opened := by
    obtain ⟨ino, rfl, rfl⟩ := Steady.openedAt_upper opened
    cases d with
    | inr below => exact Ends.throw rfl
    | inl own =>
      have linked : Ends (Sum.inl <$> Tmpfs.linkAt own name (.file ino) :
          TmpfsM (UpperDentry ⊕ D)) w.1 (fun _ _ => True)
          fun e _ => (w.1.node (name :: own.path)).isSome = true ∧ e = .alreadyExists := by
        have named : Ends (Tmpfs.linkAt own name (.file ino)) w.1 (fun _ _ => True)
            fun e _ => (w.1.node (name :: own.path)).isSome = true ∧ e = .alreadyExists :=
          (Tmpfs.link_refused _ ino w.1).bind fun _ _ _ => Ends.pure trivial
        exact named.bind fun _ _ _ => Ends.pure trivial
      exact (onTmpfs_ends linked).mono (fun _ _ _ => trivial) fun _ _ taken => .inr taken
  resize d n attr len w recorded sized := by
    obtain ⟨own, ino, rfl, file, rfl⟩ := Steady.recordedAt_upper recorded
    have asked : Tmpfs.notifyChange room own attr = Tmpfs.resize room ino len := by
      unfold Tmpfs.notifyChange
      rw [file, sized]
    have resized : Ends (Tmpfs.notifyChange room own attr) w.1 (fun _ _ => True)
        fun e _ => Full room (w.1.bytes ino).length len e := by
      rw [asked]
      exact Tmpfs.resize_refused room ino len w.1
    exact onTmpfs_ends resized

/-- The length an open file has, as `write_iter` reads it where it appends. -/
def sizeOf (w : Tmpfs × L) : Nat → Handle ⊕ F → Nat
  | 0, .inl (.file ino) => (w.1.bytes ino).length
  | _, _ => 0

theorem sizeOf_opened (w : Tmpfs × L) (file : Handle ⊕ F) (n : Nat ⊕ N)
    (opened : (steady.contents room).opened UPPER file = some n) :
    sizeOf w UPPER file = ((steady.contents room).bytes w n).length := by
  obtain ⟨ino, rfl, rfl⟩ := Steady.openedAt_upper opened
  rfl

end Contents

variable [DecidableEq V] [DecidableEq D]

/-- Whatever handles of a lower Layer's file are opened, before and after it is copied up and by
whatever names, and whatever is read, written and truncated through them: an open that succeeds
hands a handle out, and every read through one answers what one array they all share would hold,
from what the lower Layer's file holds at first. A read fails only where the lower Layer refuses it
before the file is copied up, a write through a handle opened to write only for want of room, and an
open or a truncation only where the directory it changes cannot be made in the upper, or the file
cannot be read below or copied up. And a whole copy leaves its target equal to its source, however
little each read and write takes. -/
theorem handles_share_one_array (steady : Steady lower N) (room : Nat → Bool)
    (fs : OverlayFs (UpperDentry ⊕ D)) (upper : fs.HasUpper)
    (s : Session (Tmpfs × L) (UpperDentry ⊕ D) (Handle ⊕ F) V) (placed : UpperPlaced s.inodes)
    (unopened : s.files = []) (v : V) {index : Nat} {d : D} {n : N}
    (kept : realAt s.inodes v = some ⟨index + 1, .inr d⟩)
    (recorded : steady.recorded (index + 1) d = some n) (uses : List (Use V)) :
    AsOneArray ((steady.refusals room).Accounts fs (.inr n)) ⟨steady.bytes n, [], false⟩
      (serve (overLowers lower room) fs v sizeOf s uses) ∧
    ∀ {W D F : Type} (layers : Layers W D F) (source target : Nat × F)
      (bytes copied : W → List UInt8) (refused : List UInt8 → FsError → Prop),
      ShortFiles layers source target bytes copied refused →
      ∀ (s : Session W D F V) (rounds : Nat), copied s.world = [] →
        (bytes s.world).length < rounds →
        Ends (copyWhole layers source target rounds 0 0) s
          (fun _ after => copied after.world = bytes s.world)
          fun error _ => refused (bytes s.world) error := by
  constructor
  · have shares : Shares (steady.contents room) v (.inr n) false (steady.bytes n) s.files s := by
      refine ⟨⟨index + 1, .inr d⟩, .inr n, kept, ?_, rfl, ?_, placed, fun _ => rfl, ?_⟩
      · show (steady.recorded (index + 1) d).map Sum.inr = some (.inr n)
        rw [recorded]
        rfl
      · intro file member
        rw [unopened] at member
        cases member
      · intro never
        cases never
    have handed : Handed [] s.files := by
      rw [unopened]
      exact ⟨rfl, fun _ _ _ opened => by cases opened⟩
    exact serve_asOneArray (steady.refusals room) fs upper (sizeOf_opened room steady) uses s
      ⟨steady.bytes n, [], false⟩ ⟨shares, handed⟩
  · intro W D F layers source target bytes copied refused files s rounds fresh enough
    exact (copyWhole_copies files fresh (.inr enough)).mono (fun _ _ ended => ended.2.1)
      fun _ _ ended => ended.2.1

/-! ## A file of three bytes -/

/-- A lower Layer of one file, read two bytes at most at a time. -/
def oneFile (bytes : List UInt8) : Layers Unit Unit Unit where
  kind _ _ _ := some .regFile
  name _ _ _ := "f"
  identity _ _ _ := some ⟨1, 1⟩
  tmpfs _ _ _ := false
  whiteoutAt _ _ _ _ := false
  opaqueDir _ _ _ := false
  matchesReal _ _ _ _ _ := true
  goesWhenUnused _ _ _ := false
  lookupReal _ _ _ := pure ()
  getattr _ _ := pure ⟨.regFile, 1, 1, 1, none, none⟩
  getLink _ _ := throw .invalidInput
  revalidate _ _ := pure true
  openRealfile _ _ _ := pure ()
  entries _ _ := throw .notADirectory
  readIter _ _ pos len := pure ((bytes.drop pos).take (min len 2))
  fsync _ _ := pure ()
  flush _ _ := pure ()
  doMkdir _ _ _ := throw .readOnlyFilesystem
  doCreate _ _ _ := throw .readOnlyFilesystem
  doRmdir _ _ _ := throw .readOnlyFilesystem
  doUnlink _ _ _ := throw .readOnlyFilesystem
  doRename _ _ _ _ _ _ _ := throw .readOnlyFilesystem
  doWhiteout _ _ _ := throw .readOnlyFilesystem
  doTmpfile _ _ := throw .readOnlyFilesystem
  doLink _ _ _ _ := throw .readOnlyFilesystem
  setOpaque _ _ := throw .readOnlyFilesystem
  notifyChange _ _ _ := throw .readOnlyFilesystem
  setattrFile _ _ _ := throw .readOnlyFilesystem
  writeIter _ _ _ _ := throw .readOnlyFilesystem
  fallocate _ _ _ _ := throw .readOnlyFilesystem

/-- The file of a Layer of one holds its bytes. -/
def oneFileSteady (bytes : List UInt8) : Steady (oneFile bytes) Unit where
  bytes _ := bytes
  recorded _ _ := some ()
  opened _ _ := some ()
  opens _ _ _ _ _ _ _ _ := rfl
  reads _ _ _ pos len l _ := by
    have short := readsFrom_take bytes pos (min len 2)
    refine ⟨short.stands, ?_, ?_⟩
    · have within := short.within
      omega
    · intro nothing
      have left := short.left nothing
      omega

/-- An Overlay of an empty upper over it, mounted. -/
def oneFileFs : OverlayFs (UpperDentry ⊕ Unit) :=
  ⟨[some ⟨0, .inl ⟨["upper"], none⟩⟩, some ⟨1, .inr ()⟩], some ⟨0, .inl ⟨["work"], none⟩⟩, 8⟩

/-- The upper as it is mounted. -/
def mountedTmpfs : Tmpfs :=
  ((Tmpfs.empty.put ["upper"] (some (.directory 2 false))).numbered.put ["work"]
    (some (.directory 3 false))).numbered

/-- The view with the file found in its root. -/
def oneFileView : Session (Tmpfs × Unit) (UpperDentry ⊕ Unit) (Handle ⊕ Unit) Nat :=
  ⟨(mountedTmpfs, ()), fun v => if v = 0 then some ⟨none, .dir oneFileFs.roots⟩
    else if v = 1 then some ⟨none, .file ⟨1, .inr ()⟩⟩ else none, 0, []⟩

/-- Two handles of the file, one opened to read and one to write: what the second writes the first
then reads. -/
theorem handles_share_one_array_three :
    let served := serve (overLowers (oneFile [1, 2, 3]) fun _ => true) oneFileFs 1 sizeOf
      oneFileView [.opens "f" [(0, "")] readOnly, .opens "f" [(0, "")] { readOnly with write := true },
        .write 1 1 [9], .read 0 0 8]
    served.map (fun served => served.2.2) = [.done, .done, .wrote 1, .bytes [1, 9, 3]] ∧
      AsOneArray (((oneFileSteady [1, 2, 3]).refusals fun _ => true).Accounts oneFileFs (.inr ()))
        ⟨[1, 2, 3], [], false⟩ served := by
  have upper : oneFileFs.HasUpper := ⟨_, rfl, rfl⟩
  have placed : UpperPlaced oneFileView.inodes := by
    intro u level held known shown
    by_cases root : u = 0
    · subst root
      cases known
      cases shown
      rfl
    · by_cases file : u = 1
      · subst file
        cases known
      · simp [levelAt, oneFileView, root, file] at known
  have kept : realAt oneFileView.inodes 1 = some ⟨0 + 1, .inr ()⟩ := rfl
  refine ⟨by decide +kernel, ?_⟩
  exact (handles_share_one_array (oneFileSteady [1, 2, 3]) (fun _ => true) oneFileFs upper
    oneFileView placed rfl 1 kept rfl _).1

end Kobako.Overlay
