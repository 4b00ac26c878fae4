import Kobako.Overlay.CopyUp

/-!
# Coherent handles

Every handle of one file of the view reads and writes one array of bytes. The file's inode keeps
where its data is, a lower Layer's dentry and then the copy's; a handle is of the file kept now, or
was opened on the lower Layer's and looks where the data is before it reads.
-/

namespace Kobako.Overlay

open Vfs

variable {W D F V N : Type} {layers : Layers W D F} (c : Contents layers N) (v : V) (first : N)
  (copied : Bool)

/-! ## What is kept -/

/-- Whether a handle reaches the file `n` that `real` names: the upper's file, or a lower Layer's
that is that file while none is copied up. -/
def Reaches (real : OverlayPath D) (n : N) : OpenFile D F V → Prop
  | .real layer file => real.layer = UPPER ∧ layer = UPPER ∧ c.opened UPPER file = some n
  | .lower _ _ inode (some (layer, file)) =>
    inode = v ∧ real.layer = UPPER ∧ layer = UPPER ∧ c.opened UPPER file = some n
  | .lower file before inode none =>
    inode = v ∧ before.layer ≠ UPPER ∧
      (real.layer ≠ UPPER → before = real ∧ c.opened real.layer file = some n)
  | .dir => False

/-- The file at `v` is `n`, kept as `real`, it holds `array`, and every one of `files` reaches it.
Until it is copied up it is `first`, a lower Layer's. -/
structure Holds (array : List UInt8) (files : List (OpenFile D F V)) (real : OverlayPath D) (n : N)
    (s : Session W D F V) : Prop where
  /-- The file's inode keeps where its data is. -/
  kept : realAt s.inodes v = some real
  /-- There the file is recorded. -/
  recorded : c.recorded real.layer real.dentry = some n
  /-- It holds the array. -/
  bytes : c.bytes s.world n = array
  /-- Every handle reaches it. -/
  files : ∀ file ∈ files, Reaches c v real n file
  /-- The upper's own is kept at `UPPER`. -/
  placed : UpperPlaced s.inodes
  /-- It is the lower Layer's first. -/
  origin : real.layer ≠ UPPER → n = first
  /-- It is the upper's once it is known to be copied up. -/
  settled : copied = true → real.layer = UPPER

/-- Some file is the one at `v`, and `files` share `array` through it. -/
def Shares (array : List UInt8) (files : List (OpenFile D F V)) (s : Session W D F V) : Prop :=
  ∃ real n, Holds c v first copied array files real n s

variable {c v first copied} {fs : OverlayFs D} {s after : Session W D F V} {array : List UInt8}
  {files : List (OpenFile D F V)} {real : OverlayPath D} {n : N}

section

variable (holds : Holds c v first copied array files real n s)

include holds

/-- What is still shares the same array. -/
theorem Holds.still (still : Still c s after) :
    Holds c v first copied array files real n after where
  kept := still.kept v real holds.kept
  recorded := holds.recorded
  bytes := (congrFun still.bytes n).trans holds.bytes
  files := holds.files
  placed := still.placed
  origin := holds.origin
  settled := holds.settled

theorem Holds.aside (aside : Aside c s after) :
    Holds c v first copied array files real n after :=
  holds.still (aside.still holds.placed)

theorem Holds.intact (intact : Intact c n s after) :
    Holds c v first copied array files real n after where
  kept := intact.inodes ▸ holds.kept
  recorded := holds.recorded
  bytes := intact.bytes.trans holds.bytes
  files := holds.files
  placed := intact.inodes ▸ holds.placed
  origin := holds.origin
  settled := holds.settled

/-- The file holds something else, and nothing the view keeps changed. -/
theorem Holds.changed (world : OnlyWorld s after) {now : List UInt8}
    (bytes : c.bytes after.world n = now) :
    Holds c v first copied now files real n after := by
  have inodes : after.inodes = s.inodes := by rw [world]
  exact ⟨inodes ▸ holds.kept, holds.recorded, bytes, holds.files, inodes ▸ holds.placed,
    holds.origin, holds.settled⟩

/-- A file that is the upper's was copied up. -/
theorem Holds.settle {now : Bool} (isUpper : real.layer = UPPER) :
    Holds c v first now array files real n s :=
  { holds with settled := fun _ => isUpper }

omit holds in
/-- Less may be known of whether the file was copied up. -/
theorem Holds.unsettle {now : Bool} (holds : Holds c v first now array files real n s)
    (less : copied = true → now = true) : Holds c v first copied array files real n s :=
  { holds with settled := fun known => holds.settled (less known) }

/-- Handles that reached a lower Layer's file reach its copy. -/
theorem Holds.landed (lower : real.layer ≠ UPPER) {real' : OverlayPath D} {m : N}
    (landed : Landed c v real' m s after) {now : List UInt8} (bytes : c.bytes after.world m = now) :
    Holds c v first copied now files real' m after where
  kept := landed.kept
  recorded := landed.upper.symm ▸ landed.recorded
  bytes := bytes
  files := by
    intro file member
    have reached := holds.files file member
    cases file with
    | real layer file => exact absurd reached.1 lower
    | dir => exact reached
    | lower file before inode upper =>
      cases upper with
      | some found => exact absurd reached.2.1 lower
      | none => exact ⟨reached.1, reached.2.1, fun not => absurd landed.upper not⟩
  placed := by
    intro u level held known shown
    rw [landed.levels] at known
    exact holds.placed u level held known shown
  origin not := absurd landed.upper not
  settled _ := landed.upper

/-- The file's inode answers what it keeps. -/
theorem Holds.realOf (name : String) (above : ViewDentry V) (error : FsError) :
    realOf ((v, name) :: above) error s = .ok real s := by
  obtain ⟨inode, recorded, kept⟩ := realAt_eq_some.mp holds.kept
  have found : inodeOf ((v, name) :: above) s = .ok inode s := by simp [inodeOf, recorded]
  unfold Overlay.realOf
  rw [bind_eq found, kept]
  rfl

end

/-! ## Copying up -/

section CopyUp

variable [DecidableEq V] (name : String) (above : ViewDentry V)

/-- A file that is the upper's, in a directory the upper holds, is emptied without fail. -/
theorem setattrFile_empties (upper : fs.HasUpper)
    (holds : Holds c v first copied array files real n s) (isUpper : real.layer = UPPER)
    {path : OverlayPath D} (held : UpperAt s.inodes above path) :
    Ends (setattrFile layers fs ((v, name) :: above) Iattr.openTruncate) s
      (fun _ after => after.files = s.files ∧ Shares c v first true [] files after)
      fun _ _ => False := by
  have copied : copyUpFile layers fs above ((v, name) :: above) false s = .ok () s := by
    unfold copyUpFile
    rw [bind_eq (upperDir_eq held), bind_eq (holds.realOf name above .notFound),
      if_pos ((isInUpper_iff upper real).mpr isUpper)]
    rfl
  unfold setattrFile
  rw [Ends, List.tail_cons, bind_eq copied, bind_eq (holds.realOf name above .notFound), ← Ends]
  unfold OverlayPath.notifyChange
  have recorded := holds.recorded
  rw [isUpper] at recorded ⊢
  apply (ask_ends (c.resize real.dentry n _ 0 s.world recorded rfl)).mono
  · rintro _ after ⟨world, _, bytes⟩
    refine ⟨by rw [world], real, n, Holds.settle (holds.changed world ?_) isUpper⟩
    rw [bytes]
    simp [Tmpfs.resized]
  · rintro _ after ⟨_, _, longer⟩
    omega

/-! ## Opening -/

/-- Whether a handle is of the upper's file itself. -/
def IsReal : OpenFile D F V → Prop
  | .real _ _ => True
  | _ => False

/-- What an open of the file leaves: a handle that shares what the others share, or, where a copy up
was about to be emptied, one that shares nothing with them, in a directory the upper holds. -/
def Opened (c : Contents layers N) (v : V) (first : N) (copied : Bool) (array : List UInt8)
    (above : ViewDentry V) (how : OpenHow) (s : Session W D F V) (file : OpenFile D F V)
    (after : Session W D F V) : Prop :=
  after.files = s.files ∧ (forChange how = true → IsReal file) ∧
    ∃ real n now, Holds c v first (copied || forChange how) now (s.files ++ [file]) real n after ∧
      (now = array ∨ how.truncate = true ∧ now = [] ∧ real.layer = UPPER ∧
        ∃ path, UpperAt after.inodes above path)

omit [DecidableEq V] in
/-- A handle that reaches the file joins the others. -/
theorem Holds.join (holds : Holds c v first copied array files real n s) {file : OpenFile D F V}
    (reached : Reaches c v real n file) : Holds c v first copied array (files ++ [file]) real n s :=
  { holds with
    files := by
      intro one member
      rw [List.mem_append, List.mem_singleton] at member
      cases member with
      | inl old => exact holds.files one old
      | inr new => exact new ▸ reached }

omit [DecidableEq V] in
/-- The upper's file opens as a handle that reaches it. -/
theorem openUpper_opened (holds : Holds c v first copied array files real n s)
    (isUpper : real.layer = UPPER) (how : OpenHow) :
    Ends (real.openRealfile layers how : Ovl W D F V F) s
      (fun file after => Aside c s after ∧ Reaches c v real n (.real real.layer file))
      fun _ _ => False := by
  have recorded := holds.recorded
  unfold OverlayPath.openRealfile
  rw [isUpper] at recorded ⊢
  have asked := (keeps_quiet (c.openRealfile UPPER real.dentry how n recorded (.inl rfl)) s
    (.refl c s)).and (ask_ends (c.opens real.dentry how n s.world recorded))
  apply asked.mono
  · intro file after ⟨⟨aside, opened⟩, _⟩
    exact ⟨aside, isUpper, rfl, opened⟩
  · intro _ _ ⟨_, _, never⟩
    exact never

end CopyUp

/-! ## Reading and writing -/

/-- The handles are as they were opened, one opened to change the file the upper's itself. -/
structure Handed (handles : List OpenHow) (files : List (OpenFile D F V)) : Prop where
  /-- Each was handed out. -/
  length : files.length = handles.length
  /-- One opened to change the file is the upper's. -/
  isReal : ∀ (fd : Nat) how file, handles[fd]? = some how → files[fd]? = some file →
    forChange how = true → IsReal file

section Handed

variable {handles : List OpenHow}

/-- One more is handed out. -/
theorem Handed.join (handed : Handed handles files) {how : OpenHow} {file : OpenFile D F V}
    (isReal : forChange how = true → IsReal file) :
    Handed (handles ++ [how]) (files ++ [file]) where
  length := by rw [List.length_append, List.length_append, handed.length]; rfl
  isReal fd how' file' opened found change := by
    by_cases old : fd < handles.length
    · rw [List.getElem?_append_left old] at opened
      rw [List.getElem?_append_left (handed.length ▸ old)] at found
      exact handed.isReal fd how' file' opened found change
    · rw [List.getElem?_append_right (by omega), List.getElem?_singleton] at opened
      rw [List.getElem?_append_right (by rw [handed.length]; omega), List.getElem?_singleton,
        handed.length] at found
      by_cases last : fd - handles.length = 0
      · rw [if_pos last] at opened found
        cases opened
        cases found
        exact isReal change
      · rw [if_neg last] at opened
        cases opened

/-- A handle that is not the upper's file looks where the data is. -/
theorem Handed.set (handed : Handed handles files) {fd : Nat} {file : OpenFile D F V}
    (found : files[fd]? = some file) (lower : ¬IsReal file) (now : OpenFile D F V) :
    Handed handles (files.set fd now) where
  length := by rw [List.length_set, handed.length]
  isReal other how file' opened stands change := by
    by_cases same : fd = other
    · subst same
      exact absurd (handed.isReal fd how file opened found change) lower
    · rw [List.getElem?_set_ne same] at stands
      exact handed.isReal other how file' opened stands change

/-- What was handed out has a number below how many were. -/
theorem Handed.lt (handed : Handed handles files) {fd : Nat} {file : OpenFile D F V}
    (found : files[fd]? = some file) : fd < handles.length := by
  obtain ⟨inside, -⟩ := List.getElem?_eq_some_iff.mp found
  rw [← handed.length]
  exact inside

end Handed

section Handle

variable [DecidableEq D] {handles : List OpenHow}

/-- The file holding the data now is the one at `v`, and the handle still reaches it. -/
theorem realFile_reaches (holds : Holds c v first copied array files real n s) {file : F}
    {before : OverlayPath D} {inode : V} {found : Option (Nat × F)}
    (reached : Reaches c v real n (.lower file before inode found)) :
    Ends (realFile layers file before inode found) s
      (fun answer after => Aside c s after ∧ answer.1.1 = real.layer ∧
        c.opened answer.1.1 answer.1.2 = some n ∧ Reaches c v real n answer.2)
      fun _ _ => False := by
  unfold realFile
  cases found with
  | some already =>
    obtain ⟨-, kept, isUpper, opened⟩ := id reached
    exact Ends.pure ⟨.refl c s, isUpper.trans kept.symm, isUpper ▸ opened, reached⟩
  | none =>
    obtain ⟨rfl, below, same⟩ := id reached
    dsimp only
    rw [Ends, bind_eq (holds.realOf "" [] .notFound), ← Ends]
    split
    · rename_i same'
      subst same'
      exact Ends.pure ⟨.refl c s, rfl, (same below).2, reached⟩
    · rename_i moved
      have isUpper : real.layer = UPPER := by
        by_contra lower
        exact moved (same lower).1.symm
      refine (openUpper_opened holds isUpper readOnly).bind
        fun opened after ⟨aside, ⟨_, _, reaches⟩⟩ => ?_
      rw [isUpper]
      exact Ends.pure ⟨aside, rfl, reaches, rfl, isUpper, rfl, reaches⟩

end Handle

end Kobako.Overlay
