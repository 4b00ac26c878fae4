import Kobako.Overlay.Contents

/-!
# Copying up keeps bytes

What a copy up leaves of the bytes of files and of what the view keeps. Making a directory the upper
lacks changes no file and no inode of one; the upper then holds every directory on the way. A file
copied up keeps, in the upper, the bytes it had below, or none where it is about to be emptied.
-/

namespace Kobako.Overlay

open Vfs

variable {W D F V N : Type} {layers : Layers W D F} (c : Contents layers N)

/-! ## Questions -/

/-- A session no question changed but for what holds no bytes. -/
structure Aside (s after : Session W D F V) : Prop where
  /-- Every file holds what it held. -/
  bytes : c.bytes after.world = c.bytes s.world
  /-- The same files are open. -/
  files : after.files = s.files
  /-- Every inode keeps what it kept. -/
  inodes : after.inodes = s.inodes

theorem Aside.refl (s : Session W D F V) : Aside c s s := ⟨rfl, rfl, rfl⟩

variable {c}

variable {fs : OverlayFs D} {s : Session W D F V}

/-- A question that leaves every file is asked aside. -/
theorem keeps_quiet {α : Type} {question : EStateM FsError W α} {answers : α → Prop}
    (quiet : Quiet c.bytes question answers) :
    Keeps (Aside c s) (ask question : Ovl W D F V α) answers := by
  intro now aside
  have ends := quiet (c.bytes s.world) now.world aside.bytes
  unfold Ends at ends ⊢
  unfold ask
  cases ended : question now.world with
  | ok a world =>
    rw [ended] at ends
    exact ⟨⟨ends.1, aside.files, aside.inodes⟩, ends.2⟩
  | error e world =>
    rw [ended] at ends
    exact ⟨ends, aside.files, aside.inodes⟩

theorem aside_look {α : Type} (read : W → α) :
    Keeps (Aside c s) (look read : Ovl W D F V α) fun _ => True :=
  fun _ aside => ⟨aside, trivial⟩

theorem aside_openDir (path : OverlayPath D) (name : String) :
    Keeps (Aside c s) (path.openDir layers name : Ovl W D F V (OverlayPath D))
      fun inner => inner.layer = path.layer := by
  refine (keeps_quiet (c.lookupReal _ _ _)).bind fun dentry _ => (aside_look _).bind fun kind _ => ?_
  split
  · exact .throw
  · exact .pure rfl
  · exact .throw
  · exact .throw

theorem aside_tempname (upper : fs.HasUpper) :
    Keeps (Aside c s) (tempname fs : Ovl W D F V (OverlayPath D × String))
      fun work => work.1.layer = UPPER := by
  obtain ⟨work, held, layer⟩ := upper.work
  intro now aside
  unfold Ends tempname
  rw [held]
  exact ⟨⟨aside.bytes, aside.files, aside.inodes⟩, layer⟩

section Upper

variable {path : OverlayPath D} (held : path.layer = UPPER)

include held

theorem aside_setTimestamps (stat : Kstat) :
    Keeps (Aside c s) (path.setTimestamps layers stat : Ovl W D F V Unit) fun _ => True := by
  unfold OverlayPath.setTimestamps OverlayPath.notifyChange
  rw [held]
  exact keeps_quiet (c.setTimes _ _ rfl)

theorem aside_doMkdir (name : String) :
    Keeps (Aside c s) (path.doMkdir layers name : Ovl W D F V Unit) fun _ => True := by
  unfold OverlayPath.doMkdir
  rw [held]
  exact keeps_quiet (c.doMkdir _ _)

theorem aside_doRmdir (name : String) :
    Keeps (Aside c s) (path.doRmdir layers name : Ovl W D F V Unit) fun _ => True := by
  unfold OverlayPath.doRmdir
  rw [held]
  exact keeps_quiet (c.doRmdir _ _)

theorem aside_doRename {target : OverlayPath D} (beneath : target.layer = UPPER)
    (name toName : String) (flag : Option RenameFlag) :
    Keeps (Aside c s) (path.doRename layers name target toName flag : Ovl W D F V Unit)
      fun _ => True := by
  unfold OverlayPath.doRename
  rw [held, beneath]
  exact keeps_quiet (c.doRename _ _ _ _ _)

end Upper

/-! ## Directories -/

/-- What a file of the view keeps. -/
def realAt (inodes : V → Option (ViewInode D)) (v : V) : Option (OverlayPath D) :=
  (inodes v).bind fun inode =>
    match inode.kept with
    | .file real => some real
    | .dir _ => none

theorem realAt_eq_some {inodes : V → Option (ViewInode D)} {v : V} {real : OverlayPath D} :
    realAt inodes v = some real ↔ ∃ inode, inodes v = some inode ∧ inode.kept = .file real := by
  unfold realAt
  rw [Option.bind_eq_some_iff]
  refine exists_congr fun inode => and_congr_right fun _ => ?_
  cases inode.kept with
  | dir level => simp
  | file own => simp

/-- Every directory of the view keeps the upper's own at `UPPER`. -/
def UpperPlaced (inodes : V → Option (ViewInode D)) : Prop :=
  ∀ u level held, levelAt inodes u = some level → upperOf level = some held → held.layer = UPPER

/-- The upper holds a directory of the view as `path`. -/
def UpperAt (inodes : V → Option (ViewInode D)) (dir : ViewDentry V) (path : OverlayPath D) :
    Prop :=
  ∃ own ∈ dir.head?, ∃ level, levelAt inodes own.1 = some level ∧ upperOf level = some path

variable (c)

/-- A session in which directories of the view may have come to stand in the upper, and nothing
else changed that holds bytes. -/
structure Still (s after : Session W D F V) : Prop where
  /-- Every file holds what it held. -/
  bytes : c.bytes after.world = c.bytes s.world
  /-- The same files are open. -/
  files : after.files = s.files
  /-- Every file of the view is kept as it was. -/
  kept : ∀ u real, realAt s.inodes u = some real → realAt after.inodes u = some real
  /-- The upper's own is kept at `UPPER`. -/
  placed : UpperPlaced after.inodes

variable {c}

theorem Still.trans {next after : Session W D F V} (one : Still c s next)
    (two : Still c next after) : Still c s after :=
  ⟨two.bytes.trans one.bytes, two.files.trans one.files,
    fun u real held => two.kept u real (one.kept u real held), two.placed⟩

/-- What is asked aside leaves everything still. -/
theorem Aside.still {after : Session W D F V} (aside : Aside c s after)
    (placed : UpperPlaced s.inodes) : Still c s after := by
  refine ⟨aside.bytes, aside.files, ?_, ?_⟩
  · intro u real held
    rw [aside.inodes]
    exact held
  · rw [aside.inodes]
    exact placed

section CopyUp

variable [DecidableEq V]

/-- What an inode keeps once the upper holds a directory. -/
def keepUpper (made : OverlayPath D) : Kept D → Kept D
  | .dir level => .dir (level.set UPPER (some made))
  | .file real => .file real

/-- A directory recorded as the upper's leaves everything still. -/
theorem Aside.updated {after : Session W D F V} (aside : Aside c s after)
    (placed : UpperPlaced s.inodes) (v : V) {made : OverlayPath D} (held : made.layer = UPPER) :
    Still c s (after.keep v (keepUpper made)) := by
  refine ⟨aside.bytes, aside.files, ?_, ?_⟩
  · intro u real known
    rw [← aside.inodes] at known
    obtain ⟨inode, recorded, kept⟩ := realAt_eq_some.mp known
    by_cases same : u = v
    · subst same
      refine realAt_eq_some.mpr ⟨{ inode with kept := keepUpper made inode.kept }, ?_, ?_⟩
      · simp [Session.keep, recorded]
      · rw [kept, keepUpper]
    · exact realAt_eq_some.mpr ⟨inode, by simp [Session.keep, same, recorded], kept⟩
  · intro u level upper known shown
    by_cases same : u = v
    · subst same
      obtain ⟨inode, recorded, kept⟩ := levelAt_eq_some.mp known
      simp only [Session.keep, if_pos] at recorded
      obtain ⟨before, recordedBefore, rfl⟩ := Option.map_eq_some_iff.mp recorded
      cases was : before.kept with
      | file real => simp [was, keepUpper] at kept
      | dir old =>
        have now : old.set UPPER (some made) = level := by simpa [was, keepUpper] using kept
        subst now
        cases old with
        | nil => simp [upperOf] at shown
        | cons first rest =>
          have made_eq : made = upper := by simpa [upperOf, UPPER] using shown
          exact made_eq ▸ held
    · rw [levelAt_keep_ne same, aside.inodes] at known
      exact placed u level upper known shown

/-- What was made in the workdir is moved beneath a parent of the upper's and recorded, or taken
away again. -/
theorem landDir_ends {own : V × String} {above : ViewDentry V} {parent work : OverlayPath D}
    (held : parent.layer = UPPER) (works : work.layer = UPPER) (temp : String)
    (made : Except FsError Unit) {now : Session W D F V} (aside : Aside c s now) :
    Ends (landDir layers (own :: above) parent work temp made) now
      (fun made after => made.layer = UPPER ∧ ∃ last, Aside c s last ∧
        after = last.keep own.1 (keepUpper made))
      fun _ after => Aside c s after := by
  have move : Keeps (Aside c s) (do
      ofExcept made
      work.doRename layers temp parent (nameOf (own :: above)) (some .noReplace) :
        Ovl W D F V Unit) fun _ => True := by
    cases made with
    | error error => exact .throw
    | ok done => exact aside_doRename works held temp _ _
  refine (keeps_quiet (c.getattr _ _) now aside).bind fun times _ ⟨aside, _⟩ =>
    (move.tried _ aside).bind fun moved _ ⟨aside, _⟩ => ?_
  split
  · exact ((aside_doRmdir works temp).tried _ aside).bind fun _ _ ⟨aside, _⟩ => Ends.throw aside
  · refine ((aside_setTimestamps held times).tried _ aside).bind fun _ _ ⟨aside, _⟩ =>
      (aside_openDir parent _ _ aside).bind fun made last ⟨aside, beneath⟩ => ?_
    exact ⟨beneath.trans held, last, aside, rfl⟩

/-- A directory copied up is the upper's, and everything else is still. -/
theorem copyUpDir_ends (upper : fs.HasUpper) (dir : ViewDentry V) {parent : OverlayPath D}
    (held : parent.layer = UPPER) (placed : UpperPlaced s.inodes) :
    Ends (copyUpDir layers fs dir parent) s
      (fun made after => Still c s after ∧ made.layer = UPPER ∧ UpperAt after.inodes dir made)
      fun _ after => Still c s after := by
  refine ((levelOf_ends s dir).mono (fun _ _ ended => ended)
    fun _ _ same => same ▸ (Aside.refl c s).still placed).bind
    fun level now ⟨same, own, first, kept⟩ => ?_
  subst same
  split
  · rename_i already shown
    exact Ends.pure ⟨(Aside.refl c _).still placed, placed _ _ _ kept shown, own, first, level,
      kept, shown⟩
  · rename_i none
    cases dir with
    | nil => simp at first
    | cons head above =>
      obtain rfl : head = own := by simpa using first
      have shows : Ends (okOr (level.filterMap id).head? .notFound) now
          (fun _ after => after = now ∧ level ≠ []) fun _ after => after = now := by
        cases level with
        | nil => rfl
        | cons one rest =>
          unfold okOr
          split
          · exact Ends.pure ⟨rfl, List.cons_ne_nil _ _⟩
          · exact Ends.throw rfl
      refine (shows.mono (fun _ _ ended => ended)
        fun _ _ same => same ▸ (Aside.refl c now).still placed).bind
        fun shown next ⟨same, filled⟩ => ?_
      subst same
      have fails : ∀ (_ : FsError) (after : Session W D F V), Aside c next after →
          Still c next after := fun _ _ aside => aside.still placed
      refine ((keeps_quiet (c.getattr _ _) next (.refl c next)).mono (fun _ _ ended => ended)
        fails).bind fun lower _ ⟨aside, _⟩ => ((aside_tempname upper _ aside).mono
        (fun _ _ ended => ended) fails).bind fun temp _ ⟨aside, works⟩ =>
        ((aside_doMkdir works temp.2 _ aside).mono (fun _ _ ended => ended) fails).bind
        fun _ _ ⟨aside, _⟩ => ?_
      have times : Keeps (Aside c next) (do
          let made ← temp.1.openDir layers temp.2
          made.setTimestamps layers lower : Ovl W D F V Unit) fun _ => True :=
        (aside_openDir temp.1 temp.2).bind fun made same =>
          aside_setTimestamps (same.trans works) lower
      refine ((times.tried _ aside).mono (fun _ _ ended => ended) fails).bind
        fun made _ ⟨aside, _⟩ => ?_
      refine (landDir_ends held works temp.2 made aside).mono ?_ fails
      intro made after ⟨isUpper, last, aside, same⟩
      subst same
      have known : levelAt last.inodes head.1 = some level := by
        rw [aside.inodes]
        exact kept
      refine ⟨aside.updated placed head.1 isUpper, isUpper, head, rfl,
        level.set UPPER (some made), levelAt_keep head.1 known rfl, ?_⟩
      cases level with
      | nil => exact absurd rfl filled
      | cons one rest => rfl

/-- The directory a change lands in is the upper's, and is held there from then on. -/
theorem upperDir_ends (upper : fs.HasUpper) (dir : ViewDentry V) (placed : UpperPlaced s.inodes) :
    Ends (upperDir layers fs dir) s
      (fun path after => Still c s after ∧ path.layer = UPPER ∧ UpperAt after.inodes dir path)
      fun _ after => Still c s after := by
  induction dir with
  | nil => exact Ends.throw ((Aside.refl c s).still placed)
  | cons own above ih =>
    refine ((levelOf_ends s (own :: above)).mono (fun _ _ ended => ended)
      fun _ _ same => same ▸ (Aside.refl c s).still placed).bind
      fun level now ⟨same, first, head, kept⟩ => ?_
    subst same
    split
    · rename_i held shown
      exact Ends.pure ⟨(Aside.refl c _).still placed, placed _ _ _ kept shown, first, head, level,
        kept, shown⟩
    · refine ih.bind fun parent next ⟨still, held, _⟩ => ?_
      have copied := copyUpDir_ends (c := c) upper (own :: above) held still.placed
      apply copied.mono
      · intro made after ⟨further, isUpper, at_⟩
        exact ⟨still.trans further, isUpper, at_⟩
      · intro _ after further
        exact still.trans further

/-- A directory the upper holds is found there at once. -/
theorem upperDir_eq {dir : ViewDentry V} {path : OverlayPath D}
    (held : UpperAt s.inodes dir path) : upperDir layers fs dir s = .ok path s := by
  obtain ⟨own, first, level, kept, shown⟩ := held
  cases dir with
  | nil => simp at first
  | cons head above =>
    obtain rfl : head = own := by simpa using first
    obtain ⟨inode, recorded, isDir⟩ := levelAt_eq_some.mp kept
    have levels : levelOf (head :: above) s = .ok level s := by
      have found : inodeOf (head :: above) s = .ok inode s := by
        simp [inodeOf, recorded]
      unfold levelOf
      rw [bind_eq found, isDir]
      rfl
    unfold upperDir
    rw [bind_eq levels, shown]
    rfl

/-! ## Files -/

/-- A session in which one file and everything the view keeps is as it was. -/
structure Intact (c : Contents layers N) (n : N) (s after : Session W D F V) : Prop where
  /-- The file holds what it held. -/
  bytes : c.bytes after.world n = c.bytes s.world n
  /-- The same files are open. -/
  files : after.files = s.files
  /-- Every inode keeps what it kept. -/
  inodes : after.inodes = s.inodes

omit [DecidableEq V] in
theorem OnlyWorld.intact {after : Session W D F V} (world : OnlyWorld s after) {n : N}
    (bytes : c.bytes after.world n = c.bytes s.world n) : Intact c n s after := by
  unfold OnlyWorld at world
  exact ⟨bytes, by rw [world], by rw [world]⟩

/-- A session in which the file at `v` keeps the file `n` of the upper, as `real`, and nothing else
is kept otherwise. -/
structure Landed (c : Contents layers N) (v : V) (real : OverlayPath D) (n : N)
    (s after : Session W D F V) : Prop where
  /-- It keeps what stands in the upper. -/
  kept : realAt after.inodes v = some real
  /-- What it keeps is the upper's. -/
  upper : real.layer = UPPER
  /-- That is the file. -/
  recorded : c.recorded UPPER real.dentry = some n
  /-- The same files are open. -/
  files : after.files = s.files
  /-- Every directory is kept as it was. -/
  levels : ∀ u, levelAt after.inodes u = levelAt s.inodes u

/-- What a file keeps set to what stands in the upper. -/
theorem setReal_landed {v : V} {name : String} {above : ViewDentry V} {old real : OverlayPath D}
    {n : N} (known : realAt s.inodes v = some old) (upper : real.layer = UPPER)
    (recorded : c.recorded UPPER real.dentry = some n) {before : Session W D F V}
    (files : s.files = before.files) (inodes : s.inodes = before.inodes) :
    Ends (setReal ((v, name) :: above) real) s
      (fun _ after => Landed c v real n before after ∧ after.world = s.world)
      fun _ _ => False := by
  obtain ⟨inode, held, kept⟩ := realAt_eq_some.mp known
  refine ⟨⟨?_, upper, recorded, files, ?_⟩, rfl⟩
  · refine realAt_eq_some.mpr ⟨{ inode with kept := .file real }, ?_, rfl⟩
    simp [Session.keep, held, kept]
  · intro u
    rw [← inodes]
    by_cases same : u = v
    · subst same
      simp [levelAt, Session.keep, held, kept, Kept.level?]
    · exact levelAt_keep_ne same _

end CopyUp

end Kobako.Overlay
