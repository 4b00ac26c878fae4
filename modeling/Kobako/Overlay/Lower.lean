import Kobako.Overlay.Calls

/-!
# The lower Layers

A change is asked of a path the upper holds: the workdir, what a level keeps at `UPPER`, what a
copy up made beneath it, or a file opened there. The Layers answer whatever they like; what an
Overlay asks is settled by where the paths it keeps came from, and every call keeps that.
-/

namespace Kobako.Overlay

open Vfs

variable {W D F V : Type}

/-! ## What is kept -/

/-- Directories of which none is the upper's. -/
def Below (level : Level D) : Prop := ∀ held, some held ∈ level → held.layer ≠ UPPER

/-- A level that keeps the upper's directory at `UPPER` and no other of its directories. -/
structure Placed (level : Level D) : Prop where
  /-- What is kept at `UPPER` is the upper's. -/
  upper : ∀ held, upperOf level = some held → held.layer = UPPER
  /-- What is kept below is not. -/
  lower : Below (lowerOf level)

/-- An inode of the view whose level, where it is a directory's, is placed. -/
def ViewInode.Placed (inode : ViewInode D) : Prop :=
  match inode.kept with
  | .dir level => Overlay.Placed level
  | .file _ => True

/-- A file of the view that is a Layer's own file only in the upper. -/
def OpenFile.Placed : OpenFile D F V → Prop
  | .real layer _ => layer = UPPER
  | .lower .. => True
  | .dir => True

/-- No lower Layer was asked for a change, and nothing kept would ask one. -/
structure Spared (s : Session (W × List Asked) D F V) : Prop where
  /-- What changes was asked of the upper. -/
  asked : ∀ one ∈ s.world.2, one.op.mutates = true → one.layer = UPPER
  /-- Every inode keeps the upper's at `UPPER`. -/
  inodes : ∀ v inode, s.inodes v = some inode → inode.Placed
  /-- Every file handed out as it is is the upper's. -/
  files : ∀ file ∈ s.files, file.Placed

/-- What a directory keeps as the upper comes to hold it: once, and nothing else changes. -/
inductive Grown (level : Level D) : Level D → Prop
  | same : Grown level level
  | held (made : OverlayPath D) (none : upperOf level = none) :
    Grown level (level.set UPPER (some made))

/-- The level kept, where it is a directory's. -/
def Kept.level? : Kept D → Option (Level D)
  | .dir level => some level
  | .file _ => none

/-- The level a directory of the view keeps. -/
def levelAt (inodes : V → Option (ViewInode D)) (v : V) : Option (Level D) :=
  (inodes v).bind fun inode => inode.kept.level?

variable {level : Level D}

/-- A level is what is recorded of a directory. -/
theorem levelAt_eq_some {inodes : V → Option (ViewInode D)} {v : V} :
    levelAt inodes v = some level ↔ ∃ inode, inodes v = some inode ∧ inode.kept = .dir level := by
  unfold levelAt
  rw [Option.bind_eq_some_iff]
  refine exists_congr fun inode => and_congr_right fun _ => ?_
  cases inode.kept with
  | dir own => simp [Kept.level?]
  | file real => simp [Kept.level?]

/-- A session that follows one where `start` was kept: the lower Layers are spared, and every
directory keeps what it kept then but that the upper may hold it now. -/
structure Follows (start : V → Option (ViewInode D)) (s : Session (W × List Asked) D F V) : Prop
    extends Spared s where
  /-- Every directory is kept, grown at most. -/
  grown : ∀ v level, levelAt start v = some level →
    ∃ now, levelAt s.inodes v = some now ∧ Grown level now

/-- A level kept is placed. -/
theorem Spared.placed {s : Session (W × List Asked) D F V} (spared : Spared s) {v : V}
    (kept : levelAt s.inodes v = some level) : Placed level := by
  obtain ⟨inode, recorded, isDir⟩ := levelAt_eq_some.mp kept
  have placed := spared.inodes v inode recorded
  unfold ViewInode.Placed at placed
  rw [isDir] at placed
  exact placed

/-- An Overlay with an upper: its workdir is the upper's. -/
structure OverlayFs.HasUpper (fs : OverlayFs D) : Prop where
  /-- There is a workdir, in the upper. -/
  work : ∃ work, fs.work = some work ∧ work.layer = UPPER

variable {layers : Layers W D F} {fs : OverlayFs D} {start : V → Option (ViewInode D)}

/-- A call asks the lower Layers for no change, and what it leaves still follows. -/
abbrev Spares {α : Type} (start : V → Option (ViewInode D))
    (call : Ovl (W × List Asked) D F V α) : Prop :=
  Keeps (Follows start) call fun _ => True

/-! ## Questions -/

/-- What is only read changes nothing. -/
theorem keeps_look {α : Type} (read : W × List Asked → α) :
    Keeps (Follows start) (look read : Ovl (W × List Asked) D F V α) fun _ => True :=
  fun _ spared => ⟨spared, trivial⟩

/-- A question that changes nothing, or is asked of the upper, spares the lower Layers. -/
theorem keeps_recorded {α : Type} {layer : Nat} {op : LayerOp} {question : EStateM FsError W α}
    (fits : op.mutates = true → layer = UPPER) :
    Keeps (Follows start) (ask (recorded layer op question) : Ovl (W × List Asked) D F V α)
      fun _ => True := by
  rintro ⟨⟨world, asked⟩, inodes, temp, files⟩ spared
  have logged : ∀ one ∈ (⟨layer, op⟩ :: asked : List Asked),
      one.op.mutates = true → one.layer = UPPER := by
    intro one member
    rcases List.mem_cons.mp member with rfl | member
    · exact fits
    · exact spared.asked one member
  unfold Ends ask recorded
  dsimp only
  cases question world with
  | ok answer world => exact ⟨⟨⟨logged, spared.inodes, spared.files⟩, spared.grown⟩, trivial⟩
  | error error world => exact ⟨⟨logged, spared.inodes, spared.files⟩, spared.grown⟩

/-- `ok_or` answers what was found. -/
theorem keeps_okOr {α : Type} {invariant : Session W D F V → Prop} {found : Option α}
    {error : FsError} :
    Keeps invariant (okOr found error : Ovl W D F V α) fun a => found = some a := by
  cases found with
  | none => exact .throw
  | some a => exact .pure rfl

section Paths

variable (path : OverlayPath D) (name : String)

/-- `lookup_real` spares the lower Layers. -/
theorem keeps_lookupReal :
    Spares start (path.lookupReal layers.logged name) :=
  keeps_recorded (by simp [LayerOp.mutates])

/-- `getattr` spares the lower Layers. -/
theorem keeps_getattr :
    Spares start (path.getattr layers.logged) :=
  keeps_recorded (by simp [LayerOp.mutates])

/-- `entries` spares the lower Layers. -/
theorem keeps_entries :
    Spares start (path.entries layers.logged) :=
  keeps_recorded (by simp [LayerOp.mutates])

/-- An open that may neither write nor empty changes nothing. -/
theorem keeps_openRealfile {how : OpenHow}
    (fits : how.write = true ∨ how.truncate = true → path.layer = UPPER) :
    Spares start (path.openRealfile layers.logged how) :=
  keeps_recorded (by simpa [LayerOp.mutates] using fits)

/-- `lookup_single` spares the lower Layers. -/
theorem keeps_lookupSingle :
    Spares start (path.lookupSingle layers.logged name) :=
  (keeps_lookupReal path name).bind fun _ _ =>
    (keeps_look _).bind fun _ _ => (keeps_look _).bind fun _ _ => .pure trivial

/-- `getattr_at` spares the lower Layers. -/
theorem keeps_getattrAt :
    Spares start (path.getattrAt layers.logged name) :=
  (keeps_lookupReal path name).bind fun _ _ => keeps_getattr _

/-- A directory opened is the same Layer's. -/
theorem keeps_openDir :
    Keeps (Follows start) (path.openDir layers.logged name : Ovl _ D F V (OverlayPath D))
      fun opened => opened.layer = path.layer := by
  refine (keeps_lookupReal path name).bind fun dentry _ => (keeps_look _).bind fun kind _ => ?_
  split
  · exact .throw
  · exact .pure rfl
  · exact .throw
  · exact .throw

/-- One change asked of the upper. -/
theorem keeps_change {path : OverlayPath D} {α : Type} {op : LayerOp}
    {question : EStateM FsError W α} (held : path.layer = UPPER) :
    Keeps (Follows start) (ask (recorded path.layer op question) : Ovl (W × List Asked) D F V α)
      fun _ => True :=
  keeps_recorded fun _ => held

variable {path}

section

variable (held : path.layer = UPPER)

include held

/-- A move is asked of both its directories. -/
theorem keeps_doRename {target : OverlayPath D} (onto : target.layer = UPPER) (toName : String)
    (flag : Option RenameFlag) :
    Spares start (path.doRename layers.logged name target toName flag) := by
  have first : Keeps (Follows start) (ask (recorded path.layer .rename (pure ())) :
      Ovl (W × List Asked) D F V Unit)
      fun _ => True := keeps_change held
  have second : Keeps (Follows start) (ask (recorded target.layer .rename (layers.doRename path.layer
      path.dentry name target.layer target.dentry toName flag)) : Ovl _ D F V Unit)
      fun _ => True := keeps_change onto
  intro s spared
  exact first.bind (fun _ _ => second) s spared

end

end Paths

/-! ## Names -/

/-- `entry` spares the lower Layers. -/
theorem keeps_entry (dir : OverlayPath D) (name : String) :
    Spares start (entry layers.logged dir name) := by
  refine (keeps_lookupSingle dir name).tried.bind fun found _ => ?_
  split
  · refine (keeps_look _).bind fun whiteout _ => ?_
    split
    · exact .pure trivial
    · exact .pure trivial
  · exact .pure trivial
  · exact .pure trivial
  · exact .pure trivial
  · exact .throw

/-- Every name is looked for without a change. -/
theorem keeps_lowerPositiveFrom (name : String) (level : Level D) :
    Spares start (lowerPositiveFrom layers.logged name level) := by
  induction level with
  | nil => exact .pure trivial
  | cons dir rest ih =>
    cases dir with
    | none => exact ih
    | some dir =>
      refine (keeps_entry dir name).tried.bind
        fun found _ => ?_
      split
      · exact ih
      · exact .pure trivial
      · exact .pure trivial
      · exact .pure trivial

/-- `ovl_lower_positive` spares the lower Layers. -/
theorem keeps_ovlLowerPositive (level : Level D) (name : String) :
    Spares start (ovlLowerPositive layers.logged level name) :=
  keeps_lowerPositiveFrom name (lowerOf level)

/-- `lookup_layer` spares the lower Layers. -/
theorem keeps_lookupLayer (level : Level D) (name : String) :
    Keeps (Follows start) (lookupLayer layers.logged level name :
      Ovl _ D F V (Option (Nat × LayerEntry D))) fun _ => True := by
  have from_ : ∀ index, Keeps (Follows start) (lookupLayerFrom layers.logged name index level :
      Ovl _ D F V (Option (Nat × LayerEntry D))) fun _ => True := by
    induction level with
    | nil => exact fun _ => .pure trivial
    | cons dir rest ih =>
      intro index
      cases dir with
      | none => exact ih _
      | some dir =>
        refine (keeps_entry dir name).bind fun found _ => ?_
        split
        · exact .pure trivial
        · exact .pure trivial
        · exact ih _
  exact from_ 0

/-- A level no Layer shows is below. -/
theorem below_none (level : Level D) : Below (level.map fun _ => (none : Option (OverlayPath D))) :=
  by simp [Below]

/-- A level is below, Layer by Layer. -/
theorem below_cons {dir : Option (OverlayPath D)} :
    Below (dir :: level) ↔ (∀ held, dir = some held → held.layer ≠ UPPER) ∧ Below level := by
  simp [Below, or_imp, forall_and, eq_comm]

/-- What merges below is not the upper's where nothing asked is. -/
theorem keeps_mergeBelow (name : String) (below : Below level) :
    Keeps (Follows start) (mergeBelow layers.logged name level : Ovl _ D F V (Level D)) Below := by
  have skip : ∀ {rest : Level D}, Below rest → Below (none :: rest) :=
    fun below => below_cons.mpr ⟨by simp, below⟩
  induction level with
  | nil => exact .pure below
  | cons dir rest ih =>
    obtain ⟨own, others⟩ := below_cons.mp below
    cases dir with
    | none => exact (ih others).bind fun _ merged => .pure (skip merged)
    | some dir =>
      refine (keeps_entry dir name).bind fun found _ => ?_
      split
      · rename_i found
        have inner : ∀ held, some (dir.beneath found.dentry) = some held → held.layer ≠ UPPER := by
          intro held same
          exact Option.some.inj same ▸ own dir rfl
        refine (keeps_look _).bind fun kind _ => ?_
        split
        · refine (keeps_look _).bind fun hides _ => ?_
          split
          · exact .pure (below_cons.mpr ⟨inner, below_none rest⟩)
          · exact (ih others).bind fun _ merged => .pure (below_cons.mpr ⟨inner, merged⟩)
        · exact .pure (skip (below_none rest))
      · exact .pure (skip (below_none rest))
      · exact (ih others).bind fun _ merged => .pure (skip merged)

/-- What is left of a level is below. -/
theorem below_drop (below : Below (lowerOf level)) (index : Nat) :
    Below (level.drop (index + 1)) := by
  intro held member
  apply below held
  have suffix : level.drop (index + 1) <:+ lowerOf level := by
    rw [lowerOf, UPPER, show index + 1 = 1 + index from Nat.add_comm index 1, ← List.drop_drop]
    exact List.drop_suffix index _
  exact suffix.subset member

/-- What stands at a place of a level after those above it are left out. -/
theorem placed_merged (placed : Placed level) {index : Nat} {dir : OverlayPath D}
    (found : level[index]?.join = some dir) (dentry : D) {below : Level D} (lower : Below below) :
    Placed ((level.take index).map (fun _ => none) ++ some (dir.beneath dentry) :: below) := by
  cases level with
  | nil => simp at found
  | cons first rest =>
    cases index with
    | zero =>
      refine ⟨?_, lower⟩
      intro held top
      have same : dir.beneath dentry = held := by simpa [upperOf, UPPER] using top
      have upper : upperOf (first :: rest) = some dir := found
      rw [← same]
      exact placed.upper dir upper
    | succ index =>
      refine ⟨by simp [upperOf, UPPER], ?_⟩
      intro held member
      have stands : some dir ∈ rest := by
        rw [List.getElem?_cons_succ] at found
        cases at_ : rest[index]? with
        | none => simp [at_] at found
        | some one =>
          rw [at_, Option.join_some] at found
          exact found ▸ List.mem_of_getElem? at_
      rcases List.mem_append.mp member with member | member
      · simp at member
      · rcases List.mem_cons.mp member with same | member
        · exact Option.some.inj same ▸ placed.lower dir stands
        · exact lower held member

/-- A directory looked up is placed. -/
theorem keeps_lookupLayers (placed : Placed level) (name : String) (index : Nat)
    (top : LayerEntry D) :
    Keeps (Follows start) (lookupLayers layers.logged level name index top : Ovl _ D F V (Level D))
      Placed := by
  refine keeps_okOr.bind fun dir found => (keeps_look _).bind fun hides _ => ?_
  split
  · exact .pure (placed_merged placed found top.dentry (below_none _))
  · exact (keeps_mergeBelow name (below_drop placed.lower index)).bind fun below lower =>
      .pure (placed_merged placed found top.dentry lower)

/-- `dir_getattr` spares the lower Layers. -/
theorem keeps_dirGetattr (level : Level D) :
    Spares start (dirGetattr layers.logged level) := by
  unfold dirGetattr
  split
  · exact .throw
  · exact keeps_getattr _
  · exact (keeps_getattr _).bind fun _ _ => (keeps_getattr _).bind fun _ _ => .pure trivial

/-- `file_inode` spares the lower Layers. -/
theorem keeps_fileIdentity (index : Nat) (real : OverlayPath D) :
    Spares start (fileIdentity layers.logged fs index real) := by
  refine (keeps_look _).bind fun kind _ => keeps_okOr.bind fun _ _ => (keeps_look _).bind
    fun found _ => ?_
  split
  · refine (keeps_getattr real).bind fun stat _ => ?_
    split
    · exact .pure trivial
    · exact .pure trivial
  · exact .pure trivial

/-- An inode looked up is placed. -/
theorem keeps_lookupInode (placed : Placed level) (name : String) (index : Nat)
    (found : LayerEntry D) :
    Keeps (Follows start) (lookupInode layers.logged fs level name index found : Ovl _ D F V (ViewInode D))
      ViewInode.Placed := by
  refine keeps_okOr.bind fun dir _ => (keeps_look _).bind fun _ _ => keeps_okOr.bind
    fun kind _ => ?_
  split
  · exact (keeps_fileIdentity index _).bind fun _ _ => .pure trivial
  · refine (keeps_lookupLayers placed name index found).bind fun merged stays => ?_
    split
    · exact (keeps_look _).bind fun _ _ => .pure stays
    · refine (keeps_dirGetattr merged).bind fun stat _ => ?_
      have read : Keeps (Follows start) (pure (Identity.of stat) : Ovl (W × List Asked) D F V _)
          fun _ => True := .pure trivial
      exact read.bind fun _ _ => .pure stays

/-! ## Inodes of the view -/

variable (dentry : ViewDentry V)

/-- `inode_of` spares the lower Layers. -/
theorem keeps_inodeOf :
    Keeps (Follows start) (inodeOf dentry : Ovl (W × List Asked) D F V (ViewInode D))
      ViewInode.Placed := by
  intro s spared
  unfold Ends inodeOf
  cases found : dentry.head?.bind fun own => s.inodes own.1 with
  | none => exact spared
  | some inode =>
    obtain ⟨own, -, recorded⟩ := Option.bind_eq_some_iff.mp found
    exact ⟨spared, spared.inodes own.1 inode recorded⟩

/-- `level_of` spares the lower Layers. -/
theorem keeps_levelOf :
    Keeps (Follows start) (levelOf dentry : Ovl (W × List Asked) D F V (Level D)) Placed := by
  refine (keeps_inodeOf dentry).bind fun inode placed => ?_
  unfold ViewInode.Placed at placed
  split
  · rename_i level kept
    rw [kept] at placed
    exact .pure placed
  · exact .throw

/-- `real_of` spares the lower Layers. -/
theorem keeps_realOf (error : FsError) :
    Keeps (Follows start) (realOf dentry error : Ovl (W × List Asked) D F V (OverlayPath D))
      fun _ => True := by
  refine (keeps_inodeOf dentry).bind fun inode _ => ?_
  split
  · exact .pure trivial
  · exact .throw

section Keep

variable [DecidableEq V]

variable {change : Kept D → Kept D} {s : Session (W × List Asked) D F V}

/-- Keeping something placed on an inode keeps every inode placed. -/
theorem Spared.keep (spared : Spared s) (v : V) (stays : ∀ inode : ViewInode D, inode.Placed →
      ({ inode with kept := change inode.kept } : ViewInode D).Placed) :
    Spared (s.keep v change) := by
  refine ⟨spared.asked, ?_, spared.files⟩
  intro other inode recorded
  unfold Session.keep at recorded
  dsimp only at recorded
  split at recorded
  · obtain ⟨before, held, rfl⟩ := Option.map_eq_some_iff.mp recorded
    exact stays before (spared.inodes v before held)
  · exact spared.inodes other inode recorded

/-- What the directory at `v` keeps after something else is kept there. -/
theorem levelAt_keep {s : Session W D F V} (v : V) {level now : Level D}
    (kept : levelAt s.inodes v = some level) (changed : change (.dir level) = .dir now) :
    levelAt (s.keep v change).inodes v = some now := by
  obtain ⟨inode, recorded, isDir⟩ := levelAt_eq_some.mp kept
  refine levelAt_eq_some.mpr ⟨{ inode with kept := change inode.kept }, ?_, ?_⟩
  · simp [Session.keep, recorded]
  · exact isDir ▸ changed

/-- Another level stays as it is. -/
theorem levelAt_keep_ne {s : Session W D F V} {v other : V} (apart : other ≠ v)
    (change : Kept D → Kept D) : levelAt (s.keep v change).inodes other = levelAt s.inodes other := by
  simp [levelAt, Session.keep, apart]

/-- What is kept on the inode at `v` changes as a directory grows. -/
theorem Follows.keep (follows : Follows start s) (v : V)
    (stays : ∀ inode : ViewInode D, inode.Placed →
      ({ inode with kept := change inode.kept } : ViewInode D).Placed)
   
    (grows : ∀ level now, levelAt s.inodes v = some now → Grown level now →
      ∃ next, change (.dir now) = .dir next ∧ Grown level next) :
    Follows start (s.keep v change) := by
  refine ⟨follows.toSpared.keep v stays, ?_⟩
  intro other level kept
  obtain ⟨now, held, grown⟩ := follows.grown other level kept
  by_cases same : other = v
  · subst same
    obtain ⟨next, changed, grown⟩ := grows level now held grown
    exact ⟨next, levelAt_keep other held changed, grown⟩
  · exact ⟨now, (levelAt_keep_ne same change).trans held, grown⟩

/-- A directory of the upper's recorded as the copy up of one the upper does not hold. -/
theorem inodeUpdate_follows (follows : Follows start s) (dentry : ViewDentry V)
    {made : OverlayPath D} (held : made.layer = UPPER)
    (unheld : ∀ own ∈ dentry.head?, ∀ level, levelAt s.inodes own.1 = some level →
      upperOf level = none) :
    Ends (inodeUpdate dentry made) s (fun _ after => Follows start after)
      fun _ after => Follows start after := by
  unfold inodeUpdate
  split
  · exact Ends.pure follows
  · rename_i own above
    refine Ends.modify (follows.keep own.1 ?_ ?_)
    · intro inode placed
      unfold ViewInode.Placed at placed ⊢
      cases kept : inode.kept with
      | file real => trivial
      | dir level =>
        rw [kept] at placed
        cases level with
        | nil => exact placed
        | cons first rest =>
          refine ⟨?_, placed.lower⟩
          intro upper top
          have same : made = upper := by simpa [upperOf, UPPER] using top
          exact same ▸ held
    · intro level now kept grown
      refine ⟨now.set UPPER (some made), rfl, ?_⟩
      have none : upperOf now = none := unheld own rfl now kept
      cases grown with
      | same => exact .held made none
      | held before empty =>
        rw [List.set_set]
        exact .held made empty

/-- `set_real` spares the lower Layers. -/
theorem keeps_setReal (dentry : ViewDentry V) (real : OverlayPath D) :
    Keeps (Follows start) (setReal dentry real : Ovl (W × List Asked) D F V Unit)
      fun _ => True := by
  unfold setReal
  split
  · exact .pure trivial
  · refine .modify fun s follows => follows.keep _ ?_ fun _ now _ grown => ⟨now, rfl, grown⟩
    intro inode placed
    unfold ViewInode.Placed at placed ⊢
    cases kept : inode.kept with
    | file real => trivial
    | dir level =>
      rw [kept] at placed
      exact placed

end Keep

/-- The workdir is the upper's. -/
theorem keeps_tempname (upper : fs.HasUpper) :
    Keeps (Follows start) (tempname fs : Ovl (W × List Asked) D F V (OverlayPath D × String))
      fun work => work.1.layer = UPPER := by
  obtain ⟨work, held, layer⟩ := upper.work
  intro s spared
  unfold Ends tempname
  rw [held]
  exact ⟨⟨⟨spared.asked, spared.inodes, spared.files⟩, spared.grown⟩, layer⟩

/-- What stands in the upper is the upper's. -/
theorem isInUpper_iff (upper : fs.HasUpper) (real : OverlayPath D) :
    fs.isInUpper real = true ↔ real.layer = UPPER := by
  obtain ⟨work, held, layer⟩ := upper.work
  rw [OverlayFs.isInUpper, held, Option.any_some, layer, decide_eq_true_iff]

/-! ## Changes -/

section Changes

variable {dir : OverlayPath D} (held : dir.layer = UPPER)

include held

/-- `ovl_cleanup` spares the lower Layers. -/
theorem keeps_ovlCleanup (name : String) :
    Spares start (ovlCleanup layers.logged dir name) := by
  refine (keeps_getattrAt dir name).bind fun stat _ => ?_
  split
  · exact keeps_change held
  · exact keeps_change held

/-- `cleanup_whiteouts` spares the lower Layers. -/
theorem keeps_cleanupWhiteouts (listed : List DirEntry) :
    Spares start (cleanupWhiteouts layers.logged dir listed) := by
  induction listed with
  | nil => exact .pure trivial
  | cons one rest ih =>
    refine (keeps_look _).bind fun whiteout _ => ?_
    split
    · refine (keeps_change held).bind fun _ _ => ?_
      exact ih
    · exact ih

/-- `ovl_cleanup_whiteouts` spares the lower Layers. -/
theorem keeps_ovlCleanupWhiteouts (name : String) :
    Spares start (ovlCleanupWhiteouts layers.logged dir name) := by
  refine (keeps_getattrAt dir name).bind fun stat _ => ?_
  split
  · refine (keeps_openDir dir name).bind fun inner same => (keeps_entries inner).bind
      fun listed _ => ?_
    exact keeps_cleanupWhiteouts (same.trans held) listed
  · exact .pure trivial

end Changes

/-- `workdir_cleanup` spares the lower Layers. -/
theorem keeps_workdirCleanup (rounds : Nat) (pending : List (OverlayPath D × String))
    (held : ∀ one ∈ pending, one.1.layer = UPPER) :
    Spares start (workdirCleanup layers.logged rounds pending) := by
  induction rounds generalizing pending with
  | zero =>
    cases pending with
    | nil => exact .pure trivial
    | cons one pending => exact .throw
  | succ rounds ih =>
    cases pending with
    | nil => exact .pure trivial
    | cons one pending =>
      obtain ⟨dir, name⟩ := one
      obtain ⟨own, others⟩ := List.forall_mem_cons.mp held
      refine (keeps_getattrAt dir name).bind fun stat _ => ?_
      split
      · exact (keeps_change own).bind fun _ _ => ih pending others
      · refine (keeps_openDir dir name).bind fun inner same => (keeps_entries inner).bind
          fun listed _ => ?_
        split
        · exact (keeps_change own).bind fun _ _ => ih pending others
        · apply ih
          intro one member
          rcases List.mem_append.mp member with member | member
          · obtain ⟨entry, -, rfl⟩ := List.mem_map.mp (List.mem_reverse.mp member)
            exact same.trans own
          · exact held one member

/-- Only what was read is written, and only to the target. -/
theorem keeps_writeAll {layer : Nat} (held : layer = UPPER) (target : F) (pos : Nat)
    (data : List UInt8) :
    Spares start (writeAll layers.logged layer target pos data) := by
  induction counted : data.length using Nat.strongRecOn generalizing pos data with
  | ind length ih =>
    unfold writeAll
    split
    · exact .pure trivial
    · rename_i some
      refine (keeps_recorded fun _ => held).bind fun wrote _ => ?_
      cases wrote with
      | zero => exact .throw
      | succ wrote =>
        have left : data ≠ [] := fun none => some (by simp [none])
        have shorter : (data.drop (wrote + 1)).length < length := by
          have positive := List.length_pos_iff.mpr left
          rw [List.length_drop]
          omega
        exact ih _ shorter _ _ rfl

/-- `copy_whole` spares the lower Layers. -/
theorem keeps_copyWhole {target : Nat × F} (held : target.1 = UPPER) (source : Nat × F)
    (rounds readPos writePos : Nat) :
    Spares start (copyWhole layers.logged source target rounds readPos writePos) := by
  induction rounds generalizing readPos writePos with
  | zero => exact .throw
  | succ rounds ih =>
    refine (keeps_recorded (by simp [LayerOp.mutates])).bind fun read _ => ?_
    split
    · exact .pure trivial
    · exact (keeps_writeAll held target.2 writePos read).bind fun _ _ => ih _ _

section CopyUp

variable [DecidableEq V]

/-- No directory the upper holds is at a dentry of the view. -/
def Unheld (inodes : V → Option (ViewInode D)) (dentry : ViewDentry V) : Prop :=
  ∀ own ∈ dentry.head?, ∀ level, levelAt inodes own.1 = some level → upperOf level = none

section Frame

variable {inodes : V → Option (ViewInode D)}

omit [DecidableEq V]

/-- A question keeps no inode of the view differently. -/
theorem frames_ask {α : Type} (question : EStateM FsError W α) :
    Keeps (fun s => s.inodes = inodes) (ask question : Ovl W D F V α) fun _ => True := by
  intro s same
  unfold Ends ask
  cases question s.world with
  | ok answer world => exact ⟨same, trivial⟩
  | error error world => exact same

/-- A reading keeps the inodes. -/
theorem frames_look {α : Type} (read : W → α) :
    Keeps (fun s => s.inodes = inodes) (look read : Ovl W D F V α) fun _ => True :=
  fun _ same => ⟨same, trivial⟩

/-- A temporary name keeps the inodes. -/
theorem frames_tempname :
    Keeps (fun s => s.inodes = inodes) (tempname fs : Ovl W D F V _) fun _ => True := by
  intro s same
  unfold Ends tempname
  cases fs.work with
  | none => exact same
  | some work => exact ⟨same, trivial⟩

/-- A directory opened keeps the inodes. -/
theorem frames_openDir (layers : Layers W D F) (path : OverlayPath D) (name : String) :
    Keeps (fun s => s.inodes = inodes) (path.openDir layers name : Ovl W D F V _)
      fun _ => True := by
  refine (frames_ask _).bind fun dentry _ => (frames_look _).bind fun kind _ => ?_
  split
  · exact .throw
  · exact .pure trivial
  · exact .throw
  · exact .throw

/-- What an inode keeps is answered as it is kept. -/
theorem inodeOf_ends (s : Session W D F V) (dentry : ViewDentry V) :
    Ends (inodeOf dentry) s (fun inode after => after = s ∧ ∃ own ∈ dentry.head?,
      s.inodes own.1 = some inode) fun _ after => after = s := by
  unfold Ends inodeOf
  cases known : dentry.head?.bind fun own => s.inodes own.1 with
  | none => rfl
  | some inode =>
    obtain ⟨own, first, recorded⟩ := Option.bind_eq_some_iff.mp known
    exact ⟨rfl, own, first, recorded⟩

/-- `level_of` answers what is recorded, or fails. -/
theorem levelOf_ends (s : Session W D F V) (dir : ViewDentry V) :
    Ends (levelOf dir) s (fun level after => after = s ∧ ∃ own ∈ dir.head?,
      levelAt s.inodes own.1 = some level) fun _ after => after = s := by
  refine (inodeOf_ends s dir).bind fun inode after ⟨same, own, first, recorded⟩ => ?_
  subst same
  split
  · rename_i level kept
    exact Ends.pure ⟨rfl, own, first, levelAt_eq_some.mpr ⟨inode, recorded, kept⟩⟩
  · exact Ends.throw rfl

/-- `real_of` answers what is recorded, or fails. -/
theorem realOf_ends (s : Session W D F V) (child : ViewDentry V) (error : FsError) :
    Ends (realOf child error) s (fun real after => after = s ∧ ∃ own ∈ child.head?, ∃ inode,
      s.inodes own.1 = some inode ∧ inode.kept = .file real) fun _ after => after = s := by
  refine (inodeOf_ends s child).bind fun inode after ⟨same, own, first, recorded⟩ => ?_
  subst same
  split
  · rename_i real kept
    exact Ends.pure ⟨rfl, own, first, inode, recorded, kept⟩
  · exact Ends.throw rfl

end Frame

variable {s : Session (W × List Asked) D F V}

/-- What was made is moved beneath a parent of the upper's, and stands there. -/
theorem landDir_follows (follows : Follows start s) {dir : ViewDentry V}
    (unheld : Unheld s.inodes dir) {parent work : OverlayPath D} (held : parent.layer = UPPER)
    (works : work.layer = UPPER) (temp : String) (made : Except FsError Unit) :
    Ends (landDir layers.logged dir parent work temp made) s
      (fun made after => Follows start after ∧ made.layer = UPPER)
      fun _ after => Follows start after := by
  have move : Keeps (Follows start) (do
      ofExcept made
      work.doRename layers.logged temp parent (nameOf dir) (some .noReplace) : Ovl _ D F V Unit)
      fun _ => True := by
    cases made with
    | error error => exact .throw
    | ok done => exact keeps_doRename temp works held _ _
  have still : Keeps (fun now => now.inodes = s.inodes) (do
      ofExcept made
      work.doRename layers.logged temp parent (nameOf dir) (some .noReplace) : Ovl _ D F V Unit)
      fun _ => True := by
    cases made with
    | error error => exact .throw
    | ok done => exact frames_ask _
  refine ((keeps_getattr parent).ends (frames_ask _) follows rfl).bind
    fun times _ ⟨follows, _, same⟩ => (move.tried.ends still.tried follows same).bind
    fun moved _ ⟨follows, _, same⟩ => ?_
  split
  · exact ((keeps_change works).tried _ follows).bind fun _ _ ⟨follows, _⟩ =>
      Ends.throw follows
  · refine ((keeps_change held).tried.ends (frames_ask _).tried follows
      same).bind fun _ _ ⟨follows, _, same⟩ => ((keeps_openDir parent (nameOf dir)).ends
      (frames_openDir _ _ _) follows same).bind fun made _ ⟨follows, beneath, same⟩ => ?_
    have placed : made.layer = UPPER := beneath.trans held
    rw [← same] at unheld
    exact (inodeUpdate_follows follows dir placed unheld).bind fun _ _ follows =>
      Ends.pure ⟨follows, placed⟩

/-- A directory copied up is the upper's. -/
theorem keeps_copyUpDir (upper : fs.HasUpper) (dir : ViewDentry V) {parent : OverlayPath D}
    (held : parent.layer = UPPER) :
    Keeps (Follows start) (copyUpDir layers.logged fs dir parent : Ovl _ D F V (OverlayPath D))
      fun made => made.layer = UPPER := by
  intro s follows
  refine ((levelOf_ends s dir).mono (fun _ _ ended => ended)
    fun _ _ same => same ▸ follows).bind fun level now ⟨same, own, first, kept⟩ => ?_
  subst same
  split
  · rename_i already shown
    exact Ends.pure ⟨follows, (follows.placed kept).upper already shown⟩
  · rename_i none
    have unheld : Unheld now.inodes dir := by
      intro other firstToo level' keptToo
      obtain rfl : own = other := Option.mem_unique first firstToo
      rw [kept] at keptToo
      exact Option.some.inj keptToo ▸ none
    have shows : Keeps (fun s => s.inodes = now.inodes)
        (okOr (level.filterMap id).head? .notFound : Ovl (W × List Asked) D F V _) _ := keeps_okOr
    refine (keeps_okOr.ends shows follows rfl).bind fun shown _ ⟨follows, _, same⟩ =>
      ((keeps_getattr shown).ends (frames_ask _) follows same).bind
      fun lower _ ⟨follows, _, same⟩ => ((keeps_tempname upper).ends frames_tempname follows
      same).bind fun temp _ ⟨follows, works, same⟩ => ((keeps_change works).ends
      (frames_ask _) follows same).bind fun _ _ ⟨follows, _, same⟩ => ?_
    have times : Keeps (Follows start) (do
        let made ← temp.1.openDir layers.logged temp.2
        made.setTimestamps layers.logged lower : Ovl _ D F V Unit) fun _ => True :=
      (keeps_openDir temp.1 temp.2).bind fun made same =>
        keeps_change (same.trans works)
    have still : Keeps (fun s => s.inodes = now.inodes) (do
        let made ← temp.1.openDir layers.logged temp.2
        made.setTimestamps layers.logged lower : Ovl _ D F V Unit) fun _ => True :=
      (frames_openDir _ _ _).bind fun _ _ => frames_ask _
    refine (times.tried.ends still.tried follows same).bind fun made _ ⟨follows, _, same⟩ => ?_
    rw [← same] at unheld
    exact landDir_follows follows unheld held works temp.2 made

variable (upper : fs.HasUpper)

include upper

/-- The directory a change lands in is the upper's: the climb is on the dentries above. -/
theorem keeps_upperDir (dir : ViewDentry V) :
    Keeps (Follows start) (upperDir layers.logged fs dir : Ovl _ D F V (OverlayPath D))
      fun held => held.layer = UPPER := by
  induction dir with
  | nil => exact .throw
  | cons own above ih =>
    refine (keeps_levelOf (own :: above)).bind fun level placed => ?_
    split
    · rename_i held shown
      exact .pure (placed.upper held shown)
    · exact ih.bind fun parent held => keeps_copyUpDir upper (own :: above) held

omit upper

omit [DecidableEq V] in
/-- Data is read from what is copied and written to the copy. -/
theorem keeps_copyData {target : OverlayPath D} (held : target.layer = UPPER)
    (real : OverlayPath D) (copy : F) (truncate : Bool) :
    Spares start (copyData layers.logged fs real target copy truncate) := by
  unfold copyData
  split
  · exact .pure trivial
  · exact (keeps_openRealfile real (by simp [readOnly])).bind fun source _ =>
      keeps_copyWhole held _ _ _ _

/-- A file of the view that keeps the upper's. -/
def Held (s : Session (W × List Asked) D F V) (child : ViewDentry V) : Prop :=
  ∀ own ∈ child.head?, ∀ inode real, s.inodes own.1 = some inode → inode.kept = .file real →
    real.layer = UPPER

omit [DecidableEq V] in
/-- What a file that is held keeps is the upper's. -/
theorem Held.realOf {child : ViewDentry V} (held : Held s child) (spared : Follows start s)
    (error : FsError) :
    Ends (realOf child error) s (fun real after => Follows start after ∧ real.layer = UPPER)
      fun _ after => Follows start after := by
  refine (realOf_ends s child error).mono ?_ fun _ _ same => same ▸ spared
  intro real after ⟨same, own, first, inode, recorded, kept⟩
  exact ⟨same ▸ spared, held own first inode real recorded kept⟩

/-- Setting what a file keeps to the upper's leaves it held. -/
theorem setReal_held (spared : Follows start s) (child : ViewDentry V) {real : OverlayPath D}
    (placed : real.layer = UPPER) :
    Ends (setReal child real) s (fun _ after => Follows start after ∧ Held after child)
      fun _ after => Follows start after := by
  have kept := keeps_setReal child real s spared
  cases child with
  | nil => exact ⟨spared, by simp [Held]⟩
  | cons own above =>
    refine ⟨kept.1, ?_⟩
    intro first same inode found recorded file
    obtain rfl : own = first := by simpa using same
    simp only [Session.keep, if_pos] at recorded
    obtain ⟨before, -, rfl⟩ := Option.map_eq_some_iff.mp recorded
    cases was : before.kept with
    | dir level => simp [was] at file
    | file old =>
      have now : real = found := by simpa [was] using file
      exact now ▸ placed

/-- A file copied up keeps the upper's. -/
theorem landFile_held (spared : Follows start s) (child : ViewDentry V) (real : OverlayPath D)
    {target : OverlayPath D} (held : target.layer = UPPER) (lower : Kstat) (truncate : Bool) :
    Ends (landFile layers.logged fs child real target lower truncate) s
      (fun _ after => Follows start after ∧ Held after child) fun _ after => Follows start after := by
  refine (keeps_change held s spared).bind fun copy _ ⟨spared, _⟩ =>
    (keeps_copyData held real copy truncate _ spared).bind fun _ _ ⟨spared, _⟩ =>
    (keeps_change held _ spared).bind fun _ _ ⟨spared, _⟩ =>
    (keeps_getattr target _ spared).bind fun times _ ⟨spared, _⟩ =>
    (keeps_change held _ spared).bind fun linked _ ⟨spared, _⟩ => ?_
  exact ((keeps_change held).tried _ spared).bind
    fun _ _ ⟨spared, _⟩ => setReal_held spared child held

include upper

/-- `copy_up_file` leaves the file held by the upper. -/
theorem copyUpFile_held (spared : Follows start s) (dir child : ViewDentry V) (truncate : Bool) :
    Ends (copyUpFile layers.logged fs dir child truncate) s
      (fun _ after => Follows start after ∧ Held after child) fun _ after => Follows start after := by
  refine (keeps_upperDir upper dir s spared).bind fun target after ⟨spared, held⟩ => ?_
  refine ((realOf_ends after child .notFound).mono (fun _ _ ended => ended)
    fun _ _ same => same ▸ spared).bind fun real now ⟨same, own, first, inode, recorded, kept⟩ => ?_
  subst same
  split
  · rename_i inUpper
    refine Ends.pure ⟨spared, ?_⟩
    intro other firstToo again found recordedToo keptToo
    obtain rfl : own = other := Option.mem_unique first firstToo
    rw [recorded] at recordedToo
    cases recordedToo
    have agree : real = found := by simpa using kept.symm.trans keptToo
    exact agree ▸ (isInUpper_iff upper real).mp inUpper
  · refine (keeps_getattr real _ spared).bind fun lower _ ⟨spared, _⟩ => ?_
    split
    · exact Ends.throw spared
    · exact landFile_held spared child real held lower truncate

/-- `copy_up_file` spares the lower Layers. -/
theorem keeps_copyUpFile (dir child : ViewDentry V) (truncate : Bool) :
    Spares start (copyUpFile layers.logged fs dir child truncate) :=
  fun _ spared => (copyUpFile_held upper spared dir child truncate).mono
    (fun _ _ ended => ⟨ended.1, trivial⟩) fun _ _ still => still

end CopyUp

/-! ## Listings -/

/-- `merge_entries` spares the lower Layers. -/
theorem keeps_mergeEntries (index : Nat) (dir : OverlayPath D) (listed : List DirEntry)
    (taken : List String) (merged : MergedEntries) :
    Keeps (Follows start) (mergeEntries layers.logged index dir listed taken merged :
      Ovl _ D F V (List String × MergedEntries)) fun _ => True := by
  induction listed generalizing taken merged with
  | nil => exact .pure trivial
  | cons one rest ih =>
    refine (keeps_look _).bind fun whiteout _ => ?_
    dsimp only
    split
    · exact ih _ _
    · exact ih _ _

/-- `read_merged` spares the lower Layers. -/
theorem keeps_readMerged (level : Level D) :
    Spares start (readMerged layers.logged level) := by
  have from_ : ∀ index taken merged,
      Spares start (readMergedFrom layers.logged index level taken merged) := by
    induction level with
    | nil => exact fun _ _ _ => .pure trivial
    | cons dir rest ih =>
      intro index taken merged
      cases dir with
      | none => exact ih _ _ _
      | some dir =>
        exact (keeps_entries dir).bind fun listed _ =>
          (keeps_mergeEntries index dir listed taken merged).bind fun _ _ => ih _ _ _
  exact from_ 0 [] ⟨[], false⟩

/-- `check_empty_dir` spares the lower Layers. -/
theorem keeps_checkEmptyDir :
    Spares start (checkEmptyDir layers.logged dentry) :=
  (keeps_levelOf dentry).bind fun level _ => (keeps_readMerged level).bind fun _ _ =>
    .pure trivial

/-! ## Changing a directory -/

section Exchange

variable (upper : fs.HasUpper)

/-- `is_directory` spares the lower Layers. -/
theorem keeps_isDirectory (dir : OverlayPath D) (found : Presence D) :
    Spares start (found.isDirectory layers.logged dir) := by
  cases found with
  | nothing => exact .pure trivial
  | whiteout => exact .pure trivial
  | entry found => exact (keeps_look _).bind fun _ _ => .pure trivial

include upper

variable {dir : OverlayPath D}

/-- `cleanup_and_whiteout` spares the lower Layers. -/
theorem keeps_cleanupAndWhiteout (held : dir.layer = UPPER) (name : String) :
    Spares start (cleanupAndWhiteout layers.logged fs dir name) := by
  refine (keeps_tempname upper).bind fun temp works => (keeps_change works).bind
    fun _ _ => (keeps_entry dir name).bind fun found _ => (keeps_isDirectory dir found).bind
    fun isDir _ => ?_
  refine (keeps_doRename temp.2 works held name _).tried.bind fun moved _ => ?_
  split
  · exact (keeps_change works).tried.bind
      fun _ _ => .throw
  · split
    · exact (keeps_ovlCleanup works temp.2).tried.bind
        fun _ _ => .pure trivial
    · exact .pure trivial

/-- What is built in the workdir is exchanged into the upper. -/
theorem keeps_exchangeIn (held : dir.layer = UPPER) (name : String)
    {make : OverlayPath D → String → Ovl (W × List Asked) D F V Unit}
    (makes : ∀ work temp, work.layer = UPPER → Keeps (Follows start) (make work temp) fun _ => True) :
    Keeps (Follows start) (exchangeIn layers.logged fs dir name make) fun _ => True := by
  refine (keeps_tempname upper).bind fun temp works => ?_
  have built : Keeps (Follows start) (do
      make temp.1 temp.2
      temp.1.doRename layers.logged temp.2 dir name (some .exchange) : Ovl _ D F V Unit)
      fun _ => True :=
    (makes temp.1 temp.2 works).bind fun _ _ => keeps_doRename temp.2 works held name _
  refine built.tried.bind fun made _ => ?_
  split
  · exact (keeps_ovlCleanup works temp.2).tried.bind
      fun _ _ => .throw
  · have cleared : Keeps (Follows start) (do
        ovlCleanupWhiteouts layers.logged temp.1 temp.2
        ovlCleanup layers.logged temp.1 temp.2 : Ovl _ D F V Unit) fun _ => True :=
      (keeps_ovlCleanupWhiteouts works temp.2).bind fun _ _ => keeps_ovlCleanup works temp.2
    exact cleared.tried.bind fun _ _ => .pure trivial

/-- `clear_empty` spares the lower Layers. -/
theorem keeps_clearEmpty (held : dir.layer = UPPER) (name : String) :
    Spares start (clearEmpty layers.logged fs dir name) :=
  keeps_exchangeIn upper held name fun work temp works => (keeps_change works).bind
    fun _ _ => (keeps_openDir work temp).bind fun _ same => keeps_change (same.trans works)

end Exchange

/-- `upper_holds` spares the lower Layers. -/
theorem keeps_upperHolds :
    Keeps (Follows start) (upperHolds fs dentry : Ovl (W × List Asked) D F V Bool) fun _ => True := by
  refine (keeps_inodeOf dentry).tried.bind fun found _ => ?_
  split
  · exact .pure trivial
  · split
    · exact .pure trivial
    · exact .pure trivial

section Directory

variable [DecidableEq V] (upper : fs.HasUpper)

include upper

/-- `remove_name` spares the lower Layers. -/
theorem keeps_removeName (dir : ViewDentry V) {level : Level D} (placed : Placed level)
    (name : String) (shownBelow held : Bool) :
    Spares start (removeName layers.logged fs dir level name shownBelow held) := by
  unfold removeName
  split
  · exact (keeps_upperDir upper dir).bind fun _ held => keeps_cleanupAndWhiteout upper held name
  · split
    · exact keeps_okOr.bind fun own found => keeps_ovlCleanup (placed.upper own found) name
    · exact .throw

/-- `do_remove` spares the lower Layers. -/
theorem keeps_doRemove (dir dentry : ViewDentry V) (upperWhiteouts : Bool) :
    Spares start (doRemove layers.logged fs dir dentry upperWhiteouts) := by
  refine (keeps_levelOf dir).bind fun level placed => (keeps_ovlLowerPositive level _).bind
    fun shownBelow _ => (keeps_upperHolds dentry).bind fun held _ => ?_
  split
  · exact keeps_okOr.bind fun own found => (keeps_clearEmpty upper (placed.upper own found) _).bind
      fun _ _ => keeps_removeName upper dir placed _ shownBelow held
  · exact keeps_removeName upper dir placed _ shownBelow held

/-- A file is opened to change only once it is the upper's. -/
theorem keeps_openFile (dir child : ViewDentry V) (how : OpenHow) :
    Keeps (Follows start) (openFile layers.logged fs dir child how : Ovl _ D F V (OpenFile D F V))
      OpenFile.Placed := by
  refine (keeps_realOf child .isADirectory).bind fun real _ => ?_
  split
  · rename_i inUpper
    have held : real.layer = UPPER := (isInUpper_iff upper real).mp inUpper
    exact (keeps_openRealfile real fun _ => held).bind fun _ _ => .pure held
  · split
    · rename_i reads
      refine (keeps_openRealfile real (by simp [reads])).bind fun file _ => ?_
      cases child with
      | nil => exact .throw
      | cons own above => exact .pure trivial
    · intro s spared
      refine (copyUpFile_held upper spared dir child how.truncate).bind
        fun _ _ ⟨spared, held⟩ => (held.realOf spared .isADirectory).bind
        fun real _ ⟨spared, held⟩ => (keeps_openRealfile real (fun _ => held) _ spared).bind
        fun _ _ ⟨spared, _⟩ => Ends.pure ⟨spared, held⟩

/-- `create` spares the lower Layers. -/
theorem keeps_createIn (dir : ViewDentry V) (name : String) :
    Spares start (createIn layers.logged fs dir name) := by
  refine (keeps_upperDir upper dir).bind fun own held => (keeps_look _).bind
    fun whiteout _ => ?_
  split
  · exact keeps_exchangeIn upper held name fun _ temp works => keeps_change works
  · exact keeps_change held

/-- `mkdir` spares the lower Layers. -/
theorem keeps_mkdirIn (dir : ViewDentry V) (name : String) :
    Spares start (mkdirIn layers.logged fs dir name) := by
  refine (keeps_upperDir upper dir).bind fun own held => (keeps_look _).bind
    fun whiteout _ => ?_
  split
  · exact keeps_clearEmpty upper held name
  · exact keeps_change held

/-- `rmdir` spares the lower Layers. -/
theorem keeps_rmdirIn (dir dentry : ViewDentry V) :
    Spares start (rmdirIn layers.logged fs dir dentry) :=
  (keeps_checkEmptyDir dentry).bind fun _ _ => keeps_okOr.bind fun upperWhiteouts _ =>
    keeps_doRemove upper dir dentry upperWhiteouts

section

omit [DecidableEq V] upper

/-- `can_move` spares the lower Layers. -/
theorem keeps_canMove (moved : ViewDentry V) (moving : FileType) :
    Keeps (Follows start) (canMove fs moved moving : Ovl (W × List Asked) D F V Bool)
      fun _ => True := by
  unfold canMove
  split
  · exact (keeps_levelOf moved).bind fun _ _ => .pure trivial
  · split
    · exact .pure trivial
    · exact keeps_upperHolds moved

/-- `replaced_whiteouts` spares the lower Layers. -/
theorem keeps_replacedWhiteouts (target : ViewDentry V) (replaced : Option FileType) :
    Spares start (replacedWhiteouts layers.logged target replaced) := by
  unfold replacedWhiteouts
  split
  · exact (keeps_checkEmptyDir target).bind fun _ _ => keeps_okOr.mono fun _ _ => trivial
  · exact .pure trivial

/-- `move_name` spares the lower Layers. -/
theorem keeps_moveName {source target : OverlayPath D} (held : source.layer = UPPER)
    (onto : target.layer = UPPER) (name toName : String) (shownBelow isDir : Bool) :
    Keeps (Follows start) (moveName layers.logged source name target toName shownBelow isDir :
      Ovl _ D F V Unit) fun _ => True := by
  refine (keeps_look _).bind fun ontoWhiteout _ => (keeps_doRename name held onto toName _).bind
    fun _ _ => ?_
  split
  · exact keeps_change held
  · exact .pure trivial

/-- `mark_moved` spares the lower Layers. -/
theorem keeps_markMoved {source : OverlayPath D} (held : source.layer = UPPER) (name : String)
    (toLevel : Level D) (isDir : Bool) :
    Spares start (markMoved layers.logged source name toLevel isDir) := by
  unfold markMoved
  split
  · exact (keeps_openDir source name).bind fun _ same => keeps_change (same.trans held)
  · exact .pure trivial

end

/-- `copy_up_moved` spares the lower Layers. -/
theorem keeps_copyUpMoved (src moved : ViewDentry V) (moving : FileType) :
    Spares start (copyUpMoved layers.logged fs src moved moving) := by
  unfold copyUpMoved
  split
  · exact keeps_copyUpFile upper src moved false
  · exact .pure trivial

omit [DecidableEq V] in
/-- `clear_replaced` spares the lower Layers. -/
theorem keeps_clearReplaced {dir : OverlayPath D} (held : dir.layer = UPPER) (name : String)
    (upperWhiteouts : Bool) :
    Spares start (clearReplaced layers.logged fs dir name upperWhiteouts) := by
  unfold clearReplaced
  split
  · exact keeps_clearEmpty upper held name
  · exact .pure trivial

/-- `rename` spares the lower Layers. -/
theorem keeps_landMove (src moved dest target : ViewDentry V) (moving : FileType)
    (toLevel : Level D) (upperWhiteouts shownBelow : Bool) :
    Spares start (landMove layers.logged fs src moved dest target moving toLevel upperWhiteouts
      shownBelow) := by
  refine (keeps_copyUpMoved upper src moved moving).bind fun _ _ => (keeps_upperDir upper dest).bind
    fun targetDir onto => (keeps_clearReplaced upper onto _ _).bind fun _ _ =>
    (keeps_levelOf src).bind fun level placed => keeps_okOr.bind fun source found => ?_
  have held : source.layer = UPPER := placed.upper source found
  exact (keeps_markMoved held _ _ _).bind fun _ _ => keeps_moveName held onto _ _ _ _

/-- `rename` spares the lower Layers. -/
theorem keeps_renameIn (src moved dest target : ViewDentry V) (moving : FileType)
    (replaced : Option FileType) :
    Keeps (Follows start) (renameIn layers.logged fs src moved dest target moving replaced :
      Ovl _ D F V Unit) fun _ => True := by
  refine (keeps_levelOf src).bind fun fromLevel _ => (keeps_levelOf dest).bind fun toLevel _ =>
    (keeps_canMove moved moving).bind fun can _ => ?_
  split
  · exact (keeps_replacedWhiteouts target replaced).bind fun upperWhiteouts _ =>
      (keeps_ovlLowerPositive fromLevel _).bind fun shownBelow _ =>
      keeps_landMove upper src moved dest target moving toLevel upperWhiteouts shownBelow
  · exact .throw

end Directory

/-! ## Calls -/

section Calls

/-- A lookup finds a placed inode. -/
theorem keeps_lookup (dentry : ViewDentry V) :
    Keeps (Follows start) (lookup layers.logged fs dentry : Ovl _ D F V (Option (String × ViewInode D)))
      fun found => ∀ one ∈ found, one.2.Placed := by
  refine (keeps_levelOf dentry.tail).bind fun level placed => ?_
  split
  · exact .throw
  · refine (keeps_lookupLayer level (nameOf dentry)).bind fun found _ => ?_
    split
    · exact .pure (by simp)
    · exact (keeps_lookupInode placed _ _ _).bind fun _ stays => .pure (by simpa using stays)

/-- `open` spares the lower Layers. -/
theorem keeps_openReals (level : Level D) :
    Spares start (openReals layers.logged level) := by
  induction level with
  | nil => exact .pure trivial
  | cons dir rest ih =>
    cases dir with
    | none => exact ih
    | some dir =>
      exact (keeps_openRealfile dir (by simp [readOnly])).bind fun _ _ => ih

/-- `real_getattr` spares the lower Layers. -/
theorem keeps_realGetattr (dentry : ViewDentry V) :
    Spares start (realGetattr layers.logged dentry) := by
  refine (keeps_realOf dentry .notFound).bind fun real _ => (keeps_getattr real).bind
    fun found _ => (keeps_inodeOf dentry).bind fun inode _ => ?_
  split
  · exact .pure trivial
  · exact .pure trivial

/-- `get_link` spares the lower Layers. -/
theorem keeps_getLink (dentry : ViewDentry V) :
    Spares start (getLink layers.logged dentry) :=
  (keeps_realOf dentry .notFound).bind fun _ _ => keeps_recorded (by simp [LayerOp.mutates])

/-- A file that is placed may be handed out. -/
theorem keeps_handOut {file : OpenFile D F V} (placed : file.Placed) :
    Keeps (Follows start) (handOut file : Ovl (W × List Asked) D F V Unit) fun _ => True := by
  refine .modify fun s spared => ⟨⟨spared.asked, spared.inodes, ?_⟩, spared.grown⟩
  intro other member
  rcases List.mem_append.mp member with member | member
  · exact spared.files other member
  · exact List.mem_singleton.mp member ▸ placed

/-- `ovl_revalidate_real` spares the lower Layers. -/
theorem keeps_revalidateReal (real : OverlayPath D) :
    Spares start (revalidateReal layers.logged real) :=
  keeps_recorded (by simp [LayerOp.mutates])

/-- `revalidate_reals` spares the lower Layers. -/
theorem keeps_revalidateReals (level : Level D) :
    Spares start (revalidateReals layers.logged level) := by
  induction level with
  | nil => exact .pure trivial
  | cons dir rest ih =>
    cases dir with
    | none => exact ih
    | some dir =>
      refine (keeps_revalidateReal dir).bind fun fresh _ => ?_
      split
      · exact ih
      · exact .pure trivial

/-- `revalidate` spares the lower Layers. -/
theorem keeps_revalidate (dentry : ViewDentry V) :
    Spares start (revalidate layers.logged fs dentry) := by
  refine (keeps_inodeOf dentry).tried.bind fun found _ => ?_
  split
  · exact (keeps_lookup dentry).bind fun _ _ => .pure trivial
  · split
    · exact keeps_revalidateReal _
    · refine (keeps_revalidateReals _).bind fun fresh _ => ?_
      split
      · exact (keeps_levelOf dentry.tail).bind fun _ _ => keeps_look _
      · exact .pure trivial

variable [DecidableEq V]

/-- Recording a placed inode keeps every inode placed. -/
theorem Spared.record {s : Session (W × List Asked) D F V} (spared : Spared s) (v : V)
    {inode : ViewInode D} (placed : inode.Placed) : Spared (s.record v inode) := by
  refine ⟨spared.asked, ?_, spared.files⟩
  intro other now recorded
  unfold Session.record at recorded
  dsimp only at recorded
  split at recorded
  · cases known : s.inodes v with
    | none =>
      have same : inode = now := by simpa [known] using recorded
      exact same ▸ placed
    | some before =>
      have same : before = now := by simpa [known] using recorded
      exact same ▸ spared.inodes v before known
  · exact spared.inodes other now recorded

/-- What is kept already stays kept. -/
theorem Follows.record {s : Session (W × List Asked) D F V} (follows : Follows start s) (v : V)
    {inode : ViewInode D} (placed : inode.Placed) : Follows start (s.record v inode) := by
  refine ⟨follows.toSpared.record v placed, ?_⟩
  intro other level kept
  obtain ⟨now, held, grown⟩ := follows.grown other level kept
  obtain ⟨own, recorded, isDir⟩ := levelAt_eq_some.mp held
  refine ⟨now, levelAt_eq_some.mpr ⟨own, ?_, isDir⟩, grown⟩
  unfold Session.record
  dsimp only
  split
  · rename_i same
    rw [← same, recorded, Option.getD_some]
  · exact recorded

/-- `record_lookup` spares the lower Layers. -/
theorem keeps_recordLookup (dentry : ViewDentry V) {found : Option (String × ViewInode D)}
    (placed : ∀ one ∈ found, one.2.Placed) :
    Keeps (Follows start) (recordLookup dentry found : Ovl (W × List Asked) D F V Unit)
      fun _ => True := by
  unfold recordLookup
  split
  · exact .modify fun s follows => follows.record _ (placed _ rfl)
  · exact .pure trivial

variable (upper : fs.HasUpper)

include upper

/-- `create` spares the lower Layers. -/
theorem keeps_create (dentry : ViewDentry V) :
    Spares start (create layers.logged fs dentry) := by
  refine (keeps_createIn upper dentry.tail (nameOf dentry)).bind fun _ _ =>
    (keeps_lookup dentry).bind fun found placed => ?_
  split
  · split
    · exact keeps_recordLookup dentry placed
    · exact .throw
  · exact .throw

/-- `setattr` spares the lower Layers. -/
theorem keeps_setattrDir (dentry : ViewDentry V) (attr : Iattr) :
    Spares start (setattrDir layers.logged fs dentry attr) :=
  (keeps_upperDir upper dentry).bind fun _ held => keeps_change held

/-- A file's attributes change only once it is the upper's. -/
theorem keeps_setattrFile (dentry : ViewDentry V) (attr : Iattr) :
    Spares start (setattrFile layers.logged fs dentry attr) :=
  fun _ spared => (copyUpFile_held upper spared dentry.tail dentry false).bind
    fun _ _ ⟨spared, held⟩ => (held.realOf spared .notFound).bind
    fun _ _ ⟨spared, held⟩ => keeps_change held _ spared

end Calls

/-! ## Open files -/

section Files

/-- A call on an open file that leaves it placed. -/
theorem keeps_onFile (fd : Nat) {run : OpenFile D F V → Ovl (W × List Asked) D F V (OpenFile D F V)}
    (runs : ∀ file, file.Placed → Keeps (Follows start) (run file) OpenFile.Placed) :
    Keeps (Follows start) (onFile fd run) fun _ => True := by
  refine Keeps.get.bind fun s spared => ?_
  split
  · exact .throw
  · rename_i file found
    refine (runs file (spared.files file (List.mem_of_getElem? found))).bind
      fun left placed => ?_
    refine .modify fun s spared => ⟨⟨spared.asked, spared.inodes, ?_⟩, spared.grown⟩
    intro other member
    rcases List.mem_or_eq_of_mem_set member with member | rfl
    · exact spared.files other member
    · exact placed

/-- `flush` spares the lower Layers. -/
theorem keeps_flushFile (file : OpenFile D F V) (placed : file.Placed) :
    Keeps (Follows start) (flushFile layers.logged file : Ovl _ D F V _) OpenFile.Placed := by
  cases file with
  | real layer file =>
    exact (keeps_recorded (by simp [LayerOp.mutates])).bind fun _ _ => .pure placed
  | lower file real inode upper =>
    exact (keeps_recorded (by simp [LayerOp.mutates])).bind fun _ _ => .pure trivial
  | dir => exact .pure trivial

/-- Only the upper's file is written: a file a lower Layer holds has no write. -/
theorem keeps_writeFile (pos : Nat) (data : List UInt8) (file : OpenFile D F V)
    (placed : file.Placed) :
    Keeps (Follows start) (writeFile layers.logged pos data file : Ovl _ D F V _) OpenFile.Placed := by
  cases file with
  | real layer file => exact (keeps_recorded fun _ => placed).bind fun _ _ => .pure placed
  | lower file real inode upper => exact .throw
  | dir => exact .throw

/-- `fallocate` spares the lower Layers. -/
theorem keeps_fallocateFile (offset len : Nat) (file : OpenFile D F V) (placed : file.Placed) :
    Keeps (Follows start) (fallocateFile layers.logged offset len file : Ovl _ D F V _)
      OpenFile.Placed := by
  cases file with
  | real layer file => exact (keeps_recorded fun _ => placed).bind fun _ _ => .pure placed
  | lower file real inode upper => exact .throw
  | dir => exact .throw

variable [DecidableEq D]

/-- The file holding the data now is only read. -/
theorem keeps_realFile (file : F) (real : OverlayPath D) (inode : V) (upper : Option (Nat × F)) :
    Keeps (Follows start) (realFile layers.logged file real inode upper : Ovl _ D F V _)
      fun found => found.2.Placed := by
  unfold realFile
  split
  · exact .pure trivial
  · refine (keeps_realOf _ .notFound).bind fun now _ => ?_
    split
    · exact .pure trivial
    · exact (keeps_openRealfile now (by simp [readOnly])).bind fun _ _ => .pure trivial

/-- `read_iter` spares the lower Layers. -/
theorem keeps_readFile (pos len : Nat) (file : OpenFile D F V) (placed : file.Placed) :
    Keeps (Follows start) (readFile layers.logged pos len file : Ovl _ D F V _) OpenFile.Placed := by
  cases file with
  | real layer file =>
    exact (keeps_recorded (by simp [LayerOp.mutates])).bind fun _ _ => .pure placed
  | lower file real inode upper =>
    exact (keeps_realFile file real inode upper).bind fun found left =>
      (keeps_recorded (by simp [LayerOp.mutates])).tried.bind fun _ _ => .pure left
  | dir => exact .throw

/-- `fsync` spares the lower Layers. -/
theorem keeps_fsyncFile (file : OpenFile D F V) (placed : file.Placed) :
    Keeps (Follows start) (fsyncFile layers.logged file : Ovl _ D F V _) OpenFile.Placed := by
  cases file with
  | real layer file =>
    exact (keeps_recorded (by simp [LayerOp.mutates])).bind fun _ _ => .pure placed
  | lower file real inode upper =>
    exact (keeps_realFile file real inode upper).bind fun found left =>
      (keeps_recorded (by simp [LayerOp.mutates])).tried.bind fun _ _ => .pure left
  | dir => exact .pure trivial

end Files

/-! ## Runs -/

section Run

variable [DecidableEq V] [DecidableEq D]

/-- Every call spares the lower Layers, however it ends. -/
theorem keeps_call (upper : fs.HasUpper) (made : Call V) :
    Spares start (call layers.logged fs made) := by
  cases made with
  | lookup dentry =>
    exact (keeps_lookup dentry).bind fun _ placed => keeps_recordLookup dentry placed
  | revalidate dentry => exact (keeps_revalidate dentry).bind fun _ _ => .pure trivial
  | getattrDir dentry =>
    exact (keeps_levelOf dentry).bind fun level _ => (keeps_dirGetattr level).bind fun _ _ =>
      .pure trivial
  | getattrFile dentry => exact (keeps_realGetattr dentry).bind fun _ _ => .pure trivial
  | getLink dentry => exact (keeps_getLink dentry).bind fun _ _ => .pure trivial
  | setattrDir dentry attr => exact keeps_setattrDir upper dentry attr
  | setattrFile dentry attr => exact keeps_setattrFile upper dentry attr
  | openDir dentry =>
    exact (keeps_levelOf dentry).bind fun level _ => (keeps_openReals level).bind fun _ _ =>
      keeps_handOut trivial
  | iterateDir dentry =>
    exact (keeps_levelOf dentry).bind fun level _ => (keeps_readMerged level).bind fun _ _ =>
      .pure trivial
  | openFile dentry how =>
    exact (keeps_openFile upper dentry.tail dentry how).bind fun _ placed => keeps_handOut placed
  | create dentry => exact keeps_create upper dentry
  | mkdir dentry => exact keeps_mkdirIn upper dentry.tail (nameOf dentry)
  | rmdir dentry => exact keeps_rmdirIn upper dentry.tail dentry
  | unlink dentry => exact keeps_doRemove upper dentry.tail dentry false
  | rename src dest moving replaced flag =>
    cases flag with
    | some flag => exact .throw
    | none => exact keeps_renameIn upper src.tail src dest.tail dest moving replaced
  | read fd pos len => exact keeps_onFile fd (keeps_readFile pos len)
  | fsync fd => exact keeps_onFile fd keeps_fsyncFile
  | flush fd => exact keeps_onFile fd keeps_flushFile
  | write fd pos data => exact keeps_onFile fd (keeps_writeFile pos data)
  | fallocate fd offset len => exact keeps_onFile fd (keeps_fallocateFile offset len)

/-- One call of a run. -/
theorem Follows.after {s : Session (W × List Asked) D F V} (follows : Follows start s)
    (upper : fs.HasUpper) (made : Call V) : Follows start (s.after layers.logged fs made) := by
  have kept : Ends (call layers.logged fs made) s (fun _ after => Follows start after ∧ True)
      fun _ after => Follows start after := keeps_call upper made s follows
  unfold Ends at kept
  unfold Session.after
  cases ended : call layers.logged fs made s with
  | ok answer after =>
    rw [ended] at kept
    exact kept.1
  | error error after =>
    rw [ended] at kept
    exact kept

/-- A whole run. -/
theorem Follows.calls {s : Session (W × List Asked) D F V} (follows : Follows start s)
    (upper : fs.HasUpper) (made : List (Call V)) :
    Follows start (s.calls layers.logged fs made) := by
  induction made generalizing s with
  | nil => exact follows
  | cons one rest ih => exact ih (follows.after upper one)

end Run

/-! ## Mounting -/

section Mount

/-- A directory of the upper's root is the upper's. -/
theorem keeps_ovlWorkdirCreate {root : OverlayPath D} (held : root.layer = UPPER) (name : String) :
    Keeps (Follows start) (ovlWorkdirCreate layers.logged root name : Ovl _ D F V (OverlayPath D))
      fun made => made.layer = UPPER := by
  have opened : Keeps (Follows start)
      (root.openDir layers.logged name : Ovl _ D F V (OverlayPath D))
      fun made => made.layer = UPPER :=
    (keeps_openDir root name).mono fun _ same => same.trans held
  refine (keeps_change held).tried.bind fun made _ => ?_
  split
  · exact opened
  · exact opened
  · exact .throw

/-- `empty_workdir` spares the lower Layers. -/
theorem keeps_emptyWorkdir (rounds : Nat) {made : OverlayPath D} (held : made.layer = UPPER)
    (listed : List DirEntry) :
    Spares start (emptyWorkdir layers.logged rounds made listed) := by
  induction listed with
  | nil => exact .pure trivial
  | cons one rest ih =>
    exact (keeps_workdirCleanup rounds _ (by simpa using held)).bind fun _ _ => ih

/-- The roots of the lower Layers are theirs. -/
theorem below_lowerRoots (lower : List D) (index : Nat) : Below (lowerRoots (index + 1) lower) := by
  induction lower generalizing index with
  | nil => simp [lowerRoots, Below]
  | cons root rest ih =>
    refine below_cons.mpr ⟨?_, ih (index + 1)⟩
    intro held same
    rw [← Option.some.inj same]
    exact Nat.succ_ne_zero index

/-- A mount changes only the upper, whose directories it then keeps. -/
theorem keeps_newOverlayFs (rounds : Nat) (upper : D) (lower : List D) :
    Keeps (Follows start)
      (newOverlayFs layers.logged rounds upper lower : Ovl _ D F V (OverlayFs D))
      fun fs => fs.HasUpper ∧ Placed fs.roots := by
  refine (keeps_ovlWorkdirCreate rfl "upper").bind fun changes held =>
    (keeps_ovlWorkdirCreate rfl "work").bind fun work works => (keeps_entries work).bind
    fun listed _ => (keeps_emptyWorkdir rounds works listed).bind fun _ _ => .pure ⟨?_, ?_⟩
  · exact ⟨work, rfl, works⟩
  · refine ⟨?_, below_lowerRoots lower UPPER⟩
    intro own top
    have same : changes = own := by simpa [upperOf, UPPER] using top
    exact same ▸ held

/-- Before anything is mounted nothing is asked and nothing kept. -/
theorem follows_start (world : W) :
    Follows (fun _ => none) (.start (world, []) : Session (W × List Asked) D F V) := by
  refine ⟨⟨?_, ?_, ?_⟩, ?_⟩
  · simp [Session.start]
  · simp [Session.start]
  · simp [Session.start]
  · simp [levelAt]

variable [DecidableEq V] [DecidableEq D]

omit [DecidableEq V] [DecidableEq D] in
/-- What mounting leaves. -/
theorem newOverlayFs_ends (layers : Layers W D F) (rounds : Nat) (upper : D) (lower : List D)
    (world : W) :
    Ends (newOverlayFs layers.logged rounds upper lower : Ovl _ D F V (OverlayFs D))
      (.start (world, []))
      (fun fs s => Follows (fun _ => none) s ∧ fs.HasUpper ∧
        (rootInode layers.logged fs s.world).Placed)
      fun _ s => Spared s :=
  (keeps_newOverlayFs rounds upper lower _ (follows_start world)).mono
    (fun _ _ mounted => mounted) fun _ _ follows => follows.toSpared

/-- Every run spares the lower Layers, also one that does not mount. -/
theorem spared_mountAndCall (layers : Layers W D F) (rounds : Nat) (upper : D) (lower : List D)
    (world : W) (root : V) (made : List (Call V)) :
    Spared (mountAndCall layers.logged rounds upper lower (world, []) root made) := by
  have mounted := newOverlayFs_ends (V := V) layers rounds upper lower world
  unfold Ends at mounted
  unfold mountAndCall
  cases ended : newOverlayFs layers.logged rounds upper lower
      (.start (world, []) : Session _ D F V) with
  | error error s =>
    rw [ended] at mounted
    exact mounted
  | ok fs s =>
    rw [ended] at mounted
    obtain ⟨follows, held, placed⟩ := mounted
    exact ((follows.record root placed).calls held made).toSpared

/-- What changes was asked of a lower Layer. -/
def changesBelow (asked : List Asked) : List Asked :=
  asked.filter fun one => one.op.mutates && decide (one.layer ≠ UPPER)

/-- No lower Layer is asked for a change: whatever the Layers are and however they answer, of all
that mounting an Overlay over them and calling it asks, what changes is asked of the upper. -/
theorem mountAndCall_changes_upper (layers : Layers W D F) (rounds : Nat) (upper : D)
    (lower : List D) (world : W) (root : V) (made : List (Call V)) :
    changesBelow (mountAndCall layers.logged rounds upper lower (world, []) root made).world.2
      = [] := by
  have spared := spared_mountAndCall layers rounds upper lower world root made
  rw [changesBelow, List.filter_eq_nil_iff]
  intro one asked changes
  rw [Bool.and_eq_true, decide_eq_true_iff] at changes
  exact changes.2 (spared.asked one asked changes.1)

end Mount

end Kobako.Overlay
