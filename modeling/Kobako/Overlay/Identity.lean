import Kobako.Overlay.Lower
import Kobako.Overlay.Tmpfs

/-!
# The identity of a directory

What `dir_getattr` reports of a directory of the view as the directory is copied up. A copy up adds
the upper's directory above those the level keeps, and the identity reported is that of the second
directory kept: of the topmost lower one once the upper holds the directory, but of the one below it
before.
-/

namespace Kobako.Overlay

open Vfs

variable {W D F V : Type} {layers : Layers W D F} {identity : Nat → D → Identity}

/-! ## What is reported -/

/-- The identity `dir_getattr` reports for a directory of the view, none where it refuses. -/
def reports (layers : Layers W D F) (s : Session W D F V) (v : V) : Option Identity :=
  (levelAt s.inodes v).bind fun level =>
    match (dirGetattr layers level : Ovl W D F V Kstat) s with
    | .ok stat _ => some stat.identity
    | .error _ _ => none

/-- A lower Layer reports one identity for each of its directories, whenever it is asked. -/
def Layers.Identifies (layers : Layers W D F) (identity : Nat → D → Identity) : Prop :=
  ∀ world layer dentry stat after, layer ≠ UPPER →
    layers.getattr layer dentry world = .ok stat after → stat.identity = identity layer dentry

/-- The lower directories a level keeps. -/
def shownBelow (level : Level D) : List (OverlayPath D) := (lowerOf level).filterMap id

/-- Where the two topmost lower Layers that show a directory report one identity for it, and where
only one shows it. -/
def AgreesBelow (identity : Nat → D → Identity) (level : Level D) : Prop :=
  ∀ first second rest, shownBelow level = first :: second :: rest →
    identity first.layer first.dentry = identity second.layer second.dentry

variable {level : Level D}

theorem mem_shownBelow (placed : Placed level) {dir : OverlayPath D}
    (member : dir ∈ shownBelow level) : dir.layer ≠ UPPER := by
  apply placed.lower dir
  simpa [shownBelow] using member

/-- A lower directory reports its identity. -/
theorem getattr_identity (identifies : layers.Identifies identity) {dir : OverlayPath D}
    (lower : dir.layer ≠ UPPER) (s : Session (W × List Asked) D F V) :
    Ends (dir.getattr layers.logged) s
      (fun stat _ => stat.identity = identity dir.layer dir.dentry) fun _ _ => True := by
  unfold Ends OverlayPath.getattr ask Layers.logged recorded
  dsimp only
  cases told : layers.getattr dir.layer dir.dentry s.world.1 with
  | ok stat after => exact identifies _ _ _ _ _ lower told
  | error error after => trivial

/-- Two directories and more: the identity of the second. -/
theorem dirGetattr_second (identifies : layers.Identifies identity) {top next : OverlayPath D}
    {rest : List (OverlayPath D)} (shown : level.filterMap id = top :: next :: rest)
    (lower : next.layer ≠ UPPER) (s : Session (W × List Asked) D F V) :
    Ends (dirGetattr layers.logged level) s
      (fun stat _ => stat.identity = identity next.layer next.dentry) fun _ _ => True := by
  have asked : Ends (top.getattr layers.logged) s (fun _ _ => True) fun _ _ => True := by
    unfold Ends
    split <;> trivial
  unfold dirGetattr
  rw [shown]
  exact asked.bind fun _ s _ => (getattr_identity identifies lower s).bind
    fun _ _ told => Ends.pure told

/-- One directory: its own identity. -/
theorem dirGetattr_only (identifies : layers.Identifies identity) {only : OverlayPath D}
    (shown : level.filterMap id = [only]) (lower : only.layer ≠ UPPER)
    (s : Session (W × List Asked) D F V) :
    Ends (dirGetattr layers.logged level) s
      (fun stat _ => stat.identity = identity only.layer only.dentry) fun _ _ => True := by
  unfold dirGetattr
  rw [shown]
  exact getattr_identity identifies lower s

/-- What a directory reports is what its level has reported. -/
theorem reports_eq {s : Session W D F V} {v : V} (kept : levelAt s.inodes v = some level)
    {told expected : Identity} (answered : reports layers s v = some told)
    (ends : Ends (dirGetattr layers level) s (fun stat _ => stat.identity = expected)
      fun _ _ => True) : told = expected := by
  unfold reports at answered
  unfold Ends at ends
  rw [kept, Option.bind_some] at answered
  cases asked : (dirGetattr layers level : Ovl W D F V Kstat) s with
  | error error after =>
    rw [asked] at answered
    cases answered
  | ok stat after =>
    rw [asked] at answered ends
    exact (Option.some.inj answered).symm.trans ends

/-! ## Copying up -/

/-- A directory the upper does not hold, as it is reported before and after it does. -/
theorem identity_copied (identifies : layers.Identifies identity)
    {s s' : Session (W × List Asked) D F V} {v : V} (placed : Placed level) {made : OverlayPath D}
    (unheld : upperOf level = none) (kept : levelAt s.inodes v = some level)
    (now : levelAt s'.inodes v = some (level.set UPPER (some made))) {before after : Identity}
    (told : reports layers.logged s v = some before)
    (tells : reports layers.logged s' v = some after) :
    before = after ↔ AgreesBelow identity level := by
  cases level with
  | nil =>
    have refused : reports layers.logged s v = none := by
      unfold reports
      rw [kept]
      rfl
    rw [refused] at told
    cases told
  | cons first rest =>
    obtain rfl : first = none := by simpa [upperOf, UPPER] using unheld
    have shownWas : (none :: rest : Level D).filterMap id = shownBelow (none :: rest) := rfl
    have shownNow : ((none :: rest : Level D).set UPPER (some made)).filterMap id =
        made :: shownBelow (none :: rest) := rfl
    cases shown : shownBelow (none :: rest) with
    | nil =>
      have refused : reports layers.logged s v = none := by
        unfold reports
        rw [kept, Option.bind_some]
        unfold dirGetattr
        rw [shownWas, shown]
        rfl
      rw [refused] at told
      cases told
    | cons top others =>
      have topBelow : top.layer ≠ UPPER := mem_shownBelow placed (by rw [shown]; simp)
      have isAfter : after = identity top.layer top.dentry :=
        reports_eq now tells (dirGetattr_second identifies (shownNow.trans (by rw [shown])) topBelow s')
      cases others with
      | nil =>
        have isBefore : before = identity top.layer top.dentry :=
          reports_eq kept told (dirGetattr_only identifies (shownWas.trans shown) topBelow s)
        refine iff_of_true (isBefore.trans isAfter.symm) ?_
        intro one two more twice
        rw [shown] at twice
        cases twice
      | cons next others =>
        have nextBelow : next.layer ≠ UPPER := mem_shownBelow placed (by rw [shown]; simp)
        have isBefore : before = identity next.layer next.dentry :=
          reports_eq kept told (dirGetattr_second identifies (shownWas.trans shown) nextBelow s)
        rw [isBefore, isAfter]
        constructor
        · intro same one two more twice
          rw [shown] at twice
          obtain ⟨rfl, rfl, -⟩ : top = one ∧ next = two ∧ others = more := by simpa using twice
          exact same.symm
        · intro agrees
          exact (agrees top next others shown).symm

/-! ## Runs -/

variable [DecidableEq V] [DecidableEq D]

theorem calls_append (layers : Layers W D F) (fs : OverlayFs D) (s : Session W D F V)
    (first second : List (Call V)) :
    s.calls layers fs (first ++ second) = (s.calls layers fs first).calls layers fs second := by
  induction first generalizing s with
  | nil => rfl
  | cons made rest ih => exact ih (s.after layers fs made)

/-- What a directory keeps grows along a run. -/
theorem mountAndCall_grown (layers : Layers W D F) (rounds : Nat) (upper : D) (lower : List D)
    (world : W) (root : V) (first second : List (Call V)) {v : V} {level now : Level D}
    (kept : levelAt (mountAndCall layers.logged rounds upper lower (world, []) root first).inodes v
      = some level)
    (keeps : levelAt (mountAndCall layers.logged rounds upper lower (world, []) root
      (first ++ second)).inodes v = some now) : Grown level now := by
  have mounted := newOverlayFs_ends (V := V) layers rounds upper lower world
  unfold Ends at mounted
  unfold mountAndCall at kept keeps
  cases ended : newOverlayFs layers.logged rounds upper lower
      (.start (world, []) : Session _ D F V) with
  | error error s =>
    rw [ended] at kept keeps
    rw [kept] at keeps
    exact Option.some.inj keeps ▸ .same
  | ok fs s =>
    rw [ended] at mounted kept keeps
    obtain ⟨follows, held, placed⟩ := mounted
    dsimp only at kept keeps
    rw [calls_append] at keeps
    have reached : Spared ((s.record root (rootInode layers.logged fs s.world)).calls layers.logged
        fs first) := ((follows.record root placed).calls held first).toSpared
    have here : Follows _ _ := ⟨reached, fun v level was => ⟨level, was, .same⟩⟩
    have onward : Follows _ (Session.calls layers.logged fs _ second) := here.calls held second
    obtain ⟨grew, same, grown⟩ := onward.grown v level kept
    rw [same] at keeps
    exact Option.some.inj keeps ▸ grown

/-- Along every run, the identity reported for a directory is the same before and after it is
copied up exactly where the two topmost lower Layers that showed it, if two did, report one identity
for it. -/
theorem reports_copied_iff (layers : Layers W D F) (identity : Nat → D → Identity)
    (identifies : layers.Identifies identity) (rounds : Nat) (upper : D) (lower : List D)
    (world : W) (root : V) (first second : List (Call V)) {v : V} {level now : Level D}
    (kept : levelAt (mountAndCall layers.logged rounds upper lower (world, []) root first).inodes v
      = some level)
    (keeps : levelAt (mountAndCall layers.logged rounds upper lower (world, []) root
      (first ++ second)).inodes v = some now)
    (unheld : upperOf level = none) (copied : upperOf now ≠ none) {before after : Identity}
    (told : reports layers.logged
      (mountAndCall layers.logged rounds upper lower (world, []) root first) v = some before)
    (tells : reports layers.logged
      (mountAndCall layers.logged rounds upper lower (world, []) root (first ++ second)) v
        = some after) :
    before = after ↔ AgreesBelow identity level := by
  have placed : Placed level :=
    (spared_mountAndCall layers rounds upper lower world root first).placed kept
  cases mountAndCall_grown layers rounds upper lower world root first second kept keeps with
  | same => exact absurd unheld copied
  | held made none => exact identity_copied identifies placed unheld kept keeps told tells

/-! ## Two lower Layers that show a directory -/

/-- Lower trees nothing changes report one identity for each of their entries. -/
theorem stacked_identifies (lowers : List LowerTree) (room : Nat → Bool) :
    (stacked lowers room).Identifies fun layer path => ⟨layer, inoAt lowers .empty layer path⟩ := by
  intro t layer path stat after lower told
  cases layer with
  | zero => exact absurd rfl lower
  | succ index =>
    have asked : statAt lowers t (index + 1) path t = .ok stat after := told
    unfold statAt at asked
    cases found : holds lowers t (index + 1) path with
    | none =>
      rw [found] at asked
      cases asked
    | some seen =>
      rw [found] at asked
      cases asked
      rfl

/-- A lower Layer of one directory, `d`. -/
def oneDirectory : LowerTree where
  node path := if path = [] ∨ path = ["d"] then some (.directory false) else none
  names dir := if dir = [] then ["d"] else []
  ino path := path.length + 1
  tmpfs := true
  listed := by
    intro dir name
    by_cases top : dir = []
    · simp [top]
    · simp [top]
  marked := fun _ _ => rfl

/-- A dentry of `d`. -/
def atD : ViewDentry Nat := [(1, "d"), (0, "")]

/-- Two such Layers under a Tmpfs. -/
def twoLayers : Layers Tmpfs Path Handle := stacked [oneDirectory, oneDirectory] fun _ => true

/-- What is left after they are mounted and called. -/
def onTwo (made : List (Call Nat)) : Session (Tmpfs × List Asked) Path Handle Nat :=
  mountAndCall twoLayers.logged 1 [] [[], []] (Tmpfs.empty, []) 0 made

/-- Setting a time on `d` copies it up. -/
def touchD : Call Nat := .setattrDir atD ⟨none, some .now, none, false, false⟩

/-- Copied up, `d` is reported with another identity than before. -/
theorem reports_changes :
    reports twoLayers.logged (onTwo [.lookup atD]) 1 = some ⟨2, 2⟩ ∧
      reports twoLayers.logged (onTwo [.lookup atD, touchD]) 1 = some ⟨1, 2⟩ ∧
      (⟨2, 2⟩ : Identity) ≠ ⟨1, 2⟩ := by
  decide +kernel

theorem reports_copied_iff_two :
    levelAt (onTwo [.lookup atD]).inodes 1 = some [none, some ⟨1, ["d"]⟩, some ⟨2, ["d"]⟩] ∧
      ((⟨2, 2⟩ : Identity) = ⟨1, 2⟩ ↔
        AgreesBelow (fun layer path => ⟨layer, inoAt [oneDirectory, oneDirectory] .empty layer path⟩)
          [none, some ⟨1, ["d"]⟩, some ⟨2, ["d"]⟩]) := by
  have kept : levelAt (onTwo [.lookup atD]).inodes 1 =
      some [none, some ⟨1, ["d"]⟩, some ⟨2, ["d"]⟩] := by decide +kernel
  have keeps : levelAt (onTwo ([.lookup atD] ++ [touchD])).inodes 1 =
      some [some ⟨0, ["d", "upper"]⟩, some ⟨1, ["d"]⟩, some ⟨2, ["d"]⟩] := by decide +kernel
  have told : reports twoLayers.logged (onTwo [.lookup atD]) 1 = some ⟨2, 2⟩ := by decide +kernel
  have tells : reports twoLayers.logged (onTwo ([.lookup atD] ++ [touchD])) 1 = some ⟨1, 2⟩ := by
    decide +kernel
  exact ⟨kept, reports_copied_iff twoLayers _ (stacked_identifies _ _) 1 [] [[], []] .empty 0
    [.lookup atD] [touchD] kept keeps (by decide) (by decide) told tells⟩

end Kobako.Overlay
