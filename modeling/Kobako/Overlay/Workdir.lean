import Kobako.Overlay.Agree
import Kobako.Overlay.Calls
import Mathlib.Data.Set.Card
import Mathlib.Logic.Relation

/-!
# Emptying the workdir

`ovl_workdir_cleanup` takes one name out of the workdir with everything beneath it. It keeps a stack
of the names it is still to take away: a directory that lists something stays on the stack beneath
what it lists and is read again once that is gone. Each round either takes away an entry with
nothing beneath it or lays the entries of a directory on the stack, so a tree of so many entries is
gone after at most twice as many rounds, and what is on the stack stands all along.
-/

namespace Kobako.Overlay

open Vfs PathTree

/-! ## Whole trees -/

/-- A Tmpfs as it is held: finitely many entries, each in a directory that lists its name once. -/
structure Tmpfs.Whole (t : Tmpfs) : Prop where
  /-- Every entry stands in a directory. -/
  closed : Closed Node.IsDirectory t.node
  /-- Every name of an entry is known. -/
  named : Named t.known t.node
  /-- Every name is known once. -/
  known : t.known.Nodup
  /-- Only so many entries stand. -/
  finite : {path | t.node path ≠ none}.Finite

namespace Tmpfs

/-- The paths at or beneath one at which something stands. -/
def standing (t : Tmpfs) (place : Path) : Set Path := {path | place <:+ path ∧ t.node path ≠ none}

/-- A Tmpfs without one of its entries and everything beneath it. -/
def without (t : Tmpfs) (place : Path) : Tmpfs := { t with node := graft t.node place (leaf none) }

variable {t : Tmpfs} {place path : Path}

@[simp]
theorem leaf_none (path : Path) : (leaf none : Tree String Node) path = none := by
  cases path with
  | nil => rfl
  | cons name dir => rfl

/-- Nothing stands at or beneath what was taken away. -/
theorem without_beneath (t : Tmpfs) (under : place <:+ path) : (t.without place).node path = none := by
  have same : (t.without place).node path = graft t.node place (leaf none) path := rfl
  rw [same, graft, if_pos under, leaf_none]

/-- Everything else stands as it did. -/
theorem without_apart (t : Tmpfs) (apart : ¬place <:+ path) :
    (t.without place).node path = t.node path :=
  graft_apart _ _ apart

/-- What does not stand does not stand later. -/
theorem without_none (place : Path) (absent : t.node path = none) :
    (t.without place).node path = none := by
  by_cases under : place <:+ path
  · exact without_beneath t under
  · rw [without_apart t under, absent]

/-- What stands beneath a path, once something beneath it is taken away. -/
theorem standing_without (t : Tmpfs) (place inner : Path) :
    (t.without inner).standing place = t.standing place \ t.standing inner := by
  ext path
  simp only [standing, Set.mem_sdiff, Set.mem_ofPred_eq, not_and, not_not]
  by_cases under : inner <:+ path
  · rw [without_beneath t under]
    tauto
  · rw [without_apart t under]
    tauto

/-- An entry taken away after something beneath it. -/
theorem without_without (t : Tmpfs) {inner : Path} (under : place <:+ inner) :
    (t.without inner).without place = t.without place := by
  have same : graft (graft t.node inner (leaf none)) place (leaf none) =
      graft t.node place (leaf none) := by
    funext path
    by_cases below : place <:+ path
    · obtain ⟨front, rfl⟩ := below
      rw [graft_append, graft_append]
    · have apart : ¬inner <:+ path := fun deeper => below (under.trans deeper)
      rw [graft_apart _ _ below, graft_apart _ _ below, graft_apart _ _ apart]
  unfold without
  rw [same]

/-- What takes an entry away takes nothing else, where its name is known. -/
theorem put_none (whole : t.Whole) {name : String} {dir : Path}
    (stands : t.node (name :: dir) ≠ none) :
    t.put (name :: dir) none = t.without (name :: dir) := by
  have known : t.learn (name :: dir) = t.known :=
    List.insert_of_mem (whole.named name dir stands)
  unfold put without
  rw [known]

/-- A directory lists nothing just where nothing stands in it. -/
theorem entries_isEmpty (whole : t.Whole) (dir : Path) :
    (t.entries dir).isEmpty = true ↔ ∀ name, t.node (name :: dir) = none := by
  rw [List.isEmpty_iff, entries, List.filterMap_eq_nil_iff]
  constructor
  · intro unlisted name
    by_contra stands
    have absent := unlisted name (whole.named name dir stands)
    rw [Option.map_eq_none_iff] at absent
    exact stands absent
  · intro absent name _
    rw [absent name]
    rfl

/-- The names a directory lists are those that stand in it, each once. -/
theorem entries_names (whole : t.Whole) (dir : Path) :
    ((t.entries dir).map DirEntry.name).Nodup ∧
      ∀ name, name ∈ (t.entries dir).map DirEntry.name ↔ t.node (name :: dir) ≠ none := by
  unfold entries
  rw [names_filterMap t.known (fun name => t.node (name :: dir)) fun node => node.seen.fileType]
  refine ⟨whole.known.filter _, fun name => ?_⟩
  rw [List.mem_filter, Option.isSome_iff_ne_none]
  exact ⟨fun both => both.2, fun stands => ⟨whole.named name dir stands, stands⟩⟩

namespace Whole

/-- A whole Tmpfs is whole with something put where a directory holds it. -/
theorem put (whole : t.Whole) {node : Option Node}
    (fits : node ≠ none → PathTree.Held Node.IsDirectory t.node place) : (t.put place node).Whole where
  closed := whole.closed.graft (.leaf node) fits
  named := by
    have wider : t.known ⊆ t.learn place := by
      cases place with
      | nil => exact List.Subset.refl _
      | cons name dir => exact fun one member => List.mem_insert_of_mem member
    refine (whole.named.mono wider).graft (.leaf _ node) ?_
    intro _ name dir same
    subst same
    exact List.mem_insert_self
  known := by
    cases place with
    | nil => exact whole.known
    | cons name dir => exact whole.known.insert
  finite := by
    refine (whole.finite.insert place).subset fun path stands => ?_
    by_cases here : path = place
    · exact .inl here
    · refine .inr fun absent => stands ?_
      show graft t.node place (leaf node) path = none
      by_cases under : place <:+ path
      · obtain ⟨front, rfl⟩ := under
        rw [graft_append]
        cases front with
        | nil => exact absurd rfl here
        | cons name rest => rfl
      · rw [graft_apart _ _ under, absent]

/-- A whole Tmpfs is whole without one of its entries. -/
theorem without (whole : t.Whole) (place : Path) : (t.without place).Whole where
  closed := whole.closed.graft (.leaf none) fun stands => absurd rfl stands
  named := whole.named.graft (.leaf _ none) fun stands => absurd rfl stands
  known := whole.known
  finite := by
    refine whole.finite.subset fun path stands => ?_
    intro absent
    exact stands (without_none place absent)

theorem standing_finite (whole : t.Whole) (place : Path) : (t.standing place).Finite :=
  whole.finite.subset fun _ member => member.2

/-- Beneath an entry in which nothing stands, nothing stands. -/
theorem alone (whole : t.Whole) (empty : ∀ name, t.node (name :: place) = none)
    (under : place <:+ path) (other : path ≠ place) : t.node path = none := by
  obtain ⟨front, rfl⟩ := under
  induction front with
  | nil => exact absurd rfl other
  | cons name rest ih =>
    by_contra stands
    obtain ⟨node, above, -⟩ := whole.closed name (rest ++ place) stands
    by_cases nearest : rest = []
    · subst nearest
      exact stands (empty name)
    · have absent := ih (by simpa using nearest)
      rw [absent] at above
      cases above

/-- An entry with nothing beneath it, taken away, is all that is gone. -/
theorem without_ne (whole : t.Whole) (empty : ∀ name, t.node (name :: place) = none)
    (other : path ≠ place) : (t.without place).node path = t.node path := by
  by_cases under : place <:+ path
  · rw [without_beneath t under, whole.alone empty under other]
  · exact without_apart t under

end Whole

/-- A new Tmpfs is whole. -/
theorem whole_empty : Tmpfs.empty.Whole where
  closed := .leaf _
  named := .leaf _ _
  known := List.nodup_nil
  finite := by
    refine (Set.finite_singleton []).subset fun path stands => ?_
    cases path with
    | nil => rfl
    | cons name dir => exact absurd rfl stands

end Tmpfs

/-! ## Rounds -/

section Round

variable {W D F V : Type} (layers : Layers W D F)

/-- One round of the loop of `ovl_workdir_cleanup`, the last of its stack taken off `pending`: what
the stack holds after it. -/
def cleanupRound (dir : OverlayPath D) (name : String) (pending : List (OverlayPath D × String)) :
    Ovl W D F V (List (OverlayPath D × String)) := do
  if (← dir.getattrAt layers name).fileType ≠ .dir then
    dir.doUnlink layers name
    pure pending
  else
    let inner ← dir.openDir layers name
    let listed ← inner.entries layers
    if listed.isEmpty then
      dir.doRmdir layers name
      pure pending
    else
      pure ((listed.map fun one => (inner, one.name)).reverse ++ (dir, name) :: pending)

/-- A cleanup is its rounds, one after another. -/
theorem workdirCleanup_succ (rounds : Nat) (dir : OverlayPath D) (name : String)
    (pending : List (OverlayPath D × String)) :
    (workdirCleanup layers (rounds + 1) ((dir, name) :: pending) : Ovl W D F V Unit) =
      cleanupRound layers dir name pending >>= workdirCleanup layers rounds := by
  unfold cleanupRound
  rw [workdirCleanup]
  simp only [bind_assoc]
  congr 1
  funext stat
  by_cases isDir : stat.fileType ≠ .dir
  · rw [if_pos isDir, if_pos isDir, bind_assoc]
    rfl
  · rw [if_neg isDir, if_neg isDir]
    simp only [bind_assoc]
    congr 1
    funext inner
    congr 1
    funext listed
    by_cases empty : listed.isEmpty = true
    · rw [if_pos empty, if_pos empty, bind_assoc]
      rfl
    · rw [if_neg empty, if_neg empty]
      rfl

/-- A cleanup underway: its stack, and the session it changes. -/
abbrev Cleaning (W D F V : Type) := List (OverlayPath D × String) × Session W D F V

/-- One round of a cleanup that is not refused. -/
def Round (before after : Cleaning W D F V) : Prop :=
  ∃ dir name pending, before.1 = (dir, name) :: pending ∧
    cleanupRound layers dir name pending before.2 = .ok after.1 after.2

end Round

section Stacked

variable (lowers : List LowerTree) (room : Nat → Bool) {V : Type}
  {s : Session Tmpfs Path Handle V}

/-- The path a name on the stack stands for. -/
def pathOf (top : OverlayPath Path × String) : Path := top.2 :: top.1.dentry

/-- What a directory of the upper lists, as it is laid on the stack. -/
def laid (t : Tmpfs) (dir : Path) : List (OverlayPath Path × String) :=
  ((t.entries dir).map fun one => (⟨UPPER, dir⟩, one.name)).reverse

variable {dir : Path} {name : String} {hides : Bool} {ino : Nat}

/-- What stands at a name of the upper, as it is asked for. -/
theorem getattrAt_eq {node : Node} (stands : s.world.node (name :: dir) = some node) :
    ∃ stat : Kstat, stat.fileType = node.seen.fileType ∧
      (⟨UPPER, dir⟩ : OverlayPath Path).getattrAt (stacked lowers room) name s = .ok stat s := by
  have held : holds lowers s.world UPPER (name :: dir) = some node.seen := by
    rw [holds_upper, stands]
    rfl
  have found : (⟨UPPER, dir⟩ : OverlayPath Path).lookupReal (stacked lowers room) name s =
      .ok (name :: dir) s := rfl
  have asked := @getattr_eq lowers room V s ((⟨UPPER, dir⟩ : OverlayPath Path).beneath (name :: dir))
    node.seen held
  unfold OverlayPath.getattrAt
  rw [bind_eq found, asked]
  exact ⟨_, rfl, rfl⟩

/-- A directory of the upper, opened. -/
theorem openDir_eq (stands : s.world.node (name :: dir) = some (.directory ino hides)) :
    (⟨UPPER, dir⟩ : OverlayPath Path).openDir (stacked lowers room) name s =
      .ok ⟨UPPER, name :: dir⟩ s := by
  have held : holds lowers s.world UPPER (name :: dir) = some (.directory hides) := by
    rw [holds_upper, stands]
    rfl
  have found : (⟨UPPER, dir⟩ : OverlayPath Path).lookupReal (stacked lowers room) name s =
      .ok (name :: dir) s := rfl
  have kind := @kindOf_eq lowers room V s ⟨UPPER, dir⟩ (name :: dir)
  unfold OverlayPath.openDir
  rw [bind_eq found, bind_eq kind, held]
  rfl

/-- A file is taken away. -/
theorem cleanupRound_file {node : Node} (pending : List (OverlayPath Path × String))
    (stands : s.world.node (name :: dir) = some node)
    (file : ∀ ino hides, node ≠ .directory ino hides) :
    cleanupRound (stacked lowers room) ⟨UPPER, dir⟩ name pending s =
      .ok pending { s with world := s.world.put (name :: dir) none } := by
  obtain ⟨stat, kind, asked⟩ := getattrAt_eq lowers room stands
  have other : stat.fileType ≠ .dir := by
    rw [kind]
    cases node with
    | file ino => simp [Node.seen, Seen.fileType]
    | directory ino hides => exact absurd rfl (file ino hides)
    | whiteout => simp [Node.seen, Seen.fileType]
  have removed : (⟨UPPER, dir⟩ : OverlayPath Path).doUnlink (stacked lowers room) name s =
      .ok () { s with world := s.world.put (name :: dir) none } := by
    have unlinked : Tmpfs.unlink (name :: dir) s.world = .ok () (s.world.put (name :: dir) none) := by
      rw [Tmpfs.unlink, stands]
      cases node with
      | file ino => rfl
      | directory ino hides => exact absurd rfl (file ino hides)
      | whiteout => rfl
    have asked : (stacked lowers room).doUnlink UPPER dir name s.world =
        .ok () (s.world.put (name :: dir) none) := unlinked
    unfold OverlayPath.doUnlink ask
    rw [asked]
  unfold cleanupRound
  rw [bind_eq asked, if_pos other, bind_eq removed]
  rfl

/-- A directory that lists nothing is taken away. -/
theorem cleanupRound_empty (pending : List (OverlayPath Path × String))
    (stands : s.world.node (name :: dir) = some (.directory ino hides))
    (empty : (s.world.entries (name :: dir)).isEmpty = true) :
    cleanupRound (stacked lowers room) ⟨UPPER, dir⟩ name pending s =
      .ok pending { s with world := s.world.put (name :: dir) none } := by
  obtain ⟨stat, kind, asked⟩ := getattrAt_eq lowers room stands
  have same : ¬stat.fileType ≠ .dir := not_not.mpr kind
  have listed : (⟨UPPER, name :: dir⟩ : OverlayPath Path).entries (stacked lowers room) s =
      .ok (s.world.entries (name :: dir)) s := rfl
  have removed : (⟨UPPER, dir⟩ : OverlayPath Path).doRmdir (stacked lowers room) name s =
      .ok () { s with world := s.world.put (name :: dir) none } := by
    have gone : Tmpfs.rmdir (name :: dir) s.world = .ok () (s.world.put (name :: dir) none) := by
      rw [Tmpfs.rmdir, stands]
      dsimp only
      rw [if_pos empty]
    have asked : (stacked lowers room).doRmdir UPPER dir name s.world =
        .ok () (s.world.put (name :: dir) none) := gone
    unfold OverlayPath.doRmdir ask
    rw [asked]
  unfold cleanupRound
  rw [bind_eq asked, if_neg same, bind_eq (openDir_eq lowers room stands), bind_eq listed,
    if_pos empty, bind_eq removed]
  rfl

/-- What a directory lists is laid on the stack. -/
theorem cleanupRound_filled (pending : List (OverlayPath Path × String))
    (stands : s.world.node (name :: dir) = some (.directory ino hides))
    (filled : ¬(s.world.entries (name :: dir)).isEmpty = true) :
    cleanupRound (stacked lowers room) ⟨UPPER, dir⟩ name pending s =
      .ok (laid s.world (name :: dir) ++ (⟨UPPER, dir⟩, name) :: pending) s := by
  obtain ⟨stat, kind, asked⟩ := getattrAt_eq lowers room stands
  have same : ¬stat.fileType ≠ .dir := not_not.mpr kind
  have listed : (⟨UPPER, name :: dir⟩ : OverlayPath Path).entries (stacked lowers room) s =
      .ok (s.world.entries (name :: dir)) s := rfl
  unfold cleanupRound
  rw [bind_eq asked, if_neg same, bind_eq (openDir_eq lowers room stands), bind_eq listed,
    if_neg filled]
  rfl

/-- An entry with nothing beneath it is taken away. -/
theorem cleanupRound_takes (whole : s.world.Whole) (pending : List (OverlayPath Path × String))
    (stands : s.world.node (name :: dir) ≠ none)
    (empty : ∀ child, s.world.node (child :: name :: dir) = none) :
    cleanupRound (stacked lowers room) ⟨UPPER, dir⟩ name pending s =
      .ok pending { s with world := s.world.without (name :: dir) } := by
  obtain ⟨node, found⟩ := Option.ne_none_iff_exists'.mp stands
  rw [← Tmpfs.put_none whole stands]
  by_cases directory : ∃ ino hides, node = .directory ino hides
  · obtain ⟨ino, hides, rfl⟩ := directory
    exact cleanupRound_empty lowers room pending found ((Tmpfs.entries_isEmpty whole _).mpr empty)
  · exact cleanupRound_file lowers room pending found
      fun ino hides same => directory ⟨ino, hides, same⟩

/-- What an entry holds is laid on the stack. -/
theorem cleanupRound_lays (whole : s.world.Whole) {name child : String}
    (pending : List (OverlayPath Path × String))
    (holding : s.world.node (child :: name :: dir) ≠ none) :
    cleanupRound (stacked lowers room) ⟨UPPER, dir⟩ name pending s =
      .ok (laid s.world (name :: dir) ++ (⟨UPPER, dir⟩, name) :: pending) s := by
  obtain ⟨node, found, ino, hides, rfl⟩ := whole.closed child (name :: dir) holding
  refine cleanupRound_filled lowers room pending found fun empty => ?_
  exact holding ((Tmpfs.entries_isEmpty whole _).mp empty child)

/-! ## Exactly one subtree -/

/-- So many rounds take an entry off the stack, and everything beneath it out of the upper. -/
def Takes (V : Type) (t : Tmpfs) (name : String) (dir : Path) : Prop :=
  ∃ used ≤ 2 * (t.standing (name :: dir)).ncard, ∀ (rounds : Nat)
    (pending : List (OverlayPath Path × String)) (s : Session Tmpfs Path Handle V), s.world = t →
      workdirCleanup (stacked lowers room) (used + rounds) ((⟨UPPER, dir⟩, name) :: pending) s =
        workdirCleanup (stacked lowers room) rounds pending
          { s with world := t.without (name :: dir) }

/-- A Tmpfs without some of the entries of a directory. -/
def Tmpfs.withoutAll (t : Tmpfs) (dir : Path) : List String → Tmpfs
  | [] => t
  | name :: rest => (t.without (name :: dir)).withoutAll dir rest

namespace Tmpfs

variable {t : Tmpfs} {dir : Path} {names : List String}

theorem Whole.withoutAll (whole : t.Whole) (dir : Path) (names : List String) :
    (t.withoutAll dir names).Whole := by
  induction names generalizing t with
  | nil => exact whole
  | cons name rest ih => exact ih (whole.without _)

/-- A directory taken away after some of its entries. -/
theorem withoutAll_without (t : Tmpfs) (dir : Path) (names : List String) :
    (t.withoutAll dir names).without dir = t.without dir := by
  induction names generalizing t with
  | nil => rfl
  | cons name rest ih => exact (ih _).trans (without_without t (List.suffix_cons name dir))

/-- A directory stands without its entries. -/
theorem withoutAll_self (t : Tmpfs) (dir : Path) (names : List String) :
    (t.withoutAll dir names).node dir = t.node dir := by
  induction names generalizing t with
  | nil => rfl
  | cons name rest ih => exact (ih _).trans (without_apart t (not_cons_suffix name dir))

theorem withoutAll_none {path : Path} (absent : t.node path = none) (dir : Path)
    (names : List String) : (t.withoutAll dir names).node path = none := by
  induction names generalizing t with
  | nil => exact absent
  | cons name rest ih => exact ih (without_none _ absent)

/-- Nothing stands where an entry was taken away. -/
theorem withoutAll_mem {name : String} (member : name ∈ names) :
    (t.withoutAll dir names).node (name :: dir) = none := by
  induction names generalizing t with
  | nil => cases member
  | cons first rest ih =>
    rcases List.mem_cons.mp member with rfl | later
    · exact withoutAll_none (without_beneath t (List.suffix_refl _)) dir rest
    · exact ih later

/-- The entries of a directory are apart. -/
theorem not_suffix_sibling {name other : String} (differ : name ≠ other) :
    ¬name :: dir <:+ other :: dir := by
  intro suffix
  have same := suffix.eq_of_length rfl
  exact differ (List.cons.inj same).1

end Tmpfs

variable {lowers room}

/-- The entries of a directory are taken off the stack one after another. -/
theorem takes_all {most : Nat} (takes : ∀ (t : Tmpfs) (name : String), t.Whole →
      t.node (name :: dir) ≠ none → (t.standing (name :: dir)).ncard < most →
      Takes lowers room V t name dir) (names : List String) (once : names.Nodup) (t : Tmpfs)
    (whole : t.Whole) (own : t.node dir ≠ none)
    (stand : ∀ name ∈ names, t.node (name :: dir) ≠ none) (few : (t.standing dir).ncard ≤ most) :
    ∃ used, used + 2 * ((t.withoutAll dir names).standing dir).ncard ≤
        2 * (t.standing dir).ncard ∧
      ∀ (rounds : Nat) (pending : List (OverlayPath Path × String))
        (s : Session Tmpfs Path Handle V), s.world = t →
        workdirCleanup (stacked lowers room) (used + rounds)
            (names.map (fun name => (⟨UPPER, dir⟩, name)) ++ pending) s =
          workdirCleanup (stacked lowers room) rounds pending
            { s with world := t.withoutAll dir names } := by
  induction names generalizing t with
  | nil =>
    refine ⟨0, by simp [Tmpfs.withoutAll], fun rounds pending s same => ?_⟩
    subst same
    rw [Nat.zero_add]
    rfl
  | cons name rest ih =>
    have finite := whole.standing_finite dir
    have inside : t.standing (name :: dir) ⊆ t.standing dir :=
      fun path member => ⟨(List.suffix_cons name dir).trans member.1, member.2⟩
    have smaller : t.standing (name :: dir) ⊂ t.standing dir := by
      refine inside.ssubset_of_mem_notMem (a := dir) ⟨List.suffix_refl dir, own⟩ ?_
      exact fun member => not_cons_suffix name dir member.1
    have fewer := Set.ncard_lt_ncard smaller finite
    obtain ⟨used, cost, taken⟩ := takes t name whole (stand name List.mem_cons_self) (by omega)
    have left := Set.ncard_sdiff_add_ncard_of_subset inside finite
    rw [← Tmpfs.standing_without] at left
    have fresh := (List.nodup_cons.mp once).1
    have later : ∀ other ∈ rest, (t.without (name :: dir)).node (other :: dir) ≠ none := by
      intro other member
      have differ : name ≠ other := fun same => fresh (same ▸ member)
      rw [Tmpfs.without_apart t (Tmpfs.not_suffix_sibling differ)]
      exact stand other (List.mem_cons_of_mem _ member)
    obtain ⟨more, costs, takenAll⟩ := ih (List.nodup_cons.mp once).2 (t.without (name :: dir))
      (whole.without _) (by rwa [Tmpfs.without_apart t (not_cons_suffix name dir)]) later (by omega)
    refine ⟨used + more, by simp only [Tmpfs.withoutAll]; omega, fun rounds pending s same => ?_⟩
    rw [Nat.add_assoc, List.map_cons, List.cons_append, taken _ _ s same]
    exact takenAll rounds pending _ rfl

/-- What is laid on the stack, by the names a directory lists. -/
theorem laid_eq (t : Tmpfs) (dir : Path) :
    laid t dir = ((t.entries dir).map DirEntry.name).reverse.map fun name => (⟨UPPER, dir⟩, name) := by
  rw [laid, List.map_reverse, List.map_map]
  rfl

/-- Every entry is taken off the stack in at most two rounds for each entry at or beneath it. -/
theorem takes (t : Tmpfs) (whole : t.Whole) (name : String) (dir : Path)
    (stands : t.node (name :: dir) ≠ none) : Takes lowers room V t name dir := by
  -- The entries beneath a directory are fewer than those at or beneath it.
  induction count : (t.standing (name :: dir)).ncard using Nat.strongRecOn generalizing t name dir with
  | ind most ih =>
    have present : ∀ t : Tmpfs, t.Whole → t.node (name :: dir) ≠ none →
        0 < (t.standing (name :: dir)).ncard := by
      intro t whole stands
      rw [Set.ncard_pos (whole.standing_finite _)]
      exact ⟨name :: dir, List.suffix_refl _, stands⟩
    by_cases empty : ∀ child, t.node (child :: name :: dir) = none
    · have some := present t whole stands
      refine ⟨1, by omega, fun rounds pending s same => ?_⟩
      subst same
      rw [Nat.add_comm, workdirCleanup_succ,
        bind_eq (cleanupRound_takes lowers room whole pending stands empty)]
    · obtain ⟨child, holding⟩ := not_forall.mp empty
      obtain ⟨once, listed⟩ := Tmpfs.entries_names whole (name :: dir)
      have fewer : ∀ (t : Tmpfs) (inner : String), t.Whole → t.node (inner :: name :: dir) ≠ none →
          (t.standing (inner :: name :: dir)).ncard < most →
          Takes lowers room V t inner (name :: dir) :=
        fun t inner whole stands less => ih _ less t whole inner (name :: dir) stands rfl
      generalize naming : ((t.entries (name :: dir)).map DirEntry.name).reverse = names
      have lists : ∀ inner, inner ∈ names ↔ t.node (inner :: name :: dir) ≠ none := by
        intro inner
        rw [← naming, List.mem_reverse, listed inner]
      obtain ⟨used, costs, taken⟩ := takes_all fewer names (naming ▸ List.nodup_reverse.mpr once)
        t whole stands (fun inner member => (lists inner).mp member) (by omega)
      have emptied : ∀ child, (t.withoutAll (name :: dir) names).node (child :: name :: dir) = none := by
        intro child
        by_cases member : child ∈ names
        · exact Tmpfs.withoutAll_mem member
        · exact Tmpfs.withoutAll_none (not_not.mp (mt (lists child).mpr member)) _ _
      have still : (t.withoutAll (name :: dir) names).node (name :: dir) ≠ none := by
        rwa [Tmpfs.withoutAll_self]
      have left := present _ (whole.withoutAll (name :: dir) names) still
      refine ⟨1 + (used + 1), by omega, fun rounds pending s same => ?_⟩
      subst same
      rw [Nat.add_assoc, Nat.add_comm 1, workdirCleanup_succ,
        bind_eq (cleanupRound_lays lowers room whole pending holding), laid_eq, naming,
        Nat.add_assoc, taken _ _ s rfl, Nat.add_comm 1, workdirCleanup_succ]
      have last := cleanupRound_takes lowers room
        (s := { s with world := s.world.withoutAll (name :: dir) names })
        (whole.withoutAll (name :: dir) names) pending still emptied
      rw [bind_eq last, Tmpfs.withoutAll_without]

/-! ## The stack -/

/-- What holds of the stack of a cleanup: everything on it stands, and nothing on it is beneath
what lies over it. -/
structure Stack (cleaning : Cleaning Tmpfs Path Handle V) : Prop where
  whole : cleaning.2.world.Whole
  /-- What is on the stack is the upper's and stands. -/
  stand : ∀ top ∈ cleaning.1, top.1.layer = UPPER ∧ cleaning.2.world.node (pathOf top) ≠ none
  /-- Nothing is laid beneath what it is beneath. -/
  apart : cleaning.1.Pairwise fun top below => ¬pathOf top <:+ pathOf below

/-- What is laid on the stack of a directory stands in it. -/
theorem mem_laid {t : Tmpfs} (whole : t.Whole) {top : OverlayPath Path × String}
    (member : top ∈ laid t dir) :
    top.1 = ⟨UPPER, dir⟩ ∧ t.node (pathOf top) ≠ none := by
  rw [laid_eq] at member
  obtain ⟨name, listed, rfl⟩ := List.mem_map.mp member
  exact ⟨rfl, ((Tmpfs.entries_names whole dir).2 name).mp (List.mem_reverse.mp listed)⟩

/-- What is laid on the stack of a directory is laid once. -/
theorem laid_apart {t : Tmpfs} (whole : t.Whole) (dir : Path) :
    (laid t dir).Pairwise fun top below => ¬pathOf top <:+ pathOf below := by
  rw [laid_eq]
  refine List.Pairwise.map _ (fun _ _ => Tmpfs.not_suffix_sibling) ?_
  exact List.nodup_reverse.mpr (Tmpfs.entries_names whole dir).1

/-- A round keeps what holds of the stack, and nothing stands after it that did not before. -/
theorem Round.stack {before after : Cleaning Tmpfs Path Handle V}
    (round : Round (stacked lowers room) before after) (stack : Stack before) :
    Stack after ∧ ∀ path, before.2.world.node path = none → after.2.world.node path = none := by
  obtain ⟨⟨layer, dir⟩, name, pending, holding, ended⟩ := round
  obtain ⟨on, s⟩ := before
  obtain ⟨on', s'⟩ := after
  dsimp only at holding ended
  subst holding
  obtain ⟨upper, stands⟩ := stack.stand _ List.mem_cons_self
  dsimp only at upper
  subst upper
  obtain ⟨atop, rest⟩ := List.pairwise_cons.mp stack.apart
  by_cases empty : ∀ child, s.world.node (child :: name :: dir) = none
  · rw [cleanupRound_takes lowers room stack.whole pending stands empty] at ended
    cases ended
    refine ⟨⟨stack.whole.without _, fun top member => ?_, rest⟩, fun path absent =>
      Tmpfs.without_none _ absent⟩
    have other : pathOf top ≠ name :: dir := by
      intro same
      exact atop top member (same ▸ List.suffix_refl _)
    refine ⟨(stack.stand top (List.mem_cons_of_mem _ member)).1, ?_⟩
    show (s.world.without (name :: dir)).node (pathOf top) ≠ none
    rw [stack.whole.without_ne empty other]
    exact (stack.stand top (List.mem_cons_of_mem _ member)).2
  · obtain ⟨child, stood⟩ := not_forall.mp empty
    rw [cleanupRound_lays lowers room stack.whole pending stood] at ended
    cases ended
    refine ⟨⟨stack.whole, fun top member => ?_, ?_⟩, fun path absent => absent⟩
    · rcases List.mem_append.mp member with new | old
      · obtain ⟨same, present⟩ := mem_laid stack.whole new
        exact ⟨by rw [same], present⟩
      · exact stack.stand top old
    · refine List.pairwise_append.mpr ⟨laid_apart stack.whole _, stack.apart, ?_⟩
      intro top new below old suffix
      obtain ⟨same, -⟩ := mem_laid stack.whole new
      have inside : name :: dir <:+ pathOf top := by
        rw [pathOf, same]
        exact List.suffix_cons _ _
      rcases List.mem_cons.mp old with rfl | older
      · have longer := (suffix.trans (List.suffix_refl (name :: dir))).length_le
        rw [pathOf, same] at longer
        simp only [List.length_cons] at longer
        omega
      · exact atop below older (inside.trans suffix)

/-- Any number of rounds keep what holds of the stack. -/
theorem rounds_stack {before after : Cleaning Tmpfs Path Handle V}
    (rounds : Relation.ReflTransGen (Round (stacked lowers room)) before after)
    (stack : Stack before) :
    Stack after ∧ ∀ path, before.2.world.node path = none → after.2.world.node path = none := by
  induction rounds with
  | refl => exact ⟨stack, fun _ absent => absent⟩
  | tail _ round ih =>
    obtain ⟨next, still⟩ := round.stack ih.1
    exact ⟨next, fun path absent => still path (ih.2 path absent)⟩

/-- `ovl_workdir_cleanup` of a name of a finite upper ends, at the latest after two rounds for each
entry it takes away. That name is gone then with everything beneath it, every other entry stands as
it did, and at no round is anything on its stack that was taken away before. -/
theorem workdir_cleanup_takes_one_subtree (lowers : List LowerTree) (room : Nat → Bool)
    (s : Session Tmpfs Path Handle V) (whole : s.world.Whole) (name : String) (dir : Path)
    (stands : s.world.node (name :: dir) ≠ none) :
    (∀ rounds ≥ 2 * (s.world.standing (name :: dir)).ncard, ∃ after,
      workdirCleanup (stacked lowers room) rounds [(⟨UPPER, dir⟩, name)] s = .ok () after ∧
      OnlyWorld s after ∧ after.world.bytes = s.world.bytes ∧
      (∀ path, name :: dir <:+ path → after.world.node path = none) ∧
      ∀ path, ¬name :: dir <:+ path → after.world.node path = s.world.node path) ∧
    ∀ earlier later : Cleaning Tmpfs Path Handle V,
      Relation.ReflTransGen (Round (stacked lowers room)) ([(⟨UPPER, dir⟩, name)], s) earlier →
      Relation.ReflTransGen (Round (stacked lowers room)) earlier later →
      ∀ top ∈ later.1, earlier.2.world.node (pathOf top) ≠ none := by
  constructor
  · intro rounds enough
    have enters : Takes lowers room V s.world name dir := takes s.world whole name dir stands
    obtain ⟨used, cost, taken⟩ := enters
    obtain ⟨spare, rfl⟩ : ∃ spare, rounds = used + spare := ⟨rounds - used, by omega⟩
    refine ⟨{ s with world := s.world.without (name :: dir) }, ?_, rfl, rfl,
      fun path under => Tmpfs.without_beneath _ under,
      fun path apart => Tmpfs.without_apart _ apart⟩
    rw [taken spare [] s rfl, workdirCleanup]
    rfl
  · intro earlier later early late top member absent
    have start : Stack (([(⟨UPPER, dir⟩, name)], s) : Cleaning Tmpfs Path Handle V) := by
      refine ⟨whole, fun top member => ?_, List.pairwise_singleton _ _⟩
      rw [List.mem_singleton.mp member]
      exact ⟨rfl, stands⟩
    obtain ⟨ended, gone⟩ := rounds_stack late (rounds_stack early start).1
    exact (ended.stand top member).2 (gone (pathOf top) absent)

end Stacked

/-- A workdir in which an earlier mount left a directory with a file in it. -/
def leftover : Tmpfs :=
  ((Tmpfs.empty.put ["work"] (some (.directory 2 false))).put ["#0", "work"]
    (some (.directory 3 false))).put ["a", "#0", "work"] (some (.file 4))

theorem leftover_whole : leftover.Whole := by
  have root : ∀ name dir, ["work"] = name :: dir → ∃ node, Tmpfs.empty.node dir = some node ∧
      node.IsDirectory := by
    intro name dir same
    cases same
    exact ⟨_, rfl, 1, false, rfl⟩
  refine ((Tmpfs.whole_empty.put fun _ => root).put fun _ name dir same => ?_).put
    fun _ name dir same => ?_
  · cases same
    exact ⟨_, rfl, 2, false, rfl⟩
  · cases same
    exact ⟨_, rfl, 3, false, rfl⟩

/-- What an earlier mount left goes with what it holds, the workdir stays. -/
theorem workdir_cleanup_takes_leftover : ∃ rounds after,
    workdirCleanup (stacked [] fun _ => true) rounds [(⟨UPPER, ["work"]⟩, "#0")]
      (⟨leftover, fun _ => none, 0, []⟩ : Session Tmpfs Path Handle Nat) = .ok () after ∧
    after.world.node ["a", "#0", "work"] = none ∧
    after.world.node ["work"] = some (.directory 2 false) := by
  have ended := (workdir_cleanup_takes_one_subtree [] (fun _ => true)
    (⟨leftover, fun _ => none, 0, []⟩ : Session Tmpfs Path Handle Nat) leftover_whole "#0" ["work"]
    (by decide)).1 _ (Nat.le_refl _)
  obtain ⟨after, cleaned, -, -, gone, still⟩ := ended
  refine ⟨_, after, cleaned, gone _ ⟨["a"], rfl⟩, ?_⟩
  rw [still _ (by decide)]
  rfl

end Kobako.Overlay
