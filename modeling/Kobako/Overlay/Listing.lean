import Kobako.Overlay.Lower
import Kobako.Overlay.Tmpfs

/-!
# What a directory of a Layer lists

A Tmpfs and a lower tree answer what stands at a path, and list each directory as just what stands
in it.
-/

namespace Kobako.Overlay

open Vfs PathTree

variable {lowers : List LowerTree} {room : Nat → Bool} {V : Type}

/-- An entry of the upper that may hold others. -/
def Node.IsDirectory (node : Node) : Prop := ∃ ino hides, node = .directory ino hides

section Asking

variable {s : Session Tmpfs Path Handle V}

/-- What kind of entry a Layer tells of a path. -/
theorem kindOf_eq (dir : OverlayPath Path) (path : Path) :
    dir.kindOf (stacked lowers room) path s =
      .ok ((holds lowers s.world dir.layer path).map Seen.fileType) s := rfl

/-- What a Layer tells of an entry that stands. -/
theorem getattr_eq {dir : OverlayPath Path} {seen : Seen}
    (held : holds lowers s.world dir.layer dir.dentry = some seen) :
    dir.getattr (stacked lowers room) s = .ok ⟨seen.fileType, dir.layer,
      inoAt lowers s.world dir.layer dir.dentry, 1, none, none⟩ s := by
  have asked : (stacked lowers room).getattr dir.layer dir.dentry s.world =
      .ok ⟨seen.fileType, dir.layer, inoAt lowers s.world dir.layer dir.dentry, 1, none, none⟩
        s.world := by
    show statAt lowers s.world dir.layer dir.dentry s.world = _
    rw [statAt, held]
    rfl
  unfold OverlayPath.getattr ask
  rw [asked]

end Asking

/-- A directory of a Layer lists just what stands in it, each entry as what it is. -/
def Lists (lowers : List LowerTree) (t : Tmpfs) (dir : OverlayPath Path) : Prop :=
  (∀ listed ∈ entriesAt lowers t dir.layer dir.dentry, ∃ seen,
    holds lowers t dir.layer (listed.name :: dir.dentry) = some seen ∧
      listed.fileType = seen.fileType) ∧
  ∀ name, holds lowers t dir.layer (name :: dir.dentry) ≠ none →
    ∃ listed ∈ entriesAt lowers t dir.layer dir.dentry, listed.name = name

/-- Every Layer lists what stands in its directories. -/
theorem lists (t : Tmpfs) (named : Named t.known t.node) (dir : OverlayPath Path) :
    Lists lowers t dir := by
  obtain ⟨layer, path⟩ := dir
  cases layer with
  | zero =>
    constructor
    · intro listed member
      obtain ⟨name, -, found⟩ := List.mem_filterMap.mp member
      obtain ⟨node, held, rfl⟩ := Option.map_eq_some_iff.mp found
      refine ⟨node.seen, ?_, rfl⟩
      change (t.node (name :: path)).map Node.seen = _
      rw [held]
      rfl
    · intro name stands
      have there : t.node (name :: path) ≠ none := by
        intro absent
        apply stands
        change (t.node (name :: path)).map Node.seen = none
        rw [absent]
        rfl
      obtain ⟨node, held⟩ := Option.ne_none_iff_exists'.mp there
      refine ⟨⟨name, node.seen.fileType⟩, ?_, rfl⟩
      exact List.mem_filterMap.mpr ⟨name, named name path there, by rw [held]; rfl⟩
  | succ index =>
    unfold Lists
    simp only [entriesAt, holds_lower]
    cases lowers[index]? with
    | none => simp
    | some tree =>
      simp only [Option.map_some, Option.getD_some, Option.bind_some]
      constructor
      · intro listed member
        obtain ⟨name, -, found⟩ := List.mem_filterMap.mp member
        obtain ⟨node, held, rfl⟩ := Option.map_eq_some_iff.mp found
        exact ⟨node.seen, by rw [held]; rfl, rfl⟩
      · intro name stands
        have there : tree.node (name :: path) ≠ none := by
          intro absent
          exact stands (by rw [absent]; rfl)
        obtain ⟨node, held⟩ := Option.ne_none_iff_exists'.mp there
        refine ⟨⟨name, node.seen.fileType⟩, ?_, rfl⟩
        exact List.mem_filterMap.mpr ⟨name, (tree.listed path name).mpr there, by rw [held]; rfl⟩

end Kobako.Overlay
