import Mathlib.Data.List.Infix
import Mathlib.Logic.Function.Basic

/-!
# Trees by path

A tree told by what stands at each path, a path being the keys that lead to it, the last one first.
Everything beneath one path is a tree again, and `graft` puts such a tree in place of everything
beneath another. What holds of a tree at every path holds of a grafted one where it holds of both
parts.
-/

namespace Kobako.PathTree

variable {κ α : Type}

/-- A tree: what stands at each path, if anything. -/
abbrev Tree (κ α : Type) := List κ → Option α

/-- A tree of nothing but what stands at its root. -/
def leaf (a : Option α) : Tree κ α
  | [] => a
  | _ :: _ => none

/-- The tree beneath a path. -/
def beneath (tree : Tree κ α) (place : List κ) : Tree κ α := fun path => tree (path ++ place)

variable [DecidableEq κ]

/-- A tree with another in place of everything beneath a path. -/
def graft (tree : Tree κ α) (place : List κ) (other : Tree κ α) : Tree κ α := fun path =>
  if place <:+ path then other (path.take (path.length - place.length)) else tree path

@[simp]
theorem graft_append (tree : Tree κ α) (place : List κ) (other : Tree κ α) (path : List κ) :
    graft tree place other (path ++ place) = other path := by
  rw [graft, if_pos (List.suffix_append path place), List.length_append, Nat.add_sub_cancel,
    List.take_left]

@[simp]
theorem graft_self (tree : Tree κ α) (place : List κ) (other : Tree κ α) :
    graft tree place other place = other [] :=
  graft_append tree place other []

theorem graft_apart (tree : Tree κ α) {place path : List κ} (other : Tree κ α)
    (apart : ¬ place <:+ path) : graft tree place other path = tree path := by
  rw [graft, if_neg apart]

omit [DecidableEq κ] in
/-- A path is never beneath one of the paths beneath it. -/
theorem not_cons_suffix (key : κ) (path : List κ) : ¬ key :: path <:+ path := by
  intro suffix
  have shorter := suffix.length_le
  rw [List.length_cons] at shorter
  omega

omit [DecidableEq κ] in
/-- What is beneath a path is the path or has a parent beneath it. -/
theorem suffix_cons_cases {place path : List κ} {key : κ} (suffix : place <:+ key :: path) :
    place = key :: path ∨ place <:+ path :=
  List.suffix_cons_iff.mp suffix

/-! ## Closed trees -/

/-- Nothing stands but beneath what may hold something. -/
def Closed (holder : α → Prop) (tree : Tree κ α) : Prop :=
  ∀ key path, tree (key :: path) ≠ none → ∃ a, tree path = some a ∧ holder a

/-- What may stand at a path of a closed tree: only what its parent may hold. -/
def Held (holder : α → Prop) (tree : Tree κ α) (place : List κ) : Prop :=
  ∀ key path, place = key :: path → ∃ a, tree path = some a ∧ holder a

section Closed

variable {holder : α → Prop} {tree : Tree κ α}

omit [DecidableEq κ] in
theorem Closed.leaf (a : Option α) : Closed holder (leaf a : Tree κ α) :=
  fun _ _ stands => absurd rfl stands

/-- A closed tree grafted where something may stand. -/
theorem Closed.graft (closed : Closed holder tree) {place : List κ} {other : Tree κ α}
    (inner : Closed holder other) (fits : other [] ≠ none → Held holder tree place) :
    Closed holder (graft tree place other) := by
  intro key path stands
  by_cases below : place <:+ key :: path
  · rcases suffix_cons_cases below with rfl | above
    · rw [graft_self] at stands
      obtain ⟨a, found, holds⟩ := fits stands key path rfl
      exact ⟨a, by rw [graft_apart tree other (not_cons_suffix key path), found], holds⟩
    · obtain ⟨rest, rfl⟩ := above
      rw [← List.cons_append, graft_append] at stands
      rw [graft_append]
      exact inner key rest stands
  · rw [graft_apart tree other below] at stands
    obtain ⟨a, found, holds⟩ := closed key path stands
    have apart : ¬ place <:+ path := fun above => below (above.trans (List.suffix_cons key path))
    exact ⟨a, by rw [graft_apart tree other apart, found], holds⟩

end Closed

/-! ## Keys -/

/-- Every key of a tree is known. -/
def Named (known : List κ) (tree : Tree κ α) : Prop :=
  ∀ key path, tree (key :: path) ≠ none → key ∈ known

/-- What is known of a tree and of what is grafted into it is known of both. -/
theorem Named.graft {known : List κ} {tree other : Tree κ α} (named : Named known tree)
    {place : List κ} (inner : Named known other)
    (own : other [] ≠ none → ∀ key path, place = key :: path → key ∈ known) :
    Named known (graft tree place other) := by
  intro key path stands
  by_cases below : place <:+ key :: path
  · rcases suffix_cons_cases below with rfl | above
    · rw [graft_self] at stands
      exact own stands key path rfl
    · obtain ⟨rest, rfl⟩ := above
      rw [← List.cons_append, graft_append] at stands
      exact inner key rest stands
  · rw [graft_apart tree other below] at stands
    exact named key path stands

omit [DecidableEq κ] in
theorem Named.leaf (known : List κ) (a : Option α) : Named known (leaf a) :=
  fun _ _ stands => absurd rfl stands

omit [DecidableEq κ] in
theorem Named.mono {known more : List κ} {tree : Tree κ α} (named : Named known tree)
    (wider : known ⊆ more) : Named more tree :=
  fun key path stands => wider (named key path stands)

end Kobako.PathTree
