import Mathlib.Logic.Function.Basic
import Mathlib.Logic.Relation

/-!
# Parent pointers

Each item names at most one above it. Following them up ends at a root from wherever the pointers
turn back on nobody, and the search for an ancestor ends there too. An item hung beneath another
keeps that as long as it does not stand above its new place.
-/

namespace Kobako

variable {α : Type}

/-- Following the pointers up ends at an item that names nobody. -/
inductive Rooted (parent : α → Option α) : α → Prop
  | root {item : α} (top : parent item = none) : Rooted parent item
  | under {item above : α} (points : parent item = some above) (rooted : Rooted parent above) :
      Rooted parent item

/-- A proper ancestor. -/
def Above (parent : α → Option α) (ancestor item : α) : Prop :=
  Relation.TransGen (fun lower upper => parent lower = some upper) item ancestor

/-- An item or a proper ancestor of it. -/
def AtOrAbove (parent : α → Option α) (ancestor item : α) : Prop :=
  item = ancestor ∨ Above parent ancestor item

/-- The search of an ancestor, none while the rounds do not reach its end. -/
def ancestorWithin [DecidableEq α] (parent : α → Option α) (ancestor : α) : Nat → α → Option Bool
  | 0, _ => none
  | rounds + 1, item =>
    match parent item with
    | none => some false
    | some above =>
      if above = ancestor then some true else ancestorWithin parent ancestor rounds above

/-- What is read off every item on the way up to the root, the item's own first and the root left
out; none while the rounds do not reach the end. -/
def climb {β : Type} (parent : α → Option α) (read : α → β) : Nat → α → Option (List β)
  | 0, _ => none
  | rounds + 1, item =>
    match parent item with
    | none => some []
    | some above => (climb parent read rounds above).map (read item :: ·)

variable {parent next : α → Option α} {item above ancestor : α}

/-- What stands above an item is its parent or stands above that. -/
theorem above_iff (points : parent item = some above) :
    Above parent ancestor item ↔ AtOrAbove parent ancestor above := by
  constructor
  · intro higher
    obtain ⟨middle, step, rest⟩ := Relation.TransGen.head'_iff.mp higher
    have same : above = middle := Option.some.inj (points.symm.trans step)
    subst same
    exact (Relation.reflTransGen_iff_eq_or_transGen.mp rest).imp (fun same => same.symm) id
  · intro higher
    refine Relation.TransGen.head'_iff.mpr ⟨above, points, ?_⟩
    exact Relation.reflTransGen_iff_eq_or_transGen.mpr (higher.imp (fun same => same.symm) id)

/-- Nothing stands above a root. -/
theorem not_above_root (top : parent item = none) : ¬Above parent ancestor item := by
  intro higher
  obtain ⟨middle, step, _⟩ := Relation.TransGen.head'_iff.mp higher
  simp [top] at step

/-- What stands above an ancestor stands above the item. -/
theorem Above.trans {middle : α} (higher : Above parent ancestor middle)
    (lower : Above parent middle item) : Above parent ancestor item :=
  Relation.TransGen.trans lower higher

/-- What stands at or above an ancestor stands above the item. -/
theorem AtOrAbove.trans_above {middle : α} (higher : AtOrAbove parent ancestor middle)
    (lower : Above parent middle item) : Above parent ancestor item := by
  obtain same | higher := higher
  · exact same ▸ lower
  · exact higher.trans lower

/-- Pointers changed nowhere on the way up leave what stands above. -/
theorem Above.of_unchanged (higher : Above next ancestor item)
    (same : ∀ upper, AtOrAbove parent upper item → next upper = parent upper) :
    Above parent ancestor item := by
  induction higher using Relation.TransGen.head_induction_on with
  | single points => exact .single ((same _ (.inl rfl)).symm.trans points)
  | head points _ ih =>
    have step : parent _ = some _ := (same _ (.inl rfl)).symm.trans points
    refine .head step (ih fun upper higher => same upper (.inr ?_))
    exact (above_iff step).mpr higher

namespace Rooted

/-- An item that reaches a root is not its own ancestor. -/
theorem irrefl (rooted : Rooted parent item) : ¬Above parent item item := by
  induction rooted with
  | root top => exact not_above_root top
  | under points _ ih =>
    intro cycle
    obtain same | higher := (above_iff points).mp cycle
    · exact ih (same ▸ cycle)
    · exact ih (higher.tail points)

/-- Pointers changed nowhere on the way up leave the way as it is. -/
theorem unchanged (rooted : Rooted parent item)
    (same : ∀ ancestor, AtOrAbove parent ancestor item → next ancestor = parent ancestor) :
    Rooted next item := by
  induction rooted with
  | root top => exact .root ((same _ (.inl rfl)).trans top)
  | under points _ ih =>
    refine .under ((same _ (.inl rfl)).trans points) (ih ?_)
    intro ancestor higher
    exact same ancestor (.inr ((above_iff points).mpr higher))

/-- Items hung anew beneath what reaches a root, the others as they were, all reach one. -/
theorem reparent (rooted : Rooted parent item)
    (hung : ∀ lower, next lower = parent lower ∨
      ∃ upper, next lower = some upper ∧ Rooted next upper) : Rooted next item := by
  induction rooted with
  | @root item top =>
    obtain same | ⟨upper, points, rest⟩ := hung item
    · exact .root (same.trans top)
    · exact .under points rest
  | @under item above points _ ih =>
    obtain same | ⟨upper, moved, rest⟩ := hung item
    · exact .under (same.trans points) ih
    · exact .under moved rest

/-- One item hung beneath another it does not stand above. -/
theorem hang [DecidableEq α] {moved upper : α} (rooted : Rooted parent item)
    (reaches : Rooted parent upper) (clear : ¬AtOrAbove parent moved upper) :
    Rooted (Function.update parent moved (some upper)) item := by
  have kept : Rooted (Function.update parent moved (some upper)) upper := by
    refine reaches.unchanged fun ancestor higher => Function.update_of_ne ?_ _ _
    intro same
    exact clear (same ▸ higher)
  refine rooted.reparent fun lower => ?_
  by_cases same : lower = moved
  · exact .inr ⟨upper, by simp [same], kept⟩
  · exact .inl (Function.update_of_ne same _ _)

/-- The way up is read to its end in some number of rounds, and in every larger one. -/
theorem climb_ends {β : Type} (read : α → β) (rooted : Rooted parent item) :
    ∃ rounds, ∀ more, rounds ≤ more → (climb parent read more item).isSome = true := by
  induction rooted with
  | root top =>
    refine ⟨1, fun more enough => ?_⟩
    obtain ⟨fewer, rfl⟩ : ∃ fewer, more = fewer + 1 := ⟨more - 1, by omega⟩
    simp [climb, top]
  | under points _ ih =>
    obtain ⟨rounds, ends⟩ := ih
    refine ⟨rounds + 1, fun more enough => ?_⟩
    obtain ⟨fewer, rfl⟩ : ∃ fewer, more = fewer + 1 := ⟨more - 1, by omega⟩
    simpa [climb, points] using ends fewer (by omega)

/-- The search of an ancestor ends in some number of rounds, and in every larger one. -/
theorem search_ends [DecidableEq α] (ancestor : α) (rooted : Rooted parent item) :
    ∃ rounds, ∀ more, rounds ≤ more → (ancestorWithin parent ancestor more item).isSome = true := by
  induction rooted with
  | root top =>
    refine ⟨1, fun more enough => ?_⟩
    obtain ⟨fewer, rfl⟩ : ∃ fewer, more = fewer + 1 := ⟨more - 1, by omega⟩
    simp [ancestorWithin, top]
  | under points _ ih =>
    obtain ⟨rounds, ends⟩ := ih
    refine ⟨rounds + 1, fun more enough => ?_⟩
    obtain ⟨fewer, rfl⟩ : ∃ fewer, more = fewer + 1 := ⟨more - 1, by omega⟩
    have rest := ends fewer (by omega)
    simp only [ancestorWithin, points]
    split
    · rfl
    · exact rest

end Rooted

/-- What the search of an ancestor answers is whether it is one. -/
theorem ancestorWithin_iff [DecidableEq α] {rounds : Nat} {answer : Bool}
    (ended : ancestorWithin parent ancestor rounds item = some answer) :
    answer = true ↔ Above parent ancestor item := by
  induction rounds generalizing item with
  | zero => simp [ancestorWithin] at ended
  | succ rounds ih =>
    rw [ancestorWithin] at ended
    cases points : parent item with
    | none =>
      have refused : false = answer := by simpa [points] using ended
      simpa [← refused] using not_above_root points
    | some above =>
      simp only [points] at ended
      rw [above_iff points]
      by_cases here : above = ancestor
      · have found : true = answer := by simpa [here] using ended
        simp [← found, AtOrAbove, here]
      · rw [if_neg here] at ended
        rw [ih ended, AtOrAbove, or_iff_right here]

end Kobako
