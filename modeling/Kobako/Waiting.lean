import Mathlib.Data.Fintype.Card
import Mathlib.Data.Fintype.EquivFin
import Mathlib.Order.WellFounded

/-!
# Waiting in order

Threads that hold resources and wait for others. Where every thread waits for a resource that
comes after all it holds, in some strict order, no finite set of them waits for itself. A strict
order stays one when a single waiter is let hold resources that do not come after what it waits
for.
-/

namespace Kobako

variable {Thread Resource : Type}

/-- Every thread of a set waits for a resource another of the set holds. -/
def Deadlocked (holds : Thread → Resource → Prop) (wants : Thread → Option Resource)
    (threads : Finset Thread) : Prop :=
  ∀ thread ∈ threads, ∃ resource, wants thread = some resource ∧
    ∃ other ∈ threads, other ≠ thread ∧ holds other resource

/-- Threads that wait in order are never deadlocked: the one whose resource comes last waits for a
thread that waits for a later one. -/
theorem not_deadlocked {holds : Thread → Resource → Prop} {wants : Thread → Option Resource}
    (before : Resource → Resource → Prop) {threads : Finset Thread}
    (trans : ∀ {first second third}, before first second → before second third →
      before first third)
    (irrefl : ∀ resource, ¬before resource resource)
    (ordered : ∀ thread ∈ threads, ∀ resource wanted, holds thread resource →
      wants thread = some wanted → before resource wanted)
    (inhabited : threads.Nonempty) : ¬Deadlocked holds wants threads := by
  intro stuck
  let later : threads → threads → Prop := fun one other =>
    ∃ first second, wants one.1 = some first ∧ wants other.1 = some second ∧ before second first
  have transitive : IsTrans threads later := by
    constructor
    rintro one two three ⟨first, second, wantsOne, wantsTwo, after⟩ ⟨again, third, same, wantsThree,
      before⟩
    have agree : second = again := Option.some.inj (wantsTwo.symm.trans same)
    exact ⟨first, third, wantsOne, wantsThree, trans (agree ▸ before) after⟩
  have irreflexive : Std.Irrefl later := by
    constructor
    rintro one ⟨first, second, wantsOne, again, after⟩
    have agree : first = second := Option.some.inj (wantsOne.symm.trans again)
    exact irrefl first (agree ▸ after)
  have founded : WellFounded later := Finite.wellFounded_of_trans_of_irrefl later
  obtain ⟨thread, member⟩ := inhabited
  obtain ⟨⟨last, chosen⟩, -, least⟩ := founded.has_min Set.univ ⟨⟨thread, member⟩, trivial⟩
  obtain ⟨resource, wanted, other, among, -, held⟩ := stuck last chosen
  obtain ⟨next, waits, -⟩ := stuck other among
  exact least ⟨other, among⟩ trivial
    ⟨next, resource, waits, wanted, ordered other among resource next held waits⟩

section Extension

variable {lt : Resource → Resource → Prop} {reach : Resource → Resource → Prop}
  {first second third : Resource}

/-- An order with what each held resource of a waiter is let come before. -/
def Extended (lt reach : Resource → Resource → Prop) (first second : Resource) : Prop :=
  lt first second ∨ ∃ held wanted, reach held wanted ∧ (first = held ∨ lt first held) ∧
    (wanted = second ∨ lt wanted second)

theorem Extended.trans (trans : ∀ {first second third}, lt first second → lt second third →
      lt first third)
    (clear : ∀ {held wanted other}, reach held wanted → reach other wanted →
      wanted ≠ other ∧ ¬lt wanted other)
    (single : ∀ {held wanted other next}, reach held wanted → reach other next → wanted = next)
    (one : Extended lt reach first second) (two : Extended lt reach second third) :
    Extended lt reach first third := by
  obtain lower | ⟨held, wanted, reaches, under, beyond⟩ := one
  · obtain higher | ⟨held, wanted, reaches, under, beyond⟩ := two
    · exact .inl (trans lower higher)
    · refine .inr ⟨held, wanted, reaches, .inr ?_, beyond⟩
      obtain same | higher := under
      · exact same ▸ lower
      · exact trans lower higher
  · obtain higher | ⟨other, next, again, between, -⟩ := two
    · refine .inr ⟨held, wanted, reaches, under, .inr ?_⟩
      obtain same | lower := beyond
      · exact same ▸ higher
      · exact trans lower higher
    · -- What is waited for would come before something held.
      have same : wanted = next := single reaches again
      subst same
      obtain ⟨apart, free⟩ := clear reaches again
      exfalso
      obtain here | below := beyond
      · obtain there | beyond := between
        · exact apart (here.trans there)
        · exact free (here ▸ beyond)
      · obtain there | beyond := between
        · exact free (there ▸ below)
        · exact free (trans below beyond)

theorem Extended.irrefl (trans : ∀ {first second third}, lt first second → lt second third →
      lt first third)
    (strict : ∀ resource, ¬lt resource resource)
    (clear : ∀ {held wanted other}, reach held wanted → reach other wanted →
      wanted ≠ other ∧ ¬lt wanted other) (resource : Resource) :
    ¬Extended lt reach resource resource := by
  rintro (cycle | ⟨held, wanted, reaches, under, beyond⟩)
  · exact strict resource cycle
  · obtain ⟨apart, free⟩ := clear reaches reaches
    obtain here | below := beyond
    · obtain there | beyond := under
      · exact apart (here.trans there)
      · exact free (here ▸ beyond)
    · obtain there | beyond := under
      · exact free (there ▸ below)
      · exact free (trans below beyond)

end Extension

end Kobako
