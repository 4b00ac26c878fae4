import Kobako.Outcome
import Mathlib.Data.List.Basic

/-!
# Layouts

A reader takes what it reads off the front of its input. A layout is laid out by a reader and a
spelling: `Reads` says that a spelling is read back whatever follows it, `Exact` that whatever is
read was spelled so. Both follow the way readers are put together, one field after another and a
number of elements in a row, so a message of many fields is one spelling, and the only one.
-/

namespace Kobako

variable {ε β α γ : Type}

/-- An answer of one program and then another was answered by both. -/
theorem bind_answered {σ : Type} {first : EStateM ε σ α} {next : α → EStateM ε σ γ} {s last : σ}
    {c : γ} (answered : (first >>= next) s = .ok c last) :
    ∃ a middle, first s = .ok a middle ∧ next a middle = .ok c last := by
  change EStateM.bind first next s = .ok c last at answered
  unfold EStateM.bind at answered
  cases begun : first s with
  | ok a middle =>
    rw [begun] at answered
    exact ⟨a, middle, rfl, answered⟩
  | error e middle =>
    rw [begun] at answered
    cases answered

/-- A reader of elements of type `β`, handed the input left. -/
abbrev Reading (ε β α : Type) := EStateM ε (List β) α

/-- In front of anything, `spelled` is read as `a` and nothing else is taken. -/
def Reads (read : Reading ε β α) (spelled : List β) (a : α) : Prop :=
  ∀ rest, read (spelled ++ rest) = .ok a rest

/-- Whatever is read was spelled as `spell` says. -/
def Exact (read : Reading ε β α) (spell : α → List β) : Prop :=
  ∀ input a rest, read input = .ok a rest → input = spell a ++ rest

/-- A number of elements in a row. -/
def times (element : Reading ε β α) : Nat → Reading ε β (List α)
  | 0 => return []
  | count + 1 => do
    let first ← element
    return first :: (← times element count)

namespace Reads

theorem pure (a : α) : Reads (pure a : Reading ε β α) [] a := fun _ => rfl

variable {a : α} {first : Reading ε β α} {next : α → Reading ε β γ}

/-- One field, then those after it. -/
theorem bind {front back : List β} {c : γ} (start : Reads first front a)
    (onward : Reads (next a) back c) :
    Reads (first >>= next) (front ++ back) c := by
  intro rest
  rw [List.append_assoc, bind_eq (start (back ++ rest))]
  exact onward rest

/-- One field, made an answer of. -/
theorem map {front : List β} {c : γ} (start : Reads first front a)
    (answers : next a = Pure.pure c) : Reads (first >>= next) front c := by
  intro rest
  rw [bind_eq (start rest), answers]
  rfl

/-- A field read to the end of the input. -/
theorem last {front rest : List β} (start : Reads first front a) :
    (first >>= next) (front ++ rest) = next a rest :=
  bind_eq (start rest)

/-- A field that is all of the input. -/
theorem whole {front : List β} (start : Reads first front a) :
    (first >>= next) front = next a [] := by
  have read := start []
  rw [List.append_nil] at read
  exact bind_eq read

theorem times {element : Reading ε β α} {spell : α → List β} {items : List α}
    (each : ∀ a ∈ items, Reads element (spell a) a) :
    Reads (times element items.length) (items.flatMap spell) items := by
  induction items with
  | nil => exact Reads.pure []
  | cons item items ih =>
    obtain ⟨first, others⟩ := List.forall_mem_cons.mp each
    exact first.bind ((ih others).map rfl)

end Reads

namespace Exact

/-- Elements in a row were spelled in a row, as many as were asked for. -/
theorem times {element : Reading ε β α} {spell : α → List β} (each : Exact element spell)
    {count : Nat} {input rest : List β} {items : List α}
    (answered : times element count input = .ok items rest) :
    input = items.flatMap spell ++ rest ∧ items.length = count := by
  induction count generalizing input items with
  | zero =>
    cases answered
    exact ⟨rfl, rfl⟩
  | succ count ih =>
    obtain ⟨first, middle, begun, more⟩ := bind_answered answered
    obtain ⟨others, last, read, ended⟩ := bind_answered more
    cases ended
    obtain ⟨spelled, length⟩ := ih read
    refine ⟨?_, ?_⟩
    · rw [each _ _ _ begun, spelled, List.flatMap_cons, List.append_assoc]
    · rw [List.length_cons, length]

end Exact

end Kobako
