import Mathlib.Logic.Basic

/-!
# Outcomes

How a program over a state ends: in an answer or in a failure, and in the state it left either
way, since nothing it changed is undone when it fails. `Ends` says what is known of the end of a
program run from one state and `Keeps` what is known of it run from any state an invariant holds
in; each has a rule for every way programs are put together.
-/

namespace Kobako

variable {ε σ α β : Type}

/-- Run from `s`, a program ends in an answer and a state as `ok` says, or in a failure and a state
as `failed` says. -/
def Ends (program : EStateM ε σ α) (s : σ) (ok : α → σ → Prop) (failed : ε → σ → Prop) : Prop :=
  match program s with
  | .ok a after => ok a after
  | .error e after => failed e after

/-- What a program answers or fails with, its failure an answer too. -/
def attempt (program : EStateM ε σ α) : EStateM ε σ (Except ε α) := fun s =>
  match program s with
  | .ok a after => .ok (.ok a) after
  | .error e after => .ok (.error e) after

/-- What a program of one kind of failure answers or fails with, in a program of another. -/
def outcomeOf {ε' : Type} (program : EStateM ε σ α) : EStateM ε' σ (Except ε α) := fun s =>
  match program s with
  | .ok a after => .ok (.ok a) after
  | .error e after => .ok (.error e) after

/-- What follows a program that answers. -/
theorem bind_eq {first : EStateM ε σ α} {next : α → EStateM ε σ β} {s after : σ} {a : α}
    (answered : first s = .ok a after) : (first >>= next) s = next a after := by
  show EStateM.bind first next s = next a after
  unfold EStateM.bind
  rw [answered]

/-- A program that answers, tried. -/
theorem attempt_eq {program : EStateM ε σ α} {s after : σ} {a : α}
    (answered : program s = .ok a after) : attempt program s = .ok (.ok a) after := by
  unfold attempt
  rw [answered]

namespace Ends

variable {s : σ} {ok : α → σ → Prop} {failed : ε → σ → Prop}

theorem pure {a : α} (holds : ok a s) : Ends (pure a) s ok failed := holds

theorem throw {e : ε} (holds : failed e s) : Ends (throw e : EStateM ε σ α) s ok failed := holds

theorem get {ok : σ → σ → Prop} (holds : ok s s) :
    Ends (get : EStateM ε σ σ) s ok failed := holds

theorem modify {change : σ → σ} {ok : PUnit → σ → Prop} (holds : ok ⟨⟩ (change s)) :
    Ends (modify change : EStateM ε σ PUnit) s ok failed := holds

/-- One program, then another made of its answer. -/
theorem bind {first : EStateM ε σ α} {next : α → EStateM ε σ β} {middle : α → σ → Prop}
    {ok : β → σ → Prop} (start : Ends first s middle failed)
    (onward : ∀ a after, middle a after → Ends (next a) after ok failed) :
    Ends (first >>= next) s ok failed := by
  unfold Ends at start ⊢
  show match EStateM.bind first next s with
    | .ok a after => ok a after
    | .error e after => failed e after
  unfold EStateM.bind
  cases ended : first s with
  | ok a after =>
    rw [ended] at start
    exact onward a after start
  | error e after =>
    rw [ended] at start
    exact start

variable {program : EStateM ε σ α}

/-- A program tried: its failure is handed on. -/
theorem attempt {ok : Except ε α → σ → Prop}
    (tried : Ends program s (fun a after => ok (.ok a) after) fun e after => ok (.error e) after) :
    Ends (attempt program) s ok failed := by
  unfold Ends at tried ⊢
  unfold Kobako.attempt
  cases ended : program s with
  | ok a after =>
    rw [ended] at tried
    exact tried
  | error e after =>
    rw [ended] at tried
    exact tried

/-- A program of another kind of failure, its failure handed on. -/
theorem outcomeOf {ε' : Type} {program : EStateM ε' σ α} {ok : Except ε' α → σ → Prop}
    (tried : Ends program s (fun a after => ok (.ok a) after) fun e after => ok (.error e) after) :
    Ends (outcomeOf program) s ok failed := by
  unfold Ends at tried ⊢
  unfold Kobako.outcomeOf
  cases ended : program s with
  | ok a after =>
    rw [ended] at tried
    exact tried
  | error e after =>
    rw [ended] at tried
    exact tried

/-- What is known of an end may be known less exactly. -/
theorem mono {ok' : α → σ → Prop} {failed' : ε → σ → Prop} (ends : Ends program s ok failed)
    (weaker : ∀ a after, ok a after → ok' a after)
    (failing : ∀ e after, failed e after → failed' e after) : Ends program s ok' failed' := by
  unfold Ends at ends ⊢
  cases ended : program s with
  | ok a after =>
    rw [ended] at ends
    exact weaker a after ends
  | error e after =>
    rw [ended] at ends
    exact failing e after ends

/-- Two things known of the end of one program. -/
theorem and {ok' : α → σ → Prop} {failed' : ε → σ → Prop} (one : Ends program s ok failed)
    (two : Ends program s ok' failed') :
    Ends program s (fun a after => ok a after ∧ ok' a after)
      fun e after => failed e after ∧ failed' e after := by
  unfold Ends at one two ⊢
  cases ended : program s with
  | ok a after =>
    rw [ended] at one two
    exact ⟨one, two⟩
  | error e after =>
    rw [ended] at one two
    exact ⟨one, two⟩

/-- A program ends as it ends. -/
theorem self (program : EStateM ε σ α) (s : σ) :
    Ends program s (fun a after => program s = .ok a after)
      fun e after => program s = .error e after := by
  unfold Ends
  cases program s with
  | ok a after => rfl
  | error e after => rfl

/-- Nothing is known of how a program ends. -/
theorem any (program : EStateM ε σ α) (s : σ) :
    Ends program s (fun _ _ => True) fun _ _ => True :=
  (self program s).mono (fun _ _ _ => trivial) fun _ _ _ => trivial

/-- A program that answers `a` in `after`. -/
theorem of_eq {a : α} {after : σ} (ended : program s = .ok a after) (holds : ok a after) :
    Ends program s ok failed := by
  unfold Ends
  rw [ended]
  exact holds

end Ends

/-- Wherever `invariant` holds, a program ends with it holding, and answers as `answers` says. -/
def Keeps (invariant : σ → Prop) (program : EStateM ε σ α) (answers : α → Prop) : Prop :=
  ∀ s, invariant s → Ends program s (fun a after => invariant after ∧ answers a)
    fun _ after => invariant after

namespace Keeps

variable {invariant : σ → Prop} {answers : α → Prop}

theorem pure {a : α} (holds : answers a) :
    Keeps invariant (pure a : EStateM ε σ α) answers :=
  fun _ kept => Ends.pure ⟨kept, holds⟩

theorem throw {e : ε} : Keeps invariant (throw e : EStateM ε σ α) answers :=
  fun _ kept => Ends.throw kept

theorem get : Keeps invariant (get : EStateM ε σ σ) invariant :=
  fun _ kept => Ends.get ⟨kept, kept⟩

theorem modify {change : σ → σ} (keeps : ∀ s, invariant s → invariant (change s)) :
    Keeps invariant (modify change : EStateM ε σ PUnit) fun _ => True :=
  fun s kept => Ends.modify ⟨keeps s kept, trivial⟩

/-- One program, then another made of its answer. -/
theorem bind {first : EStateM ε σ α} {next : α → EStateM ε σ β} {middle : α → Prop}
    {answers : β → Prop} (start : Keeps invariant first middle)
    (onward : ∀ a, middle a → Keeps invariant (next a) answers) :
    Keeps invariant (first >>= next) answers :=
  fun s kept => (start s kept).bind fun a after ⟨still, answered⟩ => onward a answered after still

variable {program : EStateM ε σ α}

/-- A program tried, whatever came of it. -/
theorem tried (keeps : Keeps invariant program answers) :
    Keeps invariant (Kobako.attempt program) fun _ => True :=
  fun s kept => Ends.attempt
    ((keeps s kept).mono (fun _ _ ended => ⟨ended.1, trivial⟩) fun _ _ still => ⟨still, trivial⟩)

theorem mono {answers' : α → Prop} (keeps : Keeps invariant program answers)
    (weaker : ∀ a, answers a → answers' a) :
    Keeps invariant program answers' :=
  fun s kept => (keeps s kept).mono (fun a _ ended => ⟨ended.1, weaker a ended.2⟩)
    fun _ _ still => still

/-- Two things known of one program, of which only the first is asked for once it fails. -/
theorem ends {other : σ → Prop} {answers' : α → Prop} {s : σ}
    (one : Keeps invariant program answers) (two : Keeps other program answers')
    (kept : invariant s) (too : other s) :
    Ends program s (fun a after => invariant after ∧ answers a ∧ other after)
      fun _ after => invariant after := by
  have first := one s kept
  have second := two s too
  unfold Ends at first second ⊢
  cases ended : program s with
  | ok a after =>
    rw [ended] at first second
    exact ⟨first.1, first.2, second.1⟩
  | error e after =>
    rw [ended] at first
    exact first

end Keeps

end Kobako
