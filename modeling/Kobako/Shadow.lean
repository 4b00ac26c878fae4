import Kobako.Outcome

/-!
# Watched programs

A program that may panic and that notes what it touches in a ledger, beside the plain program it
stands for. The one shadows the other from a state when it does not panic, ends as the other does
in the same state, and notes only what is harmless; each way programs are put together has a rule.
-/

namespace Kobako

/-- How a watched program stops short of an answer. -/
inductive Halt (ε : Type) where
  | panicked
  | failed (e : ε)
deriving Repr, DecidableEq

/-- A state and the ledger of what was touched so far. -/
structure Watch (σ ρ : Type) where
  /-- The state of the plain program. -/
  state : σ
  /-- What was touched, in order. -/
  ledger : List ρ

/-- A program that is watched. -/
abbrev Watched (ε σ ρ : Type) := EStateM (Halt ε) (Watch σ ρ)

variable {ε ε' σ ρ α β : Type}

namespace Watched

/-- A failure of the plain program. -/
def fail (e : ε) : Watched ε σ ρ α := throw (.failed e)

/-- A plain program that touches nothing. -/
def lift (plain : EStateM ε σ α) : Watched ε σ ρ α := fun s =>
  match plain s.state with
  | .ok a after => .ok a ⟨after, s.ledger⟩
  | .error e after => .error (.failed e) ⟨after, s.ledger⟩

/-- What a program of one kind of failure answers or fails with, a panic handed on. -/
def outcomeOf (program : Watched ε σ ρ α) : Watched ε' σ ρ (Except ε α) := fun s =>
  match program s with
  | .ok a after => .ok (.ok a) after
  | .error (.failed e) after => .ok (.error e) after
  | .error .panicked after => .error .panicked after

end Watched

/-- Every entry of a ledger is harmless. -/
def Harmless (harmless : ρ → Prop) (ledger : List ρ) : Prop := ∀ entry ∈ ledger, harmless entry

/-- A harmless entry more. -/
theorem Harmless.snoc {harmless : ρ → Prop} {ledger : List ρ} (kept : Harmless harmless ledger)
    {entry : ρ} (holds : harmless entry) : Harmless harmless (ledger ++ [entry]) := by
  intro other member
  rcases List.mem_append.mp member with earlier | last
  · exact kept other earlier
  · rw [List.mem_singleton.mp last]
    exact holds

/-- From a state with a harmless ledger, a watched program ends as the plain one does, without a
panic and with a harmless ledger. -/
def Shadows (harmless : ρ → Prop) (watched : Watched ε σ ρ α) (plain : EStateM ε σ α)
    (s : Watch σ ρ) : Prop :=
  Harmless harmless s.ledger →
    match watched s with
    | .ok a after => plain s.state = .ok a after.state ∧ Harmless harmless after.ledger
    | .error (.failed e) after =>
      plain s.state = .error e after.state ∧ Harmless harmless after.ledger
    | .error .panicked _ => False

namespace Shadows

variable {harmless : ρ → Prop} {s : Watch σ ρ}

theorem pure (a : α) :
    Shadows harmless (pure a : Watched ε σ ρ α) (pure a : EStateM ε σ α) s :=
  fun kept => ⟨rfl, kept⟩

theorem fail (e : ε) : Shadows harmless (Watched.fail e) (throw e : EStateM ε σ α) s :=
  fun kept => ⟨rfl, kept⟩

/-- A plain program shadows itself. -/
theorem lift (plain : EStateM ε σ α) : Shadows harmless (Watched.lift plain) plain s := by
  intro kept
  unfold Watched.lift
  cases ended : plain s.state with
  | ok a after => exact ⟨rfl, kept⟩
  | error e after => exact ⟨rfl, kept⟩

/-- One program, then another made of its answer. -/
theorem bind {first : Watched ε σ ρ α} {plainFirst : EStateM ε σ α}
    {next : α → Watched ε σ ρ β} {plainNext : α → EStateM ε σ β}
    (start : Shadows harmless first plainFirst s)
    (onward : ∀ a after, plainFirst s.state = .ok a after.state →
      Shadows harmless (next a) (plainNext a) after) :
    Shadows harmless (first >>= next) (plainFirst >>= plainNext) s := by
  intro kept
  have begun := start kept
  show match EStateM.bind first next s with
    | .ok a after => EStateM.bind plainFirst plainNext s.state = .ok a after.state ∧ _
    | .error (.failed e) after => EStateM.bind plainFirst plainNext s.state = .error e after.state ∧ _
    | .error .panicked _ => False
  unfold EStateM.bind
  cases ended : first s with
  | ok a after =>
    rw [ended] at begun
    rw [begun.1]
    exact onward a after begun.1 begun.2
  | error halt after =>
    rw [ended] at begun
    cases halt with
    | panicked => exact begun
    | failed e =>
      rw [begun.1]
      exact ⟨rfl, begun.2⟩

/-- A program made of the state read. -/
theorem get {next : σ → Watched ε σ ρ β} {plainNext : σ → EStateM ε σ β}
    (onward : Shadows harmless (next s.state) (plainNext s.state) s) :
    Shadows harmless (Watched.lift MonadState.get >>= next) (MonadState.get >>= plainNext) s :=
  onward

/-- A program that shadows an answer, then another. -/
theorem bind_pure {first : Watched ε σ ρ α} {a : α} {next : α → Watched ε σ ρ β}
    {plain : EStateM ε σ β} (start : Shadows harmless first (Pure.pure a) s)
    (onward : ∀ after, after.state = s.state → Shadows harmless (next a) plain after) :
    Shadows harmless (first >>= next) plain s := by
  show Shadows harmless (first >>= next) (Pure.pure a >>= fun _ => plain) s
  apply start.bind
  intro b after ended
  have same : EStateM.Result.ok a s.state = EStateM.Result.ok b after.state := ended
  injection same with answer state
  rw [← answer]
  exact onward after state.symm

/-- A program of another kind of failure, its failure handed on. -/
theorem outcomeOf {watched : Watched ε σ ρ α} {plain : EStateM ε σ α}
    (tried : Shadows harmless watched plain s) :
    Shadows harmless (Watched.outcomeOf watched : Watched ε' σ ρ _) (Kobako.outcomeOf plain) s := by
  intro kept
  have ends := tried kept
  unfold Watched.outcomeOf Kobako.outcomeOf
  cases ended : watched s with
  | ok a after =>
    rw [ended] at ends
    dsimp only
    rw [ends.1]
    exact ⟨rfl, ends.2⟩
  | error halt after =>
    rw [ended] at ends
    cases halt with
    | panicked => exact ends
    | failed e =>
      dsimp only
      rw [ends.1]
      exact ⟨rfl, ends.2⟩

end Shadows

end Kobako
