import Mathlib.Data.List.Basic

/-!
# Runs of a partial step

A machine is a step that a state may refuse. A run takes a list of events in order and ends where
the last one leads, or nowhere when a step was refused. What the start has and each step keeps,
every state a run reaches has.
-/

namespace Kobako

variable {State Event : Type} (step : State → Event → Option State)

/-- The state a list of events leads to, if every step is taken. -/
def run (state : State) : List Event → Option State
  | [] => some state
  | event :: events =>
    match step state event with
    | none => none
    | some next => run next events

/-- A run of two lists of events is a run of the second from where the first leads. -/
theorem run_append (events later : List Event) (state : State) :
    run step state (events ++ later) = (run step state events).bind (run step · later) := by
  induction events generalizing state with
  | nil => rfl
  | cons event events ih =>
    simp only [List.cons_append, run]
    cases step state event with
    | none => rfl
    | some next => exact ih next

/-- A state some run from `start` ends in. -/
def Reachable (start state : State) : Prop := ∃ events, run step start events = some state

variable {Holds : State → Prop}

/-- What each step keeps, a run keeps. -/
theorem run_preserves
    (kept : ∀ state event next, Holds state → step state event = some next → Holds next)
    (events : List Event) (state last : State) (holds : Holds state)
    (ran : run step state events = some last) : Holds last := by
  induction events generalizing state with
  | nil =>
    have same : state = last := Option.some.inj ran
    exact same ▸ holds
  | cons event events ih =>
    rw [run] at ran
    cases taken : step state event with
    | none => simp [taken] at ran
    | some next =>
      rw [taken] at ran
      exact ih next (kept state event next holds taken) ran

/-- What the start has and each step keeps, every reachable state has. -/
theorem Reachable.invariant {start state : State} (initial : Holds start)
    (kept : ∀ state event next, Holds state → step state event = some next → Holds next)
    (reached : Reachable step start state) : Holds state := by
  obtain ⟨events, ran⟩ := reached
  exact run_preserves step kept events start state initial ran

/-- Every step of a run from a state meets a condition. -/
def Along (Meets : State → Event → Prop) (state : State) : List Event → Prop
  | [] => True
  | event :: events =>
    Meets state event ∧ ∀ next, step state event = some next → Along Meets next events

/-- A run whose steps all meet a condition meets a weaker one. -/
theorem Along.mono {Meets Weaker : State → Event → Prop}
    (weaker : ∀ state event, Meets state event → Weaker state event) {state : State}
    {events : List Event} (along : Along step Meets state events) :
    Along step Weaker state events := by
  induction events generalizing state with
  | nil => trivial
  | cons event events ih =>
    exact ⟨weaker state event along.1, fun next taken => ih (along.2 next taken)⟩

/-- Whether every step of a run meets a condition can be told by taking them. -/
instance decidableAlong {Meets : State → Event → Prop} [∀ state event, Decidable (Meets state event)]
    (state : State) : (events : List Event) → Decidable (Along step Meets state events)
  | [] => isTrue trivial
  | event :: events =>
    match taken : step state event with
    | none => decidable_of_iff (Meets state event) (by simp [Along, taken])
    | some next =>
      have : Decidable (Along step Meets next events) := decidableAlong next events
      decidable_of_iff (Meets state event ∧ Along step Meets next events) (by simp [Along, taken])

/-- What each step that meets a condition keeps, a run of such steps keeps. -/
theorem run_preserves_along {Meets : State → Event → Prop}
    (kept : ∀ state event next, Holds state → Meets state event → step state event = some next →
      Holds next)
    (events : List Event) (state last : State) (holds : Holds state)
    (along : Along step Meets state events) (ran : run step state events = some last) :
    Holds last := by
  induction events generalizing state with
  | nil =>
    have same : state = last := Option.some.inj ran
    exact same ▸ holds
  | cons event events ih =>
    rw [run] at ran
    cases taken : step state event with
    | none => simp [taken] at ran
    | some next =>
      rw [taken] at ran
      exact ih next (kept state event next holds along.1 taken) (along.2 next taken) ran

/-- What each step keeps or brings to an end, a run keeps, or one of its steps brings to an end. -/
theorem run_until {Ends : State → Event → State → Prop}
    (kept : ∀ state event next, Holds state → step state event = some next →
      Holds next ∨ Ends state event next)
    (events : List Event) (state last : State) (holds : Holds state)
    (ran : run step state events = some last) :
    Holds last ∨ ∃ before event after middle next, events = before ++ event :: after ∧
      run step state before = some middle ∧ Holds middle ∧ step middle event = some next ∧
      Ends middle event next := by
  induction events generalizing state with
  | nil =>
    have same : state = last := Option.some.inj ran
    exact .inl (same ▸ holds)
  | cons event events ih =>
    rw [run] at ran
    cases taken : step state event with
    | none => simp [taken] at ran
    | some next =>
      rw [taken] at ran
      cases kept state event next holds taken with
      | inr ends => exact .inr ⟨[], event, events, state, next, rfl, rfl, holds, taken, ends⟩
      | inl still =>
        obtain holding | ⟨before, ending, after, middle, later, split, reached, rest⟩ :=
          ih next still ran
        · exact .inl holding
        · right
          refine ⟨event :: before, ending, after, middle, later, by simp [split], ?_, rest⟩
          simpa [run, taken] using reached

end Kobako
