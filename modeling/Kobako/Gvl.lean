import Kobako.Run
import Mathlib.Logic.Function.Basic

/-!
# Ruby's global lock around an invocation

Threads run Ruby code, which needs the GVL. A Sandbox that asks for it gives the GVL up for its
guest's span, `region`; a dispatch back into Ruby takes it again, `reenter`; and a thread waits for
another lock without it, whichever of the two it is in. A flag of the thread tells which, and is
put back however a closure ends. The VM may take the GVL away from Ruby code and hand it back, and
interrupts a thread at any moment: what is pending runs within Ruby code, or where a `region` is
about to give the GVL up, which it then does only once nothing is pending. There the flag says the
GVL was given up while Ruby code runs with it.
-/

namespace Kobako.Gvl

/-- What a thread runs. -/
inductive Code
  | done
  /-- A Rust panic. -/
  | panic
  /-- Ruby code, and what follows it. -/
  | ruby (rest : Code)
  /-- The guest, or the host's own code, touching no Ruby value. -/
  | native (rest : Code)
  /-- The closure of a wait: a lock another thread holds. -/
  | block (rest : Code)
  /-- `region(release, body)` around an invocation. -/
  | invoke (release : Bool) (body rest : Code)
  /-- `reenter(body)` of a dispatch. -/
  | dispatch (body rest : Code)
  /-- `GvlFreeWait::wait`. -/
  | wait (rest : Code)
deriving DecidableEq

/-- A call a thread is inside, with what follows it, and the flag a guard puts back. -/
inductive Frame
  /-- A `region` that gave the GVL up. -/
  | released (prev : Bool) (rest : Code)
  /-- A `reenter` that took it. -/
  | acquired (prev : Bool) (rest : Code)
  /-- Either, running its closure in place. -/
  | inline (rest : Code)
  /-- `hold_interrupts` of a `region` that has yet to give the GVL up and run `body`. -/
  | interrupted (body : Code)
deriving DecidableEq

/-- Where a thread stands. -/
inductive Point
  /-- Ruby code the VM took the GVL from, or has not given it to yet. -/
  | turn (code : Code)
  | code (code : Code)
  /-- Before `rb_thread_call_without_gvl2` gives the GVL up. -/
  | releasing (body : Code)
  /-- Its closure over, well or in a panic, before it takes the GVL back. -/
  | taking (ok : Bool)
  /-- Before `rb_thread_call_with_gvl` takes the GVL. -/
  | acquiring (body : Code)
  /-- Its closure over, before it gives the GVL up again. -/
  | yielding (ok : Bool)
  | finished (ok : Bool)
deriving DecidableEq

/-- A thread: `GVL_RELEASED`, the calls it is inside, and the Ruby code its interrupts run. -/
structure Thread where
  released : Bool
  frames : List Frame
  point : Point
  pending : List Code
deriving DecidableEq

/-- What a step does with the GVL. -/
inductive Effect
  | keep
  | take
  | give
deriving DecidableEq

/-- Code with more after it. -/
def Code.andThen : Code → Code → Code
  | .done, more => more
  | .panic, _ => .panic
  | .ruby rest, more => .ruby (rest.andThen more)
  | .native rest, more => .native (rest.andThen more)
  | .block rest, more => .block (rest.andThen more)
  | .invoke release body rest, more => .invoke release body (rest.andThen more)
  | .dispatch body rest, more => .dispatch body (rest.andThen more)
  | .wait rest, more => .wait (rest.andThen more)

namespace Thread

/-- `holds`. -/
def holds (thread : Thread) : Bool := !thread.released

/-- `region`. -/
def region (thread : Thread) (release : Bool) (body rest : Code) : Thread :=
  if release then
    { thread with
      released := true
      frames := .released thread.released rest :: thread.frames
      point := .releasing body }
  else { thread with frames := .inline rest :: thread.frames, point := .code body }

/-- `reenter`. -/
def reenter (thread : Thread) (body rest : Code) : Thread :=
  if thread.released then
    { thread with
      released := false
      frames := .acquired thread.released rest :: thread.frames
      point := .acquiring body }
  else { thread with frames := .inline rest :: thread.frames, point := .code body }

/-- What follows a call: what was to follow it, or the panic going on. -/
def after (ok : Bool) (rest : Code) : Code := if ok then rest else .panic

/-- A closure is over, well or in a panic: `catch_unwind` holds it until the GVL is as before. -/
def close (thread : Thread) (ok : Bool) : Effect × Thread :=
  match thread.frames with
  | [] => (.give, { thread with point := .finished ok })
  | .inline rest :: frames => (.keep, { thread with frames, point := .code (after ok rest) })
  | .released _ _ :: _ => (.keep, { thread with point := .taking ok })
  | .acquired _ _ :: _ => (.keep, { thread with point := .yielding ok })
  -- `keep` holds what was raised, and the loop calls again.
  | .interrupted body :: frames => (.keep, { thread with frames, point := .releasing body })

/-- The next step of a thread. -/
def advance (thread : Thread) : Option (Effect × Thread) :=
  match thread.point with
  | .turn code => some (.take, { thread with point := .code code })
  | .code .done => some (thread.close true)
  | .code .panic => some (thread.close false)
  | .code (.ruby rest) | .code (.native rest) | .code (.block rest) =>
    some (.keep, { thread with point := .code rest })
  | .code (.invoke release body rest) => some (.keep, thread.region release body rest)
  | .code (.dispatch body rest) => some (.keep, thread.reenter body rest)
  | .code (.wait rest) => some (.keep, thread.region thread.holds (.block .done) rest)
  | .releasing body =>
    match thread.pending with
    | [] => some (.give, { thread with point := .code body })
    -- Nothing ran, and `hold_interrupts` runs what is pending with the flag set.
    | code :: pending =>
      some (.keep, { thread with
        pending, frames := .interrupted body :: thread.frames, point := .code code })
  | .acquiring body => some (.take, { thread with point := .code body })
  | .taking ok =>
    match thread.frames with
    | .released prev rest :: frames =>
      some (.take, { thread with released := prev, frames, point := .code (after ok rest) })
    | _ => none
  | .yielding ok =>
    match thread.frames with
    | .acquired prev rest :: frames =>
      some (.give, { thread with released := prev, frames, point := .code (after ok rest) })
    | _ => none
  | .finished _ => none

end Thread

variable {τ : Type} [DecidableEq τ]

/-- Who holds the GVL, and the threads. -/
structure State (τ : Type) where
  holder : Option τ
  threads : τ → Thread

/-- What happens next. -/
inductive Event (τ : Type)
  | step (thread : τ)
  /-- The VM takes the GVL from Ruby code. -/
  | preempt (thread : τ)
  /-- Ruby code is to run on the thread: a trap block, or what another thread raises in it. -/
  | interrupt (thread : τ) (code : Code)
  /-- It runs between two steps of the thread's own Ruby code. -/
  | trap (thread : τ)

/-- The Ruby code an interrupt is to run. -/
def Event.asks : Event τ → Option Code
  | .interrupt _ code => some code
  | .step _ | .preempt _ | .trap _ => none

/-- Threads before their first turn. -/
def State.new (codes : τ → Code) : State τ where
  holder := none
  threads thread := ⟨false, [], .turn (codes thread), []⟩

/-- A thread's record changed. -/
def State.put (state : State τ) (thread : τ) (record : Thread) : State τ :=
  { state with threads := Function.update state.threads thread record }

/-- One step of one thread, or of the VM. -/
def State.step (state : State τ) : Event τ → Option (State τ)
  | .step thread =>
    match (state.threads thread).advance with
    | none => none
    | some (.keep, record) => some (state.put thread record)
    | some (.take, record) =>
      if state.holder = none then some ({ state with holder := some thread }.put thread record)
      else none
    | some (.give, record) => some ({ state with holder := none }.put thread record)
  | .preempt thread =>
    match (state.threads thread).point with
    | .code (.ruby rest) =>
      some ({ state with holder := none }.put thread
        { state.threads thread with point := .turn (.ruby rest) })
    | _ => none
  | .interrupt thread code =>
    let record := state.threads thread
    some (state.put thread { record with pending := record.pending ++ [code] })
  | .trap thread =>
    let record := state.threads thread
    match record.point, record.pending with
    | .code (.ruby rest), code :: pending =>
      some (state.put thread { record with pending, point := .code (code.andThen (.ruby rest)) })
    | _, _ => none

/-! ## What every interleaving keeps -/

/-- Ruby code is in its place: invocations are started and Ruby code run only in Ruby, and a guest
reaches Ruby only by a dispatch. -/
def Code.Placed (inRuby : Bool) : Code → Prop
  | .done | .panic => True
  | .ruby rest => inRuby = true ∧ rest.Placed inRuby
  | .native rest | .wait rest => rest.Placed inRuby
  | .block _ => False
  | .invoke _ body rest => inRuby = true ∧ body.Placed false ∧ rest.Placed inRuby
  | .dispatch body rest => inRuby = false ∧ body.Placed true ∧ rest.Placed inRuby

instance Code.decidablePlaced (inRuby : Bool) : (code : Code) → Decidable (code.Placed inRuby)
  | .done | .panic => inferInstanceAs (Decidable True)
  | .ruby rest =>
    have := decidablePlaced inRuby rest
    inferInstanceAs (Decidable (_ ∧ _))
  | .native rest | .wait rest => decidablePlaced inRuby rest
  | .block _ => inferInstanceAs (Decidable False)
  | .invoke _ body rest =>
    have := decidablePlaced false body
    have := decidablePlaced inRuby rest
    inferInstanceAs (Decidable (_ ∧ _ ∧ _))
  | .dispatch body rest =>
    have := decidablePlaced true body
    have := decidablePlaced inRuby rest
    inferInstanceAs (Decidable (_ ∧ _ ∧ _))

/-- It calls no Sandbox. -/
def Code.plain : Code → Bool
  | .done | .panic => true
  | .ruby rest | .native rest => rest.plain
  | .block _ | .invoke _ _ _ | .dispatch _ _ | .wait _ => false

/-- A `region` runs what is pending before it gives the GVL up. -/
def interrupted : List Frame → Bool
  | .interrupted _ :: _ => true
  | _ => false

/-- What is pending and a step begins to run with the flag set. -/
def State.interrupting (state : State τ) : Event τ → Option Code
  | .step thread =>
    match (state.threads thread).point with
    | .releasing _ => (state.threads thread).pending.head?
    | _ => none
  | .trap thread =>
    if interrupted (state.threads thread).frames then (state.threads thread).pending.head? else none
  | .preempt _ | .interrupt _ _ => none

/-- An interrupt runs Ruby code in its place, which calls no Sandbox where it begins with the flag
set. -/
def State.Calm (state : State τ) (event : Event τ) : Prop :=
  (∀ code ∈ event.asks, code.Placed true) ∧ ∀ code ∈ state.interrupting event, code.plain = true

instance (state : State τ) : DecidablePred state.Calm :=
  fun _ => inferInstanceAs (Decidable (_ ∧ _))

/-- What a thread runs between two calls: code in its place, or the closure of a wait with the GVL
given up. -/
def Code.Runs (released inRuby : Bool) (code : Code) : Prop :=
  code.Placed inRuby ∨ (code = .block .done ∧ inRuby = false ∧ released = true)

/-- The innermost call gives the GVL up. -/
def Gave : List Frame → Prop
  | .released _ _ :: _ => True
  | _ => False

/-- The calls a thread is inside, from the innermost: each gave up or took the GVL from the state it
puts back, and Ruby code runs with the flag clear, but for what is pending as one gives it up. -/
def Stacked (released inRuby : Bool) : List Frame → Prop
  | [] => released = false ∧ inRuby = true
  | .released prev rest :: frames =>
    released = true ∧ inRuby = false ∧ prev = false ∧
      ∃ outer, rest.Placed outer ∧ Stacked prev outer frames
  | .acquired prev rest :: frames =>
    released = false ∧ inRuby = true ∧ prev = true ∧
      rest.Placed false ∧ Stacked prev false frames
  | .inline rest :: frames =>
    (inRuby = true → released = false) ∧ interrupted frames = false ∧
      ∃ outer, rest.Placed outer ∧ Stacked released outer frames
  | .interrupted body :: frames =>
    released = true ∧ inRuby = true ∧ body.Runs true false ∧ Gave frames ∧
      Stacked released false frames

/-- The innermost call took the GVL. -/
def Took : List Frame → Prop
  | .acquired _ _ :: _ => True
  | _ => False

/-- Whether a thread holds the GVL is what its flag says wherever it runs code, but for what is
pending as it gives the GVL up, and each call of the VM finds the GVL where it must. -/
def Thread.Fits (holding : Bool) (thread : Thread) : Prop :=
  match thread.point with
  | .turn code =>
    holding = false ∧ (interrupted thread.frames = true → code.plain = true) ∧ code.Placed true ∧
      Stacked thread.released true thread.frames
  | .code code =>
    holding = (!thread.released || interrupted thread.frames) ∧
      (interrupted thread.frames = true → code.plain = true) ∧
      ∃ inRuby, code.Runs thread.released inRuby ∧
        Stacked thread.released inRuby thread.frames
  | .releasing body =>
    holding = true ∧ body.Runs thread.released false ∧ Gave thread.frames ∧
      Stacked thread.released false thread.frames
  | .taking _ => holding = false ∧ Gave thread.frames ∧
      Stacked thread.released false thread.frames
  | .acquiring body =>
    holding = false ∧ body.Placed true ∧ Took thread.frames ∧
      Stacked thread.released true thread.frames
  | .yielding _ => holding = true ∧ Took thread.frames ∧
      Stacked thread.released true thread.frames
  | .finished _ => holding = false

variable {thread next : Thread} {holding released inRuby : Bool} {frames : List Frame}
  {body rest : Code}

/-- What is pending runs with the flag set, in Ruby. -/
theorem Stacked.flagged (stacked : Stacked released inRuby frames)
    (within : interrupted frames = true) : released = true ∧ inRuby = true := by
  cases frames with
  | nil => cases within
  | cons frame frames =>
    cases frame with
    | interrupted body => exact ⟨stacked.1, stacked.2.1⟩
    | released prev rest => cases within
    | acquired prev rest => cases within
    | inline rest => cases within

/-- Nothing that was pending runs where the flag is clear. -/
theorem Stacked.calm_of_clear (stacked : Stacked false inRuby frames) :
    interrupted frames = false := by
  rw [← Bool.not_eq_true]
  intro within
  exact Bool.noConfusion (stacked.flagged within).1

/-- Nothing that was pending runs outside Ruby. -/
theorem Stacked.calm_of_guest (stacked : Stacked released false frames) :
    interrupted frames = false := by
  rw [← Bool.not_eq_true]
  intro within
  exact Bool.noConfusion (stacked.flagged within).2

/-- Other Ruby code runs with the flag clear. -/
theorem Stacked.clear (stacked : Stacked released true frames)
    (calm : interrupted frames = false) : released = false := by
  cases frames with
  | nil => exact stacked.1
  | cons frame frames =>
    cases frame with
    | released prev rest =>
      have outside := stacked.2.1
      cases outside
    | acquired prev rest => exact stacked.1
    | inline rest => exact stacked.1 rfl
    | interrupted body => cases calm

/-- What a call that gives the GVL up keeps. -/
theorem Gave.innermost (gave : Gave frames) :
    ∃ prev rest outer, frames = .released prev rest :: outer := by
  unfold Gave at gave
  split at gave
  · exact ⟨_, _, _, rfl⟩
  · exact gave.elim

/-- What a call that takes the GVL keeps. -/
theorem Took.innermost (took : Took frames) :
    ∃ prev rest outer, frames = .acquired prev rest :: outer := by
  unfold Took at took
  split at took
  · exact ⟨_, _, _, rfl⟩
  · exact took.elim

/-- A call that takes the GVL runs nothing that was pending. -/
theorem Took.calm (took : Took frames) : interrupted frames = false := by
  obtain ⟨prev, rest, outer, rfl⟩ := took.innermost
  rfl

/-- A call that gives the GVL up set the flag before. -/
theorem Stacked.set (stacked : Stacked released inRuby frames) (gave : Gave frames) :
    released = true := by
  obtain ⟨prev, rest, outer, rfl⟩ := gave.innermost
  exact stacked.1

/-- Ruby code before more of it is in its place. -/
theorem Code.Placed.andThen {code more : Code} (placed : code.Placed inRuby)
    (follows : more.Placed inRuby) : (code.andThen more).Placed inRuby := by
  induction code with
  | done => exact follows
  | panic => trivial
  | ruby rest ih => exact ⟨placed.1, ih placed.2⟩
  | native rest ih => exact ih placed
  | block rest => exact absurd placed id
  | invoke release body rest _ ih => exact ⟨placed.1, placed.2.1, ih placed.2.2⟩
  | dispatch body rest _ ih => exact ⟨placed.1, placed.2.1, ih placed.2.2⟩
  | wait rest ih => exact ih placed

/-- Code that calls no Sandbox before more of it. -/
theorem Code.plain_andThen {code more : Code} (plain : code.plain = true)
    (follows : more.plain = true) : (code.andThen more).plain = true := by
  induction code with
  | done => exact follows
  | panic => rfl
  | ruby rest ih => exact ih plain
  | native rest ih => exact ih plain
  | block rest => cases plain
  | invoke release body rest => cases plain
  | dispatch body rest => cases plain
  | wait rest => cases plain

/-- Code that is in its place, other than a wait's closure. -/
theorem Code.Runs.placed {code : Code} (runs : code.Runs released inRuby)
    (other : code ≠ .block .done) : code.Placed inRuby := by
  obtain placed | ⟨same, _⟩ := runs
  · exact placed
  · exact absurd same other

namespace Thread

/-- A `region` entered with the flag clear, or running in place. -/
theorem region_fits {release : Bool} (held : holding = !thread.released)
    (calm : interrupted thread.frames = false)
    (clear : release = true → thread.released = false)
    (runs : body.Runs (release || thread.released) false) (placed : rest.Placed inRuby)
    (stacked : Stacked thread.released inRuby thread.frames) :
    (thread.region release body rest).Fits holding := by
  cases release with
  | true =>
    have unset : thread.released = false := clear rfl
    rw [unset] at held stacked runs
    exact ⟨held, runs, trivial, rfl, rfl, unset, inRuby, placed, unset ▸ stacked⟩
  | false =>
    rw [Bool.false_or] at runs
    have outside : false = true → thread.released = false := by
      intro inside
      cases inside
    exact ⟨by simpa [region, interrupted] using held, by simp [region, interrupted], false, runs,
      outside, calm, inRuby, placed, stacked⟩

/-- A `reenter` from a guest's code. -/
theorem reenter_fits (held : holding = !thread.released) (entered : body.Placed true)
    (placed : rest.Placed false) (stacked : Stacked thread.released false thread.frames) :
    (thread.reenter body rest).Fits holding := by
  unfold reenter
  split
  · rename_i set
    rw [set] at held stacked
    exact ⟨held, entered, trivial, rfl, rfl, set, placed, set ▸ stacked⟩
  · rename_i unset
    rw [Bool.not_eq_true] at unset
    exact ⟨by simpa [interrupted] using held, by simp [interrupted], true, .inl entered,
      fun _ => unset, stacked.calm_of_guest, false, placed, stacked⟩

/-- What follows a call is in the call's place. -/
theorem after_placed {ok : Bool} (placed : rest.Placed inRuby) : (after ok rest).Placed inRuby := by
  unfold after
  split
  · exact placed
  · trivial

/-- What a step does with the GVL is what the thread may do, and the thread fits what it leaves. -/
def Led (holding : Bool) (effect : Effect) (next : Thread) : Prop :=
  (effect = .keep ∧ next.Fits holding) ∨ (effect = .take ∧ holding = false ∧ next.Fits true) ∨
    (effect = .give ∧ holding = true ∧ next.Fits false)

variable {code : Code} {effect : Effect}

/-- A closure's end leads back to the call around it, or first to the GVL. -/
theorem close_led {ok : Bool} (held : holding = (!thread.released || interrupted thread.frames))
    (stacked : Stacked thread.released inRuby thread.frames)
    (closed : thread.close ok = (effect, next)) : Led holding effect next := by
  obtain ⟨released, frames, point, pending⟩ := thread
  simp only at held stacked
  cases frames with
  | nil =>
    cases closed
    have unset : released = false := stacked.1
    subst unset
    exact .inr (.inr ⟨rfl, held, rfl⟩)
  | cons frame inner =>
    cases frame with
    | released prev rest =>
      cases closed
      have set : released = true := stacked.1
      have outside : inRuby = false := stacked.2.1
      subst set outside
      exact .inl ⟨rfl, held, trivial, stacked⟩
    | acquired prev rest =>
      cases closed
      have unset : released = false := stacked.1
      have inside : inRuby = true := stacked.2.1
      subst unset inside
      exact .inl ⟨rfl, held, trivial, stacked⟩
    | inline rest =>
      cases closed
      obtain ⟨_, calm, outer, placed, under⟩ := stacked
      have kept : holding = !released := by simpa [interrupted] using held
      have follows : (after ok rest).Runs released outer := .inl (after_placed placed)
      exact .inl ⟨rfl, by simpa [calm] using kept, by simp [calm], outer, follows, under⟩
    | interrupted body =>
      cases closed
      obtain ⟨set, _, runs, gave, under⟩ := stacked
      have set : released = true := set
      subst set
      exact .inl ⟨rfl, held, runs, gave, under⟩

/-- Code does with the GVL what it may: where what was pending runs as the GVL is given up, it goes
on or comes to its end. -/
theorem code_led (stood : thread.point = .code code)
    (held : holding = (!thread.released || interrupted thread.frames))
    (plain : interrupted thread.frames = true → code.plain = true)
    (runs : code.Runs thread.released inRuby)
    (stacked : Stacked thread.released inRuby thread.frames)
    (advanced : thread.advance = some (effect, next)) : Led holding effect next := by
  have goesOn {rest : Code} (less : interrupted thread.frames = true → rest.plain = true)
      (placed : rest.Placed inRuby) : ({ thread with point := .code rest } : Thread).Fits holding :=
    ⟨held, less, inRuby, .inl placed, stacked⟩
  -- Code that calls a Sandbox is none that was pending.
  have calm (calls : code.plain = false) : interrupted thread.frames = false := by
    rw [← Bool.not_eq_true]
    intro within
    rw [plain within] at calls
    cases calls
  have clear (quiet : interrupted thread.frames = false) : holding = !thread.released := by
    simpa [quiet] using held
  unfold advance at advanced
  simp only [stood] at advanced
  cases code with
  | done => exact close_led held stacked (Option.some.inj advanced)
  | panic => exact close_led held stacked (Option.some.inj advanced)
  | ruby rest =>
    cases advanced
    exact .inl ⟨rfl, goesOn plain (runs.placed (by simp)).2⟩
  | native rest =>
    cases advanced
    exact .inl ⟨rfl, goesOn plain (runs.placed (by simp))⟩
  | block rest =>
    cases advanced
    obtain placed | ⟨same, _⟩ := runs
    · exact absurd placed id
    · cases same
      exact .inl ⟨rfl, goesOn (fun _ => rfl) trivial⟩
  | invoke release body rest =>
    cases advanced
    obtain ⟨inside, entered, placed⟩ := runs.placed (by simp)
    subst inside
    have quiet := calm rfl
    exact .inl ⟨rfl, region_fits (clear quiet) quiet (fun _ => stacked.clear quiet) (.inl entered)
      placed stacked⟩
  | dispatch body rest =>
    cases advanced
    obtain ⟨outside, entered, placed⟩ := runs.placed (by simp)
    subst outside
    exact .inl ⟨rfl, reenter_fits (clear (calm rfl)) entered placed stacked⟩
  | wait rest =>
    cases advanced
    have placed := runs.placed (by simp)
    have quiet := calm rfl
    refine .inl ⟨rfl, region_fits (clear quiet) quiet ?_ (.inr ⟨rfl, rfl, ?_⟩) placed stacked⟩
    · intro given
      simpa [Thread.holds] using given
    · simp [Thread.holds]

/-- Every step of a thread does with the GVL what the thread may, where what is pending as it gives
the GVL up calls no Sandbox. -/
theorem advance_led (fits : thread.Fits holding)
    (pending : ∀ code ∈ thread.pending, code.Placed true)
    (calm : ∀ body, thread.point = .releasing body →
      ∀ code ∈ thread.pending.head?, code.plain = true)
    (advanced : thread.advance = some (effect, next)) : Led holding effect next := by
  cases stood : thread.point with
  | turn code =>
    unfold Fits at fits
    simp only [stood] at fits
    obtain ⟨free, plain, placed, stacked⟩ := fits
    simp only [advance, stood] at advanced
    cases advanced
    refine .inr (.inl ⟨rfl, free, ?_, plain, true, .inl placed, stacked⟩)
    cases within : interrupted thread.frames with
    | true => simp
    | false => simp [stacked.clear within]
  | code code =>
    unfold Fits at fits
    simp only [stood] at fits
    obtain ⟨held, plain, inRuby, runs, stacked⟩ := fits
    exact code_led stood held plain runs stacked advanced
  | releasing body =>
    unfold Fits at fits
    simp only [stood] at fits
    obtain ⟨held, runs, gave, stacked⟩ := fits
    have set : thread.released = true := stacked.set gave
    have under : Stacked true false thread.frames := set ▸ stacked
    have waits : body.Runs true false := set ▸ runs
    simp only [advance, stood] at advanced
    cases rest : thread.pending with
    | nil =>
      simp only [rest] at advanced
      cases advanced
      exact .inr (.inr ⟨rfl, held, by simp [set, under.calm_of_guest],
        by simp [under.calm_of_guest], false, runs, stacked⟩)
    | cons code more =>
      simp only [rest] at advanced
      cases advanced
      have plain := calm body stood code (by simp [rest])
      have placed := pending code (by simp [rest])
      exact .inl ⟨rfl, by simp [held, interrupted], fun _ => plain, true, .inl placed, set, rfl,
        waits, gave, stacked⟩
  | taking ok =>
    unfold Fits at fits
    simp only [stood] at fits
    obtain ⟨free, gave, stacked⟩ := fits
    obtain ⟨released, frames, point, waiting⟩ := thread
    cases stood
    obtain ⟨prev, rest, inner, rfl⟩ := Gave.innermost gave
    cases advanced
    obtain ⟨_, _, clear, outer, placed, under⟩ := stacked
    subst clear
    exact .inr (.inl ⟨rfl, free, by simp, by simp [under.calm_of_clear], outer,
      .inl (after_placed placed), under⟩)
  | acquiring body =>
    unfold Fits at fits
    simp only [stood] at fits
    obtain ⟨free, placed, took, stacked⟩ := fits
    obtain ⟨released, frames, point, waiting⟩ := thread
    cases stood
    cases advanced
    have clear : released = false := stacked.clear took.calm
    subst clear
    exact .inr (.inl ⟨rfl, free, by simp, by simp [Took.calm took], true, .inl placed, stacked⟩)
  | yielding ok =>
    unfold Fits at fits
    simp only [stood] at fits
    obtain ⟨held, took, stacked⟩ := fits
    obtain ⟨released, frames, point, waiting⟩ := thread
    cases stood
    obtain ⟨prev, rest, inner, rfl⟩ := Took.innermost took
    cases advanced
    obtain ⟨_, _, set, placed, under⟩ := stacked
    subst set
    exact .inr (.inr ⟨rfl, held, by simp [under.calm_of_guest], by simp [under.calm_of_guest],
      false, .inl (after_placed placed), under⟩)
  | finished ok =>
    simp only [advance, stood] at advanced
    cases advanced

/-- A step makes nothing pending. -/
theorem advance_pending (advanced : thread.advance = some (effect, next))
    (waits : code ∈ next.pending) :
    code ∈ thread.pending := by
  have closed (ok : Bool) : (thread.close ok).2.pending = thread.pending := by
    unfold close
    split <;> rfl
  unfold advance at advanced
  split at advanced
  · cases advanced
    exact waits
  · rw [← closed true, Option.some.inj advanced]
    exact waits
  · rw [← closed false, Option.some.inj advanced]
    exact waits
  · cases advanced
    exact waits
  · cases advanced
    exact waits
  · cases advanced
    exact waits
  · cases advanced
    unfold region at waits
    split at waits <;> exact waits
  · cases advanced
    unfold reenter at waits
    split at waits <;> exact waits
  · cases advanced
    unfold region at waits
    split at waits <;> exact waits
  · split at advanced
    · cases advanced
      exact waits
    · rename_i first more pending
      cases advanced
      rw [pending]
      exact .tail _ waits
  · cases advanced
    exact waits
  · split at advanced
    · cases advanced
      exact waits
    · cases advanced
  · split at advanced
    · cases advanced
      exact waits
    · cases advanced
  · cases advanced

end Thread

namespace State

/-- Whether a thread holds the GVL. -/
def isHolder (state : State τ) (thread : τ) : Bool := decide (state.holder = some thread)

/-- Every thread fits what it holds, and what is pending on it is in its place. -/
def Sound (state : State τ) : Prop :=
  ∀ thread, (state.threads thread).Fits (state.isHolder thread) ∧
    ∀ code ∈ (state.threads thread).pending, code.Placed true

variable {state after : State τ} {name : τ} {record : Thread}

/-- One thread's step leaves the others as they were, where none of them held the GVL before it or
after it. -/
theorem Sound.put (sound : state.Sound) {holder : Option τ}
    (others : ∀ other, other ≠ name → (holder = some other ↔ state.holder = some other))
    (fits : record.Fits (({ state with holder } : State τ).isHolder name))
    (pending : ∀ code ∈ record.pending, code.Placed true) :
    ({ state with holder }.put name record).Sound := by
  intro other
  by_cases same : other = name
  · subst same
    simp only [State.put, Function.update_self]
    exact ⟨fits, pending⟩
  · have before := sound other
    simp only [State.put, isHolder, Function.update_of_ne same, others other same] at before ⊢
    exact before

/-- Every step keeps every thread fitting. -/
theorem step_sound (state : State τ) (event : Event τ) (after : State τ) (sound : state.Sound)
    (calm : state.Calm event) (stepped : state.step event = some after) : after.Sound := by
  cases event with
  | step name =>
    obtain ⟨fits, pending⟩ := sound name
    have plain : ∀ body, (state.threads name).point = .releasing body →
        ∀ code ∈ (state.threads name).pending.head?, code.plain = true := by
      intro body stood code first
      exact calm.2 code (by simpa [interrupting, stood] using first)
    have kept {effect : Effect} {record : Thread}
        (advanced : (state.threads name).advance = some (effect, record)) :
        ∀ code ∈ record.pending, code.Placed true :=
      fun code waits => pending code (Thread.advance_pending advanced waits)
    simp only [step] at stepped
    split at stepped
    · cases stepped
    · rename_i record advanced
      cases stepped
      obtain ⟨_, fits⟩ | ⟨wrong, _⟩ | ⟨wrong, _⟩ := Thread.advance_led fits pending plain advanced
      · exact sound.put (fun _ _ => Iff.rfl) fits (kept advanced)
      · cases wrong
      · cases wrong
    · rename_i record advanced
      split at stepped
      · rename_i free
        cases stepped
        obtain ⟨wrong, _⟩ | ⟨_, _, fits⟩ | ⟨wrong, _⟩ :=
          Thread.advance_led fits pending plain advanced
        · cases wrong
        · refine sound.put (fun other elsewhere => ?_) (by simpa [isHolder] using fits)
            (kept advanced)
          simp [free, elsewhere.symm]
        · cases wrong
      · cases stepped
    · rename_i record advanced
      cases stepped
      obtain ⟨wrong, _⟩ | ⟨wrong, _⟩ | ⟨_, held, fits⟩ :=
        Thread.advance_led fits pending plain advanced
      · cases wrong
      · cases wrong
      · have mine : state.holder = some name := by simpa [isHolder] using held
        refine sound.put (fun other elsewhere => ?_) (by simpa [isHolder] using fits)
          (kept advanced)
        simp [mine, elsewhere.symm]
  | preempt name =>
    obtain ⟨fits, pending⟩ := sound name
    simp only [step] at stepped
    split at stepped
    · rename_i rest stood
      cases stepped
      unfold Thread.Fits at fits
      simp only [stood] at fits
      obtain ⟨held, plain, inRuby, runs, stacked⟩ := fits
      have placed := runs.placed (by simp)
      have inside : inRuby = true := placed.1
      subst inside
      have mine : state.holder = some name := by
        cases within : interrupted (state.threads name).frames with
        | true => simpa [isHolder, within] using held
        | false => simpa [isHolder, within, stacked.clear within] using held
      refine sound.put (fun other elsewhere => ?_) ?_ pending
      · simp [mine, elsewhere.symm]
      · exact ⟨by simp [isHolder], plain, placed, stacked⟩
    · cases stepped
  | interrupt name code =>
    obtain ⟨fits, pending⟩ := sound name
    have placed : code.Placed true := calm.1 code rfl
    cases stepped
    refine sound.put (fun _ _ => Iff.rfl) fits fun other waits => ?_
    obtain before | rfl : other ∈ (state.threads name).pending ∨ other = code := by
      simpa using waits
    · exact pending other before
    · exact placed
  | trap name =>
    obtain ⟨fits, pending⟩ := sound name
    simp only [step] at stepped
    split at stepped
    · rename_i rest code more stood waiting
      cases stepped
      unfold Thread.Fits at fits
      simp only [stood] at fits
      obtain ⟨held, plain, inRuby, runs, stacked⟩ := fits
      have goes := runs.placed (by simp)
      have inside : inRuby = true := goes.1
      subst inside
      have placed : code.Placed true := pending code (by simp [waiting])
      have quiet (within : interrupted (state.threads name).frames = true) : code.plain = true :=
        calm.2 code (by simp [interrupting, within, waiting])
      refine sound.put (fun _ _ => Iff.rfl) ⟨held, fun within => ?_, true, ?_, stacked⟩ ?_
      · exact Code.plain_andThen (quiet within) (plain within)
      · exact .inl (placed.andThen goes)
      · exact fun other waits => pending other (by simp [waiting, waits])
    · cases stepped

/-- Threads before their first turn fit. -/
theorem new_sound {codes : τ → Code} (placed : ∀ thread, (codes thread).Placed true) :
    (State.new codes).Sound :=
  fun thread => ⟨⟨rfl, by simp [State.new, interrupted], placed thread, rfl, rfl⟩,
    by simp [State.new]⟩

/-- Whatever threads run, however their steps and the VM's switches and interrupts fall, and
wherever a closure panics, where the Ruby code an interrupt runs as the GVL is about to be given up
calls no Sandbox: a thread runs code with the GVL exactly where its flag is clear or that code runs;
Ruby code runs only with it; a thread gives up only the GVL it holds, and asks only for one it does
not hold; and the thread that holds it waits for no other lock, and for nothing but its own next
step. A thread that left every call has its flag clear. -/
theorem ruby_runs_under_the_gvl {codes : τ → Code}
    (placed : ∀ thread, (codes thread).Placed true) (events : List (Event τ))
    (ran : run step (.new codes) events = some state)
    (calm : Along step Calm (.new codes) events) (name : τ) :
    (∀ code, (state.threads name).point = .code code →
      (state.holder = some name ↔
        (state.threads name).released = false ∨ interrupted (state.threads name).frames = true)) ∧
    (∀ rest, (state.threads name).point = .code (.ruby rest) → state.holder = some name) ∧
    (∀ rest, (state.threads name).point = .code (.block rest) → state.holder ≠ some name) ∧
    (∀ body, (state.threads name).point = .releasing body → state.holder = some name) ∧
    (∀ ok, (state.threads name).point = .yielding ok → state.holder = some name) ∧
    (∀ body, (state.threads name).point = .acquiring body → state.holder ≠ some name) ∧
    (∀ ok, (state.threads name).point = .taking ok → state.holder ≠ some name) ∧
    ((state.threads name).frames = [] → (∀ ok, (state.threads name).point ≠ .finished ok) →
      (state.threads name).released = false) := by
  have sound : state.Sound :=
    run_preserves_along step step_sound events _ state (new_sound placed) calm ran
  have fits := (sound name).1
  unfold Thread.Fits at fits
  have flag : ∀ code, (state.threads name).point = .code code →
      (state.holder = some name ↔
        (state.threads name).released = false ∨
          interrupted (state.threads name).frames = true) := by
    intro code stood
    simp only [stood] at fits
    have held : state.holder = some name ↔ state.isHolder name = true := by simp [isHolder]
    rw [held, fits.1]
    simp
  refine ⟨flag, ?_, ?_, ?_, ?_, ?_, ?_, ?_⟩
  · intro rest stood
    rw [flag _ stood]
    simp only [stood] at fits
    obtain ⟨_, _, inRuby, runs, stacked⟩ := fits
    have inside : inRuby = true := (runs.placed (by simp)).1
    subst inside
    cases within : interrupted (state.threads name).frames with
    | true => exact .inr rfl
    | false => exact .inl (stacked.clear within)
  · intro rest stood held
    have holds := (flag _ stood).mp held
    simp only [stood] at fits
    obtain ⟨_, plain, inRuby, placed | ⟨_, _, set⟩, _⟩ := fits
    · exact placed
    · obtain clear | within := holds
      · simp [clear] at set
      · have wrong := plain within
        cases wrong
  · intro body stood
    simp only [stood] at fits
    simpa [isHolder] using fits.1
  · intro ok stood
    simp only [stood] at fits
    simpa [isHolder] using fits.1
  · intro body stood
    simp only [stood] at fits
    simpa [isHolder] using fits.1
  · intro ok stood
    simp only [stood] at fits
    simpa [isHolder] using fits.1
  · intro outermost going
    cases stood : (state.threads name).point with
    | turn code =>
      simp only [stood, outermost] at fits
      exact fits.2.2.2.1
    | code code =>
      simp only [stood, outermost] at fits
      obtain ⟨_, _, _, _, clear, _⟩ := fits
      exact clear
    | releasing body =>
      simp only [stood, outermost] at fits
      exact absurd fits.2.2.1 id
    | taking ok =>
      simp only [stood, outermost] at fits
      exact absurd fits.2.1 id
    | acquiring body =>
      simp only [stood, outermost] at fits
      exact absurd fits.2.2.1 id
    | yielding ok =>
      simp only [stood, outermost] at fits
      exact absurd fits.2.1 id
    | finished ok => exact absurd stood (going ok)

/-- One thread invokes a guest that dispatches back into Ruby, which waits for a lock; another runs
Ruby alone. -/
def twoThreads : Bool → Code
  | false => .invoke true (.dispatch (.ruby (.wait .done)) .done) (.ruby .done)
  | true => .ruby .done

/-- The first is interrupted as it gives the GVL up, runs what is pending, and takes the GVL again
after the second is done. -/
def takenTurns : List (Event Bool) :=
  [.step false, .step false, .interrupt false (.ruby .done), .step false, .step false, .step false,
    .step false, .step true, .step false, .step true, .step true, .step false]

theorem ruby_runs_under_the_gvl_dispatch :
    (∀ thread, (twoThreads thread).Placed true) ∧ Along step Calm (.new twoThreads) takenTurns ∧
      ∃ state, run step (.new twoThreads) takenTurns = some state ∧
        (state.threads false).point = .code (.ruby (.wait .done)) ∧
        state.holder = some false := by
  have placed : ∀ thread, (twoThreads thread).Placed true := by decide
  have calm : Along step Calm (.new twoThreads) takenTurns := by decide
  refine ⟨placed, calm, _, rfl, rfl, ?_⟩
  exact (ruby_runs_under_the_gvl placed takenTurns rfl calm false).2.1 _ rfl

/-- What is pending as the GVL is about to be given up runs a Sandbox that keeps it and dispatches
back into Ruby: the flag being set, the dispatch asks for the GVL its thread holds. -/
example : ∃ state, run step (.new twoThreads)
      [.step false, .step false, .interrupt false (.invoke false (.dispatch .done .done) .done),
        .step false, .step false, .step false] = some state ∧
    (state.threads false).point = .acquiring .done ∧ state.holder = some false :=
  ⟨_, rfl, rfl, rfl⟩

end State

end Kobako.Gvl
