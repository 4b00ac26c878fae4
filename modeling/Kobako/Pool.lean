import Kobako.Run
import Mathlib.Data.List.Count

/-!
# The pool of Sandboxes

`Pool` as its threads run it. Whatever runs under `@mutex` is one step: the check of
`claim_or_wait` up to its wait, the return of a Sandbox and the release of a reservation. A
Sandbox is built outside the lock, its slot reserved before and given back where the build fails.
A wait ends by a signal, by its time running out or by nothing at all; a thread whose wait ended
unsignalled still stands among the waiters until it holds the lock, so a signal may reach it too.
-/

namespace Kobako.Pool

/-- Where a thread stands with the pool. -/
inductive Phase where
  /-- In no call of `with`. -/
  | outside
  /-- In the loop of `acquire`, the lock not taken yet. -/
  | entering (deadline : Option Nat)
  /-- In `@slot_freed.wait`. -/
  | asleep (deadline : Option Nat)
  /-- Out of its sleep without a signal, the lock not held yet. -/
  | lapsed (deadline : Option Nat)
  /-- Signalled, the lock not held yet. -/
  | woken (deadline : Option Nat)
  /-- In `construct_slot`, its slot reserved. -/
  | building
  /-- Its construction failed, `release_capacity` next. -/
  | failed
  /-- In its block with a Sandbox, or out of it with `checkin` next. -/
  | holding (sandbox : Nat)
  deriving DecidableEq, Repr

namespace Phase

/-- A thread among the waiters a signal may reach. -/
def waits : Phase → Bool
  | asleep _ | lapsed _ => true
  | _ => false

/-- A thread a signal reached that has not checked again. -/
def ready : Phase → Bool
  | woken _ => true
  | _ => false

/-- A thread that reserved a slot and holds no Sandbox of it yet. -/
def reserves : Phase → Bool
  | building | failed => true
  | _ => false

/-- A thread that builds a Sandbox. -/
def builds : Phase → Bool
  | building => true
  | _ => false

/-- A thread that holds a Sandbox. -/
def holds : Phase → Bool
  | holding _ => true
  | _ => false

/-- A thread that holds this Sandbox. -/
def holdsThis (sandbox : Nat) : Phase → Bool
  | holding held => held == sandbox
  | _ => false

end Phase

/-- `Pool`, with the clock and the threads that use it. -/
structure State where
  /-- `@slots`. -/
  slots : Nat
  /-- `@checkout_timeout`. -/
  timeout : Option Nat
  /-- `@idle`. -/
  idle : List Nat
  /-- `@constructed`. -/
  constructed : Nat
  /-- The Sandboxes built so far, each named by how many were built before it. -/
  built : Nat
  /-- The monotonic clock. -/
  now : Nat
  /-- Where each thread stands. -/
  threads : List Phase
  deriving DecidableEq, Repr

namespace State

/-- `Pool#initialize`, none where the number of slots is refused. -/
def new (slots : Nat) (timeout : Option Nat) : Option State :=
  if 0 < slots then
    some { slots, timeout, idle := [], constructed := 0, built := 0, now := 0, threads := [] }
  else none

/-- A thread moved to another phase. -/
def moved (state : State) (thread : Nat) (phase : Phase) : State :=
  { state with threads := state.threads.set thread phase }

/-- The threads of a kind. -/
def count (state : State) (kind : Phase → Bool) : Nat := state.threads.countP kind

/-- The idle Sandboxes and the free slots. -/
def opens (state : State) : Nat := state.idle.length + (state.slots - state.constructed)

end State

/-- What a thread does, or the clock. -/
inductive Event where
  /-- A thread comes to be. -/
  | spawn
  /-- Time passes. -/
  | tick (time : Nat)
  /-- A thread calls `with`, which sets its deadline. -/
  | enter (thread : Nat)
  /-- A thread runs `claim_or_wait`, up to its wait. -/
  | check (thread : Nat)
  /-- A wait ends unsignalled. -/
  | lapse (thread : Nat)
  /-- A Sandbox is built and set up. -/
  | build (thread : Nat)
  /-- A construction raises. -/
  | fail (thread : Nat)
  /-- A thread runs `checkin`, whose signal reaches a waiter, if there is one. -/
  | checkin (thread : Nat) (reaches : Option Nat)
  /-- A thread runs `release_capacity`, whose signal reaches a waiter, if there is one. -/
  | release (thread : Nat) (reaches : Option Nat)
  deriving DecidableEq, Repr

/-- `@slot_freed.signal`, which reaches one of the waiters, none only where there is none. -/
def signal (state : State) : Option Nat → Option State
  | none => if state.count Phase.waits = 0 then some state else none
  | some thread =>
    match state.threads[thread]? with
    | some (.asleep deadline) => some (state.moved thread (.woken deadline))
    | some (.lapsed deadline) => some (state.moved thread (.woken deadline))
    | _ => none

/-- `claim_or_wait` of a thread with this deadline, up to its wait: an idle Sandbox claimed, a slot
reserved, the wait refused past the deadline, or the wait begun. -/
def claimOrWait (state : State) (thread : Nat) (deadline : Option Nat) : State :=
  match state.idle.getLast? with
  | some sandbox => { state with idle := state.idle.dropLast }.moved thread (.holding sandbox)
  | none =>
    if state.constructed < state.slots then
      { state with constructed := state.constructed + 1 }.moved thread .building
    else if deadline.any (· ≤ state.now) then state.moved thread .outside
    else state.moved thread (.asleep deadline)

/-- One step of the pool. -/
def step (state : State) : Event → Option State
  | .spawn => some { state with threads := state.threads ++ [.outside] }
  | .tick time => some { state with now := state.now + time }
  | .enter thread =>
    match state.threads[thread]? with
    | some .outside => some (state.moved thread (.entering (state.timeout.map (state.now + ·))))
    | _ => none
  | .check thread =>
    match state.threads[thread]? with
    | some (.entering deadline) => some (claimOrWait state thread deadline)
    | some (.lapsed deadline) => some (claimOrWait state thread deadline)
    | some (.woken deadline) => some (claimOrWait state thread deadline)
    | _ => none
  | .lapse thread =>
    match state.threads[thread]? with
    | some (.asleep deadline) => some (state.moved thread (.lapsed deadline))
    | _ => none
  | .build thread =>
    match state.threads[thread]? with
    | some .building =>
      some ({ state with built := state.built + 1 }.moved thread (.holding state.built))
    | _ => none
  | .fail thread =>
    match state.threads[thread]? with
    | some .building => some (state.moved thread .failed)
    | _ => none
  | .checkin thread reaches =>
    match state.threads[thread]? with
    | some (.holding sandbox) =>
      signal ({ state with idle := state.idle ++ [sandbox] }.moved thread .outside) reaches
    | _ => none
  | .release thread reaches =>
    match state.threads[thread]? with
    | some .failed =>
      signal ({ state with constructed := state.constructed - 1 }.moved thread .outside) reaches
    | _ => none

/-! ## The invariant -/

/-- Each slot reserved is idle, held or being built, each Sandbox is idle or held once, and while
threads wait, as many are signalled as could claim, save for as many as the pool is short of. -/
structure Sound (short : Nat) (state : State) : Prop where
  /-- The slots reserved are those of Sandboxes idle, held or being built. -/
  reserved : state.idle.length + state.count Phase.holds + state.count Phase.reserves =
    state.constructed
  /-- No more are reserved than there are. -/
  fits : state.constructed ≤ state.slots
  /-- Each Sandbox built is idle, or held by one thread. -/
  once : ∀ sandbox, state.idle.count sandbox + state.count (Phase.holdsThis sandbox) =
    (decide (sandbox < state.built)).toNat
  /-- A waiter beside something to claim is outnumbered by threads signalled. -/
  signalled : 0 < state.count Phase.waits → state.opens ≤ state.count Phase.ready + short

variable {old : Phase} {thread : Nat} {state next : State}

/-- The threads of a kind, once one of them moved. -/
theorem count_moved {state : State} (stands : state.threads[thread]? = some old) (new : Phase)
    (kind : Phase → Bool) :
    (state.moved thread new).count kind + (kind old).toNat =
      state.count kind + (kind new).toNat := by
  obtain ⟨within, here⟩ := List.getElem?_eq_some_iff.mp stands
  have counted := List.countP_set (p := kind) (a := new) within
  have among : kind old = true → 0 < state.threads.countP kind := by
    intro isKind
    exact List.countP_pos_iff.mpr ⟨old, List.mem_of_getElem? stands, isKind⟩
  simp only [State.moved, State.count]
  rw [counted, here]
  cases olds : kind old with
  | false => cases kind new <;> simp
  | true =>
    have some := among olds
    cases kind new <;> simp <;> omega

/-- One thread moves, and what the pool holds changes with it: the invariant is kept where the
slots and Sandboxes it gives up or takes are the pool's, and where it takes no signal from a
waiter that it leaves something to claim. -/
theorem Sound.change (new : Phase) {short : Nat} (missing : Nat) (sound : Sound short state)
    (stands : state.threads[thread]? = some old)
    (threads : next.threads = state.threads.set thread new)
    (reserved : next.idle.length + new.holds.toNat + new.reserves.toNat + state.constructed =
      state.idle.length + old.holds.toNat + old.reserves.toNat + next.constructed)
    (fits : next.constructed ≤ next.slots)
    (once : ∀ sandbox, next.idle.count sandbox + (new.holdsThis sandbox).toNat +
        (decide (sandbox < state.built)).toNat =
      state.idle.count sandbox + (old.holdsThis sandbox).toNat +
        (decide (sandbox < next.built)).toNat)
   
    (signalled : next.opens = 0 ∨ new.waits.toNat ≤ old.waits.toNat ∧
      next.opens + old.ready.toNat + short ≤ state.opens + new.ready.toNat + missing) :
    Sound missing next := by
  have counts : ∀ kind, next.count kind + (kind old).toNat =
      state.count kind + (kind new).toNat := by
    intro kind
    rw [← count_moved stands new kind, State.count, threads]
    rfl
  refine ⟨?_, fits, fun sandbox => ?_, fun waiting => ?_⟩
  · have before := sound.reserved
    have holders := counts Phase.holds
    have reservers := counts Phase.reserves
    omega
  · have before := sound.once sandbox
    have holders := counts (Phase.holdsThis sandbox)
    have changes := once sandbox
    omega
  · have waiters := counts Phase.waits
    have readied := counts Phase.ready
    rcases signalled with nothing | ⟨fewer, enough⟩
    · omega
    · have before := sound.signalled (by omega)
      omega

/-! ## One step -/

/-- A signal makes up for one more thing to claim. -/
theorem signal_sound {reaches : Option Nat} (sound : Sound 1 state)
    (sent : signal state reaches = some next) : Sound 0 next := by
  cases reaches with
  | none =>
    simp only [signal] at sent
    split at sent
    · rename_i nobody
      cases sent
      exact ⟨sound.reserved, sound.fits, sound.once, fun waiting => absurd waiting (by omega)⟩
    · cases sent
  | some thread =>
    simp only [signal] at sent
    split at sent
    · rename_i deadline stands
      cases sent
      exact sound.change (.woken deadline) 0 stands rfl rfl sound.fits (fun _ => rfl)
        (.inr ⟨Nat.zero_le _, Nat.le_refl _⟩)
    · rename_i deadline stands
      cases sent
      exact sound.change (.woken deadline) 0 stands rfl rfl sound.fits (fun _ => rfl)
        (.inr ⟨Nat.zero_le _, Nat.le_refl _⟩)
    · cases sent

/-- A thread in `acquire`, with nothing of the pool's. -/
inductive Phase.Acquires (deadline : Option Nat) : Phase → Prop
  /-- On its way in. -/
  | entering : Acquires deadline (.entering deadline)
  /-- After a wait that ended unsignalled. -/
  | lapsed : Acquires deadline (.lapsed deadline)
  /-- After a signal. -/
  | woken : Acquires deadline (.woken deadline)

/-- A thread in `acquire` holds nothing and has nothing reserved. -/
theorem Phase.Acquires.empty {deadline : Option Nat} {phase : Phase}
    (acquires : phase.Acquires deadline) : phase.holds = false ∧ phase.reserves = false ∧
      (∀ sandbox, phase.holdsThis sandbox = false) := by
  cases acquires <;> exact ⟨rfl, rfl, fun _ => rfl⟩

/-- A thread that checks claims what there is, and waits or gives up only where there is
nothing. -/
theorem claimOrWait_sound {state : State} {deadline : Option Nat} (sound : Sound 0 state)
    (stands : state.threads[thread]? = some old) (acquires : old.Acquires deadline) :
    Sound 0 (claimOrWait state thread deadline) := by
  obtain ⟨held, kept, this⟩ := acquires.empty
  have ready : old.ready.toNat ≤ 1 := Bool.toNat_le _
  rw [claimOrWait]
  cases last : state.idle.getLast? with
  | some sandbox =>
    obtain ⟨front, split⟩ := List.getLast?_eq_some_iff.mp last
    have idle : state.idle.dropLast = front := by rw [split, List.dropLast_concat]
    have long := congrArg List.length split
    rw [List.length_append, List.length_singleton] at long
    refine sound.change (.holding sandbox) 0 stands rfl ?_ sound.fits (fun other => ?_)
      (.inr ⟨Nat.zero_le _, ?_⟩)
    · change state.idle.dropLast.length + 1 + 0 + state.constructed = state.idle.length +
        old.holds.toNat + old.reserves.toNat + state.constructed
      rw [idle, held, kept]
      simp only [Bool.toNat_false]
      omega
    · change state.idle.dropLast.count other + (sandbox == other).toNat + _ =
        state.idle.count other + (old.holdsThis other).toNat + _
      rw [idle, this, split, List.count_append, List.count_singleton]
      cases sandbox == other <;> rfl
    · change state.idle.dropLast.length + (state.slots - state.constructed) + old.ready.toNat + 0 ≤
        state.idle.length + (state.slots - state.constructed) + 0 + 0
      rw [idle]
      omega
  | none =>
    have nothing : state.idle = [] := List.getLast?_eq_none_iff.mp last
    simp only
    split
    · rename_i free
      refine sound.change .building 0 stands rfl ?_ free (fun other => ?_)
        (.inr ⟨Nat.zero_le _, ?_⟩)
      · change state.idle.length + 0 + 1 + state.constructed = state.idle.length +
          old.holds.toNat + old.reserves.toNat + (state.constructed + 1)
        rw [held, kept]
        simp only [Bool.toNat_false]
        omega
      · change state.idle.count other + 0 + _ =
          state.idle.count other + (old.holdsThis other).toNat + _
        rw [this]
        rfl
      · change state.idle.length + (state.slots - (state.constructed + 1)) + old.ready.toNat + 0 ≤
          state.idle.length + (state.slots - state.constructed) + 0 + 0
        omega
    · rename_i full
      have closed : state.opens = 0 := by
        rw [State.opens, nothing]
        simp only [List.length_nil]
        omega
      have stays : ∀ phase : Phase, phase.holds = false → phase.reserves = false →
          (∀ sandbox, phase.holdsThis sandbox = false) → Sound 0 (state.moved thread phase) := by
        intro phase holds reserves holdsThis
        refine sound.change phase 0 stands rfl ?_ sound.fits (fun other => ?_) (.inl closed)
        · rw [held, kept, holds, reserves]
          rfl
        · rw [this, holdsThis]
          rfl
      split
      · exact stays .outside rfl rfl fun _ => rfl
      · exact stays (.asleep deadline) rfl rfl fun _ => rfl

/-- Every step keeps the invariant. -/
theorem step_sound (event : Event) (sound : Sound 0 state) (taken : step state event = some next) :
    Sound 0 next := by
  cases event with
  | spawn =>
    cases taken
    have counts : ∀ kind, kind Phase.outside = false →
        State.count { state with threads := state.threads ++ [.outside] } kind =
          state.count kind := by
      intro kind other
      simp [State.count, other]
    refine ⟨?_, sound.fits, fun sandbox => ?_, fun waiting => ?_⟩
    · rw [counts _ rfl, counts _ rfl]
      exact sound.reserved
    · rw [counts _ rfl]
      exact sound.once sandbox
    · rw [counts _ rfl] at waiting ⊢
      exact sound.signalled waiting
  | tick time =>
    cases taken
    exact ⟨sound.reserved, sound.fits, sound.once, sound.signalled⟩
  | enter thread =>
    simp only [step] at taken
    split at taken
    · rename_i stands
      cases taken
      exact sound.change (.entering _) 0 stands rfl rfl sound.fits (fun _ => rfl)
        (.inr ⟨Nat.zero_le _, Nat.le_refl _⟩)
    · cases taken
  | check thread =>
    simp only [step] at taken
    split at taken
    · rename_i stands
      cases taken
      exact claimOrWait_sound sound stands .entering
    · rename_i stands
      cases taken
      exact claimOrWait_sound sound stands .lapsed
    · rename_i stands
      cases taken
      exact claimOrWait_sound sound stands .woken
    · cases taken
  | lapse thread =>
    simp only [step] at taken
    split at taken
    · rename_i deadline stands
      cases taken
      exact sound.change (.lapsed deadline) 0 stands rfl rfl sound.fits (fun _ => rfl)
        (.inr ⟨Nat.le_refl _, Nat.le_refl _⟩)
    · cases taken
  | build thread =>
    simp only [step] at taken
    split at taken
    · rename_i stands
      cases taken
      refine sound.change (.holding state.built) 0 stands rfl rfl sound.fits (fun other => ?_)
        (.inr ⟨Nat.zero_le _, Nat.le_refl _⟩)
      change state.idle.count other + (state.built == other).toNat +
        (decide (other < state.built)).toNat =
          state.idle.count other + 0 + (decide (other < state.built + 1)).toNat
      rcases Nat.lt_trichotomy other state.built with below | same | above
      · simp [below, Nat.lt_succ_of_lt below, Nat.ne_of_gt below]
      · simp [same]
      · simp [Nat.lt_asymm above, Nat.ne_of_lt above, Nat.not_lt_of_le above]
    · cases taken
  | fail thread =>
    simp only [step] at taken
    split at taken
    · rename_i stands
      cases taken
      exact sound.change .failed 0 stands rfl rfl sound.fits (fun _ => rfl)
        (.inr ⟨Nat.zero_le _, Nat.le_refl _⟩)
    · cases taken
  | checkin thread reaches =>
    simp only [step] at taken
    split at taken
    · rename_i sandbox stands
      apply signal_sound _ taken
      refine sound.change .outside 1 stands rfl ?_ sound.fits (fun other => ?_)
        (.inr ⟨Nat.zero_le _, ?_⟩)
      · change (state.idle ++ [sandbox]).length + 0 + 0 + state.constructed =
          state.idle.length + 1 + 0 + state.constructed
        rw [List.length_append, List.length_singleton]
      · change (state.idle ++ [sandbox]).count other + 0 + _ =
          state.idle.count other + (sandbox == other).toNat + _
        rw [List.count_append, List.count_singleton]
        cases sandbox == other <;> rfl
      · change (state.idle ++ [sandbox]).length + (state.slots - state.constructed) + 0 + 0 ≤
          state.idle.length + (state.slots - state.constructed) + 0 + 1
        rw [List.length_append, List.length_singleton]
        omega
    · cases taken
  | release thread reaches =>
    simp only [step] at taken
    split at taken
    · rename_i stands
      have reserved := sound.reserved
      have fits := sound.fits
      have failing : 0 < state.count Phase.reserves :=
        List.countP_pos_iff.mpr ⟨.failed, List.mem_of_getElem? stands, rfl⟩
      apply signal_sound _ taken
      refine sound.change .outside 1 stands rfl ?_ ?_ (fun other => rfl) (.inr ⟨Nat.zero_le _, ?_⟩)
      · change state.idle.length + 0 + 0 + state.constructed =
          state.idle.length + 0 + 1 + (state.constructed - 1)
        omega
      · change state.constructed - 1 ≤ state.slots
        omega
      · change state.idle.length + (state.slots - (state.constructed - 1)) + 0 + 0 ≤
          state.idle.length + (state.slots - state.constructed) + 0 + 1
        omega
    · cases taken

/-! ## Whole runs -/

/-- A signal changes no more than the phase of the thread it reaches. -/
theorem signal_eq {reaches : Option Nat} (sent : signal state reaches = some next) :
    ∃ threads, next = { state with threads := threads } := by
  cases reaches with
  | none =>
    simp only [signal] at sent
    split at sent
    · exact ⟨state.threads, (Option.some.inj sent).symm⟩
    · cases sent
  | some thread =>
    simp only [signal] at sent
    split at sent
    · exact ⟨_, (Option.some.inj sent).symm⟩
    · exact ⟨_, (Option.some.inj sent).symm⟩
    · cases sent

/-- A signal is always sent, to a waiter where there is one. -/
theorem signal_sent (state : State) : ∃ reaches next, signal state reaches = some next := by
  by_cases nobody : state.count Phase.waits = 0
  · exact ⟨none, state, by simp [signal, nobody]⟩
  · obtain ⟨phase, mem, waits⟩ := List.countP_pos_iff.mp (Nat.pos_of_ne_zero nobody)
    obtain ⟨thread, stands⟩ := List.mem_iff_getElem?.mp mem
    cases phase with
    | asleep deadline =>
      exact ⟨some thread, state.moved thread (.woken deadline), by simp only [signal, stands]⟩
    | lapsed deadline =>
      exact ⟨some thread, state.moved thread (.woken deadline), by simp only [signal, stands]⟩
    | _ => cases waits

/-- A check changes nothing of how many slots there are. -/
theorem claimOrWait_slots (state : State) (thread : Nat) (deadline : Option Nat) :
    (claimOrWait state thread deadline).slots = state.slots := by
  rw [claimOrWait]
  cases state.idle.getLast? with
  | some sandbox => rfl
  | none =>
    simp only
    split
    · rfl
    · split <;> rfl

/-- No step changes how many slots there are. -/
theorem step_slots (event : Event) (taken : step state event = some next) :
    next.slots = state.slots := by
  cases event with
  | spawn => cases taken; rfl
  | tick time => cases taken; rfl
  | check thread =>
    simp only [step] at taken
    split at taken <;> cases taken <;> exact claimOrWait_slots state thread _
  | checkin thread reaches | release thread reaches =>
    simp only [step] at taken
    split at taken
    · obtain ⟨threads, rfl⟩ := signal_eq taken
      rfl
    · cases taken
  | _ =>
    simp only [step] at taken
    split at taken <;> cases taken
    rfl

/-- A pool starts with nothing reserved. -/
theorem new_sound {slots : Nat} {timeout : Option Nat} {start : State}
    (made : State.new slots timeout = some start) : Sound 0 start ∧ start.slots = slots := by
  rw [State.new] at made
  split at made
  · cases made
    exact ⟨⟨rfl, Nat.zero_le _, fun sandbox => by simp [State.count], fun waiting => by
      simp [State.count] at waiting⟩, rfl⟩
  · cases made

/-- Every state a pool reaches is sound. -/
theorem reached_sound {slots : Nat} {timeout : Option Nat} {start state : State}
    (made : State.new slots timeout = some start) (reached : Reachable step start state) :
    Sound 0 state ∧ state.slots = slots := by
  have kept : ∀ state event next, (Sound 0 state ∧ state.slots = slots) →
      step state event = some next → Sound 0 next ∧ next.slots = slots :=
    fun state event next holds taken =>
      ⟨step_sound event holds.1 taken, (step_slots event taken).trans holds.2⟩
  exact Reachable.invariant step (new_sound made) kept reached

/-- A thread that gives up past its deadline found nothing to claim. -/
theorem check_outside (taken : step state (.check thread) = some next)
    (gaveUp : next.threads[thread]? = some .outside) : state.opens = 0 := by
  have gives : ∀ deadline, next = claimOrWait state thread deadline → state.opens = 0 := by
    rintro deadline rfl
    have within := (List.getElem?_eq_some_iff.mp gaveUp).1
    rw [claimOrWait] at gaveUp within
    cases last : state.idle.getLast? with
    | some sandbox =>
      simp only [last, State.moved, List.length_set] at gaveUp within
      simp [within] at gaveUp
    | none =>
      have nothing : state.idle = [] := List.getLast?_eq_none_iff.mp last
      simp only [last] at gaveUp within
      split at gaveUp
      · rename_i free
        simp only [free, ↓reduceIte, State.moved, List.length_set] at gaveUp within
        simp [within] at gaveUp
      · rename_i full
        rw [State.opens, nothing, List.length_nil]
        omega
  simp only [step] at taken
  split at taken
  · exact gives _ (Option.some.inj taken).symm
  · exact gives _ (Option.some.inj taken).symm
  · exact gives _ (Option.some.inj taken).symm
  · cases taken

/-- The pool neither overcommits nor loses a wake-up. In every state its threads reach, the
Sandboxes idle, held or being built are no more than the slots; each Sandbox built is idle or held,
by one thread; a failed build can give its slot back, which frees it; beside a sleeper as many
threads are signalled and about to check again as there are idle Sandboxes and free slots; and no
thread gives up beside one. -/
theorem pool_sound {slots : Nat} {timeout : Option Nat} {start state : State}
    (made : State.new slots timeout = some start) (reached : Reachable step start state) :
    state.idle.length + state.count Phase.holds + state.count Phase.builds ≤ slots ∧
    (∀ sandbox < state.built,
      state.idle.count sandbox + state.count (Phase.holdsThis sandbox) = 1) ∧
    (∀ sandbox ≥ state.built,
      state.idle.count sandbox + state.count (Phase.holdsThis sandbox) = 0) ∧
    (∀ thread : Nat, state.threads[thread]? = some .failed →
      (∃ reaches next, step state (.release thread reaches) = some next) ∧
      ∀ reaches next, step state (.release thread reaches) = some next →
        next.opens = state.opens + 1) ∧
    (∀ (thread : Nat) deadline, state.threads[thread]? = some (.asleep deadline) →
      state.opens ≤ state.count Phase.ready) ∧
    (∀ thread next, step state (.check thread) = some next →
      next.threads[thread]? = some .outside → state.opens = 0) := by
  obtain ⟨sound, same⟩ := reached_sound made reached
  have reserved := sound.reserved
  have fits := sound.fits
  refine ⟨?_, fun sandbox below => ?_, fun sandbox above => ?_, fun thread stands => ⟨?_, ?_⟩,
    fun thread deadline stands => ?_, fun thread next => check_outside⟩
  · have fewer : state.count Phase.builds ≤ state.count Phase.reserves :=
      List.countP_mono_left fun phase _ builds => by
        cases phase <;> first | rfl | cases builds
    omega
  · rw [sound.once, decide_eq_true below]
    rfl
  · rw [sound.once, decide_eq_false (by omega)]
    rfl
  · obtain ⟨reaches, next, sent⟩ := signal_sent
      ({ state with constructed := state.constructed - 1 }.moved thread .outside)
    exact ⟨reaches, next, by simp only [step, stands, sent]⟩
  · intro reaches next taken
    have failing : 0 < state.count Phase.reserves :=
      List.countP_pos_iff.mpr ⟨.failed, List.mem_of_getElem? stands, rfl⟩
    simp only [step, stands] at taken
    obtain ⟨threads, rfl⟩ := signal_eq taken
    simp only [State.opens, State.moved]
    omega
  · exact sound.signalled
      (List.countP_pos_iff.mpr ⟨.asleep deadline, List.mem_of_getElem? stands, rfl⟩)

/-- One slot and three threads, the first of which built the Sandbox while the others fell asleep,
and whose return of it woke the second. -/
def returned : State :=
  { slots := 1, timeout := some 5, idle := [0], constructed := 1, built := 1, now := 0
    threads := [.outside, .woken (some 5), .asleep (some 5)] }

/-- The thread woken makes up for the Sandbox idle beside the one asleep. -/
theorem pool_sound_returned :
    ∃ start, State.new 1 (some 5) = some start ∧
      run step start [.spawn, .spawn, .spawn, .enter 0, .check 0, .build 0, .enter 1, .check 1,
        .enter 2, .check 2, .checkin 0 (some 1)] = some returned ∧
      returned.opens = 1 ∧ returned.opens ≤ returned.count Phase.ready := by
  have made : State.new 1 (some 5) = some ⟨1, some 5, [], 0, 0, 0, []⟩ := rfl
  have ran : run step ⟨1, some 5, [], 0, 0, 0, []⟩ [.spawn, .spawn, .spawn, .enter 0, .check 0,
      .build 0, .enter 1, .check 1, .enter 2, .check 2, .checkin 0 (some 1)] =
        some returned := by decide
  exact ⟨_, made, ran, rfl, (pool_sound made ⟨_, ran⟩).2.2.2.2.1 2 (some 5) rfl⟩

end Kobako.Pool
