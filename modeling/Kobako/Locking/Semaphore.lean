import Kobako.Run
import Mathlib.Logic.Function.Basic

/-!
# The semaphore

`RwSemaphore` as its threads run it. Whatever runs under the `holders` mutex is one step; a wait
gives the mutex up as it falls asleep, and a release notifies once it has let the mutex go, so
both are cut there. A sleeping thread is woken by a notification, by its own time slice or by
nothing at all.
-/

namespace Kobako.Locking

/-- `locking::DownError`. -/
inductive DownError where
  | deadlock
  | interrupted
deriving Repr, DecidableEq

variable (τ : Type)

/-- `locking::Holders`. -/
structure Holders where
  writer : Option τ
  /-- One entry for each shared hold. -/
  readers : List τ
  /-- The threads that wait for a release. -/
  waiting : Nat
  /-- The threads that wait to hold it exclusive. -/
  writersWaiting : Nat
deriving Repr, DecidableEq

/-- `RwSemaphoreGuard`, one semaphore told of. -/
structure Guard where
  holder : τ
  exclusive : Bool
deriving Repr, DecidableEq

/-- Where a thread stands with the semaphore, `exclusive` being the hold it asks for. -/
inductive Phase where
  /-- In no call of it. -/
  | idle
  /-- Refused by the fast path, the mutex let go. -/
  | slow (exclusive : Bool)
  /-- In the loop of `down_slowpath`, the mutex held. -/
  | running (exclusive : Bool)
  /-- In `wait_timeout`. -/
  | asleep (exclusive : Bool)
  /-- Woken, the mutex not held yet. -/
  | woken (exclusive : Bool)
  /-- A guard dropped and the mutex let go, `notify_all` next. -/
  | notifying
deriving Repr, DecidableEq

/-- The semaphore, the guards that are out and where each thread stands. -/
structure World where
  holders : Holders τ
  guards : List (Guard τ)
  phase : τ → Phase

/-- What a thread does next. `fatal` is what `fatal_signal_pending` answers it. -/
inductive Act where
  /-- `down_read` and `down_write`, as far as the fast path. -/
  | down (thread : τ) (exclusive : Bool)
  /-- `down_read_trylock` and `down_write_trylock`. -/
  | trylock (thread : τ) (exclusive : Bool)
  /-- Into `down_slowpath`. -/
  | enter (thread : τ) (fatal : Bool)
  /-- Out of the sleep without a notification. -/
  | wake (thread : τ)
  /-- Out of `wait_timeout`, the mutex held again. -/
  | resume (thread : τ) (fatal : Bool)
  /-- `RwSemaphoreGuard::drop`, as far as the mutex. -/
  | drop (thread : τ) (guard : Guard τ)
  /-- `notify_all` of a dropped guard. -/
  | notify (thread : τ)
deriving Repr, DecidableEq

/-- What a step answers its thread. -/
inductive Answer where
  /-- A guard. -/
  | taken
  /-- `None` of a trylock. -/
  | refused
  | failed (e : DownError)
  /-- Nothing yet, or nothing to answer. -/
  | silent
deriving Repr, DecidableEq

variable {τ} [DecidableEq τ]

namespace Holders

/-- Nobody holds it or waits for it. -/
def empty : Holders τ := ⟨none, [], 0, 0⟩

/-- The closure of `RwSemaphore::down_read`. -/
def takeShared (current : τ) (holders : Holders τ) : Except DownError (Bool × Holders τ) :=
  match holders.writer with
  | some writer => if writer = current then .error .deadlock else .ok (false, holders)
  | none =>
    if 0 < holders.writersWaiting ∧ current ∉ holders.readers then .ok (false, holders)
    else .ok (true, { holders with readers := holders.readers ++ [current] })

/-- The closure of `RwSemaphore::down_write`. -/
def takeExclusive (current : τ) (holders : Holders τ) : Except DownError (Bool × Holders τ) :=
  if holders.writer = some current ∨ current ∈ holders.readers then .error .deadlock
  else if holders.writer.isSome ∨ holders.readers ≠ [] then .ok (false, holders)
  else .ok (true, { holders with writer := some current })

/-- The closure a call hands to `RwSemaphore::down`. -/
def take (exclusive : Bool) (current : τ) (holders : Holders τ) :
    Except DownError (Bool × Holders τ) :=
  if exclusive then takeExclusive current holders else takeShared current holders

/-- The check of `down_read_trylock` and of `down_write_trylock`, then the hold. -/
def tryTake (exclusive : Bool) (current : τ) (holders : Holders τ) : Option (Holders τ) :=
  if exclusive then
    if holders.writer.isSome ∨ holders.readers ≠ [] then none
    else some { holders with writer := some current }
  else if holders.writer.isSome ∨ 0 < holders.writersWaiting then none
  else some { holders with readers := holders.readers ++ [current] }

/-- `Vec::swap_remove`: the last entry takes the place of the one removed. -/
def swapRemove (readers : List τ) (position : Nat) : List τ :=
  match readers.getLast? with
  | none => readers
  | some last => (readers.set position last).dropLast

/-- What `RwSemaphoreGuard::drop` does to the holders. -/
def release (holders : Holders τ) (guard : Guard τ) : Holders τ :=
  if guard.exclusive then { holders with writer := none }
  else match holders.readers.idxOf? guard.holder with
    | some position => { holders with readers := swapRemove holders.readers position }
    | none => holders

/-- `writers_waiting += usize::from(exclusive)`. -/
def queue (holders : Holders τ) (exclusive : Bool) : Holders τ :=
  { holders with writersWaiting := holders.writersWaiting + exclusive.toNat }

/-- `writers_waiting -= usize::from(exclusive)`. -/
def unqueue (holders : Holders τ) (exclusive : Bool) : Holders τ :=
  { holders with writersWaiting := holders.writersWaiting - exclusive.toNat }

end Holders

/-- `notify_all`: every sleeping thread wakes. -/
def notifyAll (phase : τ → Phase) : τ → Phase := fun thread =>
  match phase thread with
  | .asleep exclusive => .woken exclusive
  | other => other

namespace World

/-- A semaphore nobody has asked for. -/
def start : World τ := ⟨.empty, [], fun _ => .idle⟩

variable (world : World τ)

/-- A thread moved on. -/
def goTo (thread : τ) (phase : Phase) : World τ :=
  { world with phase := Function.update world.phase thread phase }

/-- `RwSemaphore::guard`, with the hold it stands for. -/
def grant (thread : τ) (exclusive : Bool) (holders : Holders τ) : World τ :=
  { world with holders := holders, guards := ⟨thread, exclusive⟩ :: world.guards }

/-- Out of `down_slowpath` without a hold. -/
def giveUp (thread : τ) (exclusive : Bool) : World τ :=
  let left : World τ := { world.goTo thread .idle with holders := world.holders.unqueue exclusive }
  if 0 < left.holders.waiting then { left with phase := notifyAll left.phase } else left

/-- One turn of the loop of `down_slowpath`, ended by sleep or by leaving it. -/
def turn (thread : τ) (exclusive fatal : Bool) : World τ × Answer :=
  match world.holders.take exclusive thread with
  | .ok (true, holders) =>
    ((world.grant thread exclusive (holders.unqueue exclusive)).goTo thread .idle, .taken)
  | .ok (false, holders) =>
    if fatal then (world.giveUp thread exclusive, .failed .interrupted)
    else
      ({ world.goTo thread (.asleep exclusive) with
          holders := { holders with waiting := holders.waiting + 1 } }, .silent)
  | .error e => (world.giveUp thread exclusive, .failed e)

/-- The head of `down_slowpath`: the mutex, and the place in the queue. -/
def enqueue (thread : τ) (exclusive : Bool) : World τ :=
  { world.goTo thread (.running exclusive) with holders := world.holders.queue exclusive }

/-- `wait_timeout` returned: the mutex, and one thread less that waits. -/
def unwait (thread : τ) (exclusive : Bool) : World τ :=
  { world.goTo thread (.running exclusive) with
    holders := { world.holders with waiting := world.holders.waiting - 1 } }

/-- `RwSemaphore::down` as far as its fast path. -/
def down (thread : τ) (exclusive : Bool) : World τ × Answer :=
  match world.holders.take exclusive thread with
  | .ok (true, holders) => (world.grant thread exclusive holders, .taken)
  | .ok (false, _) => (world.goTo thread (.slow exclusive), .silent)
  | .error e => (world, .failed e)

/-- `down_read_trylock` and `down_write_trylock`. -/
def trylock (thread : τ) (exclusive : Bool) : World τ × Answer :=
  match world.holders.tryTake exclusive thread with
  | some holders => (world.grant thread exclusive holders, .taken)
  | none => (world, .refused)

/-- `RwSemaphoreGuard::drop` under the mutex. -/
def dropGuard (thread : τ) (guard : Guard τ) : World τ :=
  let left : World τ :=
    { world with holders := world.holders.release guard, guards := world.guards.erase guard }
  if 0 < left.holders.waiting then left.goTo thread .notifying else left

/-- One step of one thread, if it stands where the step is taken from. -/
def step : Act τ → Option (World τ × Answer)
  | .down thread exclusive =>
    match world.phase thread with
    | .idle => some (world.down thread exclusive)
    | _ => none
  | .trylock thread exclusive =>
    match world.phase thread with
    | .idle => some (world.trylock thread exclusive)
    | _ => none
  | .enter thread fatal =>
    match world.phase thread with
    | .slow exclusive => some ((world.enqueue thread exclusive).turn thread exclusive fatal)
    | _ => none
  | .wake thread =>
    match world.phase thread with
    | .asleep exclusive => some (world.goTo thread (.woken exclusive), .silent)
    | _ => none
  | .resume thread fatal =>
    match world.phase thread with
    | .woken exclusive => some ((world.unwait thread exclusive).turn thread exclusive fatal)
    | _ => none
  | .drop thread guard =>
    match world.phase thread with
    | .idle => if guard ∈ world.guards then some (world.dropGuard thread guard, .silent) else none
    | _ => none
  | .notify thread =>
    match world.phase thread with
    | .notifying =>
      some ({ world with phase := notifyAll (Function.update world.phase thread .idle) }, .silent)
    | _ => none

/-- Where a step leads, its answer left out. -/
def next (act : Act τ) : Option (World τ) := (world.step act).map Prod.fst

/-- The thread and the hold a step of `down_read` or `down_write` asks for. -/
def asking : Act τ → Option (τ × Bool)
  | .down thread exclusive => some (thread, exclusive)
  | .enter thread _ | .resume thread _ =>
    match world.phase thread with
    | .slow exclusive | .woken exclusive => some (thread, exclusive)
    | _ => none
  | _ => none

end World

end Kobako.Locking
