import Kobako.Locking.Semaphore
import Mathlib.Data.Set.Card
import Mathlib.Data.List.Perm.Basic

/-!
# Exclusion

What every interleaving keeps of the semaphore: the holders name exactly the guards that are out,
exclusive or shared and never both, the two counters count the threads that wait, and a thread
that sleeps could not take its hold, or is about to be notified.
-/

namespace Kobako.Locking

variable {τ : Type} [DecidableEq τ]

/-! ## What a hold takes -/

namespace Holders

/-- `take` would answer a thread the hold. -/
def Grantable (holders : Holders τ) (exclusive : Bool) (thread : τ) : Prop :=
  ∃ held, holders.take exclusive thread = .ok (true, held)

/-- The hold taken: nobody wrote, and nobody read either where it is exclusive. -/
def Grants (holders : Holders τ) (exclusive : Bool) (thread : τ) (held : Holders τ) : Prop :=
  holders.writer = none ∧
    ((exclusive = true ∧ holders.readers = [] ∧ held = { holders with writer := some thread }) ∨
      (exclusive = false ∧ held = { holders with readers := holders.readers ++ [thread] }))

variable {exclusive : Bool} {holders held : Holders τ} {thread : τ}

theorem take_granted (taken : holders.take exclusive thread = .ok (true, held)) :
    holders.Grants exclusive thread held ∧
      (exclusive = false → 0 < holders.writersWaiting → thread ∈ holders.readers) := by
  cases exclusive with
  | true =>
    simp only [take, takeExclusive, if_true] at taken
    split at taken
    · cases taken
    · split at taken
      · cases taken
      · rename_i free
        cases taken
        rw [not_or, Bool.not_eq_true, Option.isSome_eq_false_iff, Option.isNone_iff_eq_none,
          not_not] at free
        exact ⟨⟨free.1, .inl ⟨rfl, free.2, rfl⟩⟩, nofun⟩
  | false =>
    simp only [take, takeShared, Bool.false_eq_true, if_false] at taken
    split at taken
    · split at taken
      · cases taken
      · cases taken
    · rename_i unwritten
      split at taken
      · cases taken
      · rename_i free
        cases taken
        refine ⟨⟨unwritten, .inr ⟨rfl, rfl⟩⟩, fun _ queued => ?_⟩
        by_contra absent
        exact free ⟨queued, absent⟩

/-- A hold refused for now: the thread asking for it holds nothing. -/
theorem take_refused (refused : holders.take exclusive thread = .ok (false, held)) :
    held = holders ∧ holders.writer ≠ some thread ∧
      (thread ∈ holders.readers → exclusive = false ∧ holders.writer ≠ none) := by
  cases exclusive with
  | true =>
    simp only [take, takeExclusive, if_true] at refused
    split at refused
    · cases refused
    · rename_i apart
      split at refused
      · cases refused
        rw [not_or] at apart
        exact ⟨rfl, apart.1, fun reads => absurd reads apart.2⟩
      · cases refused
  | false =>
    simp only [take, takeShared, Bool.false_eq_true, if_false] at refused
    split at refused
    · rename_i writer written
      split at refused
      · cases refused
      · rename_i other
        cases refused
        refine ⟨rfl, ?_, fun _ => ⟨rfl, ?_⟩⟩
        · rw [written]
          exact fun same => other (Option.some.inj same)
        · rw [written]
          exact nofun
    · rename_i unwritten
      split at refused
      · rename_i queued
        cases refused
        refine ⟨rfl, ?_, fun reads => absurd reads queued.2⟩
        rw [unwritten]
        exact nofun
      · cases refused

/-- A hold is a deadlock exactly when the thread asking for it has one that rules it out. -/
theorem take_deadlock (holders : Holders τ) (exclusive : Bool) (thread : τ) :
    (∃ e, holders.take exclusive thread = .error e) ↔
      holders.writer = some thread ∨ (exclusive = true ∧ thread ∈ holders.readers) := by
  cases exclusive with
  | true =>
    simp only [take, takeExclusive, if_true, true_and]
    split
    · rename_i held
      exact ⟨fun _ => held, fun _ => ⟨_, rfl⟩⟩
    · rename_i apart
      split
      · exact ⟨nofun, fun held => absurd held apart⟩
      · exact ⟨nofun, fun held => absurd held apart⟩
  | false =>
    simp only [take, takeShared, Bool.false_eq_true, if_false, false_and, or_false]
    split
    · rename_i writer written
      rw [written, Option.some.injEq]
      split
      · rename_i same
        exact ⟨fun _ => same, fun _ => ⟨_, rfl⟩⟩
      · rename_i other
        exact ⟨nofun, fun same => absurd same other⟩
    · rename_i unwritten
      rw [unwritten]
      split
      · exact ⟨nofun, nofun⟩
      · exact ⟨nofun, nofun⟩

/-- The one error a hold is refused with. -/
theorem take_error {holders : Holders τ} {e : DownError}
    (failed : holders.take exclusive thread = .error e) : e = .deadlock := by
  cases exclusive with
  | true =>
    simp only [take, takeExclusive, if_true] at failed
    split at failed
    · cases failed
      rfl
    · split at failed
      · cases failed
      · cases failed
  | false =>
    simp only [take, takeShared, Bool.false_eq_true, if_false] at failed
    split at failed
    · split at failed
      · cases failed
        rfl
      · cases failed
    · split at failed
      · cases failed
      · cases failed

omit [DecidableEq τ] in
theorem tryTake_granted (taken : holders.tryTake exclusive thread = some held) :
    holders.Grants exclusive thread held ∧
      (exclusive = false → 0 < holders.writersWaiting → thread ∈ holders.readers) := by
  cases exclusive with
  | true =>
    simp only [tryTake, if_true] at taken
    split at taken
    · cases taken
    · rename_i free
      cases taken
      rw [not_or, Bool.not_eq_true, Option.isSome_eq_false_iff, Option.isNone_iff_eq_none,
        not_not] at free
      exact ⟨⟨free.1, .inl ⟨rfl, free.2, rfl⟩⟩, nofun⟩
  | false =>
    simp only [tryTake, Bool.false_eq_true, if_false] at taken
    split at taken
    · cases taken
    · rename_i free
      cases taken
      rw [not_or, Bool.not_eq_true, Option.isSome_eq_false_iff, Option.isNone_iff_eq_none] at free
      exact ⟨⟨free.1, .inr ⟨rfl, rfl⟩⟩, fun _ queued => absurd queued free.2⟩

/-- Whether a hold is to be had depends on who holds it and on who waits to write. -/
theorem grantable_iff (holders : Holders τ) (exclusive : Bool) (thread : τ) :
    holders.Grantable exclusive thread ↔
      holders.writer = none ∧ (exclusive = true → holders.readers = []) ∧
        (exclusive = false → 0 < holders.writersWaiting → thread ∈ holders.readers) := by
  constructor
  · rintro ⟨held, taken⟩
    obtain ⟨⟨unwritten, shape⟩, queued⟩ := take_granted taken
    refine ⟨unwritten, fun exclusively => ?_, queued⟩
    rcases shape with ⟨-, unread, -⟩ | ⟨shared, -⟩
    · exact unread
    · exact absurd (exclusively.symm.trans shared) (by decide)
  · rintro ⟨unwritten, unread, queued⟩
    cases exclusive with
    | true =>
      have free : ¬(holders.writer = some thread ∨ thread ∈ holders.readers) := by
        rw [unwritten, unread rfl]
        simp
      have nobody : ¬(holders.writer.isSome ∨ holders.readers ≠ []) := by
        rw [unwritten, unread rfl]
        simp
      exact ⟨_, by rw [take, if_pos rfl, takeExclusive, if_neg free, if_neg nobody]⟩
    | false =>
      have behind : ¬(0 < holders.writersWaiting ∧ thread ∉ holders.readers) := by
        rintro ⟨some, absent⟩
        exact absent (queued rfl some)
      exact ⟨{ holders with readers := holders.readers ++ [thread] }, by
        rw [take, if_neg Bool.false_ne_true, takeShared, unwritten]
        exact if_neg behind⟩

end Holders

/-! ## The invariant -/

namespace Phase

/-- Counted in `waiting`. -/
def Waits : Phase → Prop
  | asleep _ | woken _ => True
  | _ => False

/-- Counted in `writers_waiting`. -/
def WaitsToWrite : Phase → Prop
  | running exclusive | asleep exclusive | woken exclusive => exclusive = true
  | _ => False

/-- In a call that the fast path refused, the mutex let go. -/
def Asks : Phase → Prop
  | slow _ | asleep _ | woken _ => True
  | _ => False

end Phase

/-- As many threads as `number` stand where `stands` says. -/
def Counted (phase : τ → Phase) (stands : Phase → Prop) (number : Nat) : Prop :=
  Set.encard {thread | stands (phase thread)} = number

/-- The holders of the guards of one kind. -/
def holdersOf (guards : List (Guard τ)) (exclusive : Bool) : List τ :=
  (guards.filter fun guard => guard.exclusive = exclusive).map Guard.holder

/-- The holders name the guards that are out, and the counters count the threads that wait. -/
structure Balanced (world : World τ) : Prop where
  /-- The readers are the threads of the shared guards. -/
  readers : world.holders.readers.Perm (holdersOf world.guards false)
  /-- The writer is the thread of the exclusive guard. -/
  writer : world.holders.writer.toList = holdersOf world.guards true
  /-- Nobody reads while somebody writes. -/
  apart : world.holders.writer ≠ none → world.holders.readers = []
  waiting : Counted world.phase Phase.Waits world.holders.waiting
  writersWaiting : Counted world.phase Phase.WaitsToWrite world.holders.writersWaiting
  /-- A thread past the fast path holds nothing. -/
  clear : ∀ thread, (world.phase thread).Asks → ∀ guard ∈ world.guards, guard.holder ≠ thread

/-- A sleeping thread's hold is not to be had, or a notification is on its way. -/
def Awake (world : World τ) : Prop :=
  ∀ thread exclusive, world.phase thread = .asleep exclusive →
    world.holders.Grantable exclusive thread → ∃ other, world.phase other = .notifying

/-! ### Counting -/

namespace Counted

variable {phase : τ → Phase} {stands : Phase → Prop} {number : Nat} {thread : τ} {next : Phase}

section

variable (counted : Counted phase stands number)

include counted

/-- A thread that moves without joining or leaving changes no count. -/
theorem same (alike : stands next ↔ stands (phase thread)) :
    Counted (Function.update phase thread next) stands number := by
  have same : {other | stands (Function.update phase thread next other)} =
      {other | stands (phase other)} := by
    ext other
    by_cases self : other = thread
    · subst self
      simp [alike]
    · simp [Function.update_of_ne self]
  unfold Counted
  rw [same]
  exact counted

/-- A thread that joins is one more. -/
theorem joined (before : ¬stands (phase thread)) (after : stands next) :
    Counted (Function.update phase thread next) stands (number + 1) := by
  have grown : {other | stands (Function.update phase thread next other)} =
      insert thread {other | stands (phase other)} := by
    ext other
    by_cases self : other = thread
    · subst self
      simp [after]
    · simp [self]
  have absent : thread ∉ {other | stands (phase other)} := before
  unfold Counted at counted ⊢
  rw [grown, Set.encard_insert_of_notMem absent, counted]
  rfl

/-- A thread that leaves was counted, and is one less. -/
theorem left (before : stands (phase thread)) (after : ¬stands next) :
    0 < number ∧ Counted (Function.update phase thread next) stands (number - 1) := by
  have shrunk : {other | stands (Function.update phase thread next other)} =
      {other | stands (phase other)} \ {thread} := by
    ext other
    by_cases self : other = thread
    · subst self
      simp [after]
    · simp [self]
  have sum := Set.encard_sdiff_singleton_add_one
    (show thread ∈ {other | stands (phase other)} from before)
  rw [← shrunk] at sum
  unfold Counted at counted ⊢
  rw [counted] at sum
  cases number with
  | zero => exact absurd sum (by simp)
  | succ fewer =>
    rw [Nat.cast_succ] at sum
    exact ⟨Nat.succ_pos fewer, WithTop.add_right_cancel ENat.one_ne_top sum⟩

/-- A thread that joins if `exclusive` says so. -/
theorem queued {exclusive : Bool} (before : ¬stands (phase thread))
    (after : stands next ↔ exclusive = true) :
    Counted (Function.update phase thread next) stands (number + exclusive.toNat) := by
  cases exclusive with
  | true => exact counted.joined before (after.mpr rfl)
  | false =>
    have outside : ¬stands next := fun inside => absurd (after.mp inside) (by decide)
    exact counted.same (iff_of_false outside before)

/-- A thread that leaves if `exclusive` says it was there. -/
theorem unqueued {exclusive : Bool} (before : stands (phase thread) ↔ exclusive = true)
    (after : ¬stands next) :
    Counted (Function.update phase thread next) stands (number - exclusive.toNat) := by
  cases exclusive with
  | true => exact (counted.left (before.mpr rfl) after).2
  | false =>
    have outside : ¬stands (phase thread) := fun inside => absurd (before.mp inside) (by decide)
    exact counted.same (iff_of_false after outside)

end

omit [DecidableEq τ] in
/-- Nobody is counted where the count is zero. -/
theorem nobody (counted : Counted phase stands 0) (thread : τ) : ¬stands (phase thread) := by
  intro standing
  have empty := Set.encard_eq_zero.mp counted
  have member : thread ∈ {other | stands (phase other)} := standing
  rw [empty] at member
  exact member

end Counted

/-! ### Guards -/

omit [DecidableEq τ] in
theorem mem_holdersOf {guards : List (Guard τ)} {exclusive : Bool} {thread : τ} :
    thread ∈ holdersOf guards exclusive ↔
      ∃ guard ∈ guards, guard.holder = thread ∧ guard.exclusive = exclusive := by
  simp only [holdersOf, List.mem_map, List.mem_filter, decide_eq_true_eq]
  constructor
  · rintro ⟨guard, ⟨out, kind⟩, holder⟩
    exact ⟨guard, out, holder, kind⟩
  · rintro ⟨guard, out, holder, kind⟩
    exact ⟨guard, ⟨out, kind⟩, holder⟩

omit [DecidableEq τ] in
theorem holdersOf_cons (guard : Guard τ) (guards : List (Guard τ)) (exclusive : Bool) :
    holdersOf (guard :: guards) exclusive =
      if guard.exclusive = exclusive then guard.holder :: holdersOf guards exclusive
      else holdersOf guards exclusive := by
  by_cases kind : guard.exclusive = exclusive
  · simp [holdersOf, kind]
  · simp [holdersOf, kind]

/-- A guard let go takes its own thread out of its own kind. -/
theorem holdersOf_erase {guards : List (Guard τ)} {guard : Guard τ} (out : guard ∈ guards)
    (exclusive : Bool) :
    (holdersOf guards exclusive).Perm
      (if guard.exclusive = exclusive then
        guard.holder :: holdersOf (guards.erase guard) exclusive
      else holdersOf (guards.erase guard) exclusive) := by
  rw [← holdersOf_cons]
  exact ((List.perm_cons_erase out).filter _).map _

namespace Holders

omit [DecidableEq τ] in
/-- Removing an entry leaves the others, in some order. -/
theorem perm_swapRemove {readers : List τ} {position : Nat} (within : position < readers.length) :
    readers.Perm (readers[position] :: swapRemove readers position) := by
  obtain ⟨front, last, rfl⟩ : ∃ front last, readers = front ++ [last] := by
    have filled : readers ≠ [] := List.ne_nil_of_length_pos (by omega)
    exact ⟨readers.dropLast, readers.getLast filled, (List.dropLast_concat_getLast filled).symm⟩
  have moved : (front ++ [last]).Perm (last :: front) := List.perm_append_singleton last front
  have swapped : swapRemove (front ++ [last]) position =
      ((front ++ [last]).set position last).dropLast := by
    rw [swapRemove, List.getLast?_concat]
  rw [swapped]
  rw [List.length_append, List.length_singleton] at within
  by_cases inner : position < front.length
  · have kept := List.getElem_cons_eraseIdx_perm inner
    have put := List.set_perm_cons_eraseIdx inner last
    rw [List.set_append_left _ _ inner, List.dropLast_concat, List.getElem_append_left inner]
    calc List.Perm (front ++ [last]) (last :: front) := moved
      List.Perm _ (last :: front[position] :: front.eraseIdx position) := kept.symm.cons last
      List.Perm _ (front[position] :: last :: front.eraseIdx position) := List.Perm.swap _ _ _
      List.Perm _ (front[position] :: front.set position last) := put.symm.cons _
  · have atEnd : position = front.length := by omega
    subst atEnd
    rw [List.set_append_right _ _ (Nat.le_refl _), Nat.sub_self, List.set_cons_zero,
      List.dropLast_concat, List.getElem_concat_length rfl]
    exact moved

/-- A hold let go changes neither counter. -/
theorem release_counts (holders : Holders τ) (guard : Guard τ) :
    (holders.release guard).waiting = holders.waiting ∧
      (holders.release guard).writersWaiting = holders.writersWaiting := by
  unfold release
  split
  · exact ⟨rfl, rfl⟩
  · split
    · exact ⟨rfl, rfl⟩
    · exact ⟨rfl, rfl⟩

/-- A shared hold let go leaves the writer alone. -/
theorem release_writer {holders : Holders τ} {guard : Guard τ} (shared : guard.exclusive = false) :
    (holders.release guard).writer = holders.writer := by
  rw [release, if_neg (by rw [shared]; decide)]
  split
  · rfl
  · rfl

/-- A shared hold let go takes its thread out of the readers. -/
theorem perm_release {holders : Holders τ} {guard : Guard τ} (shared : guard.exclusive = false)
    (reads : guard.holder ∈ holders.readers) :
    holders.readers.Perm (guard.holder :: (holders.release guard).readers) := by
  rw [release, if_neg (by rw [shared]; decide)]
  cases found : holders.readers.idxOf? guard.holder with
  | none => exact absurd reads (List.idxOf?_eq_none_iff.mp found)
  | some position =>
    obtain ⟨within, same, -⟩ := List.idxOf?_eq_some_iff.mp found
    have moved := perm_swapRemove within
    rw [same] at moved
    exact moved

end Holders

/-! ## What each step keeps -/

namespace Balanced

variable {world : World τ} {thread : τ} {exclusive : Bool}

section

variable (balanced : Balanced world)

include balanced

omit [DecidableEq τ] in
/-- The writer is the thread of the exclusive guard. -/
theorem writer_iff (thread : τ) :
    world.holders.writer = some thread ↔
      ∃ guard ∈ world.guards, guard.holder = thread ∧ guard.exclusive = true := by
  rw [← mem_holdersOf, ← balanced.writer]
  simp

omit [DecidableEq τ] in
/-- The readers are the threads of the shared guards. -/
theorem reads_iff (thread : τ) :
    thread ∈ world.holders.readers ↔
      ∃ guard ∈ world.guards, guard.holder = thread ∧ guard.exclusive = false := by
  rw [← mem_holdersOf, balanced.readers.mem_iff]

/-- A hold is a deadlock exactly when a guard of the thread's own rules it out. -/
theorem deadlock_iff (exclusive : Bool) (thread : τ) :
    (∃ e, world.holders.take exclusive thread = .error e) ↔
      ∃ guard ∈ world.guards, guard.holder = thread ∧
        (exclusive = true ∨ guard.exclusive = true) := by
  rw [Holders.take_deadlock, balanced.writer_iff, balanced.reads_iff]
  constructor
  · rintro (⟨guard, out, holder, kind⟩ | ⟨asked, guard, out, holder, -⟩)
    · exact ⟨guard, out, holder, .inr kind⟩
    · exact ⟨guard, out, holder, .inl asked⟩
  · rintro ⟨guard, out, holder, rules⟩
    cases kind : guard.exclusive with
    | true => exact .inl ⟨guard, out, holder, kind⟩
    | false =>
      rw [kind] at rules
      exact .inr ⟨rules.resolve_right (by decide), guard, out, holder, kind⟩

/-- A thread the fast path refuses holds nothing. -/
theorem clear_of_refused {held : Holders τ}
    (refused : world.holders.take exclusive thread = .ok (false, held)) :
    ∀ guard ∈ world.guards, guard.holder ≠ thread := by
  intro guard out holder
  obtain ⟨-, notWriter, notReader⟩ := Holders.take_refused refused
  cases kind : guard.exclusive with
  | true => exact notWriter ((balanced.writer_iff thread).mpr ⟨guard, out, holder, kind⟩)
  | false =>
    have reads := (balanced.reads_iff thread).mpr ⟨guard, out, holder, kind⟩
    have unread := balanced.apart (notReader reads).2
    rw [unread] at reads
    exact absurd reads List.not_mem_nil

omit [DecidableEq τ] in
/-- A hold taken by a thread that is not waiting for one. -/
theorem grant {held : Holders τ} (grants : world.holders.Grants exclusive thread held)
    (settled : ¬(world.phase thread).Asks) :
    Balanced (world.grant thread exclusive held) := by
  have clear : ∀ other, (world.phase other).Asks →
      ∀ guard ∈ (⟨thread, exclusive⟩ : Guard τ) :: world.guards, guard.holder ≠ other := by
    intro other asks guard out
    rcases List.mem_cons.mp out with rfl | older
    · rintro rfl
      exact settled asks
    · exact balanced.clear other asks guard older
  obtain ⟨unwritten, ⟨rfl, unread, rfl⟩ | ⟨rfl, rfl⟩⟩ := grants
  · have readers := balanced.readers
    have nobody := balanced.writer
    rw [unread] at readers
    rw [unwritten] at nobody
    refine ⟨?_, ?_, fun _ => unread, balanced.waiting, balanced.writersWaiting, clear⟩
    · show world.holders.readers.Perm _
      rw [unread]
      exact readers
    · show [thread] = holdersOf (⟨thread, true⟩ :: world.guards) true
      rw [holdersOf_cons, if_pos rfl, ← nobody]
      rfl
  · refine ⟨?_, ?_, ?_, balanced.waiting, balanced.writersWaiting, clear⟩
    · show (world.holders.readers ++ [thread]).Perm (holdersOf (⟨thread, false⟩ :: world.guards) false)
      rw [holdersOf_cons, if_pos rfl]
      exact (List.perm_append_singleton _ _).trans (balanced.readers.cons _)
    · show world.holders.writer.toList = holdersOf (⟨thread, false⟩ :: world.guards) true
      rw [holdersOf_cons, if_neg Bool.false_ne_true]
      exact balanced.writer
    · intro written
      exact absurd unwritten written

/-- A thread moved on, the counters told of it. -/
theorem goTo {next : Phase} {waiting writersWaiting : Nat}
    (waits : Counted (Function.update world.phase thread next) Phase.Waits waiting)
    (waitsToWrite : Counted (Function.update world.phase thread next) Phase.WaitsToWrite
      writersWaiting)
    (clear : next.Asks → ∀ guard ∈ world.guards, guard.holder ≠ thread) :
    Balanced { world.goTo thread next with
      holders := { world.holders with waiting, writersWaiting } } := by
  refine ⟨balanced.readers, balanced.writer, balanced.apart, waits, waitsToWrite, ?_⟩
  intro other asks guard out
  by_cases self : other = thread
  · subst self
    exact clear (by simpa [World.goTo] using asks) guard out
  · have before : (world.phase other).Asks := by
      simpa [World.goTo, Function.update_of_ne self] using asks
    exact balanced.clear other before guard out

/-- Into the loop of `down_slowpath`, and into the queue where the hold is exclusive. -/
theorem enqueue (stood : world.phase thread = .slow exclusive) :
    Balanced (world.enqueue thread exclusive) := by
  apply balanced.goTo
  · apply balanced.waiting.same
    rw [stood]
    exact Iff.rfl
  · apply balanced.writersWaiting.queued
    · rw [stood]
      exact id
    · exact Iff.rfl
  · exact False.elim

/-- Out of the sleep, one thread less that waits. -/
theorem unwait (stood : world.phase thread = .woken exclusive) :
    Balanced (world.unwait thread exclusive) := by
  apply balanced.goTo
  · apply (balanced.waiting.left _ _).2
    · rw [stood]
      trivial
    · exact id
  · apply balanced.writersWaiting.same
    rw [stood]
    exact Iff.rfl
  · exact False.elim

/-- To sleep, one thread more that waits. -/
theorem sleep (stood : world.phase thread = .running exclusive)
    (clear : ∀ guard ∈ world.guards, guard.holder ≠ thread) :
    Balanced { world.goTo thread (.asleep exclusive) with
      holders := { world.holders with waiting := world.holders.waiting + 1 } } := by
  apply balanced.goTo
  · apply balanced.waiting.joined
    · rw [stood]
      exact id
    · trivial
  · apply balanced.writersWaiting.same
    rw [stood]
    exact Iff.rfl
  · exact fun _ => clear

/-- Out of the loop of `down_slowpath`, and out of the queue. -/
theorem leave (stood : world.phase thread = .running exclusive) :
    Balanced { world.goTo thread .idle with holders := world.holders.unqueue exclusive } := by
  apply balanced.goTo
  · apply balanced.waiting.same
    rw [stood]
    exact Iff.rfl
  · apply balanced.writersWaiting.unqueued
    · rw [stood]
      exact Iff.rfl
    · exact id
  · exact False.elim

/-- A thread moved between places counted alike. -/
theorem move {next : Phase} (waits : next.Waits ↔ (world.phase thread).Waits)
    (waitsToWrite : next.WaitsToWrite ↔ (world.phase thread).WaitsToWrite)
    (clear : next.Asks → ∀ guard ∈ world.guards, guard.holder ≠ thread) :
    Balanced (world.goTo thread next) :=
  balanced.goTo (balanced.waiting.same waits) (balanced.writersWaiting.same waitsToWrite) clear

end

end Balanced

omit [DecidableEq τ] in
/-- A notified thread is still counted where it was. -/
theorem notifyAll_alike (phase : τ → Phase) (thread : τ) :
    ((notifyAll phase thread).Waits ↔ (phase thread).Waits) ∧
      ((notifyAll phase thread).WaitsToWrite ↔ (phase thread).WaitsToWrite) ∧
      ((notifyAll phase thread).Asks ↔ (phase thread).Asks) := by
  unfold notifyAll
  cases phase thread <;> exact ⟨Iff.rfl, Iff.rfl, Iff.rfl⟩

omit [DecidableEq τ] in
/-- Nobody sleeps through a notification. -/
theorem notifyAll_ne_asleep (phase : τ → Phase) (thread : τ) (exclusive : Bool) :
    notifyAll phase thread ≠ .asleep exclusive := by
  unfold notifyAll
  cases phase thread <;> exact nofun

omit [DecidableEq τ] in
theorem Balanced.notifyAll {world : World τ} (balanced : Balanced world) :
    Balanced { world with phase := notifyAll world.phase } := by
  have waits : {thread | (Locking.notifyAll world.phase thread).Waits} =
      {thread | (world.phase thread).Waits} :=
    Set.ext fun thread => (notifyAll_alike world.phase thread).1
  have waitsToWrite : {thread | (Locking.notifyAll world.phase thread).WaitsToWrite} =
      {thread | (world.phase thread).WaitsToWrite} :=
    Set.ext fun thread => (notifyAll_alike world.phase thread).2.1
  refine ⟨balanced.readers, balanced.writer, balanced.apart, ?_, ?_, ?_⟩
  · exact (congrArg Set.encard waits).trans balanced.waiting
  · exact (congrArg Set.encard waitsToWrite).trans balanced.writersWaiting
  · intro thread asks
    exact balanced.clear thread ((notifyAll_alike world.phase thread).2.2.mp asks)

/-- A guard let go, whoever lets it go. -/
theorem Balanced.release {world : World τ} (balanced : Balanced world) {guard : Guard τ}
    (out : guard ∈ world.guards) :
    Balanced { world with
      holders := world.holders.release guard, guards := world.guards.erase guard } := by
  have clear : ∀ thread, (world.phase thread).Asks →
      ∀ other ∈ world.guards.erase guard, other.holder ≠ thread :=
    fun thread asks other still => balanced.clear thread asks other (List.mem_of_mem_erase still)
  have waiting : Counted world.phase Phase.Waits (world.holders.release guard).waiting := by
    rw [(Holders.release_counts world.holders guard).1]
    exact balanced.waiting
  have writersWaiting : Counted world.phase Phase.WaitsToWrite
      (world.holders.release guard).writersWaiting := by
    rw [(Holders.release_counts world.holders guard).2]
    exact balanced.writersWaiting
  have shared := holdersOf_erase out false
  have exclusive := holdersOf_erase out true
  cases kind : guard.exclusive with
  | true =>
    rw [kind, if_neg (by decide)] at shared
    rw [kind, if_pos rfl, ← balanced.writer] at exclusive
    have released : world.holders.release guard = { world.holders with writer := none } := by
      rw [Holders.release, if_pos kind]
    have nobody : holdersOf (world.guards.erase guard) true = [] := by
      have length := exclusive.length_eq
      have within : world.holders.writer.toList.length ≤ 1 := by
        cases world.holders.writer <;> simp
      rw [List.length_cons] at length
      exact List.eq_nil_of_length_eq_zero (by omega)
    refine ⟨?_, ?_, ?_, waiting, writersWaiting, clear⟩
    · rw [released]
      exact balanced.readers.trans shared
    · rw [released, nobody]
      rfl
    · rw [released]
      exact fun written => absurd rfl written
  | false =>
    rw [kind, if_pos rfl] at shared
    rw [kind, if_neg (by decide)] at exclusive
    have reads := (balanced.reads_iff guard.holder).mpr ⟨guard, out, rfl, kind⟩
    have unwritten : world.holders.writer = none := by
      by_contra written
      rw [balanced.apart written] at reads
      exact absurd reads List.not_mem_nil
    refine ⟨?_, ?_, ?_, waiting, writersWaiting, clear⟩
    · have moved := (Holders.perm_release kind reads).symm.trans (balanced.readers.trans shared)
      exact moved.cons_inv
    · have nobody := balanced.writer
      rw [unwritten] at nobody
      rw [Holders.release_writer kind, unwritten]
      rw [← nobody] at exclusive
      exact (List.nil_perm.mp exclusive).symm
    · rw [Holders.release_writer kind]
      exact fun written => absurd unwritten written

/-! ## Sleepers -/

namespace Awake

variable {world : World τ}

/-- Nobody sleeps, so nobody sleeps in vain. -/
theorem of_none (nobody : ∀ thread exclusive, world.phase thread ≠ .asleep exclusive) :
    Awake world :=
  fun thread exclusive asleep _ => absurd asleep (nobody thread exclusive)

/-- A notification is on its way. -/
theorem of_notifying {thread : τ} (notifying : world.phase thread = .notifying) : Awake world :=
  fun _ _ _ _ => ⟨thread, notifying⟩

/-- A change that gives no sleeper its hold, and keeps every notification on its way. -/
theorem mono {next : World τ} (awake : Awake world)
    (kept : ∀ thread, world.phase thread = .notifying → next.phase thread = .notifying)
    (sleeps : ∀ thread exclusive, next.phase thread = .asleep exclusive →
      next.holders.Grantable exclusive thread →
      world.phase thread = .asleep exclusive ∧ world.holders.Grantable exclusive thread) :
    Awake next := by
  intro thread exclusive asleep grantable
  obtain ⟨slept, granted⟩ := sleeps thread exclusive asleep grantable
  obtain ⟨other, notifying⟩ := awake thread exclusive slept granted
  exact ⟨other, kept other notifying⟩

end Awake

omit [DecidableEq τ] in
/-- Nobody sleeps where nobody waits. -/
theorem Balanced.none_asleep {world : World τ} (balanced : Balanced world)
    (nobody : world.holders.waiting = 0) (thread : τ) (exclusive : Bool) :
    world.phase thread ≠ .asleep exclusive := by
  intro asleep
  have counted := balanced.waiting
  rw [nobody] at counted
  apply counted.nobody thread
  rw [asleep]
  trivial

/-- A hold taken gives no other thread its own. -/
theorem Holders.Grants.grantable {holders held : Holders τ} {exclusive wanted : Bool}
    {thread other : τ} (grants : holders.Grants exclusive thread held) (apart : other ≠ thread)
    (grantable : held.Grantable wanted other) : holders.Grantable wanted other := by
  rw [grantable_iff] at grantable ⊢
  obtain ⟨unwritten, ⟨-, -, rfl⟩ | ⟨-, rfl⟩⟩ := grants
  · exact absurd grantable.1 nofun
  · obtain ⟨-, unread, queued⟩ := grantable
    refine ⟨unwritten, fun asked => ?_, fun asked some => ?_⟩
    · have empty : holders.readers ++ [thread] = [] := unread asked
      exact absurd empty (by simp)
    · have reads : other ∈ holders.readers ++ [thread] := queued asked some
      rcases List.mem_append.mp reads with already | itself
      · exact already
      · exact absurd (List.mem_singleton.mp itself) apart

/-- A thread other than the one that moved stands where it stood. -/
theorem goTo_phase {phase : τ → Phase} {thread other : τ} {next : Phase} {exclusive : Bool}
    (asleep : Function.update phase thread next other = .asleep exclusive)
    (awake : next ≠ .asleep exclusive) : other ≠ thread ∧ phase other = .asleep exclusive := by
  by_cases self : other = thread
  · subst self
    rw [Function.update_self] at asleep
    exact absurd asleep awake
  · rw [Function.update_of_ne self] at asleep
    exact ⟨self, asleep⟩

/-- A notification on its way stays so while its thread does. -/
theorem goTo_notifying {phase : τ → Phase} {thread other : τ} {next : Phase}
    (stood : phase thread ≠ .notifying) (notifying : phase other = .notifying) :
    Function.update phase thread next other = .notifying := by
  have apart : other ≠ thread := by
    rintro rfl
    exact stood notifying
  rw [Function.update_of_ne apart, notifying]

/-! ## Soundness -/

/-- What every interleaving keeps. -/
structure Sound (world : World τ) : Prop where
  balanced : Balanced world
  awake : Awake world

namespace Sound

variable {world : World τ} {thread : τ} {exclusive : Bool}

theorem start : Sound (World.start : World τ) := by
  refine ⟨⟨List.Perm.refl _, rfl, fun written => absurd rfl written, ?_, ?_, nofun⟩, ?_⟩
  · exact Set.encard_eq_zero.mpr (Set.eq_empty_of_forall_notMem fun _ => id)
  · exact Set.encard_eq_zero.mpr (Set.eq_empty_of_forall_notMem fun _ => id)
  · exact Awake.of_none fun _ _ => nofun

section

variable (sound : Sound world)

include sound

/-- A hold taken on a fast path or by a trylock. -/
theorem grant (stood : world.phase thread = .idle) {held : Holders τ}
    (grants : world.holders.Grants exclusive thread held) :
    Sound (world.grant thread exclusive held) := by
  refine ⟨sound.balanced.grant grants (by rw [stood]; exact id), ?_⟩
  apply sound.awake.mono
  · exact fun _ notifying => notifying
  · intro other wanted asleep grantable
    have apart : other ≠ thread := by
      rintro rfl
      exact absurd (stood.symm.trans asleep) nofun
    exact ⟨asleep, grants.grantable apart grantable⟩

theorem down (stood : world.phase thread = .idle) :
    Sound (world.down thread exclusive).1 := by
  unfold World.down
  split
  · rename_i held taken
    exact sound.grant stood (Holders.take_granted taken).1
  · rename_i held refused
    have balanced : Balanced (world.goTo thread (.slow exclusive)) := by
      apply sound.balanced.move
      · rw [stood]
        exact Iff.rfl
      · rw [stood]
        exact Iff.rfl
      · exact fun _ => sound.balanced.clear_of_refused refused
    refine ⟨balanced, sound.awake.mono ?_ ?_⟩
    · exact fun other => goTo_notifying (by rw [stood]; exact nofun)
    · exact fun other wanted asleep grantable => ⟨(goTo_phase asleep nofun).2, grantable⟩
  · exact sound

theorem trylock (stood : world.phase thread = .idle) :
    Sound (world.trylock thread exclusive).1 := by
  unfold World.trylock
  split
  · rename_i held taken
    exact sound.grant stood (Holders.tryTake_granted taken).1
  · exact sound

theorem enqueue (stood : world.phase thread = .slow exclusive) :
    Sound (world.enqueue thread exclusive) := by
  refine ⟨sound.balanced.enqueue stood, sound.awake.mono ?_ ?_⟩
  · exact fun other => goTo_notifying (by rw [stood]; exact nofun)
  · intro other wanted asleep grantable
    refine ⟨(goTo_phase asleep nofun).2, ?_⟩
    rw [Holders.grantable_iff] at grantable ⊢
    obtain ⟨unwritten, unread, queued⟩ := grantable
    refine ⟨unwritten, unread, fun asked some => queued asked ?_⟩
    show 0 < world.holders.writersWaiting + exclusive.toNat
    omega

theorem unwait (stood : world.phase thread = .woken exclusive) :
    Sound (world.unwait thread exclusive) := by
  refine ⟨sound.balanced.unwait stood, sound.awake.mono ?_ ?_⟩
  · exact fun other => goTo_notifying (by rw [stood]; exact nofun)
  · intro other wanted asleep grantable
    refine ⟨(goTo_phase asleep nofun).2, ?_⟩
    rw [Holders.grantable_iff] at grantable ⊢
    exact grantable

theorem giveUp (stood : world.phase thread = .running exclusive) :
    Sound (world.giveUp thread exclusive) := by
  have left := sound.balanced.leave stood
  unfold World.giveUp
  dsimp only
  split
  · exact ⟨left.notifyAll, Awake.of_none fun _ _ => notifyAll_ne_asleep _ _ _⟩
  · rename_i nobody
    exact ⟨left, Awake.of_none (left.none_asleep (Nat.eq_zero_of_not_pos nobody))⟩

/-- One turn of the loop of `down_slowpath`, whatever it ends in. -/
theorem turn (stood : world.phase thread = .running exclusive)
    (clear : ∀ guard ∈ world.guards, guard.holder ≠ thread) (fatal : Bool) :
    Sound (world.turn thread exclusive fatal).1 := by
  unfold World.turn
  split
  · rename_i held taken
    obtain ⟨grants, -⟩ := Holders.take_granted taken
    have granted := sound.balanced.grant grants (by rw [stood]; exact id)
    refine ⟨granted.leave stood, sound.awake.mono ?_ ?_⟩
    · exact fun other => goTo_notifying (by rw [stood]; exact nofun)
    · intro other wanted asleep grantable
      obtain ⟨apart, slept⟩ := goTo_phase asleep nofun
      refine ⟨slept, ?_⟩
      cases exclusive with
      | true =>
        rw [Holders.grantable_iff] at grantable
        obtain ⟨-, ⟨-, -, written⟩ | ⟨shared, -⟩⟩ := grants
        · have unwritten : held.writer = none := grantable.1
          rw [written] at unwritten
          cases unwritten
        · cases shared
      | false => exact grants.grantable apart grantable
  · rename_i held refused
    split
    · exact sound.giveUp stood
    · obtain ⟨rfl, -⟩ := Holders.take_refused refused
      refine ⟨sound.balanced.sleep stood clear, ?_⟩
      intro other wanted asleep grantable
      have before : world.holders.Grantable wanted other := by
        rw [Holders.grantable_iff] at grantable ⊢
        exact grantable
      by_cases self : other = thread
      · subst self
        simp only [World.goTo, Function.update_self, Phase.asleep.injEq] at asleep
        subst asleep
        obtain ⟨found, taken⟩ := before
        rw [refused] at taken
        cases taken
      · simp only [World.goTo, Function.update_of_ne self] at asleep
        obtain ⟨waker, notifying⟩ := sound.awake other wanted asleep before
        exact ⟨waker, goTo_notifying (by rw [stood]; exact nofun) notifying⟩
  · exact sound.giveUp stood

theorem dropGuard (stood : world.phase thread = .idle) {guard : Guard τ}
    (out : guard ∈ world.guards) : Sound (world.dropGuard thread guard) := by
  have left := sound.balanced.release out
  unfold World.dropGuard
  dsimp only
  split
  · refine ⟨left.move ?_ ?_ False.elim, ?_⟩
    · rw [stood]
      exact Iff.rfl
    · rw [stood]
      exact Iff.rfl
    · exact Awake.of_notifying (Function.update_self _ _ _)
  · rename_i nobody
    exact ⟨left, Awake.of_none (left.none_asleep (Nat.eq_zero_of_not_pos nobody))⟩

/-- Every step keeps it. -/
theorem next {after : World τ} {act : Act τ} (stepped : world.next act = some after) :
    Sound after := by
  obtain ⟨reached, taken, rfl⟩ := Option.map_eq_some_iff.mp stepped
  cases act with
  | down thread exclusive =>
    simp only [World.step] at taken
    split at taken
    · rename_i stood
      cases taken
      exact sound.down stood
    · cases taken
  | trylock thread exclusive =>
    simp only [World.step] at taken
    split at taken
    · rename_i stood
      cases taken
      exact sound.trylock stood
    · cases taken
  | enter thread fatal =>
    simp only [World.step] at taken
    split at taken
    · rename_i exclusive stood
      cases taken
      apply (sound.enqueue stood).turn
      · exact Function.update_self _ _ _
      · exact sound.balanced.clear thread (by rw [stood]; trivial)
    · cases taken
  | wake thread =>
    simp only [World.step] at taken
    split at taken
    · rename_i exclusive stood
      cases taken
      have clear := sound.balanced.clear thread (by rw [stood]; trivial)
      refine ⟨sound.balanced.move ?_ ?_ fun _ => clear, sound.awake.mono ?_ ?_⟩
      · rw [stood]
        exact Iff.rfl
      · rw [stood]
        exact Iff.rfl
      · exact fun other => goTo_notifying (by rw [stood]; exact nofun)
      · exact fun other wanted asleep grantable => ⟨(goTo_phase asleep nofun).2, grantable⟩
    · cases taken
  | resume thread fatal =>
    simp only [World.step] at taken
    split at taken
    · rename_i exclusive stood
      cases taken
      apply (sound.unwait stood).turn
      · exact Function.update_self _ _ _
      · exact sound.balanced.clear thread (by rw [stood]; trivial)
    · cases taken
  | drop thread guard =>
    simp only [World.step] at taken
    split at taken
    · rename_i stood
      split at taken
      · rename_i out
        cases taken
        exact sound.dropGuard stood out
      · cases taken
    · cases taken
  | notify thread =>
    simp only [World.step] at taken
    split at taken
    · rename_i stood
      cases taken
      have moved : Balanced (world.goTo thread .idle) := by
        apply sound.balanced.move
        · rw [stood]
          exact Iff.rfl
        · rw [stood]
          exact Iff.rfl
        · exact False.elim
      exact ⟨moved.notifyAll, Awake.of_none fun _ _ => notifyAll_ne_asleep _ _ _⟩
    · cases taken

end

/-- Every world an interleaving reaches is sound. -/
theorem of_reachable (reached : Reachable World.next World.start world) : Sound world :=
  Reachable.invariant World.next Sound.start (fun _ _ _ sound => sound.next) reached

end Sound

/-! ## What a call is answered -/

namespace World

variable {world : World τ} {thread : τ} {exclusive : Bool}

/-- An answer is what `take` makes of the holders. -/
def AnswersAs (world : World τ) (exclusive : Bool) (thread : τ) (answer : Answer) : Prop :=
  (answer = .failed .deadlock ↔ ∃ e, world.holders.take exclusive thread = .error e) ∧
    (answer = .taken → ∃ held, world.holders.take exclusive thread = .ok (true, held))

theorem down_answer : world.AnswersAs exclusive thread (world.down thread exclusive).2 := by
  unfold down AnswersAs
  split
  · rename_i held taken
    simp [taken]
  · rename_i held refused
    simp [refused]
  · rename_i e failed
    rw [Holders.take_error failed]
    simp [failed]

theorem turn_answer {fatal : Bool} :
    world.AnswersAs exclusive thread (world.turn thread exclusive fatal).2 := by
  unfold turn AnswersAs
  split
  · rename_i held taken
    simp [taken]
  · rename_i held refused
    split
    · simp [refused]
    · simp [refused]
  · rename_i e failed
    rw [Holders.take_error failed]
    simp [failed]

/-- A step that asks is answered by what `take` makes of the holders as they stood, the thread's own
place in the queue counted. -/
theorem answer_of_asking {after : World τ} {act : Act τ} {answer : Answer} (sound : Sound world)
    (asks : world.asking act = some (thread, exclusive))
    (stepped : world.step act = some (after, answer)) :
    ∃ asked : World τ, Balanced asked ∧ asked.guards = world.guards ∧
      world.holders.writersWaiting ≤ asked.holders.writersWaiting ∧
      asked.AnswersAs exclusive thread answer := by
  cases act with
  | down asker wanted =>
    cases asks
    simp only [step] at stepped
    split at stepped
    · have same := (Option.some.inj stepped).symm
      have told : answer = (world.down thread exclusive).2 := congrArg Prod.snd same
      rw [told]
      exact ⟨world, sound.balanced, rfl, Nat.le_refl _, down_answer⟩
    · cases stepped
  | enter asker fatal =>
    simp only [step] at stepped
    split at stepped
    · rename_i wanted stood
      simp only [asking, stood] at asks
      cases asks
      have same := (Option.some.inj stepped).symm
      have told : answer = ((world.enqueue thread exclusive).turn thread exclusive fatal).2 :=
        congrArg Prod.snd same
      rw [told]
      exact ⟨world.enqueue thread exclusive, sound.balanced.enqueue stood, rfl,
        Nat.le_add_right _ _, turn_answer⟩
    · cases stepped
  | resume asker fatal =>
    simp only [step] at stepped
    split at stepped
    · rename_i wanted stood
      simp only [asking, stood] at asks
      cases asks
      have same := (Option.some.inj stepped).symm
      have told : answer = ((world.unwait thread exclusive).turn thread exclusive fatal).2 :=
        congrArg Prod.snd same
      rw [told]
      exact ⟨world.unwait thread exclusive, sound.balanced.unwait stood, rfl, Nat.le_refl _,
        turn_answer⟩
    · cases stepped
  | trylock => cases asks
  | wake => cases asks
  | drop => cases asks
  | notify => cases asks

end World

namespace Balanced

variable {world : World τ}

omit [DecidableEq τ] in
/-- One exclusive guard alone, or shared ones only. -/
theorem excludes (balanced : Balanced world) :
    (∃ guard, world.guards = [guard] ∧ guard.exclusive = true) ∨
      ∀ guard ∈ world.guards, guard.exclusive = false := by
  by_cases written : world.holders.writer = none
  · right
    intro guard out
    by_contra kind
    have writes := (balanced.writer_iff guard.holder).mpr ⟨guard, out, rfl, by simpa using kind⟩
    rw [written] at writes
    cases writes
  · left
    have unread := balanced.readers
    rw [balanced.apart written] at unread
    have none_shared : ∀ guard ∈ world.guards, guard.exclusive = true := by
      intro guard out
      by_contra kind
      have reads : guard.holder ∈ holdersOf world.guards false :=
        mem_holdersOf.mpr ⟨guard, out, rfl, by simpa using kind⟩
      rw [← unread.mem_iff] at reads
      exact absurd reads List.not_mem_nil
    have all : holdersOf world.guards true = world.guards.map Guard.holder := by
      rw [holdersOf, List.filter_eq_self.mpr]
      intro guard out
      exact decide_eq_true (none_shared guard out)
    have single : world.guards.length = 1 := by
      obtain ⟨thread, named⟩ := Option.ne_none_iff_exists'.mp written
      have length := congrArg List.length balanced.writer
      rw [all, named, List.length_map] at length
      exact length.symm
    obtain ⟨guard, alone⟩ := List.length_eq_one_iff.mp single
    refine ⟨guard, alone, none_shared guard ?_⟩
    rw [alone]
    exact List.mem_singleton_self guard

omit [DecidableEq τ] in
/-- A counter is positive while a thread is counted in it. -/
theorem counters_pos (balanced : Balanced world) (thread : τ) :
    ((world.phase thread).Waits → 0 < world.holders.waiting) ∧
      ((world.phase thread).WaitsToWrite → 0 < world.holders.writersWaiting) := by
  constructor
  · intro waits
    by_contra none
    have counted := balanced.waiting
    rw [Nat.eq_zero_of_not_pos none] at counted
    exact counted.nobody thread waits
  · intro waits
    by_contra none
    have counted := balanced.writersWaiting
    rw [Nat.eq_zero_of_not_pos none] at counted
    exact counted.nobody thread waits

end Balanced

/-- In every world an interleaving reaches: one exclusive guard is out alone, or shared ones only;
the readers and the writer name the threads of the guards that are out; the counters count the
threads that wait and never fall below zero; a call is answered a deadlock exactly when a guard of
its own thread rules it out; a shared hold is had past a waiting writer only by a thread that has
one; and no thread sleeps while its hold is to be had unless it is about to be notified. -/
theorem semaphore_correct {world : World τ} (reached : Reachable World.next World.start world) :
    ((∃ guard, world.guards = [guard] ∧ guard.exclusive = true) ∨
      ∀ guard ∈ world.guards, guard.exclusive = false) ∧
    world.holders.readers.Perm (holdersOf world.guards false) ∧
    world.holders.writer.toList = holdersOf world.guards true ∧
    Counted world.phase Phase.Waits world.holders.waiting ∧
    Counted world.phase Phase.WaitsToWrite world.holders.writersWaiting ∧
    (∀ thread, ((world.phase thread).Waits → 0 < world.holders.waiting) ∧
      ((world.phase thread).WaitsToWrite → 0 < world.holders.writersWaiting)) ∧
    (∀ act thread exclusive after answer, world.asking act = some (thread, exclusive) →
      world.step act = some (after, answer) →
      (answer = .failed .deadlock ↔ ∃ guard ∈ world.guards, guard.holder = thread ∧
        (exclusive = true ∨ guard.exclusive = true))) ∧
    (∀ act thread after, world.asking act = some (thread, false) ∨ act = .trylock thread false →
      world.step act = some (after, .taken) → 0 < world.holders.writersWaiting →
      ∃ guard ∈ world.guards, guard.holder = thread ∧ guard.exclusive = false) ∧
    (∀ thread exclusive, world.phase thread = .asleep exclusive →
      world.holders.Grantable exclusive thread → ∃ other, world.phase other = .notifying) := by
  have sound := Sound.of_reachable reached
  have balanced := sound.balanced
  refine ⟨balanced.excludes, balanced.readers, balanced.writer, balanced.waiting,
    balanced.writersWaiting, balanced.counters_pos, ?_, ?_, sound.awake⟩
  · intro act thread exclusive after answer asks stepped
    obtain ⟨asked, same, guards, -, deadlock, -⟩ := World.answer_of_asking sound asks stepped
    rw [deadlock, same.deadlock_iff, guards]
  · rintro act thread after (asks | rfl) stepped queued
    · obtain ⟨asked, same, guards, more, -, taken⟩ := World.answer_of_asking sound asks stepped
      obtain ⟨held, granted⟩ := taken rfl
      have reads := (Holders.take_granted granted).2 rfl (Nat.lt_of_lt_of_le queued more)
      rw [← guards]
      exact (same.reads_iff thread).mp reads
    · simp only [World.step] at stepped
      split at stepped
      · unfold World.trylock at stepped
        split at stepped
        · rename_i held taken
          have reads := (Holders.tryTake_granted taken).2 rfl queued
          exact (balanced.reads_iff thread).mp reads
        · cases stepped
      · cases stepped

/-- Thread `1` sleeps for an exclusive hold while thread `0` has a shared one: the world is reached,
and the hold is not to be had. -/
theorem semaphore_correct_queued :
    ∃ world : World Nat, run World.next World.start
        [.down 0 false, .down 1 true, .enter 1 false] = some world ∧
      world.holders = ⟨none, [0], 1, 1⟩ ∧ world.guards = [⟨0, false⟩] ∧
      ¬world.holders.Grantable true 1 := by
  refine ⟨_, rfl, rfl, rfl, ?_⟩
  intro grantable
  have reached : Reachable World.next (World.start : World Nat) _ :=
    ⟨[.down 0 false, .down 1 true, .enter 1 false], rfl⟩
  obtain ⟨other, notifying⟩ := (semaphore_correct reached).2.2.2.2.2.2.2.2 1 true rfl grantable
  have nobody : ∀ thread, Function.update (Function.update (Function.update
      (fun _ : Nat => Phase.idle) 1 (.slow true)) 1 (.running true)) 1 (.asleep true) thread ≠
      .notifying := by
    intro thread
    by_cases self : thread = 1
    · subst self
      simp
    · simp [self]
  exact nobody other notifying

end Kobako.Locking
