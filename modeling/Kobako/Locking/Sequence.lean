import Kobako.Run
import Mathlib.Logic.Relation
import Mathlib.Logic.Function.Basic
import Mathlib.Algebra.GroupWithZero.Nat

/-!
# The sequence lock

A writer counts where its write begins and where it ends, holding the writers' mutex. A reader
takes the count, reads without waiting and takes the count again; where a write overlapped, it reads
once more with the writers held off. Every atomic load, every count and every step of a closure is
a step of its own here, so the threads interleave between any two of them.

The writes are any changes of the data. The counter is a machine word: `changes` is how often it
was counted up, and the word is its residue.
-/

namespace Kobako.Sequence

variable {δ σ α τ : Type}

/-- Where a thread stands in a call of the lock. A count a thread keeps is the full one; the
comparisons take its residue. -/
inductive Phase (σ α : Type)
  | idle
  /-- `write` before it holds the mutex. -/
  | writeLock
  /-- `write` holding the mutex, before it counts the beginning. -/
  | writeBegin
  /-- `write` running its closure. -/
  | writing
  /-- `write` after it counted the end, the mutex still held. -/
  | writeEnd
  /-- `read` before its first load. -/
  | readLoad (start : σ)
  /-- `read` running its closure without the mutex. -/
  | reading (start : σ) (begun : Nat) (place : σ)
  /-- `read` before its second load. -/
  | readCheck (start : σ) (begun : Nat) (answer : α)
  /-- `read` before it holds the mutex. -/
  | readLock (start : σ)
  /-- `read` running its closure with the mutex. -/
  | readHeld (start place : σ)
  /-- `read` with its answer, the mutex still held. -/
  | readUnlock (start : σ) (answer : α)
  /-- `read` has returned. -/
  | answered (start : σ) (answer : α)
  /-- `read_seqbegin` before its load. -/
  | beginLoad
  /-- `read_seqbegin` having met a write, before it holds the mutex. -/
  | beginLock
  /-- `read_seqbegin` holding the mutex a moment. -/
  | beginUnlock

/-- The phases that hold the writers' mutex. -/
def Phase.Holding : Phase σ α → Prop
  | .writeBegin | .writing | .writeEnd | .readHeld _ _ | .readUnlock _ _ | .beginUnlock => True
  | _ => False

/-- The data a lock guards, the lock, and where each thread stands. `begun` keeps every answer of
`read_seqbegin` with the data of that moment. -/
structure State (δ σ α τ : Type) where
  data : δ
  changes : Nat
  writer : Option τ
  phase : τ → Phase σ α
  begun : List (Nat × δ)

/-- `SeqLock::new`, with no thread in a call. -/
def State.new (data : δ) : State δ σ α τ :=
  { data, changes := 0, writer := none, phase := fun _ => .idle, begun := [] }

/-- The word the counter holds. -/
def State.sequence (state : State δ σ α τ) : Nat := state.changes % 2 ^ 64

/-- `read_seqretry`. -/
def State.read_seqretry (state : State δ σ α τ) (begun : Nat) : Bool :=
  decide (state.sequence ≠ begun % 2 ^ 64)

variable [DecidableEq τ]

/-- A thread goes on to a phase. -/
def State.goTo (state : State δ σ α τ) (thread : τ) (phase : Phase σ α) : State δ σ α τ :=
  { state with phase := Function.update state.phase thread phase }

/-- A thread takes the writers' mutex and goes on, once nobody holds it. -/
def State.lock (state : State δ σ α τ) (thread : τ) (phase : Phase σ α) :
    Option (State δ σ α τ) :=
  if state.writer = none then some ({ state with writer := some thread }.goTo thread phase)
  else none

/-- A thread lets the mutex go and goes on. -/
def State.unlock (state : State δ σ α τ) (thread : τ) (phase : Phase σ α) : State δ σ α τ :=
  { state with writer := none }.goTo thread phase

/-- `fetch_add`. -/
def State.count (state : State δ σ α τ) (thread : τ) (phase : Phase σ α) : State δ σ α τ :=
  { state with changes := state.changes + 1 }.goTo thread phase

/-- What a thread does next: it enters `write`, `read` or `read_seqbegin`, takes the next step of
the call it is in, or changes the data within its write. -/
inductive Event (δ σ τ : Type)
  | write (thread : τ)
  | read (thread : τ) (start : σ)
  | begin (thread : τ)
  | step (thread : τ)
  | change (thread : τ) (change : δ → δ)

variable (look : δ → σ → σ ⊕ α)

/-- The next step of the call a thread is in. -/
def State.advance (state : State δ σ α τ) (thread : τ) : Option (State δ σ α τ) :=
  match state.phase thread with
  | .idle => none
  | .writeLock => state.lock thread .writeBegin
  | .writeBegin => some (state.count thread .writing)
  | .writing => some (state.count thread .writeEnd)
  | .writeEnd => some (state.unlock thread .idle)
  | .readLoad start =>
    if state.sequence % 2 = 0 then some (state.goTo thread (.reading start state.changes start))
    else some (state.goTo thread (.readLock start))
  | .reading start begun place =>
    match look state.data place with
    | .inl next => some (state.goTo thread (.reading start begun next))
    | .inr answer => some (state.goTo thread (.readCheck start begun answer))
  | .readCheck start begun answer =>
    if state.sequence = begun % 2 ^ 64 then some (state.goTo thread (.answered start answer))
    else some (state.goTo thread (.readLock start))
  | .readLock start => state.lock thread (.readHeld start start)
  | .readHeld start place =>
    match look state.data place with
    | .inl next => some (state.goTo thread (.readHeld start next))
    | .inr answer => some (state.goTo thread (.readUnlock start answer))
  | .readUnlock start answer => some (state.unlock thread (.answered start answer))
  | .answered _ _ => some (state.goTo thread .idle)
  | .beginLoad =>
    if state.sequence % 2 = 0 then
      some ({ state with begun := (state.changes, state.data) :: state.begun }.goTo thread .idle)
    else some (state.goTo thread .beginLock)
  | .beginLock => state.lock thread .beginUnlock
  | .beginUnlock => some (state.unlock thread .beginLoad)

/-- One step of one thread. -/
def State.step (state : State δ σ α τ) : Event δ σ τ → Option (State δ σ α τ)
  | .write thread =>
    match state.phase thread with
    | .idle => some (state.goTo thread .writeLock)
    | _ => none
  | .read thread start =>
    match state.phase thread with
    | .idle => some (state.goTo thread (.readLoad start))
    | _ => none
  | .begin thread =>
    match state.phase thread with
    | .idle => some (state.goTo thread .beginLoad)
    | _ => none
  | .step thread => state.advance look thread
  | .change thread change =>
    match state.phase thread with
    | .writing => some { state with data := change state.data }
    | _ => none

/-! ## What every interleaving keeps -/

/-- The closure, run alone on the data, comes to a place. -/
def Runs (data : δ) (start place : σ) : Prop :=
  Relation.ReflTransGen (fun before after => look data before = .inl after) start place

/-- The closure, run alone on the data, answers. -/
def Answers (data : δ) (start : σ) (answer : α) : Prop :=
  ∃ place, Runs look data start place ∧ look data place = .inr answer

/-- A thread is within a write. -/
def State.Written (state : State δ σ α τ) : Prop := ∃ thread, state.phase thread = .writing

/-- What a thread read is what it would read alone, unless a write began since. -/
def Phase.Fits (data : δ) (changes : Nat) : Phase σ α → Prop
  | .reading start begun place =>
    begun % 2 = 0 ∧ begun ≤ changes ∧ (changes = begun → Runs look data start place)
  | .readCheck start begun answer =>
    begun % 2 = 0 ∧ begun ≤ changes ∧ (changes = begun → Answers look data start answer)
  | .readHeld start place => Runs look data start place
  | .readUnlock start answer => Answers look data start answer
  | _ => True

/-- The mutex is held by the thread whose phase says so, the count is odd while a thread writes, and
what was read without a write in between still stands. -/
structure State.Sound (state : State δ σ α τ) : Prop where
  holder : ∀ thread, state.writer = some thread ↔ (state.phase thread).Holding
  odd : state.changes % 2 = 1 ↔ state.Written
  fits : ∀ thread, (state.phase thread).Fits look state.data state.changes
  begun : ∀ begun seen, (begun, seen) ∈ state.begun →
    begun % 2 = 0 ∧ begun ≤ state.changes ∧ (state.changes = begun → state.data = seen)

variable {look} {state next : State δ σ α τ} {thread : τ} {phase : Phase σ α}

section

omit [DecidableEq τ]

/-- The word is even exactly where the count is. -/
theorem sequence_parity (state : State δ σ α τ) : state.sequence % 2 = state.changes % 2 := by
  unfold State.sequence
  omega

/-- The words agree exactly where no write was counted, as long as the counter did not come round.
-/
theorem sequence_eq_iff {begun : Nat} (earlier : begun ≤ state.changes)
    (short : state.changes < begun + 2 ^ 64) :
    state.sequence = begun % 2 ^ 64 ↔ state.changes = begun := by
  unfold State.sequence
  omega

/-- A step alone, from where the closure is, is a step alone from its start. -/
theorem Runs.step {data : δ} {start place after : σ} (runs : Runs look data start place)
    (stepped : look data place = .inl after) : Runs look data start after :=
  Relation.ReflTransGen.tail runs stepped

/-- What fits still does after a count: no count from before it equals the new one. -/
theorem Phase.Fits.counted {data : δ} {changes : Nat}
    (fits : phase.Fits look data changes) : phase.Fits look data (changes + 1) := by
  cases phase with
  | reading start begun place =>
    have earlier := fits.2.1
    exact ⟨fits.1, by omega, fun same => by omega⟩
  | readCheck start begun answer =>
    have earlier := fits.2.1
    exact ⟨fits.1, by omega, fun same => by omega⟩
  | readHeld start place => exact fits
  | readUnlock start answer => exact fits
  | _ => trivial

/-- What fits still does after a change of the data, where the count is odd and the thread does not
hold the mutex. -/
theorem Phase.Fits.changed {data other : δ} {changes : Nat}
    (fits : phase.Fits look data changes) (odd : changes % 2 = 1) (free : ¬phase.Holding) :
    phase.Fits look other changes := by
  cases phase with
  | reading start begun place =>
    have even := fits.1
    exact ⟨fits.1, fits.2.1, fun same => by omega⟩
  | readCheck start begun answer =>
    have even := fits.1
    exact ⟨fits.1, fits.2.1, fun same => by omega⟩
  | readHeld start place => exact absurd trivial free
  | readUnlock start answer => exact absurd trivial free
  | _ => trivial

end

namespace State

@[simp] theorem goTo_data : (state.goTo thread phase).data = state.data := rfl
@[simp] theorem goTo_changes : (state.goTo thread phase).changes = state.changes := rfl
@[simp] theorem goTo_writer : (state.goTo thread phase).writer = state.writer := rfl
@[simp] theorem goTo_begun : (state.goTo thread phase).begun = state.begun := rfl

@[simp] theorem goTo_phase_self : (state.goTo thread phase).phase thread = phase := by
  simp [goTo]

theorem goTo_phase_of_ne {other : τ} (apart : other ≠ thread) :
    (state.goTo thread phase).phase other = state.phase other := by
  simp [goTo, Function.update_of_ne apart]

/-- A step that neither enters nor leaves a write leaves the writes as they are. -/
theorem goTo_written (before : state.phase thread ≠ .writing) (after : phase ≠ .writing) :
    (state.goTo thread phase).Written ↔ state.Written := by
  constructor
  · intro written
    obtain ⟨other, writes⟩ := written
    by_cases same : other = thread
    · subst same
      rw [goTo_phase_self] at writes
      exact absurd writes after
    · rw [goTo_phase_of_ne same] at writes
      exact ⟨other, writes⟩
  · intro written
    obtain ⟨other, writes⟩ := written
    have apart : other ≠ thread := by
      intro same
      exact before (same ▸ writes)
    exact ⟨other, by rw [goTo_phase_of_ne apart, writes]⟩

/-- What fits everywhere still does where one thread goes on to a phase that fits. -/
theorem goTo_fits (fits : ∀ thread, (state.phase thread).Fits look state.data state.changes)
    (new : phase.Fits look state.data state.changes) (other : τ) :
    ((state.goTo thread phase).phase other).Fits look state.data state.changes := by
  by_cases same : other = thread
  · subst same
    rw [goTo_phase_self]
    exact new
  · rw [goTo_phase_of_ne same]
    exact fits other

namespace Sound

section

variable (sound : state.Sound look)

include sound

omit [DecidableEq τ] in
/-- Nobody holds the mutex twice. -/
theorem holder_unique {other : τ} (one : (state.phase thread).Holding)
    (two : (state.phase other).Holding) : thread = other := by
  have first := (sound.holder thread).mpr one
  have second := (sound.holder other).mpr two
  exact Option.some.inj (first.symm.trans second)

omit [DecidableEq τ] in
/-- A thread that holds the mutex without writing keeps every other from writing. -/
theorem not_written (holding : (state.phase thread).Holding)
    (reads : state.phase thread ≠ .writing) : ¬state.Written := by
  intro written
  obtain ⟨other, writes⟩ := written
  have same : thread = other := sound.holder_unique holding (by rw [writes]; trivial)
  exact reads (same ▸ writes)

/-- A thread goes on with the mutex as it was. -/
theorem goTo {before : Phase σ α} (stood : state.phase thread = before)
    (alike : before.Holding ↔ phase.Holding) (reads : before ≠ .writing) (after : phase ≠ .writing)
    (new : phase.Fits look state.data state.changes) : (state.goTo thread phase).Sound look where
  holder other := by
    by_cases same : other = thread
    · subst same
      rw [goTo_phase_self, goTo_writer, sound.holder, stood, alike]
    · rw [goTo_phase_of_ne same, goTo_writer, sound.holder]
  odd := by rw [goTo_written (stood ▸ reads) after, goTo_changes, sound.odd]
  fits := goTo_fits sound.fits new
  begun := sound.begun

/-- A thread takes the free mutex. -/
theorem lock (locked : state.lock thread phase = some next) (before : state.phase thread ≠ .writing)
    (holding : phase.Holding) (after : phase ≠ .writing)
    (new : phase.Fits look state.data state.changes) : next.Sound look := by
  unfold State.lock at locked
  split at locked
  case isFalse => cases locked
  rename_i free
  cases locked
  refine ⟨fun other => ?_, ?_, goTo_fits sound.fits new, sound.begun⟩
  · by_cases same : other = thread
    · subst same
      simp [holding]
    · rw [goTo_phase_of_ne same]
      have nobody : ¬(state.phase other).Holding := by
        rw [← sound.holder, free]
        simp
      have others : thread ≠ other := fun equal => same equal.symm
      simp [nobody, others]
  · have written : ({ state with writer := some thread }.goTo thread phase).Written ↔
        state.Written := goTo_written before after
    exact sound.odd.trans written.symm

/-- A thread lets the mutex go. -/
theorem unlock (held : (state.phase thread).Holding) (before : state.phase thread ≠ .writing)
    (free : ¬phase.Holding) (new : phase.Fits look state.data state.changes) :
    (state.unlock thread phase).Sound look := by
  have after : phase ≠ .writing := by
    intro writes
    exact free (writes ▸ trivial)
  refine ⟨fun other => ?_, ?_, goTo_fits sound.fits new, sound.begun⟩
  · by_cases same : other = thread
    · subst same
      simp [State.unlock, free]
    · have nobody : ¬(state.phase other).Holding := by
        intro holding
        exact same (sound.holder_unique holding held)
      simp [State.unlock, goTo_phase_of_ne same, nobody]
  · have written : ({ state with writer := none }.goTo thread phase).Written ↔ state.Written :=
      goTo_written before after
    exact sound.odd.trans written.symm

/-- The thread that holds the mutex counts, and what it holds stays its own. -/
theorem count (held : (state.phase thread).Holding) (holding : phase.Holding)
    (new : phase.Fits look state.data (state.changes + 1))
    (odd : (state.changes + 1) % 2 = 1 ↔ phase = .writing) :
    (state.count thread phase).Sound look where
  holder other := by
    by_cases same : other = thread
    · subst same
      simp only [State.count, goTo_phase_self, goTo_writer, holding, iff_true]
      exact (sound.holder other).mpr held
    · simp only [State.count, goTo_phase_of_ne same, goTo_writer]
      exact sound.holder other
  odd := by
    simp only [State.count, goTo_changes, odd]
    constructor
    · intro writes
      exact ⟨thread, by rw [goTo_phase_self, writes]⟩
    · intro written
      obtain ⟨other, writes⟩ := written
      by_cases same : other = thread
      · subst same
        rwa [goTo_phase_self] at writes
      · rw [goTo_phase_of_ne same] at writes
        have holds : (state.phase other).Holding := by
          rw [writes]
          trivial
        exact absurd (sound.holder_unique holds held) same
  fits other := by
    by_cases same : other = thread
    · subst same
      rw [State.count, goTo_phase_self]
      exact new
    · rw [State.count, goTo_phase_of_ne same]
      exact (sound.fits other).counted
  begun begun seen kept := by
    obtain ⟨even, earlier, _⟩ := sound.begun begun seen kept
    simp only [State.count, goTo_changes]
    exact ⟨even, by omega, fun same => by omega⟩

/-- The thread that writes changes the data: every other reads them without the mutex, from an even
count. -/
theorem change (writes : state.phase thread = .writing) (change : δ → δ) :
    ({ state with data := change state.data } : State δ σ α τ).Sound look := by
  have odd : state.changes % 2 = 1 := sound.odd.mpr ⟨thread, writes⟩
  refine ⟨sound.holder, sound.odd, fun other => ?_, fun begun seen kept => ?_⟩
  · by_cases same : other = thread
    · subst same
      simp [writes, Phase.Fits]
    · refine (sound.fits other).changed odd ?_
      intro holding
      exact same (sound.holder_unique holding (by rw [writes]; trivial))
  · obtain ⟨even, earlier, _⟩ := sound.begun begun seen kept
    have even : begun % 2 = 0 := even
    exact ⟨even, earlier, fun same => by simp only at same; omega⟩

omit [DecidableEq τ] in
/-- `read_seqbegin` answers. -/
theorem record (even : state.changes % 2 = 0) :
    ({ state with begun := (state.changes, state.data) :: state.begun } : State δ σ α τ).Sound
      look := by
  refine ⟨sound.holder, sound.odd, sound.fits, fun begun seen kept => ?_⟩
  obtain same | kept := List.mem_cons.mp kept
  · cases same
    exact ⟨even, Nat.le_refl _, fun _ => rfl⟩
  · exact sound.begun begun seen kept

end

end Sound

omit [DecidableEq τ] in
/-- Nobody has entered the lock at first. -/
theorem new_sound (data : δ) : (State.new data : State δ σ α τ).Sound look where
  holder thread := by simp [State.new, Phase.Holding]
  odd := by simp [State.new, Written]
  fits thread := by simp [State.new, Phase.Fits]
  begun begun seen kept := by simp [State.new] at kept

/-- The next step of a call keeps the lock sound. -/
theorem advance_sound (sound : state.Sound look) (stepped : state.advance look thread = some next) :
    next.Sound look := by
  have fits := sound.fits thread
  have parity := sequence_parity state
  unfold advance at stepped
  split at stepped
  case h_1 => cases stepped
  case h_2 stood =>
    exact sound.lock stepped (by simp [stood]) trivial (by simp) trivial
  case h_3 stood =>
    cases stepped
    have even : ¬state.changes % 2 = 1 := by
      rw [sound.odd]
      exact sound.not_written (by rw [stood]; trivial) (by simp [stood])
    exact sound.count (by rw [stood]; trivial) trivial trivial (by simp; omega)
  case h_4 stood =>
    cases stepped
    have odd : state.changes % 2 = 1 := sound.odd.mpr ⟨thread, stood⟩
    exact sound.count (by rw [stood]; trivial) trivial trivial (by simp; omega)
  case h_5 stood =>
    cases stepped
    exact sound.unlock (by rw [stood]; trivial) (by simp [stood]) id trivial
  case h_6 start stood =>
    split at stepped
    · rename_i even
      cases stepped
      exact sound.goTo stood .rfl (by simp) (by simp)
        ⟨by omega, Nat.le_refl _, fun _ => Relation.ReflTransGen.refl⟩
    · cases stepped
      exact sound.goTo stood .rfl (by simp) (by simp) trivial
  case h_7 start begun place stood =>
    rw [stood] at fits
    split at stepped
    · rename_i after looked
      cases stepped
      exact sound.goTo stood .rfl (by simp) (by simp)
        ⟨fits.1, fits.2.1, fun same => (fits.2.2 same).step looked⟩
    · rename_i answer looked
      cases stepped
      exact sound.goTo stood .rfl (by simp) (by simp)
        ⟨fits.1, fits.2.1, fun same => ⟨place, fits.2.2 same, looked⟩⟩
  case h_8 start begun answer stood =>
    split at stepped
    all_goals
      cases stepped
      exact sound.goTo stood .rfl (by simp) (by simp) trivial
  case h_9 start stood =>
    exact sound.lock stepped (by simp [stood]) trivial (by simp) Relation.ReflTransGen.refl
  case h_10 start place stood =>
    rw [stood] at fits
    split at stepped
    · rename_i after looked
      cases stepped
      exact sound.goTo stood .rfl (by simp) (by simp) (Runs.step fits looked)
    · rename_i answer looked
      cases stepped
      exact sound.goTo stood .rfl (by simp) (by simp) ⟨place, fits, looked⟩
  case h_11 start answer stood =>
    cases stepped
    exact sound.unlock (by rw [stood]; trivial) (by simp [stood]) id trivial
  case h_12 start answer stood =>
    cases stepped
    exact sound.goTo stood .rfl (by simp) (by simp) trivial
  case h_13 stood =>
    split at stepped
    · rename_i even
      cases stepped
      exact (sound.record (by omega)).goTo stood .rfl (by simp) (by simp) trivial
    · cases stepped
      exact sound.goTo stood .rfl (by simp) (by simp) trivial
  case h_14 stood =>
    exact sound.lock stepped (by simp [stood]) trivial (by simp) trivial
  case h_15 stood =>
    cases stepped
    exact sound.unlock (by rw [stood]; trivial) (by simp [stood]) id trivial

/-- Every step keeps the lock sound. -/
theorem step_sound (state : State δ σ α τ) (event : Event δ σ τ) (next : State δ σ α τ)
    (sound : state.Sound look) (stepped : state.step look event = some next) :
    next.Sound look := by
  cases event with
  | write thread | read thread start | begin thread =>
    simp only [step] at stepped
    split at stepped
    · rename_i stood
      cases stepped
      exact sound.goTo stood .rfl (by simp) (by simp) trivial
    · cases stepped
  | step thread => exact advance_sound sound stepped
  | change thread change =>
    simp only [step] at stepped
    split at stepped
    · rename_i writes
      cases stepped
      exact sound.change writes change
    · cases stepped

/-- Every interleaving keeps the lock sound. -/
theorem reachable_sound {data : δ} (reached : Reachable (step look) (.new data) state) :
    state.Sound look :=
  reached.invariant (step look) (new_sound data) step_sound

/-- The step that lets `read` return is the second load, or the last with the mutex held. -/
theorem returning {start : σ} {answer : α} (stepped : state.step look (.step thread) = some next)
    (returned : next.phase thread = .answered start answer) :
    next.data = state.data ∧ next.changes = state.changes ∧
      ((∃ begun, state.phase thread = .readCheck start begun answer ∧
          state.sequence = begun % 2 ^ 64) ∨
        state.phase thread = .readUnlock start answer) := by
  simp only [step, advance, lock] at stepped
  split at stepped
  case h_8 begun answered stood =>
    split at stepped
    · rename_i same
      cases stepped
      rw [goTo_phase_self] at returned
      cases returned
      exact ⟨rfl, rfl, .inl ⟨begun, stood, same⟩⟩
    · cases stepped
      rw [goTo_phase_self] at returned
      cases returned
  case h_11 stood =>
    cases stepped
    rw [unlock, goTo_phase_self] at returned
    cases returned
    exact ⟨rfl, rfl, .inr stood⟩
  all_goals
    try split at stepped
    all_goals
      cases stepped
      try simp [unlock, count] at returned

/-- `read` returns with nobody within a write, and answers what its closure answers alone on the
data of that moment. -/
theorem Sound.returns (sound : state.Sound look) {start : σ} {answer : α}
    (stepped : state.step look (.step thread) = some next)
    (returned : next.phase thread = .answered start answer)
    (short : ∀ begun, state.phase thread = .readCheck start begun answer →
      state.changes < begun + 2 ^ 64) :
    ¬next.Written ∧ Answers look next.data start answer := by
  have after : next.Sound look := step_sound state _ next sound stepped
  have fits := sound.fits thread
  obtain ⟨sameData, sameChanges, ⟨begun, stood, same⟩ | stood⟩ := returning stepped returned
  · rw [stood] at fits
    have equal : state.changes = begun := (sequence_eq_iff fits.2.1 (short begun stood)).mp same
    have even : ¬next.changes % 2 = 1 := by
      have begunEven := fits.1
      omega
    exact ⟨fun written => even (after.odd.mpr written), sameData ▸ fits.2.2 equal⟩
  · rw [stood] at fits
    have quiet : ¬state.Written := sound.not_written (by rw [stood]; trivial) (by simp [stood])
    have even : ¬next.changes % 2 = 1 := by
      rw [sameChanges, sound.odd]
      exact quiet
    exact ⟨fun written => even (after.odd.mpr written), sameData ▸ fits⟩

/-- Whatever the threads write and read and in whichever order their steps fall: nobody is within a
write with another, or with a reader that holds writers off; `read` returns with nobody within a
write and answers what its closure answers alone on the data of that moment; and `read_seqretry`
tells whether a write began since the `read_seqbegin` it is asked about, the data being what they
were then where none did. Only a counter that came all the way round is mistaken. -/
theorem sequence_lock_reads_between_writes {data : δ}
    (reached : Reachable (step look) (.new data) state) :
    (∀ thread other, (state.phase thread).Holding → (state.phase other).Holding →
      thread = other) ∧
    (∀ thread next start answer, state.step look (.step thread) = some next →
      next.phase thread = .answered start answer →
      (∀ begun, state.phase thread = .readCheck start begun answer →
        state.changes < begun + 2 ^ 64) →
      ¬next.Written ∧ Answers look next.data start answer) ∧
    (∀ begun seen, (begun, seen) ∈ state.begun → state.changes < begun + 2 ^ 64 →
      (state.read_seqretry begun = true ↔ begun < state.changes) ∧
      (state.read_seqretry begun = false → ¬state.Written ∧ state.data = seen)) := by
  have sound : state.Sound look := reachable_sound reached
  refine ⟨fun thread other one two => sound.holder_unique one two, ?_, ?_⟩
  · intro thread next start answer stepped returned short
    exact sound.returns stepped returned short
  · intro begun seen kept short
    obtain ⟨even, earlier, still⟩ := sound.begun begun seen kept
    have equal := sequence_eq_iff earlier short
    constructor
    · simp only [read_seqretry, decide_eq_true_eq, ne_eq, equal]
      omega
    · intro told
      have same : state.changes = begun := by
        simpa only [read_seqretry, decide_eq_false_iff_not, ne_eq, not_not, equal] using told
      have quiet : ¬state.changes % 2 = 1 := by omega
      exact ⟨fun written => quiet (sound.odd.mpr written), still same⟩

/-- A closure that reads the two halves of a pair one after the other. -/
def halves (data : Nat × Nat) : Option Nat → Option Nat ⊕ Nat × Nat
  | none => .inl (some data.1)
  | some first => .inr (first, data.2)

/-- One thread reads the first half, another writes both, and the first reads the second half, is
told to read again and does so with the writers held off. -/
def overlapped : List (Event (Nat × Nat) (Option Nat) Bool) :=
  [.read false none, .step false, .step false, .write true, .step true, .step true,
    .change true fun data => (1, data.2), .change true fun data => (data.1, 1), .step true,
    .step true, .step false, .step false, .step false, .step false, .step false]

theorem sequence_lock_reads_between_writes_overlapped :
    ∃ state next, run (step halves) (.new (0, 0)) overlapped = some state ∧
      state.step halves (.step false) = some next ∧
      next.phase false = .answered none (1, 1) ∧
      ¬next.Written ∧ Answers halves next.data none (1, 1) := by
  refine ⟨_, _, rfl, rfl, rfl, ?_⟩
  refine (sequence_lock_reads_between_writes ⟨overlapped, rfl⟩).2.1 false _ none (1, 1) rfl rfl ?_
  intro begun stood
  cases stood

end State

end Kobako.Sequence
