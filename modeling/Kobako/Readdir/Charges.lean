import Kobako.Readdir.Serve
import Kobako.Run
import Mathlib.Algebra.Order.BigOperators.Group.List
import Mathlib.Algebra.GroupWithZero.Nat

/-!
# What held listings count for

The open directories of one caller, and the bytes its Filesystems hold on its behalf. Every Cred
restricted from the caller's shares one count, so it is kept beside the directories. A call that
lists a directory is cut where it reads the count or writes it, so that other calls may come in
between: what it held is let go of at the start, the directory is read, its entries are counted or
refused, and what is left of them is kept or let go of.
-/

namespace Kobako.Readdir

open Vfs

/-- How many values a `usize` has. -/
def usize : Nat := 2 ^ 64

/-- `AtomicUsize::fetch_sub`, which wraps. -/
def fetchSub (used bytes : Nat) : Nat := (used + (usize - bytes)) % usize

/-- Where an open directory stands. -/
inductive Dir where
  /-- Closed. -/
  | closed
  /-- Between calls, at a position, with what its `Rdir` holds. -/
  | resting (pos : Nat) (held : Option Listing)
  /-- In `Rdir::iterate`, `read` or `dots` next. -/
  | reading (pos : Nat)
  /-- In `Rdir::iterate`, `Charge::account` next. -/
  | counting (pos : Nat) (entries : List DirEntry) (bytes : Nat)
  /-- In `Rdir::iterate`, `emit_from` next. -/
  | handing (pos : Nat) (listing : Listing)
  deriving DecidableEq, Repr

/-- What a directory's listing counts for. -/
def Dir.charge : Dir → Nat
  | .resting _ (some listing) => listing.bytes
  | .handing _ listing => listing.bytes
  | _ => 0

/-- What the `Rdir` of a directory between calls holds. -/
def Dir.held : Dir → Option Listing
  | .resting _ listing => listing
  | _ => none

/-- A directory in no call. -/
def Dir.rests : Dir → Bool
  | .closed | .resting _ _ => true
  | _ => false

/-- `VmCommitted`, and the directories of the Creds that share it. -/
structure Held where
  /-- The most that may be held. -/
  limit : Nat
  /-- What is held. -/
  used : Nat
  /-- Where each directory stands. -/
  dirs : List Dir
  deriving DecidableEq, Repr

/-- `VmCommitted::new`, with no directory open. -/
def Held.new (limit : Nat) : Held := ⟨limit, 0, []⟩

/-- What happens to a directory. -/
inductive Listed where
  /-- A directory is opened. -/
  | opened
  /-- `File::llseek`. -/
  | seek (dir pos : Nat)
  /-- A call starts, letting go of what was held where it lists from the start. -/
  | call (dir : Nat)
  /-- `read`, or the stat of `dots`, fails. -/
  | fail (dir : Nat)
  /-- The directory is read and stat, its entries counting for so many bytes. -/
  | read (dir : Nat) (entries : List DirEntry) (bytes : Nat)
  /-- `Charge::account`. -/
  | account (dir : Nat)
  /-- `emit_from`, the actor taking so many entries if there are. -/
  | hand (dir took : Nat)
  /-- The file is dropped. -/
  | close (dir : Nat)
  deriving DecidableEq, Repr

namespace Held

/-- A directory moved. -/
def moved (held : Held) (dir : Nat) (next : Dir) : Held :=
  { held with dirs := held.dirs.set dir next }

/-- `Drop for Charge`. -/
def unacct (held : Held) (bytes : Nat) : Held := { held with used := fetchSub held.used bytes }

/-- One step of a directory. -/
def step (held : Held) : Listed → Option Held
  | .opened => some { held with dirs := held.dirs ++ [.resting 0 none] }
  | .seek dir pos =>
    match held.dirs[dir]? with
    | some (.resting _ listing) => some (held.moved dir (.resting pos listing))
    | _ => none
  | .call dir =>
    match held.dirs[dir]? with
    | some (.resting pos (some listing)) =>
      if pos ≠ 0 then some (held.moved dir (.handing pos listing))
      else some ((held.unacct listing.bytes).moved dir (.reading pos))
    | some (.resting pos none) => some (held.moved dir (.reading pos))
    | _ => none
  | .fail dir =>
    match held.dirs[dir]? with
    | some (.reading pos) => some (held.moved dir (.resting pos none))
    | _ => none
  | .read dir entries bytes =>
    match held.dirs[dir]? with
    | some (.reading pos) => some (held.moved dir (.counting pos entries bytes))
    | _ => none
  | .account dir =>
    match held.dirs[dir]? with
    | some (.counting pos entries bytes) =>
      if held.used + bytes < usize ∧ held.used + bytes ≤ held.limit then
        some ({ held with used := held.used + bytes }.moved dir (.handing pos ⟨entries, bytes⟩))
      else some (held.moved dir (.resting pos none))
    | _ => none
  | .hand dir took =>
    match held.dirs[dir]? with
    | some (.handing pos listing) =>
      let rest := listing.entries.drop pos
      if rest.length ≤ took then
        some ((held.unacct listing.bytes).moved dir (.resting (pos + rest.length) none))
      else some (held.moved dir (.resting (pos + took) (some listing)))
    | _ => none
  | .close dir =>
    match held.dirs[dir]? with
    | some (.resting _ (some listing)) => some ((held.unacct listing.bytes).moved dir .closed)
    | some (.resting _ none) => some (held.moved dir .closed)
    | _ => none

/-- What all listings count for. -/
def total (held : Held) : Nat := (held.dirs.map Dir.charge).sum

/-- The count is that of the listings held, within the limit. -/
structure Exact (held : Held) : Prop where
  /-- What is counted is what is held. -/
  counts : held.used = held.total
  /-- No more is held than may be. -/
  within : held.used ≤ held.limit
  /-- The limit is a `usize`. -/
  small : held.limit < usize

/-! ## One step -/

/-- What all listings count for, once one directory moved. -/
theorem total_moved {held : Held} {dir : Nat} {old : Dir} (stands : held.dirs[dir]? = some old)
    (next : Dir) : (held.moved dir next).total + old.charge = held.total + next.charge := by
  obtain ⟨limit, used, dirs⟩ := held
  simp only [moved, total] at stands ⊢
  induction dirs generalizing dir with
  | nil => simp at stands
  | cons first dirs ih =>
    cases dir with
    | zero =>
      simp only [List.getElem?_cons_zero, Option.some.injEq] at stands
      subst stands
      simp only [List.set_cons_zero, List.map_cons, List.sum_cons]
      omega
    | succ dir =>
      have later := ih stands
      simp only [List.set_cons_succ, List.map_cons, List.sum_cons]
      omega

/-- What a directory counts for is part of what all do. -/
theorem charge_le_total {held : Held} {dir : Dir} (mem : dir ∈ held.dirs) :
    dir.charge ≤ held.total := by
  have among : dir.charge ∈ held.dirs.map Dir.charge := List.mem_map_of_mem mem
  exact List.single_le_sum (fun _ _ => Nat.zero_le _) _ among

/-- Giving back no more than is counted does not wrap. -/
theorem fetchSub_eq {used bytes : Nat} (enough : bytes ≤ used) (small : used < usize) :
    fetchSub used bytes = used - bytes := by
  rw [fetchSub, show used + (usize - bytes) = used - bytes + usize by omega, Nat.add_mod_right,
    Nat.mod_eq_of_lt (by omega)]

/-- One directory moves, the count with what it holds. -/
theorem Exact.moved {held : Held} {dir : Nat} {old next : Dir} (exact_ : held.Exact)
    (stands : held.dirs[dir]? = some old) {used : Nat} (changes : used + old.charge =
      held.used + next.charge) (within : used ≤ held.limit) :
    ({ held with used := used }.moved dir next).Exact := by
  have moves := total_moved stands next
  have counts := exact_.counts
  refine ⟨?_, within, exact_.small⟩
  change used = (held.moved dir next).total
  omega

/-- One directory moves and gives back what it held. -/
theorem Exact.released {held : Held} {dir : Nat} {old next : Dir} (exact_ : held.Exact)
    (stands : held.dirs[dir]? = some old) (nothing : next.charge = 0) :
    ((held.unacct old.charge).moved dir next).Exact := by
  have enough := charge_le_total (List.mem_of_getElem? stands)
  have counts := exact_.counts
  have within := exact_.within
  have small := exact_.small
  have given : fetchSub held.used old.charge = held.used - old.charge :=
    fetchSub_eq (by omega) (by omega)
  exact exact_.moved stands (by rw [given]; omega) (by rw [given]; omega)

/-- Every step keeps the count exact. -/
theorem step_exact {held next : Held} (event : Listed) (exact_ : held.Exact)
    (taken : held.step event = some next) : next.Exact := by
  have within := exact_.within
  cases event with
  | opened =>
    cases taken
    exact ⟨by simpa [total, Dir.charge] using exact_.counts, within, exact_.small⟩
  | seek dir pos =>
    simp only [step] at taken
    split at taken
    · rename_i listing stands
      cases taken
      cases listing <;> exact exact_.moved stands rfl within
    · cases taken
  | call dir =>
    simp only [step] at taken
    split at taken
    · rename_i pos listing stands
      split at taken
      · cases taken
        exact exact_.moved stands rfl within
      · cases taken
        exact exact_.released stands rfl
    · rename_i stands
      cases taken
      exact exact_.moved stands rfl within
    · cases taken
  | fail dir | read dir entries bytes =>
    simp only [step] at taken
    split at taken
    · rename_i stands
      cases taken
      exact exact_.moved stands rfl within
    · cases taken
  | account dir =>
    simp only [step] at taken
    split at taken
    · rename_i stands
      split at taken
      · rename_i room
        cases taken
        exact exact_.moved stands rfl room.2
      · cases taken
        exact exact_.moved stands rfl within
    · cases taken
  | hand dir took =>
    simp only [step] at taken
    split at taken
    · rename_i stands
      split at taken
      · cases taken
        exact exact_.released stands rfl
      · cases taken
        exact exact_.moved stands rfl within
    · cases taken
  | close dir =>
    simp only [step] at taken
    split at taken
    · rename_i stands
      cases taken
      exact exact_.released stands rfl
    · rename_i stands
      cases taken
      exact exact_.moved stands rfl within
    · cases taken

/-! ## A call as its steps -/

variable {σ : Type}

/-- The actor takes so many entries, all of them where it never stops. -/
theorem emitAll_took (actor : Actor σ) (entries : List DirEntry) (ctx : DirContext σ) :
    ∃ count, (emitAll actor ctx entries).2.pos = ctx.pos + count ∧
      if (emitAll actor ctx entries).1 then count = entries.length else count < entries.length := by
  induction entries generalizing ctx with
  | nil => exact ⟨0, rfl, rfl⟩
  | cons entry entries ih =>
    have stays : ∀ took next, ctx.dirEmit actor entry = (took, next) → next.pos = ctx.pos := by
      intro took next emitted
      rw [DirContext.dirEmit, DirContext.emit] at emitted
      split at emitted
      cases emitted
      rfl
    cases emitted : ctx.dirEmit actor entry with
    | mk took next =>
      have same := stays took next emitted
      cases took with
      | false => exact ⟨0, by simp [emitAll, emitted, same], by simp [emitAll, emitted]⟩
      | true =>
        obtain ⟨count, reaches, all⟩ := ih (next.setPos (next.pos + 1))
        have steps : emitAll actor ctx (entry :: entries) =
            emitAll actor (next.setPos (next.pos + 1)) entries := by simp only [emitAll, emitted]
        rw [steps]
        refine ⟨count + 1, ?_, ?_⟩
        · rw [reaches]
          change next.pos + 1 + count = _
          omega
        · rw [List.length_cons]
          split at all <;> rename_i took
          · rw [if_pos took, all]
          · rw [if_neg took]
            omega

/-- What `emit_from` leaves of a listing, as a step leaves it. -/
theorem hand_step {held : Held} (exact_ : held.Exact) {dir pos : Nat} {listing : Listing}
    (stands : held.dirs[dir]? = some (.handing pos listing)) (actor : Actor σ) (kept : σ) :
    ∃ took, held.step (.hand dir took) = some (
      if (emitFrom actor ⟨pos, kept⟩ listing.entries).1 then
        { held with used := held.used - listing.bytes }.moved dir
          (.resting (emitFrom actor ⟨pos, kept⟩ listing.entries).2.pos none)
      else held.moved dir
        (.resting (emitFrom actor ⟨pos, kept⟩ listing.entries).2.pos (some listing))) := by
  obtain ⟨count, reaches, all⟩ := emitAll_took actor (listing.entries.drop pos) ⟨pos, kept⟩
  have enough : listing.bytes ≤ held.used := by
    rw [exact_.counts]
    exact charge_le_total (List.mem_of_getElem? stands)
  have given : fetchSub held.used listing.bytes = held.used - listing.bytes :=
    fetchSub_eq enough (by have := exact_.within; have := exact_.small; omega)
  refine ⟨count, ?_⟩
  rw [emitFrom]
  simp only [step, stands, unacct, given]
  split at all <;> rename_i took
  · rw [if_pos took, if_pos (le_of_eq all.symm), reaches, all]
  · rw [if_neg took, if_neg (Nat.not_le.mpr all), reaches]

/-- What `Rdir::iterate` reads and counts, as steps do. -/
theorem begin_steps {held : Held} (exact_ : held.Exact) {dir pos : Nat}
    (stands : held.dirs[dir]? = some (.reading pos)) (answers : Answers) :
    (∃ error events, (⟨none, some ⟨held.limit, held.used⟩⟩ : Rdir).begin answers = .error error ∧
      run Held.step held events = some (held.moved dir (.resting pos none))) ∨
    ∃ listing events, (⟨none, some ⟨held.limit, held.used⟩⟩ : Rdir).begin answers =
        .ok (listing, ⟨none, some ⟨held.limit, held.used + listing.bytes⟩⟩) ∧
      run Held.step held events =
        some ({ held with used := held.used + listing.bytes }.moved dir (.handing pos listing)) := by
  have small := exact_.small
  have fails : run Held.step held [.fail dir] = some (held.moved dir (.resting pos none)) := by
    simp [run, step, stands]
  have within : dir < held.dirs.length := (List.getElem?_eq_some_iff.mp stands).1
  rw [Rdir.begin]
  cases answers.read with
  | error error => exact .inl ⟨error, _, rfl, fails⟩
  | ok read =>
    cases dots answers.own answers.above with
    | error error => exact .inl ⟨error, _, rfl, fails⟩
    | ok two =>
      have counting : (held.moved dir (.counting pos (two ++ read)
          (answers.cost (two ++ read)))).dirs[dir]? = some (.counting pos (two ++ read)
            (answers.cost (two ++ read))) := by
        simp [moved, within]
      by_cases room : held.used + answers.cost (two ++ read) ≤ held.limit
      · refine .inr ⟨⟨two ++ read, answers.cost (two ++ read)⟩,
          [.read dir (two ++ read) (answers.cost (two ++ read)), .account dir], ?_, ?_⟩
        · simp [bind, Except.bind, securityVmEnoughMemory, room, pure, Except.pure]
        · have both : held.used + answers.cost (two ++ read) < usize ∧
              held.used + answers.cost (two ++ read) ≤ held.limit := ⟨by omega, room⟩
          simp only [run, step, stands, counting]
          simp [moved, both]
      · refine .inl ⟨outOfMemory,
          [.read dir (two ++ read) (answers.cost (two ++ read)), .account dir], ?_, ?_⟩
        · simp [bind, Except.bind, securityVmEnoughMemory, room]
        · simp only [run, step, stands, counting]
          simp [moved, room]

theorem moved_moved (held : Held) (dir used : Nat) (first second : Dir) :
    { held.moved dir first with used := used }.moved dir second =
      { held with used := used }.moved dir second := by
  simp [moved]

theorem moved_stands {held : Held} {dir : Nat} {old : Dir} (stands : held.dirs[dir]? = some old)
    (next : Dir) : (held.moved dir next).dirs[dir]? = some next := by
  have within := (List.getElem?_eq_some_iff.mp stands).1
  simp [moved, within]

/-- `Rdir::iterate` from where it has a listing to hand on. -/
def finish (rdir : Rdir) (actor : Actor σ) (listing : Listing) (ctx : DirContext σ) :
    Except FsError Unit × DirContext σ × Rdir :=
  match emitFrom actor ctx listing.entries with
  | (true, ctx) => (.ok (), ctx, rdir.letGo listing)
  | (false, ctx) => (.ok (), ctx, { rdir with held := some listing })

/-- A listing that goes on hands on what it held. -/
theorem iterate_on {pos : Nat} (on : pos ≠ 0) (listing : Listing) (cred : Cred) (actor : Actor σ)
    (answers : Answers) (kept : σ) :
    (⟨some listing, cred⟩ : Rdir).iterate actor answers ⟨pos, kept⟩ =
      finish ⟨none, cred⟩ actor listing ⟨pos, kept⟩ := by
  simp only [Rdir.iterate, Rdir.resume, ne_eq, on, not_false_eq_true, ↓reduceIte]
  rfl

/-- A listing from the start lets go of what it held, then is as one that held nothing. -/
theorem iterate_rewound (listing : Listing) (cred : Cred) (actor : Actor σ) (answers : Answers)
    (kept : σ) :
    (⟨some listing, cred⟩ : Rdir).iterate actor answers ⟨0, kept⟩ =
      (⟨none, vmUnacctMemory listing.bytes cred⟩ : Rdir).iterate actor answers ⟨0, kept⟩ := by
  simp only [Rdir.iterate, Rdir.resume, ne_eq, not_true_eq_false, ↓reduceIte, Rdir.letGo]

/-- A listing that held nothing reads the directory, then hands on what it read. -/
theorem iterate_anew (cred : Cred) (actor : Actor σ) (answers : Answers) (ctx : DirContext σ) :
    (⟨none, cred⟩ : Rdir).iterate actor answers ctx =
      match (⟨none, cred⟩ : Rdir).begin answers with
      | .error error => (.error error, ctx, ⟨none, cred⟩)
      | .ok (listing, rdir) => finish rdir actor listing ctx := by
  simp only [Rdir.iterate, Rdir.resume]
  cases (⟨none, cred⟩ : Rdir).begin answers with
  | error error => rfl
  | ok found => rfl

/-- What a call leaves of a directory and of the count is what a run of steps leaves. -/
def Runs (held : Held) (dir : Nat) (answer : Except FsError Unit × DirContext σ × Rdir) : Prop :=
  ∃ events used, run Held.step held events =
      some ({ held with used := used }.moved dir (.resting answer.2.1.pos answer.2.2.held)) ∧
    answer.2.2.cred = some ⟨held.limit, used⟩

/-- What leads to a state from which a call is a run of steps is the start of one. -/
theorem Runs.after {held middle : Held} {dir : Nat} {first : Dir} {used : Nat}
    {answer : Except FsError Unit × DirContext σ × Rdir} {events : List Listed}
    (ran : run Held.step held events = some middle)
    (same : middle = { held with used := used }.moved dir first) (runs : middle.Runs dir answer) :
    held.Runs dir answer := by
  obtain ⟨later, count, leads, counted⟩ := runs
  subst same
  refine ⟨events ++ later, count, ?_, counted⟩
  rw [run_append, ran, Option.bind_some, leads]
  exact congrArg some (moved_moved { held with used := used } dir count first _)

/-- Handing on a listing is one step. -/
theorem finish_runs {held : Held} (exact_ : held.Exact) {dir pos : Nat} {listing : Listing}
    (stands : held.dirs[dir]? = some (.handing pos listing)) (actor : Actor σ) (kept : σ) :
    held.Runs dir (finish ⟨none, some ⟨held.limit, held.used⟩⟩ actor listing ⟨pos, kept⟩) := by
  obtain ⟨took, steps⟩ := hand_step exact_ stands actor kept
  rw [finish]
  cases emitted : emitFrom actor ⟨pos, kept⟩ listing.entries with
  | mk all ctx =>
    rw [emitted] at steps
    cases all with
    | true => exact ⟨[.hand dir took], held.used - listing.bytes, by simp [run, steps, Rdir.letGo], rfl⟩
    | false => exact ⟨[.hand dir took], held.used, by simp [run, steps], rfl⟩

/-- Reading the directory anew, and handing on what was read, is a run of steps. -/
theorem begin_runs {held : Held} (exact_ : held.Exact) {dir pos : Nat}
    (stands : held.dirs[dir]? = some (.reading pos)) (actor : Actor σ) (answers : Answers)
    (kept : σ) :
    held.Runs dir ((⟨none, some ⟨held.limit, held.used⟩⟩ : Rdir).iterate actor answers
      ⟨pos, kept⟩) := by
  rw [iterate_anew]
  rcases begin_steps exact_ stands answers with ⟨error, events, fails, ran⟩ |
    ⟨listing, events, begins, ran⟩
  · rw [fails]
    exact ⟨events, held.used, ran, rfl⟩
  · rw [begins]
    have kept_ := run_preserves Held.step (fun _ event _ holds taken => step_exact event holds taken)
      events held _ exact_ ran
    exact Runs.after ran rfl (finish_runs kept_ (moved_stands stands _) actor kept)

/-- A call of `Rdir::iterate` run by itself is a run of steps. -/
theorem iterate_runs {held : Held} (exact_ : held.Exact) {dir pos : Nat}
    {listing : Option Listing} (stands : held.dirs[dir]? = some (.resting pos listing))
    (actor : Actor σ) (answers : Answers) (kept : σ) :
    held.Runs dir ((⟨listing, some ⟨held.limit, held.used⟩⟩ : Rdir).iterate actor answers
      ⟨pos, kept⟩) := by
  cases listing with
  | none =>
    have called : held.step (.call dir) = some (held.moved dir (.reading pos)) := by
      simp [step, stands]
    have ran : run Held.step held [.call dir] = some (held.moved dir (.reading pos)) := by
      simp [run, called]
    exact Runs.after ran rfl
      (begin_runs (step_exact _ exact_ called) (moved_stands stands _) actor answers kept)
  | some old =>
    by_cases start : pos = 0
    · have counts := exact_.counts
      have within := exact_.within
      have small := exact_.small
      have part : old.bytes ≤ held.total := charge_le_total (List.mem_of_getElem? stands)
      have given : fetchSub held.used old.bytes = held.used - old.bytes :=
        fetchSub_eq (by omega) (by omega)
      have called : held.step (.call dir) =
          some ({ held with used := held.used - old.bytes }.moved dir (.reading pos)) := by
        simp [step, stands, start, unacct, given]
      have ran : run Held.step held [.call dir] =
          some ({ held with used := held.used - old.bytes }.moved dir (.reading pos)) := by
        simp [run, called]
      subst start
      rw [iterate_rewound]
      exact Runs.after ran rfl
        (begin_runs (step_exact _ exact_ called) (moved_stands stands _) actor answers kept)
    · have called : held.step (.call dir) = some (held.moved dir (.handing pos old)) := by
        simp [step, stands, start]
      have ran : run Held.step held [.call dir] = some (held.moved dir (.handing pos old)) := by
        simp [run, called]
      rw [iterate_on start]
      exact Runs.after ran rfl
        (finish_runs (step_exact _ exact_ called) (moved_stands stands _) actor kept)

/-- A call that fails hands on no entry and leaves nothing held. -/
theorem iterate_error {rdir : Rdir} {actor : Actor σ} {answers : Answers} {ctx : DirContext σ}
    {error : FsError} (fails : (rdir.iterate actor answers ctx).1 = .error error) :
    (rdir.iterate actor answers ctx).2.1 = ctx ∧
      (rdir.iterate actor answers ctx).2.2.held = none := by
  have ends : ∀ (rdir : Rdir) (listing : Listing),
      (finish rdir actor listing ctx).1 ≠ .error error := by
    intro rdir listing
    rw [finish]
    split <;> simp
  have anew : ∀ cred, ((⟨none, cred⟩ : Rdir).iterate actor answers ctx).1 = .error error →
      ((⟨none, cred⟩ : Rdir).iterate actor answers ctx).2.1 = ctx ∧
        ((⟨none, cred⟩ : Rdir).iterate actor answers ctx).2.2.held = none := by
    intro cred answered
    rw [iterate_anew] at answered ⊢
    cases begins : (⟨none, cred⟩ : Rdir).begin answers with
    | error _ => exact ⟨rfl, rfl⟩
    | ok found =>
      rw [begins] at answered
      exact absurd answered (ends found.2 found.1)
  obtain ⟨listing, cred⟩ := rdir
  obtain ⟨pos, kept⟩ := ctx
  cases listing with
  | none => exact anew cred fails
  | some listing =>
    by_cases start : pos = 0
    · subst start
      rw [iterate_rewound] at fails ⊢
      exact anew _ fails
    · rw [iterate_on start] at fails
      exact absurd fails (ends _ listing)

/-! ## Whole runs -/

/-- No step changes the limit. -/
theorem step_limit {held next : Held} (event : Listed) (taken : held.step event = some next) :
    next.limit = held.limit := by
  cases event <;> simp only [step] at taken
  case opened =>
    cases taken
    rfl
  all_goals
    split at taken <;> first | (cases taken; rfl) | (split at taken <;> cases taken <;> rfl) |
      cases taken

/-- Every state reached is exact. -/
theorem reached_exact {limit : Nat} (small : limit < usize) {held : Held}
    (reached : Reachable Held.step (Held.new limit) held) : held.Exact ∧ held.limit = limit := by
  have starts : (Held.new limit).Exact ∧ (Held.new limit).limit = limit :=
    ⟨⟨rfl, Nat.zero_le _, small⟩, rfl⟩
  have keeps : ∀ held event next, (Exact held ∧ held.limit = limit) →
      Held.step held event = some next → Exact next ∧ next.limit = limit :=
    fun held event next holds taken =>
      ⟨step_exact event holds.1 taken, (step_limit event taken).trans holds.2⟩
  exact Reachable.invariant Held.step starts keeps reached

/-- Between calls, what all listings count for is what the `Rdir`s hold. -/
theorem total_rests {held : Held} (rest : ∀ dir ∈ held.dirs, dir.rests = true) :
    held.total = ((held.dirs.filterMap Dir.held).map Listing.bytes).sum := by
  obtain ⟨limit, used, dirs⟩ := held
  simp only [total] at rest ⊢
  induction dirs with
  | nil => rfl
  | cons dir dirs ih =>
    have later := ih fun other mem => rest other (List.mem_cons_of_mem _ mem)
    have here := rest dir List.mem_cons_self
    rw [List.map_cons, List.sum_cons, later]
    cases dir with
    | resting pos listing =>
      cases listing with
      | none =>
        rw [List.filterMap_cons_none rfl]
        exact Nat.zero_add _
      | some listing => simp [Dir.charge, Dir.held]
    | closed =>
      rw [List.filterMap_cons_none rfl]
      exact Nat.zero_add _
    | _ => cases here

/-- Held listings are charged exactly. Whatever is opened, listed, sought, rewound, failed,
finished and closed, the count between calls is what the listings held then count for, within the
limit; what any listing gives back is part of it, so it never wraps; it is zero once none is held;
and a listing refused for want of room leaves the count and every other directory as they were. A
call of `Rdir::iterate` is a run of such steps, and where it fails it hands on no entry and holds
nothing. -/
theorem charges_exact {limit : Nat} (small : limit < usize) {held : Held}
    (reached : Reachable Held.step (Held.new limit) held) :
    held.used ≤ limit ∧
    (∀ dir ∈ held.dirs, dir.charge ≤ held.used) ∧
    ((∀ dir ∈ held.dirs, dir.rests = true) →
      held.used = ((held.dirs.filterMap Dir.held).map Listing.bytes).sum) ∧
    ((∀ dir ∈ held.dirs, dir.rests = true ∧ dir.held = none) → held.used = 0) ∧
    (∀ dir pos entries bytes, held.dirs[dir]? = some (.counting pos entries bytes) →
      limit < held.used + bytes →
      held.step (.account dir) = some (held.moved dir (.resting pos none))) ∧
    (∀ dir pos listing (actor : Actor σ) answers kept,
      held.dirs[dir]? = some (.resting pos listing) →
      held.Runs dir ((⟨listing, some ⟨limit, held.used⟩⟩ : Rdir).iterate actor answers ⟨pos, kept⟩) ∧
      ∀ error, ((⟨listing, some ⟨limit, held.used⟩⟩ : Rdir).iterate actor answers
          ⟨pos, kept⟩).1 = .error error →
        ((⟨listing, some ⟨limit, held.used⟩⟩ : Rdir).iterate actor answers ⟨pos, kept⟩).2.1 =
          ⟨pos, kept⟩ ∧
        ((⟨listing, some ⟨limit, held.used⟩⟩ : Rdir).iterate actor answers ⟨pos, kept⟩).2.2.held =
          none) := by
  obtain ⟨exact_, rfl⟩ := reached_exact small reached
  have counts := exact_.counts
  refine ⟨exact_.within, fun dir mem => ?_, fun rest => ?_, fun rest => ?_, ?_, ?_⟩
  · rw [counts]
    exact charge_le_total mem
  · rw [counts, total_rests rest]
  · have nothing : held.dirs.filterMap Dir.held = [] :=
      List.filterMap_eq_nil_iff.mpr fun dir mem => (rest dir mem).2
    rw [counts, total_rests fun dir mem => (rest dir mem).1, nothing]
    rfl
  · intro dir pos entries bytes stands overspent
    have refused : ¬(held.used + bytes < usize ∧ held.used + bytes ≤ held.limit) := by omega
    simp only [step, stands, if_neg refused]
  · intro dir pos listing actor answers kept stands
    exact ⟨iterate_runs exact_ stands actor answers kept, fun error => iterate_error⟩

/-- Two directories of one caller, the first of which holds a listing of 40 bytes of the 64 it may
and the second of which is refused one of 30. -/
def refused : Held :=
  ⟨64, 40, [.resting 0 (some ⟨[⟨".", .dir, 1, 1⟩], 40⟩), .resting 0 none]⟩

/-- The refused listing leaves the first one held and counted. -/
theorem charges_exact_refused :
    run Held.step (Held.new 64) [.opened, .opened, .call 0, .read 0 [⟨".", .dir, 1, 1⟩] 40,
      .account 0, .hand 0 0, .call 1, .read 1 [⟨".", .dir, 1, 1⟩] 30, .account 1] =
        some refused ∧
    refused.used = ((refused.dirs.filterMap Dir.held).map Listing.bytes).sum := by
  have ran : run Held.step (Held.new 64) [.opened, .opened, .call 0,
      .read 0 [⟨".", .dir, 1, 1⟩] 40, .account 0, .hand 0 0, .call 1,
      .read 1 [⟨".", .dir, 1, 1⟩] 30, .account 1] = some refused := by decide
  exact ⟨ran, (charges_exact (σ := Unit) (by decide) ⟨_, ran⟩).2.2.1 (by decide)⟩

end Held

end Kobako.Readdir
