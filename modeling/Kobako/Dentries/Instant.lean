import Kobako.Dentries.Cache
import Kobako.Locking.Sequence

/-!
# Reads of a dentry's place at one instant

`is_subdir` and `names` walk up the parents within `RENAME_LOCK.read`, one dentry's mutex at a
time, while `move_dentry`, `exchange` and `unalias` change parents and names within its `write`.
Each answers what the walk answers on the places as they stand at one instant, the one it returns
at, as the cache's own `isSubdir` and `names` read them there.

A dentry is made with a place that nobody reads before it is, so the places start with those of the
dentries made later.
-/

namespace Kobako.Dentries

variable {ν : Type}

/-- Where every dentry stands: `State::parent` and `State::name`. -/
structure Places (ν : Type) where
  parent : Nat → Option Nat
  name : Nat → ν

/-- Where a walk up stands: the dentry it came to, and whether it has seen that it is no root. -/
inductive Climb (ν : Type)
  /-- The loop of `d_ancestor`. -/
  | ancestor (sought dentry : Nat) (seen : Bool)
  /-- The loop of `names`, with the names it pushed. -/
  | names (dentry : Nat) (seen : Bool) (pushed : List ν)

/-- What a walk up answers. -/
inductive Climbed (ν : Type)
  | ancestor (stands : Bool)
  | names (names : List ν)

/-- One read of a dentry's state on the walk up: `is_root`, then `parent` or `parent_and_name`. -/
def Places.climb (places : Places ν) : Climb ν → Climb ν ⊕ Climbed ν
  | .ancestor sought dentry false =>
    if places.parent dentry = none then .inr (.ancestor false)
    else .inl (.ancestor sought dentry true)
  | .ancestor sought dentry true =>
    let above := (places.parent dentry).getD dentry
    if above = sought then .inr (.ancestor true) else .inl (.ancestor sought above false)
  | .names dentry false pushed =>
    if places.parent dentry = none then .inr (.names pushed.reverse)
    else .inl (.names dentry true pushed)
  | .names dentry true pushed =>
    .inl (.names ((places.parent dentry).getD dentry) false (pushed ++ [places.name dentry]))

/-- `Dentry::is_subdir`, before it enters the lock where the two are not one dentry. -/
def isSubdirStart (dentry ancestor : Nat) : Climb ν := .ancestor ancestor dentry false

/-- The closure of `Dentry::names`. -/
def namesStart (dentry : Nat) : Climb ν := .names dentry false []

variable {places : Places ν}

/-- What is left of a walk up from a place. -/
def Places.Left (places : Places ν) (answer : Climbed ν) : Climb ν → Prop
  | .ancestor sought dentry seen =>
    (seen = true → places.parent dentry ≠ none) →
      ∃ rounds stands, answer = .ancestor stands ∧
        ancestorWithin places.parent sought rounds dentry = some stands
  | .names dentry seen pushed =>
    (seen = true → places.parent dentry ≠ none) →
      ∃ rounds names, answer = .names (pushed ++ names).reverse ∧
        Kobako.climb places.parent places.name rounds dentry = some names

/-- A place the walk up answers at. -/
theorem left_of_answer {answer : Climbed ν} {place : Climb ν}
    (answered : places.climb place = .inr answer) : places.Left answer place := by
  match place with
  | .ancestor sought dentry false =>
    intro _
    simp only [Places.climb] at answered
    split at answered
    · rename_i top
      cases answered
      exact ⟨1, false, rfl, by simp [ancestorWithin, top]⟩
    · cases answered
  | .ancestor sought dentry true =>
    intro seen
    obtain ⟨above, hung⟩ := Option.ne_none_iff_exists'.mp (seen rfl)
    simp only [Places.climb, hung, Option.getD_some] at answered
    split at answered
    · rename_i here
      cases answered
      exact ⟨1, true, rfl, by simp [ancestorWithin, hung, here]⟩
    · cases answered
  | .names dentry false pushed =>
    intro _
    simp only [Places.climb] at answered
    split at answered
    · rename_i top
      cases answered
      exact ⟨1, [], by simp, by simp [Kobako.climb, top]⟩
    · cases answered
  | .names dentry true pushed => simp [Places.climb] at answered

/-- What is left at the place a step leads to is left at the place before it. -/
theorem left_of_step {answer : Climbed ν} {place after : Climb ν}
    (stepped : places.climb place = .inl after) (left : places.Left answer after) :
    places.Left answer place := by
  match place with
  | .ancestor sought dentry false =>
    intro _
    simp only [Places.climb] at stepped
    split at stepped
    · cases stepped
    · rename_i hung
      cases stepped
      exact left fun _ => hung
  | .ancestor sought dentry true =>
    intro seen
    obtain ⟨above, hung⟩ := Option.ne_none_iff_exists'.mp (seen rfl)
    simp only [Places.climb, hung, Option.getD_some] at stepped
    split at stepped
    · cases stepped
    · rename_i elsewhere
      cases stepped
      obtain ⟨rounds, stands, answered, ended⟩ := left Bool.false_ne_true.elim
      exact ⟨rounds + 1, stands, answered, by simp [ancestorWithin, hung, elsewhere, ended]⟩
  | .names dentry false pushed =>
    intro _
    simp only [Places.climb] at stepped
    split at stepped
    · cases stepped
    · rename_i hung
      cases stepped
      exact left fun _ => hung
  | .names dentry true pushed =>
    intro seen
    obtain ⟨above, hung⟩ := Option.ne_none_iff_exists'.mp (seen rfl)
    simp only [Places.climb, hung, Option.getD_some, Sum.inl.injEq] at stepped
    subst stepped
    obtain ⟨rounds, names, answered, ended⟩ := left Bool.false_ne_true.elim
    refine ⟨rounds + 1, places.name dentry :: names, ?_, by simp [Kobako.climb, hung, ended]⟩
    simpa only [List.append_assoc, List.singleton_append] using answered

/-- A walk up alone answers what is left at its start. -/
theorem left_of_answers {answer : Climbed ν} {start : Climb ν}
    (answers : Sequence.Answers Places.climb places start answer) : places.Left answer start := by
  obtain ⟨place, runs, answered⟩ := answers
  induction runs using Relation.ReflTransGen.head_induction_on with
  | refl => exact left_of_answer answered
  | head stepped _ ih => exact left_of_step stepped ih

variable {τ θ ι : Type} [DecidableEq θ]

/-- Whatever threads move, exchange and unalias dentries meanwhile: where `is_subdir` or `names`
returns from the lock, nobody is within a move, and the answer is the one the cache standing as the
dentries do at that instant gives. -/
theorem walks_up_read_one_instant {first : Places ν}
    {state next : Sequence.State (Places ν) (Climb ν) (Climbed ν) θ} {thread : θ} {start : Climb ν}
    {answer : Climbed ν}
    (reached : Reachable (Sequence.State.step Places.climb) (.new first) state)
    (stepped : state.step Places.climb (.step thread) = some next)
    (returned : next.phase thread = .answered start answer)
    (short : ∀ begun, state.phase thread = .readCheck start begun answer →
      state.changes < begun + 2 ^ 64)
    (cache : Cache τ ν ι) (parents : cache.parent = next.data.parent)
    (names : cache.name = next.data.name) :
    ¬next.Written ∧
    (∀ dentry ancestor, start = isSubdirStart dentry ancestor → dentry ≠ ancestor →
      ∃ rounds stands, answer = .ancestor stands ∧
        cache.isSubdir rounds dentry ancestor = some stands ∧
        (stands = true ↔ AtOrAbove cache.parent ancestor dentry)) ∧
    (∀ dentry, start = namesStart dentry →
      ∃ rounds names, answer = .names names ∧ cache.names rounds dentry = some names) := by
  have sound := Sequence.State.reachable_sound reached
  obtain ⟨quiet, answers⟩ := sound.returns stepped returned short
  have left := left_of_answers answers
  refine ⟨quiet, fun dentry ancestor asked apart => ?_, fun dentry asked => ?_⟩
  · subst asked
    obtain ⟨rounds, stands, answered, ended⟩ := left Bool.false_ne_true.elim
    rw [← parents] at ended
    refine ⟨rounds, stands, answered, ?_, ?_⟩
    · rw [Cache.isSubdir, if_neg apart]
      exact ended
    · rw [ancestorWithin_iff ended, AtOrAbove, or_iff_right apart]
  · subst asked
    obtain ⟨rounds, walked, answered, ended⟩ := left Bool.false_ne_true.elim
    rw [← parents, ← names] at ended
    refine ⟨rounds, walked.reverse, answered, ?_⟩
    rw [Cache.names, ended]
    rfl

/-- A cache whose dentries stand at these places. -/
def Places.cache (places : Places ν) : Cache Unit ν Unit where
  dentries dentry :=
    { parent := places.parent dentry
      name := places.name dentry
      inode := some ()
      asked := .answered
      hashed := true }
  address dentry := dentry
  live _ := true
  made := 3
  dentryHashtable _ := none
  inLookupHashtable _ := none
  inodeDentry _ := none

/-- A root, a directory in it and a file in that. -/
def threeDentries : Places String where
  parent
    | 1 => some 0
    | 2 => some 1
    | _ => none
  name
    | 1 => "old"
    | 2 => "file"
    | _ => ""

/-- The directory takes another name. -/
def renameDirectory (places : Places String) : Places String :=
  { places with name := Function.update places.name 1 "new" }

/-- `names` walks up from the file, and a move of the directory overlaps it. -/
def movedUnderneath : List (Sequence.Event (Places String) (Climb String) Bool) :=
  [.read false (namesStart 2), .step false, .step false, .step false, .write true, .step true,
    .step true, .change true renameDirectory, .step true, .step true, .step false, .step false,
    .step false, .step false, .step false, .step false, .step false, .step false, .step false,
    .step false]

theorem walks_up_read_one_instant_moved :
    ∃ state next, run (Sequence.State.step Places.climb) (.new threeDentries) movedUnderneath =
        some state ∧
      state.step Places.climb (.step false) = some next ∧
      next.phase false = .answered (namesStart 2) (.names ["new", "file"]) ∧ ¬next.Written ∧
      ∃ rounds names, Climbed.names ["new", "file"] = .names names ∧
        next.data.cache.names rounds 2 = some names := by
  refine ⟨_, _, rfl, rfl, rfl, ?_⟩
  obtain ⟨quiet, _, read⟩ := @walks_up_read_one_instant String Unit Bool Unit _ threeDentries _ _
    false (namesStart 2) (.names ["new", "file"]) ⟨movedUnderneath, rfl⟩ rfl rfl
    (by intro begun stood; cases stood) (Places.cache _) rfl rfl
  exact ⟨quiet, read 2 rfl⟩

end Kobako.Dentries
