import Kobako.Dentries.Held
import Kobako.Locking.Exclusion

/-!
# A turn of a lookup

Each step a lookup takes leaves the dentries in order, and the other threads alone; what the lookup
needs to know for its next step it knows.
-/

namespace Kobako.Dentries

open Kobako.Dcache (LookupState Dentry Key)
open Kobako.Locking (Holders)
open Kobako.Vfs (FsError)

variable {τ ν ι : Type}

/-! ## A turn of a lookup -/

/-- What a turn of a lookup leads to: the others are left alone, and so is what the thread itself
holds besides. -/
structure Turned (semaphores : Lock ι → Holders τ) (cache : Cache τ ν ι) (thread : τ)
    (call : Call ν) (old : Option Nat) (told : Cache τ ν ι × Frame ν ι) : Prop where
  placed : told.1.Placed
  aloof : ∀ other used, other ≠ thread → Aloof semaphores cache told.1 other used
  steady : ∀ used, Steady semaphores cache told.1 thread used
  looks : Looks told.1 thread call old told.2

section Turn

variable {semaphores : Lock ι → Holders τ} {cache : Cache τ ν ι} {thread : τ} {call : Call ν}
  {old : Option Nat} {frame : Frame ν ι} {told : Cache τ ν ι × Frame ν ι}

variable {phase : Phase ν} {dentry : Nat} {ask : Ask}

/-- A frame whose phase alone changed. -/
theorem Looks.at (looks : Looks cache thread call old frame)
    (knows : Knows cache thread call old phase) : Looks cache thread call old (frame.at phase) :=
  ⟨looks.live, looks.names, looks.parent, looks.spelled, knows⟩

/-- A frame over dentries changed by a step of its own thread. -/
theorem Looks.step {next : Cache τ ν ι} (looks : Looks cache thread call old frame)
    (steady : ∀ used, Steady semaphores cache next thread used)
    (asked : ∀ other, cache.live other = true →
      next.asked other = cache.asked other ∨ Mine next thread other)
    (knows : Knows next thread call old phase) : Looks next thread call old (frame.at phase) where
  live := (steady [frame.parent]).live frame.parent (by simp) looks.live
  names := ((steady []).inode _ looks.live looks.names).symm ▸ looks.names
  parent := looks.parent
  spelled spelled within := by
    obtain ⟨live, mine⟩ := looks.spelled spelled within
    refine ⟨(steady [spelled.1.dentry]).live _ (by simp) live, ?_⟩
    obtain same | after := asked spelled.1.dentry live
    · rw [Mine, same]
      exact mine
    · exact after
  knows := knows

/-- A turn that changes no dentry. -/
theorem Turned.same (placed : cache.Placed) {after : Frame ν ι}
    (looks : Looks cache thread call old after) :
    Turned semaphores cache thread call old (cache, after) where
  placed := placed
  aloof other used _ := Aloof.refl semaphores cache other used
  steady used := (Aloof.refl semaphores cache thread used).toSteady
  looks := looks

/-- A dentry found in `dentry_hashtable` is one to go on with. -/
theorem InHand.of_find (placed : cache.Placed) (looks : Looks cache thread call old frame)
    {found : Nat} (stands : cache.find (cache.keyAt frame.place) = some found) :
    InHand cache thread call old found := by
  obtain ⟨stood, live⟩ := Cache.upgrade_eq_some.mp stands
  obtain ⟨hashed, keyed⟩ := placed.hashes.own _ _ stood live
  obtain ⟨answered, hung⟩ := placed.hashes.settled found live hashed
  exact {
    live := live
    asked := .inl answered
    hung := hung
    stands := by
      intro exclusive
      rw [← looks.parent exclusive]
      exact (placed.shaped.parent_of_key live hung looks.live keyed).1 }

theorem allocTurn_turned [DecidableEq ν] (placed : cache.Placed)
    (looks : Looks cache thread call old frame) {address : Nat}
    (taken : allocTurn thread cache frame address = some told) :
    Turned semaphores cache thread call old told := by
  unfold allocTurn at taken
  split at taken
  · rename_i found stands
    cases taken
    exact .same placed (looks.at (InHand.of_find placed looks stands))
  · split at taken
    · rename_i waited stands
      cases taken
      obtain ⟨stood, live⟩ := Cache.upgrade_eq_some.mp stands
      obtain ⟨within, keyed⟩ := placed.sought.within _ _ stood live
      have hung := (placed.sought.entered waited live within).2.2
      refine .same placed (looks.at ⟨live, hung, fun exclusive => ?_⟩)
      rw [← looks.parent exclusive]
      exact (placed.shaped.parent_of_key live hung looks.live keyed).1
    · rename_i unsought
      split at taken
      · rename_i free
        cases taken
        have steady : ∀ used, Steady semaphores cache
            (cache.make thread frame.place address) thread used := fun used =>
          (Cache.make_aloof semaphores placed.shaped thread frame.place address thread
            used).toSteady
        refine {
          placed := Cache.make_placed placed looks.live looks.names free unsought
          aloof := fun other used _ =>
            Cache.make_aloof semaphores placed.shaped thread frame.place address other used
          steady := steady
          looks := looks.step steady (fun other held => .inl ?_) {
            live := Cache.make_new.2.1
            asked := .inr ?_
            hung := ?_
            stands := ?_ } }
        · have apart := Nat.ne_of_lt (placed.shaped.bound other held)
          rw [Cache.asked, (Cache.make_old apart).1, Cache.asked]
        · rw [Cache.asked, Cache.make_new.1]
          rfl
        · simp [Cache.parent, Cache.make_new.1]
        · intro exclusive
          rw [Cache.parent, Cache.make_new.1]
          exact congrArg some (looks.parent exclusive)
      · cases taken

theorem awake_turned [DecidableEq τ] [DecidableEq ν] (placed : cache.Placed)
    (looks : Looks cache thread call old frame) {waited : Nat}
    (phase : frame.phase = .waiting waited) (taken : awake thread cache frame waited = some told) :
    Turned semaphores cache thread call old told := by
  have knows := looks.knows
  rw [phase] at knows
  obtain ⟨live, hung, stands⟩ := knows
  unfold awake at taken
  split at taken
  · rename_i walk held
    split at taken
    · rename_i own
      cases taken
      exact .same placed (looks.at ⟨live, .inr (held.trans (congrArg some own)), hung, stands⟩)
    · cases taken
  · cases taken
    split
    · exact .same placed (looks.at ⟨live, hung, stands⟩)
    · exact .same placed (looks.at trivial)

theorem heldFor_inLookup {state : LookupState τ} (held : state.heldFor = some thread) :
    state.inLookup = true := by
  cases state with
  | unasked => simp [LookupState.heldFor] at held
  | allocated walk => rfl
  | asking walk => rfl
  | answered => simp [LookupState.heldFor] at held

theorem beginLookup_turned [DecidableEq τ] (placed : cache.Placed)
    (looks : Looks cache thread call old frame) (phase : frame.phase = .given dentry)
    (taken : beginLookup thread call.opens cache frame dentry = some told) :
    Turned semaphores cache thread call old told := by
  have inHand := looks.knows
  rw [phase] at inHand
  have inHand : InHand cache thread call old dentry := inHand
  unfold beginLookup at taken
  split at taken
  · split at taken
    · cases taken
      exact .same placed (looks.at inHand)
    · cases taken
  · rename_i walk allocated
    split at taken
    · rename_i own
      subst own
      cases taken
      have held : (cache.asked dentry).heldFor = some walk := by rw [allocated]; rfl
      have within := heldFor_inLookup held
      have turns := cache.beginAsk_turns dentry walk
      have steady := fun used => turns.steady within semaphores walk used
      refine {
        placed := Cache.beginAsk_placed placed walk within
        aloof := fun other used apart => turns.aloof within semaphores used ?_
        steady := steady
        looks := looks.step steady (fun other _ => ?_) {
          live := by
            rw [turns.live]
            exact inHand.live
          asked := .inr ?_
          hung := by
            rw [turns.parent]
            exact inHand.hung
          stands := by
            rw [StandsIn, turns.parent]
            exact inHand.stands } }
      · rw [held]
        exact fun same => apart (Option.some.inj same).symm
      · by_cases same : other = dentry
        · exact .inr (.inr (by simp [turns.asked, same, LookupState.heldFor]))
        · exact .inl (by simp [turns.asked, same])
      · simp [turns.asked, LookupState.heldFor]
    · cases taken
  · rename_i unasked
    obtain answered | held := inHand.asked
    · simp [unasked] at answered
    · simp [unasked, LookupState.heldFor] at held
  · rename_i answered
    split at taken
    · cases taken
      exact .same placed (looks.at inHand)
    · cases taken
      refine .same placed (looks.at fun other ok => ?_)
      have same : dentry = other := Except.ok.inj ok
      subst same
      exact ⟨inHand.live, fun _ => answered, inHand.stands⟩

/-- An answer recorded on the dentry a lookup is about. -/
theorem Cache.Answers.turned [DecidableEq ν] {next : Cache τ ν ι}
    (answers : cache.Answers dentry next) (placed : cache.Placed)
    (looks : Looks cache thread call old frame) (inHand : InHand cache thread call old dentry)
    (knows : InHand next thread call old dentry → next.asked dentry = .answered →
      Knows next thread call old phase) :
    Turned semaphores cache thread call old (next, frame.at phase) := by
  have steady := fun used => answers.steady semaphores thread used
  have answered : next.asked dentry = .answered := by simp [answers.asked]
  have after : InHand next thread call old dentry := {
    live := by
      rw [answers.live]
      exact inHand.live
    asked := .inl answered
    hung := by
      rw [answers.parent]
      exact inHand.hung
    stands := by
      rw [StandsIn, answers.parent]
      exact inHand.stands }
  refine {
    placed := answers.placed placed inHand.live inHand.hung
    aloof := fun other used apart => answers.aloof semaphores used ?_
    steady := steady
    looks := looks.step steady (fun other _ => ?_) (knows after answered) }
  · obtain answered | held := inHand.asked
    · simp [answered, LookupState.heldFor]
    · rw [held]
      exact fun same => apart (Option.some.inj same).symm
  · by_cases same : other = dentry
    · exact .inr (.inl (by simp [answers.asked, same, LookupState.heldFor]))
    · exact .inl (by simp [answers.asked, same])

/-- A dentry `alloc_parallel` gave out is in lookup for nobody else. -/
theorem InHand.mine (inHand : InHand cache thread call old dentry) :
    Mine cache thread dentry := by
  obtain answered | held := inHand.asked
  · exact .inl (by rw [answered]; rfl)
  · exact .inr held

/-- The answer that names the dentry a lookup recorded something on. -/
theorem InHand.tells (inHand : InHand cache thread call old dentry)
    (answered : cache.asked dentry = .answered) : Told cache call old (.ok dentry) := by
  intro other ok
  have same : dentry = other := Except.ok.inj ok
  subst same
  exact ⟨inHand.live, fun _ => answered, inHand.stands⟩

/-- What both trylocks granted tell: nobody holds `rename_mutex`, nor the directory exclusive. -/
theorem trylocks_free {other : Nat} (granted : trylocks semaphores thread cache other = true)
    (walker : τ) :
    ∃ upper, cache.parent other = some upper ∧ ¬Writes semaphores cache walker upper ∧
      (semaphores .renameMutex).writer ≠ some walker := by
  unfold trylocks at granted
  split at granted
  · cases granted
  · rename_i inode names
    obtain ⟨upper, points, named⟩ := Option.bind_eq_some_iff.mp names
    rw [Bool.and_eq_true, Option.isSome_iff_exists, Option.isSome_iff_exists] at granted
    obtain ⟨⟨_, mutex⟩, ⟨_, shared⟩⟩ := granted
    have freeMutex := (Holders.tryTake_granted mutex).1.1
    have freeDir := (Holders.tryTake_granted shared).1.1
    refine ⟨upper, points, ?_, by simp [freeMutex]⟩
    intro writes
    obtain ⟨held, namesHeld, writer⟩ := writes
    have same : inode = held := Option.some.inj (named.symm.trans namesHeld)
    subst same
    simp [freeDir] at writer

theorem unalias_turned [DecidableEq ν] (placed : cache.Placed)
    (looks : Looks cache thread call old frame) {other rounds : Nat} {place : Nat × ν}
    (phase : frame.phase = .aliasing ask other place)
    (still : cache.asked ask.dentry = .answered → cache.parent ask.dentry = some place.1)
    {out : Cache τ ν ι × Except FsError Nat}
    (taken : unalias semaphores thread cache rounds ask.dentry other place = some out) :
    Turned semaphores cache thread call old (out.1, frame.at (.ending ask out.2)) := by
  have knows := looks.knows
  rw [phase] at knows
  obtain ⟨inHand, ⟨live, named⟩, stands, names, points, dir⟩ := knows
  have refused : ∀ e, Turned semaphores cache thread call old
      (cache, frame.at (.ending ask (.error e))) := by
    intro e
    exact .same placed (looks.at ⟨inHand.live, inHand.mine, fun dentry failed => by cases failed⟩)
  unfold unalias at taken
  split at taken
  · cases taken
  · rename_i beneath searched
    split at taken
    · cases taken
      exact refused _
    · rename_i free
      rw [not_or] at free
      split at taken
      · rename_i unheld
        cases taken
        have hung : cache.parent ask.dentry = some place.1 := inHand.asked.elim still points
        have clear : ¬AtOrAbove cache.parent other place.1 := by
          rw [← above_iff hung, ← ancestorWithin_iff searched]
          exact free.1
        have answered : cache.asked other = .answered :=
          (placed.sought.named other live named).resolve_right free.2
        have loose : ∀ walker, cache.parent other = some place.1 ∨
            ∃ upper, cache.parent other = some upper ∧ ¬Writes semaphores cache walker upper ∧
              (semaphores .renameMutex).writer ≠ some walker :=
          fun walker => unheld.imp id fun granted => trylocks_free granted walker
        have rehangs := cache.moveTo_rehangs other place
        have steady := fun used => cache.moveTo_steady semaphores thread used (loose thread)
        refine {
          placed := Cache.moveTo_placed placed live answered free.2 stands names (.inr clear)
          aloof := fun walker used _ =>
            cache.moveTo_aloof semaphores walker used (loose walker) answered
          steady := steady
          looks := looks.step steady (fun _ _ => .inl (by rw [rehangs.asked]))
            ⟨rehangs.live ▸ inHand.live, by rw [Mine, rehangs.asked]; exact inHand.mine, ?_⟩ }
        intro dentry ok
        have same : other = dentry := Except.ok.inj ok
        subst same
        refine ⟨rehangs.live ▸ live, fun _ => rehangs.asked ▸ answered, fun exclusive => ?_⟩
        rw [cache.moveTo_parent, Function.update_self, dir exclusive]
      · cases taken
        exact refused _

/-- `lookup_done` of an ask that ends the lookup. -/
theorem finish_turned [DecidableEq ν] (placed : cache.Placed)
    (looks : Looks cache thread call old frame) {answer : Except FsError Nat}
    (phase : frame.phase = .ending ask answer) :
    Turned semaphores cache thread call old
      (if ask.ends then cache.lookupDone ask.dentry else cache, frame.at (.done answer)) := by
  have knows := looks.knows
  rw [phase] at knows
  obtain ⟨live, mine, named⟩ := knows
  by_cases ends : ask.ends = true ∧ (cache.asked ask.dentry).inLookup = true
  · rw [if_pos ends.1]
    have turns := Cache.lookupDone_turns ends.2
    have steady := fun used => turns.steady ends.2 semaphores thread used
    refine {
      placed := Cache.lookupDone_placed placed live
      aloof := fun other used apart => turns.aloof ends.2 semaphores used ?_
      steady := steady
      looks := looks.step steady (fun other _ => ?_) ?_ }
    · obtain free | held := mine
      · simp [free]
      · rw [held]
        exact fun same => apart (Option.some.inj same).symm
    · by_cases same : other = ask.dentry
      · exact .inr (.inl (by simp [turns.asked, same, LookupState.heldFor]))
      · exact .inl (by simp [turns.asked, same])
    · intro dentry ok
      obtain ⟨held, answered, stands⟩ := named dentry ok
      refine ⟨turns.live ▸ held, fun opens => ?_, ?_⟩
      · exact (steady []).answered dentry held (answered opens)
      · rw [StandsIn, turns.parent]
        exact stands
  · have same : (if ask.ends then cache.lookupDone ask.dentry else cache) = cache := by
      split
      · rename_i ending
        exact if_neg fun within => ends ⟨ending, within⟩
      · rfl
    rw [same]
    exact .same placed (looks.at named)

/-- What a lookup knows of the dentry it asks about. -/
theorem Looks.asking (looks : Looks cache thread call old frame)
    (phase : frame.phase = .asking ask) : InHand cache thread call old ask.dentry := by
  have knows := looks.knows
  rw [phase] at knows
  exact knows

/-- What a lookup that ends in an error knows. -/
theorem Looks.failed (looks : Looks cache thread call old frame) (e : FsError) :
    Looks cache thread call old (frame.at (.done (.error e))) :=
  looks.at fun dentry failed => by cases failed

/-- The splice of an inode found: recorded, or left to the dentry that already stands for it. -/
theorem found_turned [DecidableEq ν] [DecidableEq ι] (semaphores : Lock ι → Holders τ)
    (isDir : ι → Bool) (inode : ι) (placed : cache.Placed)
    (looks : Looks cache thread call old frame) (inHand : InHand cache thread call old ask.dentry) :
    (∀ added, cache.findAliasOrAdd isDir inode ask.dentry = (added, none) →
      Turned semaphores cache thread call old
        (added, frame.at (.ending ask (.ok ask.dentry)))) ∧
      (∀ same other, cache.findAliasOrAdd isDir inode ask.dentry = (same, some other) →
        Turned semaphores cache thread call old (same, frame.at (.aliased ask other))) := by
  unfold Cache.findAliasOrAdd
  split
  · rename_i found stands
    refine ⟨fun added absent => (by cases absent), fun same other told => ?_⟩
    cases told
    obtain ⟨upgraded, _⟩ := Option.filter_eq_some_iff.mp stands
    obtain ⟨held, live⟩ := Cache.upgrade_eq_some.mp upgraded
    have names := placed.sought.held inode found held live
    exact .same placed (looks.at ⟨inHand, live, names⟩)
  · refine ⟨fun added told => ?_, fun same other present => (by cases present)⟩
    cases told
    have answers := cache.add_answers isDir ask.dentry (some inode)
    exact answers.turned placed looks inHand fun after answered =>
      ⟨after.live, after.mine, after.tells answered⟩

/-- A spelling to look up beneath the dentry that was asked about. -/
theorem spelled_turned (placed : cache.Placed) (name : ν) (inode : ι)
    (inHand : InHand cache thread call old ask.dentry) :
    Turned semaphores cache thread call old
      (cache, ⟨(cache.parentAndName ask.dentry).1, name, some (ask, inode), .alloc⟩) := by
  obtain ⟨upper, points⟩ := Option.ne_none_iff_exists'.mp inHand.hung
  have parent : (cache.parentAndName ask.dentry).1 = upper := by
    simp [Cache.parentAndName, points]
  obtain ⟨live, names⟩ := placed.shaped.above _ _ inHand.live points
  refine .same placed {
    live := by
      rw [parent]
      exact live
    names := by
      rw [parent]
      exact names
    parent := ?_
    spelled := ?_
    knows := trivial }
  · intro exclusive
    have stands := inHand.stands exclusive
    rw [points] at stands
    exact parent.trans (Option.some.inj stands)
  · intro spelled within
    have same : (ask, inode) = spelled := Option.some.inj within
    subst same
    exact ⟨inHand.live, inHand.mine⟩

/-- The dentry whose name `unalias` moves to, and the directory it read for it. -/
def Frame.splices (frame : Frame ν ι) : Act ν ι → Option (Nat × Nat)
  | .unalias _ =>
    match frame.phase with
    | .aliasing ask _ place => some (ask.dentry, place.1)
    | _ => none
  | _ => none

/-- That dentry stands where it stood when the place was read: in lookup it cannot leave. -/
def StillThere (cache : Cache τ ν ι) (spliced : Option (Nat × Nat)) : Prop :=
  ∀ moved ∈ spliced, cache.asked moved.1 = .answered → cache.parent moved.1 = some moved.2

instance [DecidableEq τ] (cache : Cache τ ν ι) (spliced : Option (Nat × Nat)) :
    Decidable (StillThere cache spliced) :=
  inferInstanceAs (Decidable (∀ moved ∈ spliced, _))

theorem compare_turned {waited : Nat} (placed : cache.Placed)
    (looks : Looks cache thread call old frame) (phase : frame.phase = .comparing waited) :
    Turned semaphores cache thread call old
      (cache, frame.at (if cache.hashed waited then .given waited else .alloc)) := by
  have knows := looks.knows
  rw [phase] at knows
  obtain ⟨live, hung, stands⟩ := knows
  split
  · rename_i hashed
    have settled := placed.hashes.settled waited live hashed
    exact .same placed (looks.at ⟨live, .inl settled.1, hung, stands⟩)
  · exact .same placed (looks.at trivial)

theorem stale_turned [DecidableEq ν] (placed : cache.Placed)
    (looks : Looks cache thread call old frame) (dentry : Nat) :
    Turned semaphores cache thread call old (cache.unhash dentry, frame.at .alloc) := by
  have unhashes := cache.unhash_unhashes dentry
  have aloof := fun walker used => cache.unhash_aloof semaphores dentry walker used
  exact {
    placed := Cache.unhash_placed placed dentry
    aloof := fun other used _ => aloof other used
    steady := fun used => (aloof thread used).toSteady
    looks := looks.step (fun used => (aloof thread used).toSteady)
      (fun _ _ => .inl (by rw [unhashes.asked])) trivial }

/-- `unalias` reads where its dentry stands. -/
theorem read_turned {ask : Ask} {other : Nat} (placed : cache.Placed)
    (looks : Looks cache thread call old frame) (phase : frame.phase = .aliased ask other) :
    Turned semaphores cache thread call old
      (cache, frame.at (.aliasing ask other (cache.parentAndName ask.dentry))) := by
  have knows := looks.knows
  rw [phase] at knows
  obtain ⟨inHand, stood⟩ := knows
  obtain ⟨upper, points⟩ := Option.ne_none_iff_exists'.mp inHand.hung
  have parent : (cache.parentAndName ask.dentry).1 = upper := by
    simp [Cache.parentAndName, points]
  obtain ⟨live, names⟩ := placed.shaped.above _ _ inHand.live points
  refine .same placed (looks.at ⟨inHand, stood, ?_, ?_, fun _ => ?_, fun exclusive => ?_⟩)
  · rw [parent]
    exact live
  · rw [parent]
    exact names
  · rw [parent]
    exact points
  · have stands := inHand.stands exclusive
    rw [points] at stands
    exact parent.trans (Option.some.inj stands)

theorem turn_turned [DecidableEq τ] [DecidableEq ν] [DecidableEq ι] (isDir : ι → Bool)
    {act : Act ν ι} (placed : cache.Placed) (looks : Looks cache thread call old frame)
    (still : StillThere cache (frame.splices act))
    (taken : turn isDir semaphores thread call.opens cache frame act = some told) :
    Turned semaphores cache thread call old told := by
  cases turns_of_turn taken with
  | alloc _ went => exact allocTurn_turned placed looks went
  | awake phase went => exact awake_turned placed looks phase went
  | failed | untrusted => exact .same placed (looks.failed _)
  | compare phase => exact compare_turned placed looks phase
  | stale => exact stale_turned placed looks _
  | begin phase went => exact beginLookup_turned placed looks phase went
  | absent phase =>
    exact (cache.rehash_answers _).turned placed looks (looks.asking phase)
      fun after answered => ⟨after.live, after.mine, after.tells answered⟩
  | found phase went =>
    exact (found_turned semaphores isDir _ placed looks (looks.asking phase)).1 _ went
  | aliased phase went =>
    exact (found_turned semaphores isDir _ placed looks (looks.asking phase)).2 _ _ went
  | spelled phase => exact spelled_turned placed _ _ (looks.asking phase)
  | @add ask inode phase =>
    have same : frame = frame.at (.asking ask) := by
      rw [← phase]
      rfl
    rw [same]
    exact (cache.add_answers isDir ask.dentry inode).turned placed looks (looks.asking phase)
      fun after _ => after
  | opened phase open_ =>
    have inHand := looks.asking phase
    refine .same placed (looks.at ⟨inHand.live, inHand.mine, fun dentry ok => ?_⟩)
    cases ok
    exact ⟨inHand.live, fun shut => by simp [open_] at shut, inHand.stands⟩
  | refused phase =>
    have inHand := looks.asking phase
    exact .same placed (looks.at ⟨inHand.live, inHand.mine, fun _ failed => by cases failed⟩)
  | read phase => exact read_turned placed looks phase
  | @unalias ask other place rounds _ phase went =>
    have spliced : frame.splices (.unalias rounds) = some (ask.dentry, place.1) := by
      simp [Frame.splices, phase]
    exact unalias_turned placed looks phase (still _ spliced) went
  | finish phase => exact finish_turned placed looks phase
  | @hand _ spelled phase within_ =>
    have knows := looks.knows
    rw [phase] at knows
    obtain ⟨live, mine⟩ := looks.spelled spelled within_
    exact .same placed {
      live := looks.live
      names := looks.names
      parent := looks.parent
      spelled := fun _ none_ => by cases none_
      knows := ⟨live, mine, knows⟩ }

end Turn

end Kobako.Dentries
