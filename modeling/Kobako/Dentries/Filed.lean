import Kobako.Dentries.Apart

/-!
# A turn of a lookup and the tables

Each step a lookup takes leaves what is hashed found, and what the other threads count on of the
tables alone; what the lookup needs to know of them for its next step it knows.
-/

namespace Kobako.Dentries

open Kobako.Dcache (LookupState Dentry Key)
open Kobako.Locking (Holders)
open Kobako.Vfs (FsError)

variable {τ ν ι : Type}

/-- What a dentry found at a move's source leaves at its name: itself, and what the lookup of the
target finds. -/
def KeepsOld (cache : Cache τ ν ι) (call : Call ν) (old : Option Nat) (frame : Frame ν ι) : Prop :=
  ∀ dentry ∈ old, call.opens = false ∧
    cache.Lone (fun other => other = dentry ∨ other ∈ frame.phase.result) (cache.key dentry)

/-- What a thread has in lookup it asks about, in the directory it looks a name up in. -/
def Owns (cache : Cache τ ν ι) (thread : τ) (call : Call ν) (old : Option Nat)
    (frame : Frame ν ι) : Prop :=
  ∀ dentry, cache.live dentry = true → (cache.asked dentry).heldFor = some thread →
    dentry ∈ frame.asks ∧ cache.parent dentry = some (call.dirAt old)

/-- What a lookup rests on before its step. -/
structure Poised (semaphores : Lock ι → Holders τ) (cache : Cache τ ν ι) (thread : τ)
    (call : Call ν) (old : Option Nat) (frame : Frame ν ι) : Prop where
  placed : cache.Placed
  found : cache.Found
  looks : Looks cache thread call old frame
  sighted : Sighted cache thread call old frame
  kept : ∀ dentry ∈ old, Kept cache call call.oldDir dentry
  keeps : KeepsOld cache call old frame
  owns : Owns cache thread call old frame
  free : ∀ other, other ≠ thread → ¬Writes semaphores cache other (call.dirAt old)
  elsewhere : ∀ other dentry, other ≠ thread → cache.live dentry = true →
    cache.parent dentry = some (call.dirAt old) →
    call.exclusive = true ∨ (cache.asked dentry).heldFor = some thread →
    Elsewhere semaphores cache other (cache.key dentry)

/-- What a step of a lookup leads to. -/
structure Filed (semaphores : Lock ι → Holders τ) (cache : Cache τ ν ι) (thread : τ)
    (call : Call ν) (old : Option Nat) (told : Cache τ ν ι × Frame ν ι) : Prop where
  found : told.1.Found
  shy : ∀ other, other ≠ thread → Shy semaphores cache told.1 other
  sighted : Sighted told.1 thread call old told.2
  keeps : KeepsOld told.1 call old told.2
  owns : Owns told.1 thread call old told.2

section Turn

variable {semaphores : Lock ι → Holders τ} {cache next : Cache τ ν ι} {thread : τ} {call : Call ν}
  {old : Option Nat} {frame : Frame ν ι} {phase : Phase ν} {told : Cache τ ν ι × Frame ν ι}
  {dentry : Nat}

/-! ## What stays as it is -/

/-- A frame whose phase alone changed. -/
theorem Sighted.at (sighted : Sighted cache thread call old frame)
    (unrecorded : phase.result = none → frame.phase.result = none)
    (sees : Sees cache thread call frame phase) :
    Sighted cache thread call old (frame.at phase) where
  parent := sighted.parent
  outer := sighted.outer
  free absent := sighted.free (unrecorded absent)
  sees := by
    cases phase with
    | _ => exact sees

/-- A frame over dentries changed by a step of its own thread that enters none. -/
theorem Sighted.step (sighted : Sighted cache thread call old frame)
    (looks : Looks cache thread call old frame) (steady : Steady semaphores cache next thread [])
    (enters : cache.Enters next (fun _ => False))
    (same : ∀ other, cache.live other = true → next.key other = cache.key other)
    (held : ∀ other, cache.live other = true → (next.asked other).heldFor = some thread →
      (cache.asked other).heldFor = some thread)
    (unrecorded : phase.result = none → frame.phase.result = none)
    (sees : Sees next thread call frame phase) :
    Sighted next thread call old (frame.at phase) where
  parent := sighted.parent
  outer spelled within ends :=
    steady.answered _ (looks.spelled spelled within).1 (sighted.outer spelled within ends)
  free absent spelled within asked := by
    have live := (looks.spelled spelled within).1
    rw [same _ live]
    exact (sighted.free (unrecorded absent) spelled within (held _ live asked)).carry enters
      fun _ none_ => none_.elim
  sees := by
    cases phase with
    | _ => exact sees

variable {after : Frame ν ι} {ask : Ask}

theorem KeepsOld.mono (keeps : KeepsOld cache call old frame)
    (results : ∀ other ∈ frame.phase.result, other ∈ after.phase.result) :
    KeepsOld cache call old after := by
  intro dentry within
  obtain ⟨shut, lone⟩ := keeps dentry within
  exact ⟨shut, lone.mono fun other => Or.imp id (results other)⟩

/-- A step that enters nothing leaves what was found at a move's source as it was. -/
theorem KeepsOld.step (keeps : KeepsOld cache call old frame)
    (kept : ∀ dentry ∈ old, Kept cache call call.oldDir dentry)
    (enters : cache.Enters next (fun _ => False))
    (same : ∀ other, cache.live other = true → next.key other = cache.key other)
    (results : ∀ other ∈ frame.phase.result, other ∈ after.phase.result) :
    KeepsOld next call old after := by
  intro dentry within
  obtain ⟨shut, lone⟩ := keeps.mono results dentry within
  rw [same dentry (kept dentry within).live]
  exact ⟨shut, lone.carry enters fun _ none_ => none_.elim⟩

/-- A step that changes no dentry. -/
theorem Filed.same (poised : Poised semaphores cache thread call old frame)
    (sighted : Sighted cache thread call old after)
    (results : ∀ other ∈ frame.phase.result, other ∈ after.phase.result)
    (asks : ∀ other, cache.live other = true → (cache.asked other).heldFor = some thread →
      other ∈ frame.asks → other ∈ after.asks) :
    Filed semaphores cache thread call old (cache, after) where
  found := poised.found
  shy other _ := Shy.refl semaphores cache other
  sighted := sighted
  keeps := poised.keeps.mono results
  owns dentry live held := by
    obtain ⟨within, parent⟩ := poised.owns dentry live held
    exact ⟨asks dentry live held within, parent⟩

/-- A lookup that goes on with no answer yet and asks about no less. -/
theorem Filed.onto (poised : Poised semaphores cache thread call old frame)
    (unrecorded : frame.phase.result = none) (sees : Sees cache thread call frame phase)
    (asks : ∀ other, cache.live other = true → (cache.asked other).heldFor = some thread →
      other ∈ frame.phase.asks → other ∈ phase.asks ∨ frame.Outer other) :
    Filed semaphores cache thread call old (cache, frame.at phase) := by
  refine .same poised (poised.sighted.at (fun _ => unrecorded) sees)
    (by simp [unrecorded]) fun other live held within => ?_
  obtain own | outer := List.mem_append.mp within
  · obtain still | ⟨spelled, called, same⟩ := asks other live held own
    · exact List.mem_append_left _ still
    · refine List.mem_append_right _ ?_
      have some_ : frame.spelled = some spelled := called
      simp [Frame.at, some_, same]
  · exact List.mem_append_right _ outer

/-! ## `alloc_parallel` -/

/-- Nothing is known to be free, and nothing else is at the name, where a dentry is answered for. -/
theorem Vacant.answered (answered : cache.asked dentry = .answered)
    (only : call.exclusive = true → cache.Lone (· = dentry) (cache.key dentry)) :
    Vacant cache thread call dentry where
  free held := by simp [answered, LookupState.heldFor] at held
  only := only

/-- So it is for a dentry that is hashed. -/
theorem Vacant.hashed (placed : cache.Placed) (found : cache.Found)
    (live : cache.live dentry = true) (hashed : cache.hashed dentry = true) :
    Sees cache thread call frame (.given dentry) := by
  have answered := (placed.hashes.settled dentry live hashed).1
  refine ⟨.answered answered fun _ => found.lone live hashed, fun asking => ?_⟩
  simp [answered] at asking

theorem allocTurn_filed [DecidableEq ν] (poised : Poised semaphores cache thread call old frame)
    {address : Nat} (at_ : frame.phase = .alloc)
    (taken : allocTurn thread cache frame address = some told) :
    Filed semaphores cache thread call old told := by
  have unrecorded : frame.phase.result = none := by rw [at_]; rfl
  have nothing : frame.phase.asks = [] := by rw [at_]; rfl
  have placed := poised.placed
  unfold allocTurn at taken
  split at taken
  · rename_i found stands
    cases taken
    obtain ⟨stood, live⟩ := Cache.upgrade_eq_some.mp stands
    obtain ⟨hashed, _⟩ := placed.hashes.own _ _ stood live
    exact .onto poised unrecorded (Vacant.hashed placed poised.found live hashed)
      (by simp [nothing])
  · rename_i absent
    split at taken
    · cases taken
      exact .onto poised unrecorded trivial (by simp [nothing])
    · split at taken
      · cases taken
        have shaped := placed.shaped
        have enters := Cache.make_enters shaped thread frame.place address
        have keys : ∀ other, cache.live other = true →
            (cache.make thread frame.place address).key other = cache.key other :=
          fun other live => shaped.make_key live
        have asked : ∀ other, cache.live other = true →
            (cache.make thread frame.place address).asked other = cache.asked other := by
          intro other live
          rw [Cache.asked, (Cache.make_old (Nat.ne_of_lt (shaped.bound other live))).1, Cache.asked]
        have newKey : (cache.make thread frame.place address).key cache.made =
            cache.keyAt frame.place := by
          have apart := Nat.ne_of_lt (shaped.bound frame.parent poised.looks.live)
          simp [Cache.key, Cache.parentAndName, Cache.parent, Cache.name, Cache.make_new.1,
            Cache.keyAt, (Cache.make_old apart).2.2, Frame.place]
        have vacant : (cache.make thread frame.place address).Lone (fun _ => False)
            ((cache.make thread frame.place address).key cache.made) := by
          rw [newKey]
          exact (poised.found.vacant absent).carry enters fun _ none_ => none_.elim
        have steady := (Cache.make_aloof semaphores shaped thread frame.place address thread
          []).toSteady
        refine {
          found := Cache.make_found shaped poised.found thread frame.place address
          shy := fun other others =>
            Cache.make_shy semaphores shaped others.symm frame.place address
          sighted := poised.sighted.step poised.looks steady enters keys
            (fun other live held => asked other live ▸ held) (fun _ => unrecorded)
            ⟨⟨fun _ => vacant, fun _ => vacant.mono fun _ => False.elim⟩, fun asking => ?_⟩
          keeps := poised.keeps.step poised.kept enters keys (by simp [unrecorded])
          owns := fun other live held => ?_ }
        · simp [Cache.asked, Cache.make_new.1] at asking
        · obtain made | ⟨_, before⟩ := Cache.make_live live
          · subst made
            refine ⟨by simp [Frame.asks, Frame.at, Phase.asks], ?_⟩
            rw [Cache.parent, Cache.make_new.1]
            exact congrArg some poised.sighted.parent
          · rw [asked other before] at held
            obtain ⟨within, points⟩ := poised.owns other before held
            have apart := Nat.ne_of_lt (shaped.bound other before)
            refine ⟨?_, by rw [Cache.parent, (Cache.make_old apart).1]; exact points⟩
            rw [Frame.asks, nothing] at within
            exact List.mem_append_right _ within
      · cases taken

theorem awake_filed [DecidableEq τ] [DecidableEq ν]
    (poised : Poised semaphores cache thread call old frame) {waited : Nat}
    (at_ : frame.phase = .waiting waited) (taken : awake thread cache frame waited = some told) :
    Filed semaphores cache thread call old told := by
  have unrecorded : frame.phase.result = none := by rw [at_]; rfl
  have nothing : frame.phase.asks = [] := by rw [at_]; rfl
  have live : cache.live waited = true := by
    have knows := poised.looks.knows
    rw [at_] at knows
    exact knows.1
  unfold awake at taken
  split at taken
  · rename_i walk held
    split at taken
    · rename_i own
      subst own
      cases taken
      -- Only the lookup this one was called from has begun an ask.
      have outer : frame.Outer waited := by
        have within := (poised.owns waited live held).1
        simpa [Frame.asks, nothing, Frame.Outer] using within
      have vacant : cache.Lone (fun _ => False) (cache.key waited) := by
        obtain ⟨spelled, called, same⟩ := outer
        rw [← same] at held ⊢
        exact poised.sighted.free unrecorded spelled called held
      exact .onto poised unrecorded
        ⟨⟨fun _ => vacant, fun _ => vacant.mono fun _ => False.elim⟩, fun _ => outer⟩
        (by simp [nothing])
    · cases taken
  · cases taken
    split
    · exact .onto poised unrecorded trivial (by simp [nothing])
    · exact .onto poised unrecorded trivial (by simp [nothing])

/-! ## `begin_lookup` -/

/-- A lookup's own turn of a dentry it has in lookup. -/
theorem Cache.Turns.filed {state : LookupState τ} (turns : cache.Turns dentry state next)
    (poised : Poised semaphores cache thread call old frame)
    (within : (cache.asked dentry).inLookup = true)
    (others : ∀ other, other ≠ thread → state.heldFor ≠ some other)
    (held : state.heldFor = some thread → (cache.asked dentry).heldFor = some thread)
    (same : phase.result = frame.phase.result) (sees : Sees next thread call frame phase)
    (asks : ∀ other ∈ frame.phase.asks, other ∈ phase.asks ∨ frame.Outer other ∨
      (other = dentry ∧ state.heldFor = none)) :
    Filed semaphores cache thread call old (next, frame.at phase) := by
  have keys : ∀ other, cache.live other = true → next.key other = cache.key other :=
    fun other _ => by rw [turns.key]
  have before : ∀ other, (next.asked other).heldFor = some thread →
      (cache.asked other).heldFor = some thread := by
    intro other asked
    rw [turns.asked] at asked
    split at asked
    · rename_i here
      exact here ▸ held asked
    · exact asked
  refine {
    found := turns.found poised.found
    shy := fun other apart => turns.shy semaphores (others other apart)
    sighted := poised.sighted.step poised.looks (turns.steady within semaphores thread [])
      turns.enters keys (fun other _ => before other) (fun absent => same ▸ absent) sees
    keeps := poised.keeps.step poised.kept turns.enters keys fun other result => same ▸ result
    owns := fun other live asked => ?_ }
  rw [turns.live] at live
  obtain ⟨mine, points⟩ := poised.owns other live (before other asked)
  refine ⟨?_, by rw [turns.parent]; exact points⟩
  obtain own | outer := List.mem_append.mp mine
  · obtain still | ⟨spelled, called, here⟩ | ⟨here, ended⟩ := asks other own
    · exact List.mem_append_left _ still
    · refine List.mem_append_right _ ?_
      have some_ : frame.spelled = some spelled := called
      simp [Frame.at, some_, here]
    · rw [turns.asked, if_pos here, ended] at asked
      cases asked
  · exact List.mem_append_right _ outer

theorem beginLookup_filed [DecidableEq τ] (poised : Poised semaphores cache thread call old frame)
    (at_ : frame.phase = .given dentry)
    (taken : beginLookup thread call.opens cache frame dentry = some told) :
    Filed semaphores cache thread call old told := by
  have unrecorded : frame.phase.result = none := by rw [at_]; rfl
  have asks : frame.phase.asks = [dentry] := by rw [at_]; rfl
  have sees := poised.sighted.sees
  have inHand := poised.looks.knows
  rw [at_] at sees inHand
  obtain ⟨vacant, outer⟩ := sees
  have inHand : InHand cache thread call old dentry := inHand
  have still : ∀ ask : Ask, ask.dentry = dentry → ∀ other, cache.live other = true →
      (cache.asked other).heldFor = some thread → other ∈ frame.phase.asks →
      other ∈ (Phase.asking ask : Phase ν).asks ∨ frame.Outer other := by
    intro ask same other _ _ within
    rw [asks] at within
    exact .inl (by simpa [Phase.asks, same] using within)
  unfold beginLookup at taken
  split at taken
  · rename_i walk asking
    split at taken
    · rename_i own
      subst own
      cases taken
      exact .onto poised unrecorded ⟨vacant, fun _ => .inr (outer asking)⟩ (still _ rfl)
    · cases taken
  · rename_i walk allocated
    split at taken
    · rename_i own
      subst own
      cases taken
      have held : (cache.asked dentry).heldFor = some walk := by rw [allocated]; rfl
      have turns := cache.beginAsk_turns dentry walk
      refine turns.filed poised (heldFor_inLookup held)
        (fun other apart same => apart (Option.some.inj same).symm) (fun _ => held)
        (by rw [unrecorded]; rfl) ⟨⟨fun _ => ?_, fun exclusive => ?_⟩, fun ended => ?_⟩
        fun other within => ?_
      · rw [turns.key]
        exact (vacant.free held).carry turns.enters fun _ none_ => none_.elim
      · rw [turns.key]
        exact (vacant.only exclusive).carry turns.enters fun _ none_ => none_.elim
      · cases ended
      · rw [asks] at within
        exact .inl within
    · cases taken
  · rename_i unasked
    obtain answered | held := inHand.asked
    · simp [unasked] at answered
    · simp [unasked, LookupState.heldFor] at held
  · rename_i answered
    split at taken
    · cases taken
      exact .onto poised unrecorded ⟨vacant, fun _ => .inl answered⟩ (still _ rfl)
    · cases taken
      refine .onto poised unrecorded (fun exclusive other ok => ?_) fun other _ held within => ?_
      · have same : dentry = other := Except.ok.inj ok
        exact same ▸ vacant.only exclusive
      · rw [asks, List.mem_singleton] at within
        rw [within, answered] at held
        simp [LookupState.heldFor] at held

/-! ## Answers -/

/-- An answer may be recorded on a dentry in lookup, on one that is hashed, and on one in a
directory held exclusive. -/
def Cache.mayRecord [DecidableEq τ] (cache : Cache τ ν ι) (call : Call ν) (dentry : Nat) : Bool :=
  decide (cache.asked dentry ≠ .answered) || cache.hashed dentry || call.exclusive

/-- What an answer may be recorded on is hashed, or stands where nobody else counts on its name. -/
theorem Poised.recorded [DecidableEq τ] (poised : Poised semaphores cache thread call old frame)
    (inHand : InHand cache thread call old dentry) (vacant : Vacant cache thread call dentry)
    (may : cache.mayRecord call dentry = true) :
    cache.hashed dentry = true ∨ (cache.Lone (· = dentry) (cache.key dentry) ∧
      ∀ other, other ≠ thread → Elsewhere semaphores cache other (cache.key dentry)) := by
  have counted : call.exclusive = true ∨ (cache.asked dentry).heldFor = some thread ∨
      cache.hashed dentry = true := by
    obtain answered | held := inHand.asked
    · simp only [Cache.mayRecord, answered, ne_eq, not_true_eq_false, decide_false,
        Bool.false_or, Bool.or_eq_true] at may
      exact may.symm.imp id .inr
    · exact .inr (.inl held)
  obtain exclusive | held | hashed := counted
  · exact .inr ⟨vacant.only exclusive, fun other others =>
      poised.elsewhere other dentry others inHand.live (inHand.stands exclusive) (.inl exclusive)⟩
  · exact .inr ⟨(vacant.free held).mono fun _ => False.elim, fun other others =>
      poised.elsewhere other dentry others inHand.live (poised.owns dentry inHand.live held).2
        (.inr held)⟩
  · exact .inl hashed

/-- An answer recorded on the dentry a lookup asks about. -/
theorem Cache.Answers.filed [DecidableEq τ] [DecidableEq ν]
    (answers : cache.Answers ask.dentry next)
    (poised : Poised semaphores cache thread call old frame) (at_ : frame.phase = .asking ask)
    (may : cache.mayRecord call ask.dentry = true)
    (results : ∀ moved ∈ old, call.opens = false → ask.dentry ∈ phase.result)
    (asks : phase.asks = [ask.dentry]) (free : phase.result = none → frame.spelled = none)
    (sees : (call.exclusive = true → next.Lone (· = ask.dentry) (next.key ask.dentry)) →
      next.asked ask.dentry = .answered → Sees next thread call frame phase) :
    Filed semaphores cache thread call old (next, frame.at phase) := by
  have unrecorded : frame.phase.result = none := by rw [at_]; rfl
  have seen := poised.sighted.sees
  rw [at_] at seen
  have inHand := poised.looks.asking at_
  have recorded := poised.recorded inHand seen.1 may
  have answered : next.asked ask.dentry = .answered := by simp [answers.asked]
  have steady := answers.steady semaphores thread []
  refine {
    found := answers.found poised.found (recorded.imp id fun alone => alone.1)
    shy := fun other others => answers.shy (recorded.imp id fun alone => alone.2 other others)
    sighted := {
      parent := poised.sighted.parent
      outer := fun spelled within ends => steady.answered _
        (poised.looks.spelled spelled within).1 (poised.sighted.outer spelled within ends)
      free := ?_
      sees := ?_ }
    keeps := ?_
    owns := fun other live held => ?_ }
  · intro absent spelled within
    have called : frame.spelled = some spelled := within
    rw [free absent] at called
    cases called
  · have sees := sees (fun exclusive => ?_) answered
    · cases phase with
      | _ => exact sees
    · rw [answers.key]
      exact (seen.1.only exclusive).carry answers.enters fun _ same _ => same
  · intro moved within
    have keeps : KeepsOld cache call old (frame.at phase) :=
      poised.keeps.mono (by simp [unrecorded])
    obtain ⟨shut, lone⟩ := keeps moved within
    refine ⟨shut, ?_⟩
    rw [answers.key]
    exact lone.carry answers.enters fun _ same _ => .inr (same ▸ results moved within shut)
  · rw [answers.live] at live
    rw [answers.asked] at held
    split at held
    · cases held
    · obtain ⟨mine, points⟩ := poised.owns other live held
      refine ⟨?_, by rw [answers.parent]; exact points⟩
      have within : other ∈ frame.asks := mine
      rw [Frame.asks, at_] at within
      rw [Frame.asks, Frame.at, asks]
      exact within

/-- Nothing else is at the name of the dentry an answer names. -/
theorem Sole.ok (only : call.exclusive = true → cache.Lone (· = dentry) (cache.key dentry)) :
    Sole cache call (.ok dentry) := by
  intro exclusive other ok
  have same : dentry = other := Except.ok.inj ok
  exact same ▸ only exclusive

/-- Nor is it said of an error. -/
theorem Sole.error (cache : Cache τ ν ι) (call : Call ν) (e : FsError) :
    Sole cache call (.error e) := by
  intro _ other failed
  cases failed

/-- An answer recorded that the lookup then ends with. -/
theorem Cache.Answers.ended [DecidableEq τ] [DecidableEq ν]
    (answers : cache.Answers ask.dentry next)
    (poised : Poised semaphores cache thread call old frame) (at_ : frame.phase = .asking ask)
    (may : cache.mayRecord call ask.dentry = true) :
    Filed semaphores cache thread call old (next, frame.at (.ending ask (.ok ask.dentry))) := by
  refine answers.filed poised at_ may (fun _ _ _ => rfl) rfl (fun absent => ?_)
    fun only answered => ⟨fun _ => .inl answered, Sole.ok only⟩
  cases absent

/-- A spelling to look up in the directory the call holds. -/
theorem spelled_filed (poised : Poised semaphores cache thread call old frame)
    (at_ : frame.phase = .asking ask) (plain : frame.spelled = none)
    (stands : cache.asked ask.dentry = .answered → cache.parent ask.dentry = some (call.dirAt old))
    (name : ν) (inode : ι) :
    Filed semaphores cache thread call old
      (cache, ⟨(cache.parentAndName ask.dentry).1, name, some (ask, inode), .alloc⟩) := by
  have seen := poised.sighted.sees
  rw [at_] at seen
  have inHand := poised.looks.asking at_
  have parent : cache.parent ask.dentry = some (call.dirAt old) :=
    inHand.asked.elim stands fun held => (poised.owns ask.dentry inHand.live held).2
  have unrecorded : frame.phase.result = none := by rw [at_]; rfl
  refine .same poised {
      parent := by simp [Cache.parentAndName, parent]
      outer := fun spelled within ends => ?_
      free := fun _ spelled within held => ?_
      sees := trivial } (by simp [unrecorded]) fun other _ _ within => ?_
  · have same : (ask, inode) = spelled := Option.some.inj within
    subst same
    obtain answered | ⟨spelled, called, _⟩ := seen.2 ends
    · exact answered
    · have called : frame.spelled = some spelled := called
      rw [plain] at called
      cases called
  · have same : (ask, inode) = spelled := Option.some.inj within
    subst same
    exact seen.1.free held
  · simpa [Frame.asks, at_, plain, Phase.asks] using within

/-- A lookup goes on about the dentry it asks about. -/
theorem Filed.sameAsk (poised : Poised semaphores cache thread call old frame)
    (unrecorded : frame.phase.result = none) (same : phase.asks = frame.phase.asks)
    (sees : Sees cache thread call frame phase) :
    Filed semaphores cache thread call old (cache, frame.at phase) :=
  .onto poised unrecorded sees fun _ _ _ within => .inl (same ▸ within)

/-! ## `unalias` -/

/-- Where a dentry given by `alloc_parallel` stands, while the lookup counts on its name. -/
theorem Poised.stands (poised : Poised semaphores cache thread call old frame)
    (inHand : InHand cache thread call old dentry)
    (counts : call.exclusive = true ∨ (cache.asked dentry).heldFor = some thread) :
    cache.parent dentry = some (call.dirAt old) :=
  counts.elim inHand.stands fun held => (poised.owns dentry inHand.live held).2

theorem unalias_filed [DecidableEq ν] (poised : Poised semaphores cache thread call old frame)
    {other rounds : Nat} {place : Nat × ν} (at_ : frame.phase = .aliasing ask other place)
    (may : cache.asked ask.dentry = .answered →
      call.exclusive = true ∧ cache.hashed ask.dentry = false)
    {out : Cache τ ν ι × Except FsError Nat}
    (taken : unalias semaphores thread cache rounds ask.dentry other place = some out) :
    Filed semaphores cache thread call old (out.1, frame.at (.ending ask out.2)) := by
  have unrecorded : frame.phase.result = none := by rw [at_]; rfl
  have asks : frame.phase.asks = [ask.dentry] := by rw [at_]; rfl
  have seen := poised.sighted.sees
  have knows := poised.looks.knows
  rw [at_] at seen knows
  obtain ⟨vacant, ends, read⟩ := seen
  obtain ⟨inHand, ⟨live, named⟩, _⟩ := knows
  have refused : ∀ e, Filed semaphores cache thread call old
      (cache, frame.at (.ending ask (.error e))) := fun e =>
    .sameAsk poised unrecorded asks.symm ⟨ends, Sole.error cache call e⟩
  unfold unalias at taken
  split at taken
  · cases taken
  · split at taken
    · cases taken
      exact refused _
    · rename_i free
      rw [not_or] at free
      split at taken
      · rename_i unheld
        cases taken
        have counts : call.exclusive = true ∨ (cache.asked ask.dentry).heldFor = some thread :=
          inHand.asked.imp (fun answered => (may answered).1) id
        have stands := poised.stands inHand counts
        have same : cache.parentAndName ask.dentry = place := read counts.symm
        have keyed : cache.keyAt place = cache.key ask.dentry := by rw [← same, Cache.key]
        -- Nothing is hashed where the dentry is moved.
        have vacated : cache.Lone (fun _ => False) (cache.key ask.dentry) := by
          obtain answered | held := inHand.asked
          · obtain ⟨exclusive, unhashed⟩ := may answered
            intro lower lives hashed here
            rw [vacant.only exclusive lower lives hashed here, unhashed] at hashed
            cases hashed
          · exact vacant.free held
        have answered : cache.asked other = .answered :=
          (poised.placed.sought.named other live named).resolve_right free.2
        have loose : ∀ walker, walker ≠ thread → ¬Guarded semaphores cache walker other := by
          intro walker others guarded
          obtain held | ⟨upper, points, writes⟩ := guarded
          · simp [answered, LookupState.heldFor] at held
          · obtain here | granted := unheld
            · have dir : upper = call.dirAt old := by
                have first : (cache.parentAndName ask.dentry).1 = call.dirAt old := by
                  simp [Cache.parentAndName, stands]
                rw [same] at first
                exact (Option.some.inj (points.symm.trans here)).trans first
              exact poised.free walker others (dir ▸ writes)
            · obtain ⟨above, pointsAbove, unwritten, _⟩ := trylocks_free granted walker
              have dir : upper = above := Option.some.inj (points.symm.trans pointsAbove)
              exact unwritten (dir ▸ writes)
        have rehangs := cache.moveTo_rehangs other place
        have entered := cache.moveTo_enters other place
        have moved : (cache.moveTo other place).Lone (· = other) (cache.keyAt place) := by
          rw [keyed]
          exact (vacated.mono fun _ => False.elim).carry entered fun _ here _ => here
        refine {
          found := Cache.moveTo_found poised.found live
            (keyed ▸ vacated.mono fun _ => False.elim)
          shy := fun walker others => cache.moveTo_shy semaphores (loose walker others) ?_
          sighted := {
            parent := poised.sighted.parent
            outer := fun spelled within ended =>
              rehangs.asked ▸ poised.sighted.outer spelled within ended
            free := fun absent => by cases absent
            sees := ⟨fun ended => rehangs.asked ▸ ends ended, Sole.ok fun _ => ?_⟩ }
          keeps := fun dentry within => ?_
          owns := fun dentry lives held => ?_ }
        · rw [keyed]
          exact poised.elsewhere walker ask.dentry others inHand.live stands counts
        · rw [Cache.moveTo_key_moved]
          exact moved
        · have keeps : KeepsOld cache call old (frame.at (.ending ask (.ok other))) :=
            poised.keeps.mono (by simp [unrecorded])
          obtain ⟨shut, lone⟩ := keeps dentry within
          refine ⟨shut, ?_⟩
          by_cases here : dentry = other
          · rw [here, Cache.moveTo_key_moved]
            exact moved.mono fun _ => .inl
          · rw [Cache.moveTo_key_other here]
            exact lone.carry entered fun _ alias_ _ => .inr (alias_ ▸ rfl)
        · have before : (cache.asked dentry).heldFor = some thread := rehangs.asked ▸ held
          obtain ⟨mine, points⟩ := poised.owns dentry lives before
          have apart : dentry ≠ other := by
            intro here
            simp [here, answered, LookupState.heldFor] at before
          refine ⟨?_, by rw [Cache.parent, Cache.moveTo_other apart]; exact points⟩
          rw [Frame.asks, asks] at mine
          exact mine
      · cases taken
        exact refused _

/-! ## The end of an ask -/

theorem finish_filed [DecidableEq ν] (poised : Poised semaphores cache thread call old frame)
    {answer : Except FsError Nat} (at_ : frame.phase = .ending ask answer) :
    Filed semaphores cache thread call old
      (if ask.ends then cache.lookupDone ask.dentry else cache, frame.at (.done answer)) := by
  have asks : frame.phase.asks = [ask.dentry] := by rw [at_]; rfl
  have result : frame.phase.result = (Phase.done answer : Phase ν).result := by rw [at_]; rfl
  have seen := poised.sighted.sees
  rw [at_] at seen
  obtain ⟨ends, sole⟩ := seen
  by_cases ending : ask.ends = true ∧ (cache.asked ask.dentry).inLookup = true
  · rw [if_pos ending.1]
    have turns := Cache.lookupDone_turns ending.2
    refine turns.filed poised ending.2 (fun _ _ held => (by cases held)) (fun held => by cases held)
      result.symm (fun exclusive dentry ok => ?_) fun other within => ?_
    · rw [turns.key]
      exact (sole exclusive dentry ok).carry turns.enters fun _ none_ => none_.elim
    · rw [asks, List.mem_singleton] at within
      exact .inr (.inr ⟨within, rfl⟩)
  · have same : (if ask.ends then cache.lookupDone ask.dentry else cache) = cache := by
      split
      · rename_i ended
        exact if_neg fun within => ending ⟨ended, within⟩
      · rfl
    rw [same]
    refine .same poised (poised.sighted.at (fun absent => result.trans absent) sole)
      (fun other within => result ▸ within) fun other live held within => ?_
    -- What is still in lookup is asked about by the lookup this one was called from.
    obtain own | outer := List.mem_append.mp within
    · rw [asks, List.mem_singleton] at own
      subst own
      have open_ : ask.ends = false := by
        cases ended : ask.ends with
        | false => rfl
        | true => exact absurd ⟨ended, heldFor_inLookup held⟩ ending
      obtain answered | ⟨spelled, called, here⟩ := ends open_
      · simp [answered, LookupState.heldFor] at held
      · have called : frame.spelled = some spelled := called
        simp [Frame.asks, Frame.at, called, here]
    · exact List.mem_append_right _ outer

/-- `add_ci` hands its answer to the ask it was called from. -/
theorem hand_filed (poised : Poised semaphores cache thread call old frame)
    {answer : Except FsError Nat} (at_ : frame.phase = .done answer) {spelled : Ask × ι}
    (within : frame.spelled = some spelled) :
    Filed semaphores cache thread call old
      (cache, { frame with spelled := none, phase := .ending spelled.1 answer }) := by
  have seen := poised.sighted.sees
  rw [at_] at seen
  have sole : Sole cache call answer := seen
  refine .same poised {
      parent := poised.sighted.parent
      outer := fun _ none_ => by cases none_
      free := fun _ _ none_ => by cases none_
      sees := ⟨fun ends => .inl (poised.sighted.outer spelled within ends), sole⟩ } ?_ ?_
  · intro other result
    rw [at_] at result
    exact result
  · intro other _ _ asks
    simpa [Frame.asks, at_, within, Phase.asks] using asks

/-! ## What is answered for -/

/-- A dentry that is answered for is in lookup for nobody. -/
theorem not_heldFor_of_answered (answered : cache.asked dentry = .answered) (walker : τ) :
    (cache.asked dentry).heldFor ≠ some walker := by
  simp [answered, LookupState.heldFor]

/-- A stale dentry goes from its name, and `alloc_parallel` looks again. -/
theorem stale_filed [DecidableEq ν] (poised : Poised semaphores cache thread call old frame)
    (at_ : frame.phase = .given dentry) (answered : cache.asked dentry = .answered) :
    Filed semaphores cache thread call old (cache.unhash dentry, frame.at .alloc) := by
  have unrecorded : frame.phase.result = none := by rw [at_]; rfl
  have unhashes := cache.unhash_unhashes dentry
  have enters := cache.unhash_enters dentry
  have keys : ∀ other, cache.live other = true →
      (cache.unhash dentry).key other = cache.key other := fun other _ => by rw [unhashes.key]
  have live : cache.live dentry = true := by
    have knows := poised.looks.knows
    rw [at_] at knows
    exact InHand.live knows
  have steady := (cache.unhash_aloof semaphores dentry thread []).toSteady
  refine {
    found := Cache.unhash_found poised.found dentry live
    shy := fun other _ => cache.unhash_shy semaphores dentry other
    sighted := poised.sighted.step poised.looks steady enters keys
      (fun _ _ held => unhashes.asked ▸ held) (fun _ => unrecorded) trivial
    keeps := poised.keeps.step poised.kept enters keys (by simp [unrecorded])
    owns := fun other lives held => ?_ }
  have before : (cache.asked other).heldFor = some thread := unhashes.asked ▸ held
  obtain ⟨mine, points⟩ := poised.owns other (unhashes.live ▸ lives) before
  refine ⟨?_, by rw [unhashes.parent]; exact points⟩
  rw [Frame.asks, at_] at mine
  obtain own | outer := List.mem_append.mp mine
  · have same : other = dentry := List.mem_singleton.mp own
    exact absurd (same ▸ before) (not_heldFor_of_answered answered thread)
  · exact outer

/-- The splice of an inode found: recorded, or left to the dentry that already stands for it. -/
theorem found_filed [DecidableEq τ] [DecidableEq ν] [DecidableEq ι] (isDir : ι → Bool) (inode : ι)
    (poised : Poised semaphores cache thread call old frame) (at_ : frame.phase = .asking ask)
    (may : cache.findAlias inode ask.dentry = none → cache.mayRecord call ask.dentry = true) :
    (∀ added, cache.findAliasOrAdd isDir inode ask.dentry = (added, none) →
      Filed semaphores cache thread call old
        (added, frame.at (.ending ask (.ok ask.dentry)))) ∧
      (∀ same other, cache.findAliasOrAdd isDir inode ask.dentry = (same, some other) →
        Filed semaphores cache thread call old (same, frame.at (.aliased ask other))) := by
  have sees := poised.sighted.sees
  rw [at_] at sees
  unfold Cache.findAliasOrAdd
  split
  · rename_i found stands
    refine ⟨fun added absent => (by cases absent), fun same other told => ?_⟩
    cases told
    exact .sameAsk poised (by rw [at_]; rfl) (by rw [at_]; rfl) sees
  · rename_i absent
    refine ⟨fun added told => ?_, fun same other present => (by cases present)⟩
    cases told
    exact (cache.add_answers isDir ask.dentry (some inode)).ended poised at_ (may absent)

/-! ## Every turn -/

/-- A turn enters a dentry only where the lookup counts on its name, and looks a spelling up only
in the directory its call holds: what it asks about is in lookup, or it is hashed already, or the
directory is held exclusive, with nothing hashed at the name a directory is moved to. -/
def Frame.mayEnter [DecidableEq τ] (cache : Cache τ ν ι) (call : Call ν) (old : Option Nat)
    (frame : Frame ν ι) (act : Act ν ι) : Bool :=
  match frame.phase, act with
  | .asking ask, .absent | .asking ask, .add _ => cache.mayRecord call ask.dentry
  | .asking ask, .found inode =>
    (cache.findAlias inode ask.dentry).isSome || cache.mayRecord call ask.dentry
  | .asking ask, .spelled _ _ =>
    decide (cache.asked ask.dentry ≠ .answered) ||
      decide (cache.parent ask.dentry = some (call.dirAt old))
  | .aliasing ask _ _, .unalias _ =>
    decide (cache.asked ask.dentry ≠ .answered) ||
      (call.exclusive && !cache.hashed ask.dentry)
  | _, _ => true

theorem turn_filed [DecidableEq τ] [DecidableEq ν] [DecidableEq ι] (isDir : ι → Bool)
    {act : Act ν ι} (poised : Poised semaphores cache thread call old frame)
    (may : frame.mayEnter cache call old act = true)
    (taken : turn isDir semaphores thread call.opens cache frame act = some told) :
    Filed semaphores cache thread call old told := by
  cases turns_of_turn taken with
  | alloc at_ went => exact allocTurn_filed poised at_ went
  | awake at_ went => exact awake_filed poised at_ went
  | failed at_ =>
    obtain at_ | ⟨waited, at_⟩ := at_
    all_goals
      exact .sameAsk poised (by rw [at_]; rfl) (by rw [at_]; rfl) (Sole.error cache call _)
  | @compare waited at_ =>
    have nothing : frame.phase.asks = [] := by rw [at_]; rfl
    have knows := poised.looks.knows
    rw [at_] at knows
    split
    · rename_i hashed
      exact .onto poised (by rw [at_]; rfl)
        (Vacant.hashed poised.placed poised.found knows.1 hashed) (by simp [nothing])
    · exact .onto poised (by rw [at_]; rfl) trivial (by simp [nothing])
  | stale at_ answered => exact stale_filed poised at_ answered
  | @untrusted dentry e at_ answered =>
    refine .onto poised (by rw [at_]; rfl) (Sole.error cache call e) fun other _ held within => ?_
    rw [at_] at within
    have same : other = dentry := List.mem_singleton.mp within
    exact absurd (same ▸ held) (not_heldFor_of_answered answered thread)
  | begin at_ went => exact beginLookup_filed poised at_ went
  | absent at_ =>
    simp only [Frame.mayEnter, at_] at may
    exact (cache.rehash_answers _).ended poised at_ may
  | @found _ inode _ at_ went =>
    simp only [Frame.mayEnter, at_, Bool.or_eq_true] at may
    exact (found_filed isDir inode poised at_ fun absent => by simpa [absent] using may).1 _ went
  | @aliased _ inode _ _ at_ went =>
    simp only [Frame.mayEnter, at_, Bool.or_eq_true] at may
    exact (found_filed isDir inode poised at_ fun absent => by simpa [absent] using may).2 _ _ went
  | spelled at_ plain =>
    simp only [Frame.mayEnter, at_, Bool.or_eq_true, decide_eq_true_eq] at may
    exact spelled_filed poised at_ plain (fun answered => may.resolve_left (by simp [answered])) _ _
  | @add ask inode at_ open_ plain =>
    simp only [Frame.mayEnter, at_] at may
    have same : frame = frame.at (.asking ask) := by
      rw [← at_]
      rfl
    rw [same]
    refine (cache.add_answers isDir ask.dentry inode).filed poised at_ may
      (fun _ _ shut => ?_) rfl (fun _ => plain)
      fun only answered => ⟨.answered answered only, fun _ => .inl answered⟩
    simp [open_] at shut
  | opened at_ =>
    have sees := poised.sighted.sees
    rw [at_] at sees
    exact .sameAsk poised (by rw [at_]; rfl) (by rw [at_]; rfl) ⟨sees.2, Sole.ok sees.1.only⟩
  | refused at_ =>
    have sees := poised.sighted.sees
    rw [at_] at sees
    exact .sameAsk poised (by rw [at_]; rfl) (by rw [at_]; rfl) ⟨sees.2, Sole.error cache call _⟩
  | read at_ =>
    have sees := poised.sighted.sees
    rw [at_] at sees
    exact .sameAsk poised (by rw [at_]; rfl) (by rw [at_]; rfl) ⟨sees.1, sees.2, fun _ => rfl⟩
  | unalias at_ went =>
    simp only [Frame.mayEnter, at_, Bool.or_eq_true, decide_eq_true_eq, Bool.and_eq_true,
      Bool.not_eq_true'] at may
    exact unalias_filed poised at_ (fun answered => may.resolve_left (by simp [answered])) went
  | finish at_ => exact finish_filed poised at_
  | hand at_ within_ => exact hand_filed poised at_ within_

end Turn

end Kobako.Dentries
