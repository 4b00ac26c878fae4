import Kobako.Dentries.Filed

/-!
# The tables tell what the dentries say

Lookups, changes and moves of every thread, one step after another: what is hashed is found at its
name and nothing else is, and what is in lookup is found in `in_lookup_hashtable`.
-/

namespace Kobako.Dentries

open Kobako.Dcache (LookupState Dentry Key)
open Kobako.Locking (Holders)
open Kobako.Overlay (RenameFlag)
open Kobako.Vfs (FsError)

variable {τ ν ι : Type}

section Step

variable {state after : State τ ν ι} {thread : τ} {call : Call ν} {stage next : Stage ν ι}
  {cache : Cache τ ν ι}

/-- What a thread has in lookup, another leaves in its hands. -/
theorem Stage.Asks.carry {dentry : Nat} {other : Cache τ ν ι}
    (same : other.parent dentry = cache.parent dentry) (asks : stage.Asks cache call dentry) :
    stage.Asks other call dentry := by
  cases stage with
  | looking old frame => exact ⟨asks.1, same.trans asks.2⟩
  | locking todo => exact asks
  | found child => exact asks
  | paired old new => exact asks
  | cleared old new => exact asks
  | moving old new => exact asks
  | moved old new => exact asks
  | ended answer => exact asks

/-- A thread at its next stage, the others left alone. -/
theorem State.Exact.goOn [DecidableEq τ] (exact_ : state.Exact) (orderly : state.Orderly)
    (found : cache.Found)
    (aloof : ∀ other, other ≠ thread →
      Aloof state.semaphores state.cache cache other (state.holds other))
    (shy : ∀ other, other ≠ thread → Shy state.semaphores state.cache cache other)
    (owns : ∀ dentry, cache.live dentry = true → (cache.asked dentry).heldFor = some thread →
      next.Asks cache call dentry)
    (sees : SeesAt cache thread call next) :
    (state.goOn thread cache call next).Exact where
  found := found
  excludes := exact_.excludes
  owns dentry other live held := by
    by_cases same : other = thread
    · subst same
      exact ⟨call, next, by simp [State.goOn], owns dentry live held⟩
    · obtain ⟨before, asked, points⟩ := (shy other same).held dentry live held
      obtain ⟨called, stood, stands, asks⟩ := exact_.owns dentry other before asked
      exact ⟨called, stood, by simpa [State.goOn, same] using stands, asks.carry points⟩
  sees other called stood stands := by
    by_cases same : other = thread
    · subst same
      have told : some (call, next) = some (called, stood) := by
        simpa [State.goOn] using stands
      cases told
      exact sees
    · have before : state.calls other = some (called, stood) := by
        simpa [State.goOn, same] using stands
      exact (exact_.sees other called stood before).carry (shy other same) (aloof other same)
        (orderly.sound other called stood before)

/-- What no thread's step but the cache's own holders do. -/
theorem State.Exact.beneath (exact_ : state.Exact) (orderly : state.Orderly) (found : cache.Found)
    (aloof : ∀ walker, Aloof state.semaphores state.cache cache walker (state.holds walker))
    (shy : ∀ walker, Shy state.semaphores state.cache cache walker) :
    State.Exact { state with cache := cache } where
  found := found
  excludes := exact_.excludes
  owns dentry walker live held := by
    obtain ⟨before, asked, points⟩ := (shy walker).held dentry live held
    obtain ⟨called, stood, stands, asks⟩ := exact_.owns dentry walker before asked
    exact ⟨called, stood, stands, asks.carry points⟩
  sees walker called stood stands :=
    (exact_.sees walker called stood stands).carry (shy walker) (aloof walker)
      (orderly.sound walker called stood stands)

/-- A thread that asks about nothing has nothing in lookup. -/
def State.Idle (state : State τ ν ι) (thread : τ) : Prop :=
  ∀ dentry, state.cache.live dentry = true → (state.cache.asked dentry).heldFor ≠ some thread

theorem State.Exact.idle (exact_ : state.Exact) (stood : state.calls thread = some (call, stage))
    (quiet : ∀ dentry, ¬stage.Asks state.cache call dentry) : state.Idle thread := by
  intro dentry live held
  obtain ⟨called, at_, stands, asks⟩ := exact_.owns dentry thread live held
  rw [stood] at stands
  cases stands
  exact quiet dentry asks

/-- The locks and the call of a thread that has nothing in lookup change, and no dentry does. -/
theorem State.Exact.recall [DecidableEq τ] (exact_ : state.Exact) (idle : state.Idle thread)
    {held : Lock ι → Holders τ} (excludes : Excludes held)
    {entry : Option (Call ν × Stage ν ι)}
    (sees : ∀ call stage, entry = some (call, stage) → SeesAt state.cache thread call stage) :
    State.Exact { state with
      semaphores := held
      calls := Function.update state.calls thread entry } where
  found := exact_.found
  excludes := excludes
  owns dentry other live asked := by
    have apart : other ≠ thread := fun same => idle dentry live (same ▸ asked)
    obtain ⟨called, stood, stands, asks⟩ := exact_.owns dentry other live asked
    exact ⟨called, stood, by simpa [apart] using stands, asks⟩
  sees other called stood stands := by
    by_cases same : other = thread
    · subst same
      exact sees called stood (by simpa using stands)
    · exact exact_.sees other called stood (by simpa [same] using stands)

/-- A thread that asks about nothing goes on, no dentry changed. -/
theorem State.Exact.turnTo [DecidableEq τ] (exact_ : state.Exact) (idle : state.Idle thread)
    (sees : SeesAt state.cache thread call next) :
    (state.goOn thread state.cache call next).Exact := by
  refine exact_.recall idle exact_.excludes fun called stood same => ?_
  cases same
  exact sees

/-- A lookup at its start knows nothing yet. -/
theorem Sighted.start (cache : Cache τ ν ι) (thread : τ) (call : Call ν) (old : Option Nat) :
    Sighted cache thread call old (call.frame old) where
  parent := rfl
  outer _ none_ := by cases none_
  free _ _ none_ := by cases none_
  sees := trivial

variable {old : Option Nat}

/-- What a lookup's step rests on. -/
theorem State.Exact.poised [DecidableEq τ] [DecidableEq ν] [DecidableEq ι] (exact_ : state.Exact)
    (orderly : state.Orderly) {frame : Frame ν ι}
    (stood : state.calls thread = some (call, .looking old frame)) :
    Poised state.semaphores state.cache thread call old frame := by
  have sound := orderly.sound thread call _ stood
  have has := sound.has rfl rfl (call.dir_target old)
  exact {
    placed := orderly.placed
    found := exact_.found
    looks := sound.stands.2
    sighted := (exact_.sees thread call _ stood).2
    kept := sound.stands.1
    keeps := (exact_.sees thread call _ stood).1
    owns := by
      intro dentry live held
      obtain ⟨called, at_, stands, asks⟩ := exact_.owns dentry thread live held
      rw [stood] at stands
      cases stands
      exact asks
    free := fun other others => has.apart exact_.excludes others
    elsewhere := fun other dentry others live points counts =>
      exact_.elsewhere orderly has live points counts others }

theorem State.Exact.turn [DecidableEq τ] [DecidableEq ν] [DecidableEq ι] (isDir : ι → Bool)
    (exact_ : state.Exact) (orderly : state.Orderly) {frame : Frame ν ι} {act : Act ν ι}
    {told : Cache τ ν ι × Frame ν ι} (stood : state.calls thread = some (call, .looking old frame))
    (still : StillThere state.cache (frame.splices act))
    (may : frame.mayEnter state.cache call old act = true)
    (taken : Dentries.turn isDir state.semaphores thread call.opens state.cache frame act =
      some told) :
    (state.goOn thread told.1 call (.looking old told.2)).Exact := by
  have poised := exact_.poised orderly stood
  have turned := turn_turned isDir orderly.placed poised.looks still taken
  have filed := turn_filed isDir poised may taken
  exact exact_.goOn orderly filed.found (fun other apart => turned.aloof other _ apart) filed.shy
    filed.owns ⟨filed.keeps, filed.sighted⟩

/-- Where a call goes on with what its lookup found. -/
theorem State.Exact.answer [DecidableEq τ] (exact_ : state.Exact) {parent : Nat} {name : ν}
    {found : Except FsError Nat}
    (stood : state.calls thread = some (call, .looking old ⟨parent, name, none, .done found⟩)) :
    (state.goOn thread state.cache call (call.next state.cache old found)).Exact := by
  obtain ⟨keeps, sighted⟩ := exact_.sees thread call _ stood
  have sole : Sole state.cache call found := sighted.sees
  refine exact_.turnTo (exact_.idle stood fun dentry asks => ?_) ?_
  · simpa [Frame.asks, Phase.asks] using asks.1
  cases found with
  | error e => trivial
  | ok child =>
    cases call with
    | lookup dir named => trivial
    | openLast dir named create => trivial
    | change dir named => exact sole rfl child rfl
    | rename oldDir oldName newDir newName flag =>
      have alone := sole rfl child rfl
      cases old with
      | none =>
        rw [Call.next]
        split
        · trivial
        · refine ⟨fun dentry within => ⟨rfl, ?_⟩, Sighted.start _ _ _ _⟩
          have same : child = dentry := Option.some.inj within
          exact same ▸ alone.mono fun _ => .inl
      | some old =>
        refine ⟨alone, (keeps old rfl).2.mono fun other => Or.imp id fun within => ?_⟩
        exact (Option.some.inj within).symm

/-- What a call found in a directory it holds exclusive, no other thread counts on. -/
theorem Kept.apart [DecidableEq τ] [DecidableEq ν] [DecidableEq ι] (exact_ : state.Exact)
    (orderly : state.Orderly) {dentry : Nat}
    (has : Has state.semaphores state.cache thread call.exclusive (.dir (call.dirAt old)))
    (kept : Kept state.cache call (call.dirAt old) dentry) {other : τ} (others : other ≠ thread) :
    ¬Guarded state.semaphores state.cache other dentry ∧
      Elsewhere state.semaphores state.cache other (state.cache.key dentry) := by
  have elsewhere := exact_.elsewhere orderly has kept.live kept.parent (.inl kept.exclusive) others
  exact ⟨fun guarded => elsewhere dentry kept.live guarded rfl, elsewhere⟩

theorem State.Exact.record [DecidableEq τ] [DecidableEq ν] [DecidableEq ι] (isDir : ι → Bool)
    (exact_ : state.Exact) (orderly : state.Orderly) {child : Nat} {inode : Option ι}
    (stood : state.calls thread = some (call, .found child)) :
    (state.goOn thread (state.cache.add isDir child inode) call (.found child)).Exact := by
  have sound := orderly.sound thread call _ stood
  have kept : Kept state.cache call call.oldDir child := sound.stands
  have has := sound.has rfl rfl (call.dir_target none)
  have alone : state.cache.Lone (· = child) (state.cache.key child) :=
    exact_.sees thread call _ stood
  have idle := exact_.idle stood fun _ asks => asks
  have answers := state.cache.add_answers isDir child inode
  refine exact_.goOn orderly (answers.found exact_.found (.inr alone))
    (fun other _ => answers.aloof _ _ (not_heldFor_of_answered kept.answered other))
    (fun other others => answers.shy (.inr (kept.apart exact_ orderly has others).2))
    (fun dentry live held => ?_) ?_
  · rw [answers.live] at live
    rw [answers.asked] at held
    split at held
    · cases held
    · exact absurd held (idle dentry live)
  · rw [SeesAt, answers.key]
    exact alone.carry answers.enters fun _ same _ => same

/-- A call that may end has nothing in lookup. -/
theorem State.Exact.idle_ends (exact_ : state.Exact)
    (stood : state.calls thread = some (call, stage)) (ends : stage.ends = true) :
    state.Idle thread := by
  refine exact_.idle stood fun dentry asks => ?_
  cases stage <;> first | exact asks | cases ends

theorem State.Exact.unhashNew [DecidableEq τ] [DecidableEq ν] (exact_ : state.Exact)
    (orderly : state.Orderly) {old new : Nat}
    (stood : state.calls thread = some (call, .moving old new)) :
    (state.goOn thread (state.cache.unhash new) call (.moved old new)).Exact := by
  have sound := orderly.sound thread call _ stood
  obtain ⟨_, keptNew, _⟩ := sound.stands
  obtain ⟨alone, _⟩ := exact_.sees thread call _ stood
  have idle := exact_.idle stood fun _ asks => asks
  have unhashes := state.cache.unhash_unhashes new
  refine exact_.goOn orderly (Cache.unhash_found exact_.found new keptNew.live)
    (fun other _ => Cache.unhash_aloof _ _ new other _)
    (fun other _ => state.cache.unhash_shy _ new other) (fun dentry live held => ?_) ?_
  · rw [unhashes.asked] at held
    exact absurd held (idle dentry (unhashes.live ▸ live))
  · intro other live hashed keyed
    rw [unhashes.live] at live
    rw [unhashes.hashed] at hashed
    split at hashed
    · cases hashed
    · rename_i apart
      rw [unhashes.key] at keyed
      exact absurd (alone other live hashed keyed) apart

theorem State.Exact.move [DecidableEq τ] [DecidableEq ν] [DecidableEq ι] (exact_ : state.Exact)
    (orderly : state.Orderly) {old new : Nat}
    (stood : state.calls thread = some (call, .moved old new)) :
    (state.goOn thread (state.cache.moveTo old (state.cache.parentAndName new)) call
      (.ended (.ok old))).Exact := by
  have sound := orderly.sound thread call _ stood
  obtain ⟨keptOld, keptNew, _⟩ := sound.stands
  have alone : state.cache.Lone (· = old) (state.cache.key new) := exact_.sees thread call _ stood
  have idle := exact_.idle stood fun _ asks => asks
  have hasOld := sound.has rfl rfl (call.dir_target none)
  have hasNew := sound.has rfl rfl (call.dir_target (some 0))
  have rehangs := state.cache.moveTo_rehangs old (state.cache.parentAndName new)
  refine exact_.goOn orderly (Cache.moveTo_found exact_.found keptOld.live alone)
    (fun other others => orderly.move_aloof stood others)
    (fun other others => state.cache.moveTo_shy _
      (keptOld.apart exact_ orderly hasOld others).1
      (keptNew.apart exact_ orderly hasNew others).2)
    (fun dentry live held => ?_) trivial
  rw [rehangs.asked] at held
  exact absurd held (idle dentry (rehangs.live ▸ live))

theorem State.Exact.exchange [DecidableEq τ] [DecidableEq ν] [DecidableEq ι] (exact_ : state.Exact)
    (orderly : state.Orderly) {old new : Nat}
    (stood : state.calls thread = some (call, .moving old new)) (apart : old ≠ new)
    (elsewhere : state.cache.parentAndName old ≠ state.cache.parentAndName new) :
    (state.goOn thread (state.cache.exchange old new) call (.ended (.ok old))).Exact := by
  have sound := orderly.sound thread call _ stood
  obtain ⟨keptOld, keptNew, _⟩ := sound.stands
  obtain ⟨aloneNew, aloneOld⟩ := exact_.sees thread call _ stood
  have idle := exact_.idle stood fun _ asks => asks
  have hasOld := sound.has rfl rfl (call.dir_target none)
  have hasNew := sound.has rfl rfl (call.dir_target (some 0))
  have rehangs := Cache.exchange_rehangs state.cache apart
  have hungOld : state.cache.parent old ≠ none := by simp [keptOld.parent]
  have hungNew : state.cache.parent new ≠ none := by simp [keptNew.parent]
  have keys : state.cache.key old ≠ state.cache.key new := by
    intro same
    have live := (orderly.placed.shaped.above new _ keptNew.live keptNew.parent).1
    have place : state.cache.key new =
        state.cache.keyAt (call.newDir, state.cache.name new) := by
      simp [Cache.key, Cache.parentAndName, keptNew.parent]
    obtain ⟨parent, name⟩ := orderly.placed.shaped.parent_of_key keptOld.live hungOld live
      (same.trans place)
    exact elsewhere (by simp [Cache.parentAndName, parent, name, keptNew.parent])
  have onlyOld : state.cache.Lone (· = old) (state.cache.key old) := by
    intro other live hashed keyed
    obtain same | same := aloneOld other live hashed keyed
    · exact same
    · exact absurd (same ▸ keyed) keys.symm
  refine exact_.goOn orderly
    (Cache.exchange_found exact_.found apart hungOld hungNew keys onlyOld aloneNew)
    (fun other others => orderly.exchange_aloof stood apart others)
    (fun other others => state.cache.exchange_shy _ apart hungOld hungNew
      (keptOld.apart exact_ orderly hasOld others).1
      (keptNew.apart exact_ orderly hasNew others).1
      (keptOld.apart exact_ orderly hasOld others).2
      (keptNew.apart exact_ orderly hasNew others).2)
    (fun dentry live held => ?_) trivial
  rw [rehangs.asked] at held
  exact absurd held (idle dentry (rehangs.live ▸ live))

end Step

/-! ## Every run -/

variable [DecidableEq τ] [DecidableEq ν] [DecidableEq ι]

/-- A step enters a dentry only at a name its thread counts on, and two dentries at one name are
not exchanged. -/
def State.mayEnter (state : State τ ν ι) : Event τ ν ι → Bool
  | .turn thread act =>
    match state.calls thread with
    | some (call, .looking old frame) => frame.mayEnter state.cache call old act
    | _ => true
  | .exchange thread =>
    match state.calls thread with
    | some (_, .moving old new) =>
      decide (state.cache.parentAndName old ≠ state.cache.parentAndName new)
    | _ => true
  | _ => true

variable {cache : Cache τ ν ι}

omit [DecidableEq ν] [DecidableEq ι] in
/-- A turn that enters a dentry so moves a directory's dentry to where the lookup read. -/
theorem Frame.stillThere {thread : τ} {call : Call ν} {old : Option Nat} {frame : Frame ν ι}
    {act : Act ν ι} (looks : Looks cache thread call old frame)
    (may : frame.mayEnter cache call old act = true) : StillThere cache (frame.splices act) := by
  intro moved spliced answered
  cases act with
  | unalias rounds =>
    cases phase : frame.phase with
    | aliasing ask other place =>
      simp only [Frame.splices, phase, Option.mem_some_iff] at spliced
      subst spliced
      simp only [Frame.mayEnter, phase, Bool.or_eq_true, decide_eq_true_eq, Bool.and_eq_true] at may
      have exclusive := (may.resolve_left (by simpa using answered)).1
      have knows := looks.knows
      rw [phase] at knows
      obtain ⟨inHand, _, _, _, _, dir⟩ := knows
      rw [dir exclusive]
      exact inHand.stands exclusive
    | _ => simp [Frame.splices, phase] at spliced
  | _ => simp [Frame.splices] at spliced

omit [DecidableEq ι] in
theorem State.Orderly.splicesInPlace {state : State τ ν ι} {event : Event τ ν ι}
    (orderly : state.Orderly) (may : state.mayEnter event = true) :
    state.SplicesInPlace event := by
  cases event with
  | turn thread act =>
    rw [State.SplicesInPlace, State.splices]
    split
    · rename_i call old frame stood
      simp only [State.mayEnter, stood] at may
      exact Frame.stillThere (orderly.sound thread call _ stood).stands.2 may
    · intro moved none_
      cases none_
  | _ =>
    intro moved none_
    cases none_

theorem State.Exact.step [Fintype τ] (isDir : ι → Bool) {state next : State τ ν ι}
    {event : Event τ ν ι} (exact_ : state.Exact) (orderly : state.Orderly)
    (may : state.mayEnter event = true) (taken : state.step isDir event = some next) :
    next.Exact := by
  have splices := orderly.splicesInPlace may
  cases State.steps_of_step taken with
  | start idle live =>
    refine exact_.turnTo (fun dentry live held => ?_) trivial
    obtain ⟨called, stage, stood, _⟩ := exact_.owns dentry _ live held
    simp [idle] at stood
  | lock stood locks granted =>
    refine exact_.recall (exact_.idle_ends stood rfl)
      (exact_.excludes.granted (Holders.take_granted granted).1) fun called stage same => ?_
    cases same
    trivial
  | enter stood =>
    exact exact_.turnTo (exact_.idle_ends stood rfl)
      ⟨fun _ none_ => (by cases none_), Sighted.start _ _ _ _⟩
  | turn stood turned =>
    simp only [State.SplicesInPlace, State.splices, stood] at splices
    simp only [State.mayEnter, stood] at may
    exact exact_.turn isDir orderly stood splices may turned
  | answer stood => exact exact_.answer stood
  | record stood => exact exact_.record isDir orderly stood
  | clear stood searched | check stood searched =>
    have sees := exact_.sees _ _ _ stood
    exact exact_.turnTo (exact_.idle_ends stood rfl) sees
  | unhashNew stood => exact exact_.unhashNew orderly stood
  | move stood => exact exact_.move orderly stood
  | exchange stood apart =>
    simp only [State.mayEnter, stood, decide_eq_true_eq] at may
    exact exact_.exchange orderly stood apart may
  | ends stood ends => exact exact_.turnTo (exact_.idle_ends stood ends) trivial
  | leave stood =>
    refine exact_.recall (exact_.idle stood fun _ asks => asks) (exact_.excludes.without _)
      fun called stage none_ => ?_
    cases none_
  | @unhash dentry live =>
    exact exact_.beneath orderly (Cache.unhash_found exact_.found dentry live)
      (fun walker => Cache.unhash_aloof _ _ dentry walker _)
      fun walker => state.cache.unhash_shy _ dentry walker
  | @drop dentry childless free =>
    exact exact_.beneath orderly (Cache.drop_found exact_.found dentry)
      (fun walker => Cache.drop_aloof _ _ walker _ (free walker))
      fun walker => state.cache.drop_shy _ dentry walker

omit [DecidableEq τ] [DecidableEq ν] in
theorem State.start_exact (unnamed : ν) (root : ι) :
    (State.start unnamed root : State τ ν ι).Exact where
  found dentry _ hashed := by cases hashed
  excludes lock thread writes := by cases writes
  owns dentry thread _ held := by cases held
  sees thread call stage stands := by cases stands

/-! ## What the tables tell -/

/-- A dentry stands beneath the dentry at a key's address, under the key's name. -/
structure Cache.StandsUnder (cache : Cache τ ν ι) (dentry : Nat) (place : Key ν) : Prop where
  parent : ∃ upper, cache.live upper = true ∧ cache.parent dentry = some upper ∧
    cache.keyAt (upper, cache.name dentry) = place
  only : ∀ upper name, cache.live upper = true → cache.keyAt (upper, name) = place →
    cache.parent dentry = some upper ∧ cache.name dentry = name

/-- Every entry of `dentry_hashtable` whose dentry is held is of a hashed dentry at its own parent
and name, every such dentry is found, at most one stands at a parent and name, and every entry of
`in_lookup_hashtable` whose dentry is held is of one in lookup at its own parent and name. -/
structure Cache.Represented (cache : Cache τ ν ι) : Prop where
  entry : ∀ place dentry, cache.find place = some dentry →
    cache.hashed dentry = true ∧ cache.StandsUnder dentry place
  found : ∀ dentry, cache.live dentry = true → cache.hashed dentry = true →
    cache.find (cache.keyAt (cache.parentAndName dentry)) = some dentry
  unique : ∀ dentry other, cache.live dentry = true → cache.live other = true →
    cache.hashed dentry = true → cache.hashed other = true →
    cache.parent dentry = cache.parent other → cache.name dentry = cache.name other →
    dentry = other
  sought : ∀ place dentry, cache.findInLookup place = some dentry →
    cache.hashed dentry = false ∧ (cache.asked dentry).inLookup = true ∧
      cache.StandsUnder dentry place

omit [DecidableEq τ] [DecidableEq ν] [DecidableEq ι] in
/-- A dentry stands at its own key. -/
theorem Cache.Shaped.standsUnder {dentry : Nat} {place : Key ν} (shaped : cache.Shaped)
    (live : cache.live dentry = true) (hung : cache.parent dentry ≠ none)
    (keyed : cache.key dentry = place) :
    cache.StandsUnder dentry place where
  parent := by
    obtain ⟨upper, points⟩ := Option.ne_none_iff_exists'.mp hung
    refine ⟨upper, (shaped.above _ _ live points).1, points, ?_⟩
    rw [← keyed, Cache.key, Cache.parentAndName, points, Option.getD_some]
  only upper name above same :=
    shaped.parent_of_key live hung above (keyed.trans same.symm)

omit [DecidableEq τ] [DecidableEq ν] [DecidableEq ι] in
theorem Cache.Placed.represented (placed : cache.Placed) (found : cache.Found) :
    cache.Represented where
  entry place dentry stands := by
    obtain ⟨stood, live⟩ := Cache.upgrade_eq_some.mp stands
    obtain ⟨hashed, keyed⟩ := placed.hashes.own place dentry stood live
    exact ⟨hashed, placed.shaped.standsUnder live
      (placed.hashes.settled dentry live hashed).2 keyed⟩
  found dentry live hashed := Cache.upgrade_eq_some.mpr ⟨found dentry live hashed, live⟩
  unique dentry other live held hashed hashes parents names := by
    have hung := (placed.hashes.settled other held hashes).2
    obtain ⟨upper, points⟩ := Option.ne_none_iff_exists'.mp hung
    have keyed : cache.key dentry = cache.key other := by
      simp [Cache.key, Cache.parentAndName, parents, points, names]
    exact found.lone held hashes dentry live hashed keyed
  sought place dentry stands := by
    obtain ⟨stood, live⟩ := Cache.upgrade_eq_some.mp stands
    obtain ⟨within, keyed⟩ := placed.sought.within place dentry stood live
    have hung := (placed.sought.entered dentry live within).2.2
    refine ⟨?_, within, placed.shaped.standsUnder live hung keyed⟩
    cases hashed : cache.hashed dentry with
    | false => rfl
    | true =>
      rw [(placed.hashes.settled dentry live hashed).1] at within
      cases within

/-- In every run of lookups, changes and moves in which a dentry is entered only at a name its
thread counts on, the tables tell what the dentries say. -/
theorem tables_tell_what_the_dentries_say [Fintype τ] (isDir : ι → Bool) (unnamed : ν) (root : ι)
    (events : List (Event τ ν ι)) (state : State τ ν ι)
    (ran : run (State.step isDir) (State.start unnamed root) events = some state)
    (along : Along (State.step isDir) (fun state event => state.mayEnter event = true)
      (State.start unnamed root) events) : state.cache.Represented := by
  have kept : ∀ (before : State τ ν ι) event after, before.Orderly ∧ before.Exact →
      before.mayEnter event = true → before.step isDir event = some after →
      after.Orderly ∧ after.Exact := by
    intro before event after holds may taken
    have splices := holds.1.splicesInPlace may
    exact ⟨holds.1.step isDir splices taken, holds.2.step isDir holds.1 may taken⟩
  obtain ⟨orderly, exact_⟩ := run_preserves_along (State.step isDir) kept events _ state
    ⟨State.start_orderly unnamed root, State.start_exact unnamed root⟩ along ran
  exact orderly.placed.represented exact_.found

/-- A walk finds the directory of `a`, another nothing at `b`; an open that may make `b` asks about
that dentry again, hears of the directory of `a` there and moves its dentry onto it. -/
def doubled : List (Event Unit String Nat) :=
  List.flatten
    [looksUp () 0 "a" 1 [.found 1], looksUp () 0 "b" 2 [.absent],
      [.start () (.openLast 0 "b" true) false, .lock (), .enter (), .turn () (.alloc 0),
        .turn () .begin, .turn () (.found 1), .turn () .read, .turn () (.unalias 3)]]

/-- Both dentries are hashed at `b`. -/
theorem tables_lose_a_hashed_dentry :
    ¬∀ (events : List (Event Unit String Nat)) (state : State Unit String Nat),
      run (State.step fun _ => true) (State.start "" 0) events = some state →
      state.cache.Represented := by
  intro represented
  have places : (run (State.step fun _ => true) (State.start "" 0) doubled).map
      (fun state => ((state.cache.live 1, state.cache.hashed 1, state.cache.live 2,
        state.cache.hashed 2), state.cache.parent 1, state.cache.parent 2, state.cache.name 1,
        state.cache.name 2)) =
      some ((true, true, true, true), some 0, some 0, "b", "b") := by decide +kernel
  obtain ⟨state, ran, told⟩ := Option.map_eq_some_iff.mp places
  simp only [Prod.mk.injEq] at told
  obtain ⟨⟨liveOne, hashedOne, liveTwo, hashedTwo⟩, parentOne, parentTwo, nameOne, nameTwo⟩ := told
  have same := (represented doubled state ran).unique 1 2 liveOne liveTwo hashedOne hashedTwo
    (parentOne.trans parentTwo.symm) (nameOne.trans nameTwo.symm)
  cases same

/-- A walk moves the dentry of `a` to `b`, `b` being in lookup, then `b` is exchanged with `c`. -/
def respelled : List (Event Unit String Nat) :=
  List.flatten
    [looksUp () 0 "a" 1 [.found 1], looksUp () 0 "b" 2 [.found 1, .read, .unalias 3],
      looksUp () 0 "c" 3 [.found 3],
      [.start () (.rename 0 "b" 0 "c" (some .exchange)) false, .lock (), .enter (),
        .turn () (.alloc 0), .turn () .begin, .answer (), .turn () (.alloc 0), .turn () .begin,
        .answer (), .check () 3, .check () 3, .exchange (), .leave ()]]

theorem tables_tell_what_the_dentries_say_exchanged :
    ∃ state : State Unit String Nat,
      run (State.step fun _ => true) (State.start "" 0) respelled = some state ∧
      state.cache.find (0, "c") = some 1 ∧ state.cache.Represented := by
  have found : (run (State.step fun _ => true) (State.start "" 0) respelled).map
      (fun state => state.cache.find (0, "c")) = some (some 1) := by decide +kernel
  obtain ⟨state, ran, told⟩ := Option.map_eq_some_iff.mp found
  exact ⟨state, ran, told, tables_tell_what_the_dentries_say (fun _ => true) "" 0 respelled state
    ran (by decide +kernel)⟩

end Kobako.Dentries
