import Kobako.Dcache.Changes

/-!
# Every interleaving

What a step of one walk leaves to all the others. A walk that stands beneath another of its own
thread, and every walk of the other threads, knows after the step what it knew before, and the one
that took it knows what its next phase says.
-/

namespace Kobako.Dcache

variable {τ ν ι : Type}

namespace World

variable {world after : World τ ν ι} {thread : τ} {frame : Frame ν ι} {rest : List (Frame ν ι)}
  {phase : Phase ν ι} [DecidableEq τ]

/-! ## The walks that did not step -/

/-- A walk other than the innermost of a thread. -/
def Other (world : World τ ν ι) (thread : τ) (rest : List (Frame ν ι)) (walker : τ)
    (other : Frame ν ι) : Prop :=
  other ∈ world.stack walker ∧ (walker = thread → other ∈ rest)

theorem onto_onward (world : World τ ν ι) (thread : τ) (frames : List (Frame ν ι)) :
    world.Onward (world.onto thread frames) :=
  .of_same rfl (fun _ => rfl) (fun _ => rfl) (fun _ => rfl)

theorem onto_tabled (tabled : world.Tabled) (thread : τ) (frames : List (Frame ν ι)) :
    (world.onto thread frames).Tabled :=
  { tabled with }

variable {walker : τ} {dentry : Nat} {place : Key ν}

/-- A walk after a step is the one that took it or one that did not. -/
theorem mem_onto {other : Frame ν ι} (stack : after.stack = world.stack)
    (mem : other ∈ (after.onto thread (frame :: rest)).stack walker) :
    (walker = thread ∧ other = frame) ∨ (walker = thread ∧ other ∈ rest) ∨
      (walker ≠ thread ∧ other ∈ world.stack walker) := by
  by_cases own : walker = thread
  · subst own
    have member : other ∈ frame :: rest := by simpa [onto] using mem
    obtain same | lower := List.mem_cons.mp member
    · exact .inl ⟨rfl, same⟩
    · exact .inr (.inl ⟨rfl, lower⟩)
  · right
    right
    exact ⟨own, by simpa [onto, own, stack] using mem⟩

theorem Other.mem_onto {other top : Frame ν ι} (stack : after.stack = world.stack)
    (kept : world.Other thread rest walker other) :
    other ∈ (after.onto thread (top :: rest)).stack walker := by
  by_cases own : walker = thread
  · subst own
    simpa [onto] using List.mem_cons_of_mem top (kept.2 rfl)
  · simpa [onto, own, stack] using kept.1

omit [DecidableEq τ] in
/-- A lower walk of the thread is one that did not step. -/
theorem other_of_rest (stacked : world.stack thread = frame :: rest) {other : Frame ν ι}
    (lower : other ∈ rest) : world.Other thread rest thread other :=
  ⟨by rw [stacked]; exact List.mem_cons_of_mem frame lower, fun _ => lower⟩

/-- The walk that ends a lookup is the one that steps or one that does not. -/
theorem owner_cases {owner : Frame ν ι} (stacked : world.stack thread = frame :: rest)
    (mem : owner ∈ world.stack walker) :
    world.Other thread rest walker owner ∨ (walker = thread ∧ owner = frame) := by
  by_cases own : walker = thread
  · subst own
    rw [stacked] at mem
    obtain same | lower := List.mem_cons.mp mem
    · exact .inr ⟨rfl, same⟩
    · exact .inl (other_of_rest stacked lower)
  · exact .inl ⟨mem, fun same => absurd same own⟩

/-! ## The walk that steps -/

/-- A step that leaves a walk at its next phase, what it changed told by `after`. -/
theorem Sound.goOn (sound : world.Sound) (stacked : world.stack thread = frame :: rest)
    (stack : after.stack = world.stack) (tabled : after.Tabled)
    (others : ∀ walker other, world.Other thread rest walker other →
      after.Knows walker other.key other.phase)
    (known : after.Knows thread frame.key phase)
    (begun : ∀ dentry, phase.begun = some dentry →
      ∀ lower ∈ rest, lower.phase.engaged ≠ some dentry)
    (owned : ∀ place dentry, after.inLookupHashtable place = some dentry →
      after.key dentry = place ∧
        ((∃ walker other, world.Other thread rest walker other ∧ other.key = place ∧
            after.Owns walker dentry other.phase) ∨
          (frame.key = place ∧ after.Owns thread dentry phase))) :
    (after.onto thread (frame.at phase :: rest)).Sound where
  tabled := onto_tabled tabled thread _
  known walker other mem := by
    refine (onto_onward after thread _).knows ?_
    obtain ⟨rfl, rfl⟩ | ⟨rfl, lower⟩ | ⟨apart, mem⟩ := mem_onto stack mem
    · exact known
    · exact others _ other (other_of_rest stacked lower)
    · exact others walker other ⟨mem, fun same => absurd same apart⟩
  beneath walker other mem := by
    by_cases own : walker = thread
    · subst own
      have lower : other ∈ rest := by simpa [onto] using mem
      exact sound.beneath walker other (by rw [stacked]; exact lower)
    · exact sound.beneath walker other (by simpa [onto, own, stack] using mem)
  apart walker := by
    by_cases own : walker = thread
    · subst own
      have pairs := sound.apart walker
      rw [stacked, List.pairwise_cons] at pairs
      have split : (frame.at phase :: rest).Pairwise Apart :=
        List.pairwise_cons.mpr ⟨fun lower mem dentry begins => begun dentry begins lower mem, pairs.2⟩
      simpa [onto] using split
    · simpa [onto, own, stack] using sound.apart walker
  owned place dentry entered := by
    obtain ⟨placed, ⟨walker, other, kept, here, owns⟩ | ⟨here, owns⟩⟩ := owned place dentry entered
    · exact ⟨placed, walker, other, kept.mem_onto stack, here, owns⟩
    · exact ⟨placed, thread, frame.at phase, by simp [onto], here, owns⟩

omit [DecidableEq τ] in
/-- What the walk that steps began before, no lower walk asks about. -/
theorem Sound.begun_apart (sound : world.Sound) (stacked : world.stack thread = frame :: rest)
    (begun : frame.phase.begun = some dentry) :
    ∀ lower ∈ rest, lower.phase.engaged ≠ some dentry := by
  have pairs := sound.apart thread
  rw [stacked, List.pairwise_cons] at pairs
  intro lower mem
  exact pairs.1 lower mem dentry begun

/-- A step that changes what `Onward` allows, every lookup that goes on standing as it did. -/
theorem Sound.change (sound : world.Sound) (stacked : world.stack thread = frame :: rest)
    (stack : after.stack = world.stack) (onward : world.Onward after) (tabled : after.Tabled)
    (known : after.Knows thread frame.key phase)
    (begun : ∀ dentry, phase.begun = some dentry → frame.phase.begun = some dentry)
    (entries : ∀ place dentry, after.inLookupHashtable place = some dentry →
      world.inLookupHashtable place = some dentry ∧ after.asked dentry = world.asked dentry ∧
        after.key dentry = world.key dentry ∧
        (world.Owns thread dentry frame.phase → after.Owns thread dentry phase)) :
    (after.onto thread (frame.at phase :: rest)).Sound := by
  refine sound.goOn stacked stack tabled
    (fun walker other kept => onward.knows (sound.known walker other kept.1)) known
    (fun dentry begins => sound.begun_apart stacked (begun dentry begins)) ?_
  intro place dentry entered
  obtain ⟨stood, asked, key, handed⟩ := entries place dentry entered
  obtain ⟨placed, walker, owner, mem, here, owns⟩ := sound.owned place dentry stood
  refine ⟨key.trans placed, ?_⟩
  obtain kept | ⟨rfl, rfl⟩ := owner_cases stacked mem
  · left
    refine ⟨walker, owner, kept, here, ?_⟩
    rw [Owns, asked]
    exact owns
  · exact .inr ⟨here, handed owns⟩

/-- A step that changes nothing but the phase of its walk. -/
theorem Sound.turn (sound : world.Sound) (stacked : world.stack thread = frame :: rest)
    (known : world.Knows thread frame.key phase)
    (begun : ∀ dentry, phase.begun = some dentry → frame.phase.begun = some dentry)
    (owns : ∀ dentry, world.Owns thread dentry frame.phase → world.Owns thread dentry phase) :
    (world.onto thread (frame.at phase :: rest)).Sound :=
  sound.change stacked rfl (.of_same rfl (fun _ => rfl) (fun _ => rfl) (fun _ => rfl))
    sound.tabled known begun fun _ dentry entered => ⟨entered, rfl, rfl, owns dentry⟩

omit [DecidableEq τ] in
/-- What a walk knows where it stands. -/
theorem Sound.here (sound : world.Sound) (stacked : world.stack thread = frame :: rest) :
    world.Knows thread frame.key frame.phase :=
  sound.known thread frame (by simp [stacked])

/-! ## The steps that find a dentry -/

omit [DecidableEq τ] in
theorem Owns.inLookup (owns : world.Owns walker dentry phase) :
    (world.asked dentry).inLookup = true := by
  obtain ⟨allocated, -⟩ | ⟨asking, -⟩ := owns
  · rw [allocated]
    rfl
  · rw [asking]
    rfl

omit [DecidableEq τ] in
/-- A walk that took nothing and began nothing ends no lookup. -/
theorem Owns.elim (taken : phase.taken = none) (begun : phase.begun = none) :
    ¬world.Owns walker dentry phase := by
  rintro (⟨-, takes⟩ | ⟨-, begins⟩)
  · simp [taken] at takes
  · simp [begun] at begins

/-- What a walk with no lookup of its own to end turns to. -/
theorem Sound.turnFrom (sound : world.Sound) (stacked : world.stack thread = frame :: rest)
    (taken : frame.phase.taken = none) (begun : frame.phase.begun = none)
    (known : world.Knows thread frame.key phase) (begins : phase.begun = none) :
    (world.onto thread (frame.at phase :: rest)).Sound :=
  sound.turn stacked known (fun dentry some => by simp [begins] at some)
    fun _ owns => absurd owns (Owns.elim taken begun)

theorem Sound.make [DecidableEq ν] (sound : world.Sound)
    (stacked : world.stack thread = frame :: rest) (taken : frame.phase.taken = none)
    (begun : frame.phase.begun = none) (free : world.inLookupHashtable frame.key = none) :
    ((world.make thread frame.key).onto thread
      (frame.at (.given world.made) :: rest)).Sound := by
  have onward := make_onward sound.tabled thread frame.key
  refine sound.goOn stacked rfl (make_tabled sound.tabled thread free)
    (fun walker other kept => onward.knows (sound.known walker other kept.1)) ?_ nofun ?_
  · right
    simp [make_asked, make_key, LookupState.heldFor]
  · intro place dentry entered
    by_cases here : place = frame.key
    · subst here
      have same : world.made = dentry := by simpa [World.make] using entered
      subst same
      refine ⟨by simp [make_key], .inr ⟨rfl, .inl ⟨by simp [make_asked], rfl⟩⟩⟩
    · have stood : world.inLookupHashtable place = some dentry := by
        simpa [World.make, here] using entered
      obtain ⟨placed, walker, owner, mem, ownerHere, owns⟩ := sound.owned place dentry stood
      have bound : dentry < world.made := by
        refine sound.tabled.lt_made fun unasked => ?_
        have within := owns.inLookup
        simp [unasked, LookupState.inLookup] at within
      have apart : dentry ≠ world.made := Nat.ne_of_lt bound
      refine ⟨by rw [make_key, if_neg apart, placed], .inl ?_⟩
      obtain kept | ⟨rfl, rfl⟩ := owner_cases stacked mem
      · refine ⟨walker, owner, kept, ownerHere, ?_⟩
        rw [Owns, make_asked, if_neg apart]
        exact owns
      · exact absurd owns (Owns.elim taken begun)

theorem Sound.allocTurn [DecidableEq ν] (sound : world.Sound)
    (stacked : world.stack thread = frame :: rest) (slow : frame.phase = .slow) :
    ((world.allocTurn thread frame.key).1.onto thread
      (frame.at (world.allocTurn thread frame.key).2 :: rest)).Sound := by
  have taken : frame.phase.taken = none := by rw [slow]; rfl
  have begun : frame.phase.begun = none := by rw [slow]; rfl
  unfold World.allocTurn
  split
  · rename_i found stood
    exact sound.turnFrom stacked taken begun (.inl (sound.tabled.found _ _ stood)) rfl
  · split
    · rename_i waited stood
      obtain ⟨placed, walker, owner, -, -, owns⟩ := sound.owned _ _ stood
      refine sound.turnFrom stacked taken begun ⟨?_, fun _ => placed⟩ rfl
      refine sound.tabled.lt_made fun unasked => ?_
      have within := owns.inLookup
      simp [unasked, LookupState.inLookup] at within
    · rename_i free
      exact sound.make stacked taken begun free

/-! ## The steps that wait -/

/-- One turn of `wait_lookup`. -/
theorem waitLookup_cases (world : World τ ν ι) (thread : τ) (dentry : Nat) (fatal : Bool)
    (stay owned settled : Phase ν ι) :
    ((world.asked dentry).heldFor = some thread ∧
        world.waitLookup thread dentry fatal stay owned settled = owned) ∨
      ((world.asked dentry).inLookup = true ∧ (world.asked dentry).heldFor ≠ some thread ∧
        (world.waitLookup thread dentry fatal stay owned settled = stay ∨
          (fatal = true ∧ world.waitLookup thread dentry fatal stay owned settled =
            .done (.error .interrupted)))) ∨
      ((world.asked dentry).inLookup = false ∧
        world.waitLookup thread dentry fatal stay owned settled = settled) := by
  unfold waitLookup
  cases held : (world.asked dentry).heldFor with
  | none =>
    have ended : (world.asked dentry).inLookup = false := by
      cases state : world.asked dentry <;> simp_all [LookupState.heldFor, LookupState.inLookup]
    simp [ended]
  | some walk =>
    have within := LookupState.inLookup_of_heldFor held
    by_cases own : walk = thread
    · simp [own]
    · simp only [Option.some.injEq, own, if_false, false_and, false_or, within]
      cases fatal <;> simp [own]

theorem Sound.wait (sound : world.Sound) (stacked : world.stack thread = frame :: rest)
    {waited : Nat} (fatal : Bool) (waiting : frame.phase = .waiting waited) :
    (world.onto thread (frame.at (world.waitLookup thread waited fatal (.waiting waited)
      (.given waited) (.left waited)) :: rest)).Sound := by
  have taken : frame.phase.taken = none := by rw [waiting]; rfl
  have begun : frame.phase.begun = none := by rw [waiting]; rfl
  have here := sound.here stacked
  rw [waiting] at here
  obtain ⟨held, turned⟩ | ⟨within, -, turned | ⟨-, turned⟩⟩ | ⟨isOver, turned⟩ :=
    waitLookup_cases world thread waited fatal (.waiting waited : Phase ν ι) (.given waited)
      (.left waited)
  · rw [turned]
    exact sound.turnFrom stacked taken begun
      (.inr ⟨held, here.2 (LookupState.inLookup_of_heldFor held)⟩) rfl
  · rw [turned]
    exact sound.turnFrom stacked taken begun here rfl
  · rw [turned]
    exact sound.turnFrom stacked taken begun nofun rfl
  · rw [turned]
    exact sound.turnFrom stacked taken begun ⟨here.1, isOver⟩ rfl

theorem Sound.beginWait (sound : world.Sound) (stacked : world.stack thread = frame :: rest)
    (fatal : Bool) (beginning : frame.phase = .beginning dentry) :
    (world.onto thread (frame.at (world.waitLookup thread dentry fatal (.beginning dentry)
      (.entering dentry) (.entering dentry)) :: rest)).Sound := by
  have here := sound.here stacked
  rw [beginning] at here
  obtain ⟨-, turned⟩ | ⟨-, another, turned | ⟨-, turned⟩⟩ | ⟨-, turned⟩ :=
    waitLookup_cases world thread dentry fatal (.beginning dentry : Phase ν ι) (.entering dentry)
      (.entering dentry)
  · rw [turned]
    exact sound.turn stacked here nofun (by rw [beginning]; exact fun _ owns => owns)
  · rw [turned]
    exact sound.turn stacked here nofun (by rw [beginning]; exact fun _ owns => owns)
  · rw [turned]
    refine sound.turn stacked nofun nofun fun other owns => ?_
    rw [beginning] at owns
    obtain ⟨allocated, takes⟩ | ⟨-, begins⟩ := owns
    · have same : dentry = other := Option.some.inj takes
      subst same
      simp [allocated, LookupState.heldFor] at another
    · cases begins
  · rw [turned]
    exact sound.turn stacked here nofun (by rw [beginning]; exact fun _ owns => owns)

/-! ## The steps that ask -/

omit [DecidableEq τ] in
/-- A walk that holds a dentry out of lookup holds one answered for. -/
theorem HeldAt.answered_of_over (held : world.HeldAt thread place dentry)
    (isOver : (world.asked dentry).inLookup = false) :
    world.Answered dentry := by
  obtain answered | ⟨own, -⟩ := held
  · exact answered
  · simp [LookupState.inLookup_of_heldFor own] at isOver

omit [DecidableEq τ] in
/-- What a walk holds is a dentry that was made. -/
theorem HeldAt.lt_made (held : world.HeldAt thread place dentry) (tabled : world.Tabled) :
    dentry < world.made := by
  refine tabled.lt_made fun unasked => ?_
  obtain answered | ⟨own, -⟩ := held
  · simp [Answered, unasked] at answered
  · simp [unasked, LookupState.heldFor] at own

theorem Sound.give (sound : world.Sound) (stacked : world.stack thread = frame :: rest)
    (given : frame.phase = .given dentry) :
    (world.onto thread (frame.at
      (if frame.inode.isSome || (world.asked dentry).inLookup then .beginning dentry
      else .revalidating dentry) :: rest)).Sound := by
  have here := sound.here stacked
  rw [given] at here
  split
  · exact sound.turn stacked here nofun (by rw [given]; exact fun _ owns => owns)
  · rename_i asks
    rw [Bool.or_eq_true, not_or] at asks
    have isOver : (world.asked dentry).inLookup = false := by simpa using asks.2
    refine sound.turn stacked (HeldAt.answered_of_over here isOver) nofun fun other owns => ?_
    have within := owns.inLookup
    rw [given] at owns
    obtain ⟨-, takes⟩ | ⟨-, begins⟩ := owns
    · have same : dentry = other := Option.some.inj takes
      subst same
      simp [isOver] at within
    · cases begins

omit [DecidableEq τ] in
theorem askPhase_knows (frame : Frame ν ι) (ends : Bool)
    (asked : world.AskedAt thread place dentry) :
    world.Knows thread place (askPhase frame dentry ends) := by
  unfold askPhase
  split
  · exact asked
  · exact asked

theorem askPhase_begun (frame : Frame ν ι) (dentry : Nat) (ends : Bool) :
    (askPhase frame dentry ends).begun = if ends then some dentry else none := by
  unfold askPhase
  split
  · rfl
  · rfl

/-- The walk that made a dentry begins its lookup: no other asks about it. -/
theorem Sound.begin (sound : world.Sound) (stacked : world.stack thread = frame :: rest)
    (entering : frame.phase = .entering dentry)
    (allocated : world.asked dentry = .allocated thread) :
    ((world.setAsked dentry (.asking thread)).onto thread
      (frame.at (askPhase frame dentry true) :: rest)).Sound := by
  have onward := begin_onward allocated
  have unanswered : ¬world.Answered dentry := by simp [Answered, allocated]
  have within : (world.asked dentry).inLookup = true := by simp [allocated, LookupState.inLookup]
  have entered := sound.tabled.entered dentry within
  have here := sound.here stacked
  rw [entering] at here
  have placed : world.key dentry = frame.key := by
    obtain answered | ⟨-, placed⟩ := here
    · exact absurd answered unanswered
    · exact placed
  have bound : dentry < world.made := sound.tabled.lt_made (by simp [allocated])
  refine sound.goOn stacked rfl
    (setAsked_tabled sound.tabled unanswered bound fun _ => entered)
    (fun walker other kept => onward.knows (sound.known walker other kept.1)) ?_ ?_ ?_
  · exact askPhase_knows frame true (.inr ⟨by simp [setAsked_asked], by simpa using placed⟩)
  · intro begun begins lower mem engaged
    have same : dentry = begun := by simpa [askPhase_begun] using begins
    subst same
    have knows := sound.known thread lower (by rw [stacked]; exact List.mem_cons_of_mem _ mem)
    have asked : world.AskedAt thread lower.key dentry := by
      cases phased : lower.phase <;> simp_all [Phase.engaged, Knows]
    obtain answered | ⟨asking, -⟩ := asked
    · exact unanswered answered
    · simp [allocated] at asking
  · intro place other stood
    have stands : world.inLookupHashtable place = some other := stood
    obtain ⟨otherPlaced, walker, owner, mem, ownerHere, owns⟩ := sound.owned place other stands
    refine ⟨by simpa using otherPlaced, ?_⟩
    by_cases same : other = dentry
    · subst same
      right
      refine ⟨placed.symm.trans otherPlaced, .inr ⟨by simp [setAsked_asked], ?_⟩⟩
      simp [askPhase_begun]
    · left
      obtain kept | ⟨rfl, rfl⟩ := owner_cases stacked mem
      · refine ⟨walker, owner, kept, ownerHere, ?_⟩
        rw [Owns, setAsked_asked, if_neg same]
        exact owns
      · rw [entering] at owns
        obtain ⟨-, takes⟩ | ⟨-, begins⟩ := owns
        · exact absurd (Option.some.inj takes).symm same
        · cases begins

theorem Sound.beginLookup (sound : world.Sound) (stacked : world.stack thread = frame :: rest)
    (entering : frame.phase = .entering dentry) :
    ((world.beginLookup thread frame dentry).1.onto thread
      (frame.at (world.beginLookup thread frame dentry).2 :: rest)).Sound := by
  have here := sound.here stacked
  rw [entering] at here
  have holds : world.HeldAt thread frame.key dentry := here
  -- the walk has waited, so only its own lookup or an answer is left to find
  have state : world.asked dentry = .answered ∨ world.asked dentry = .allocated thread ∨
      (world.asked dentry = .asking thread ∧ world.key dentry = frame.key) := by
    obtain answered | ⟨held, placed⟩ := holds
    · exact .inl answered
    · obtain allocated | asking := LookupState.heldFor_cases held
      · exact .inr (.inl allocated)
      · exact .inr (.inr ⟨asking, placed⟩)
  unfold World.beginLookup
  obtain answered | allocated | ⟨asking, placed⟩ := state
  · rw [answered]
    refine sound.turn stacked (fun other told => ?_) nofun fun other owns => ?_
    · cases told
      exact answered
    · have within := owns.inLookup
      rw [entering] at owns
      obtain ⟨-, takes⟩ | ⟨-, begins⟩ := owns
      · have same : dentry = other := Option.some.inj takes
        subst same
        simp [answered, LookupState.inLookup] at within
      · cases begins
  · rw [allocated]
    exact sound.begin stacked entering allocated
  · rw [asking]
    refine sound.turn stacked (askPhase_knows frame false (.inr ⟨asking, placed⟩))
      (fun other begins => by simp [askPhase_begun] at begins) fun other owns => ?_
    rw [entering] at owns
    obtain ⟨allocated, takes⟩ | ⟨-, begins⟩ := owns
    · have same : dentry = other := Option.some.inj takes
      subst same
      simp [asking] at allocated
    · cases begins

end World

end Kobako.Dcache
