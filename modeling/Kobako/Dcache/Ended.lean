import Kobako.Dcache.Interleave

/-!
# Lookups that end

A walk that answers, one that ends its lookup without an answer, and the walks that come and go
over them; with these every step keeps what the interleaving keeps.
-/

namespace Kobako.Dcache

open Kobako.Vfs (FsError)

variable {τ ν ι : Type}

namespace World

variable {world after : World τ ν ι} {thread : τ} {frame : Frame ν ι} {rest : List (Frame ν ι)}
  {phase : Phase ν ι} [DecidableEq τ] [DecidableEq ν]

/-! ## The steps that answer -/

variable {dentry : Nat} {ends : Bool} {found : Lookup ν ι}

omit [DecidableEq τ] [DecidableEq ν] in
/-- What a walk asks about is a dentry that was made. -/
theorem AskedAt.lt_made {place : Key ν} (asked : world.AskedAt thread place dentry)
    (tabled : world.Tabled) : dentry < world.made :=
  asked.heldAt.lt_made tabled

/-- The walk that asks answers: the name leaves `in_lookup_hashtable`. -/
theorem Sound.answer (sound : world.Sound) (stacked : world.stack thread = frame :: rest)
    (splicing : frame.phase = .splicing dentry ends found) (stack : after.stack = world.stack)
    (onward : (world.rehash dentry).Onward after) (tabled : after.Tabled)
    (asked : ∀ other, after.asked other = (world.rehash dentry).asked other)
    (key : ∀ other, after.key other = world.key other)
    (entries : after.inLookupHashtable = (world.rehash dentry).inLookupHashtable) :
    (after.onto thread (frame.at (.ending dentry ends (.ok none)) :: rest)).Sound := by
  have rehashed : ∀ walker place phase, world.Knows walker place phase →
      after.Knows walker place phase :=
    fun _ _ _ knows => onward.knows ((world.rehash_onward dentry).knows knows)
  have answered : after.Answered dentry :=
    onward.answered dentry (world.rehash_answered dentry)
  refine sound.goOn stacked stack tabled
    (fun walker other kept => rehashed _ _ _ (sound.known walker other kept.1))
    ⟨.inl answered, fun spliced told => ?_⟩ (fun other begins => ?_) ?_
  · cases told
    exact answered
  · refine sound.begun_apart stacked ?_
    rw [splicing]
    exact begins
  · intro place other entered
    rw [entries, rehash_inLookupHashtable] at entered
    obtain ⟨stood, apart⟩ :=
      leaveLookup_entry world (fun entry => (sound.owned place dentry entry).1) entered
    obtain ⟨placed, walker, owner, mem, here, owns⟩ := sound.owned place other stood
    refine ⟨(key other).trans placed, .inl ?_⟩
    obtain kept | ⟨rfl, rfl⟩ := owner_cases stacked mem
    · refine ⟨walker, owner, kept, here, ?_⟩
      rw [Owns, asked, rehash_asked, if_neg apart]
      exact owns
    · rw [splicing] at owns
      obtain ⟨-, takes⟩ | ⟨-, begins⟩ := owns
      · cases takes
      · have same : dentry = other := by
          simp only [Phase.begun] at begins
          split at begins
          · exact Option.some.inj begins
          · cases begins
        exact absurd same.symm apart

theorem Sound.answerAbsent (sound : world.Sound) (stacked : world.stack thread = frame :: rest)
    (splicing : frame.phase = .splicing dentry ends found) :
    ((world.rehash dentry).onto thread
      (frame.at (.ending dentry ends (.ok none)) :: rest)).Sound := by
  have here := sound.here stacked
  rw [splicing] at here
  have bound := AskedAt.lt_made here sound.tabled
  exact sound.answer stacked splicing (by simp)
    (.of_same rfl (fun _ => rfl) (fun _ => rfl) (fun _ => rfl))
    (rehash_tabled sound.tabled bound) (fun _ => rfl) (by simp) rfl

theorem Sound.answerFound [DecidableEq ι] (isDir : ι → Bool) (sound : world.Sound)
    (stacked : world.stack thread = frame :: rest) (inode : ι)
    (splicing : frame.phase = .splicing dentry ends found) :
    (((world.instantiate isDir dentry inode).rehash dentry).onto thread
      (frame.at (.ending dentry ends (.ok none)) :: rest)).Sound := by
  have here := sound.here stacked
  rw [splicing] at here
  have bound := AskedAt.lt_made here sound.tabled
  rw [instantiate_rehash]
  obtain ⟨-, -, inLookup, stack⟩ := instantiate_tables isDir (world.rehash dentry) dentry inode
  exact sound.answer stacked splicing (by rw [stack, rehash_stack])
    (instantiate_onward isDir _ dentry inode)
    (instantiate_tabled isDir (rehash_tabled sound.tabled bound) inode
      (world.rehash_answered dentry))
    (by simp) (by simp) inLookup

theorem Sound.splice [DecidableEq ι] (isDir : ι → Bool) (sound : world.Sound)
    (stacked : world.stack thread = frame :: rest) {inode : ι}
    (splicing : frame.phase = .splicing dentry ends (.found inode)) :
    (∃ added, world.findAliasOrAdd isDir inode dentry = (added, none) ∧
        (added.onto thread (frame.at (.ending dentry ends (.ok none)) :: rest)).Sound) ∨
      ∃ other, world.findAliasOrAdd isDir inode dentry = (world, some other) ∧
        (world.onto thread (frame.at (.aliased dentry ends other) :: rest)).Sound := by
  have here := sound.here stacked
  rw [splicing] at here
  unfold findAliasOrAdd
  cases held : world.inodeDentry inode with
  | none => exact .inl ⟨_, rfl, sound.answerFound isDir stacked inode splicing⟩
  | some other =>
    by_cases same : other = dentry
    · simp only [same, if_true]
      exact .inl ⟨_, rfl, sound.answerFound isDir stacked inode splicing⟩
    · simp only [same, if_false]
      refine .inr ⟨other, rfl, sound.turn stacked ⟨here, sound.tabled.standing inode other held⟩
        (by rw [splicing]; exact fun _ begins => begins) ?_⟩
      rw [splicing]
      exact fun _ owns => owns

/-- `unalias`, whatever came of it. -/
theorem Sound.unalias (sound : world.Sound) (stacked : world.stack thread = frame :: rest)
    {dentry other : Nat} {place : Key ν} (free : Bool)
    (aliasing : frame.phase = .aliasing dentry ends other place) :
    ((world.unaliased dentry other place free).1.onto thread
      (frame.at (.ending dentry ends (world.unaliased dentry other place free).2) ::
        rest)).Sound := by
  have here := sound.here stacked
  rw [aliasing] at here
  have failed : ∀ e, (world.onto thread
      (frame.at (.ending dentry ends (.error e)) :: rest)).Sound := by
    intro e
    refine sound.turn stacked ⟨here.1, nofun⟩ ?_ ?_
    · rw [aliasing]
      exact fun _ begins => begins
    · rw [aliasing]
      exact fun _ owns => owns
  unfold unaliased
  split
  · exact failed .filesystemLoop
  · rename_i apart
    split
    · rw [Bool.or_eq_true, not_or] at apart
      have rooted : world.isRoot other = false := by simpa using apart.2
      have answered : world.Answered other := by
        obtain answered | root := here.2
        · exact answered
        · simp [rooted] at root
      have onward := moveTo_onward place answered rooted
      refine sound.change stacked rfl onward (moveTo_tabled sound.tabled place answered rooted)
        ⟨onward.askedAt here.1, fun spliced told => ?_⟩ ?_ ?_
      · cases told
        exact onward.answered other answered
      · rw [aliasing]
        exact fun _ begins => begins
      · intro name entry entered
        have stood : world.inLookupHashtable name = some entry := entered
        obtain ⟨-, walker, owner, -, -, owns⟩ := sound.owned name entry stood
        have distinct : entry ≠ other := by
          intro same
          subst same
          have within := owns.inLookup
          simp [answered.inLookup] at within
        refine ⟨stood, moveTo_asked world other place entry, moveTo_key world place distinct, ?_⟩
        rw [aliasing, Owns, Owns, moveTo_asked]
        exact fun owns => owns
    · exact failed .stale

/-! ## The steps that end a lookup -/

omit [DecidableEq τ] in
/-- Another walk than the one that began it knows nothing a lookup without an answer takes away. -/
theorem Sound.lookupDone_others (sound : world.Sound) (stacked : world.stack thread = frame :: rest)
    (begun : frame.phase.begun = some dentry) (walker : τ) (other : Frame ν ι)
    (kept : world.Other thread rest walker other) :
    (world.lookupDone dentry).Knows walker other.key other.phase := by
  have knows := sound.known walker other kept.1
  have asked : world.AskedAt thread frame.key dentry := by
    have here := sound.here stacked
    cases phased : frame.phase <;> simp_all [Phase.begun, Knows]
  have engaged : walker = thread → other.phase.engaged ≠ some dentry :=
    fun own => sound.begun_apart stacked begun other (kept.2 own)
  have lower : walker = thread → other.phase.beneath = true := fun own =>
    sound.beneath thread other (by rw [stacked]; exact kept.2 own)
  unfold World.lookupDone
  split
  · rename_i within
    obtain answered | ⟨asking, -⟩ := asked
    · simp [answered.inLookup] at within
    have answered : ∀ other, world.Answered other →
        ((world.leaveLookup dentry).setAsked dentry .unasked).Answered other := by
      intro other answered
      have apart : other ≠ dentry := by
        intro same
        subst same
        simp [answered.inLookup] at within
      rw [Answered, setAsked_asked, if_neg apart, leaveLookup_asked]
      exact answered
    have standing : ∀ other, world.Standing other →
        ((world.leaveLookup dentry).setAsked dentry .unasked).Standing other := by
      intro other standing
      obtain stands | root := standing
      · exact .inl (answered other stands)
      · exact .inr (by simpa using root)
    refine knows.carry (by simp) answered standing ?_ ?_ ?_
    · intro seen _ stillWithin
      rw [setAsked_asked] at stillWithin
      split at stillWithin
      · cases stillWithin
      · simpa using stillWithin
    · -- a lower walk of the thread has taken nothing, another thread holds another dentry
      intro held takes holds
      obtain stands | ⟨heldFor, placed⟩ := holds
      · exact .inl (answered held stands)
      · have apart : held ≠ dentry := by
          intro same
          subst same
          have own : walker = thread := by
            simpa [asking, LookupState.heldFor, eq_comm] using heldFor
          have below := lower own
          cases phased : other.phase <;> simp_all [Phase.taken, Phase.beneath]
        right
        simp [setAsked_asked, apart, heldFor, placed]
    · intro about engages asks
      obtain stands | ⟨asksIt, placed⟩ := asks
      · exact .inl (answered about stands)
      · have apart : about ≠ dentry := by
          intro same
          subst same
          have own : walker = thread := by simpa [asking, eq_comm] using asksIt
          exact engaged own engages
        right
        simp [setAsked_asked, apart, asksIt, placed]
  · exact knows

omit [DecidableEq τ] in
theorem lookupDone_answered {dentry other : Nat} (answered : world.Answered other) :
    (world.lookupDone dentry).Answered other := by
  unfold World.lookupDone
  split
  · rename_i within
    have apart : other ≠ dentry := by
      intro same
      subst same
      simp [answered.inLookup] at within
    rw [Answered, setAsked_asked, if_neg apart, leaveLookup_asked]
    exact answered
  · exact answered

/-- What is left in `in_lookup_hashtable` once a lookup ended is held by another walk. -/
theorem Sound.lookupDone_owned (sound : world.Sound) (stacked : world.stack thread = frame :: rest)
    (taken : frame.phase.taken = none) (begun : frame.phase.begun = some dentry) (place : Key ν)
    (entry : Nat) (entered : (world.lookupDone dentry).inLookupHashtable place = some entry) :
    (world.lookupDone dentry).key entry = place ∧
      ∃ walker other, world.Other thread rest walker other ∧ other.key = place ∧
        (world.lookupDone dentry).Owns walker entry other.phase := by
  rw [lookupDone_key]
  have apart : world.inLookupHashtable place = some entry ∧ entry ≠ dentry := by
    unfold World.lookupDone at entered
    split at entered
    · exact leaveLookup_entry world (fun stands => (sound.owned place dentry stands).1) entered
    · rename_i isOver
      refine ⟨entered, fun same => ?_⟩
      subst same
      obtain ⟨-, walker, owner, -, -, owns⟩ := sound.owned place entry entered
      exact isOver owns.inLookup
  obtain ⟨placed, walker, owner, mem, here, owns⟩ := sound.owned place entry apart.1
  refine ⟨placed, walker, owner, ?_⟩
  obtain kept | ⟨rfl, rfl⟩ := owner_cases stacked mem
  · refine ⟨kept, here, ?_⟩
    have asked : (world.lookupDone dentry).asked entry = world.asked entry := by
      unfold World.lookupDone
      split
      · rw [setAsked_asked, if_neg apart.2, leaveLookup_asked]
      · rfl
    rw [Owns, asked]
    exact owns
  · obtain ⟨-, takes⟩ | ⟨-, begins⟩ := owns
    · simp [taken] at takes
    · rw [begun] at begins
      exact absurd (Option.some.inj begins).symm apart.2

theorem Sound.endAsk (sound : world.Sound) (stacked : world.stack thread = frame :: rest)
    {asked : Except Refusal (Option Nat)} (ending : frame.phase = .ending dentry ends asked) :
    ((world.endAsk dentry ends).onto thread
      (frame.at (.done (asked.map fun spliced => spliced.getD dentry)) :: rest)).Sound := by
  have here := sound.here stacked
  rw [ending] at here
  have taken : frame.phase.taken = none := by rw [ending]; rfl
  have told : ∀ answer, (asked.map fun spliced => spliced.getD dentry) = .ok answer →
      world.Answered answer := by
    intro answer mapped
    cases asked with
    | error e => cases mapped
    | ok spliced =>
      cases mapped
      exact here.2 spliced rfl
  cases ends with
  | false =>
    have begun : frame.phase.begun = none := by rw [ending]; rfl
    exact sound.turnFrom stacked taken begun told rfl
  | true =>
    have begun : frame.phase.begun = some dentry := by rw [ending]; rfl
    refine sound.goOn stacked (lookupDone_stack world dentry) (lookupDone_tabled sound.tabled)
      (sound.lookupDone_others stacked begun)
      (fun answer mapped => lookupDone_answered (told answer mapped)) nofun ?_
    intro place entry entered
    obtain ⟨placed, owner⟩ := sound.lookupDone_owned stacked taken begun place entry entered
    exact ⟨placed, .inl owner⟩

/-! ## The walks that come and go -/

omit [DecidableEq ν] in
theorem onto_onto (world : World τ ν ι) (thread : τ) (frames again : List (Frame ν ι)) :
    (world.onto thread frames).onto thread again = world.onto thread again := by
  simp [onto]

omit [DecidableEq ν] in
/-- A walk that is over leaves its thread to the one beneath. -/
theorem Sound.pop (sound : world.Sound) (stacked : world.stack thread = frame :: rest)
    (taken : frame.phase.taken = none) (begun : frame.phase.begun = none) :
    (world.onto thread rest).Sound where
  tabled := onto_tabled sound.tabled thread rest
  known walker other mem := by
    refine (onto_onward world thread rest).knows (sound.known walker other ?_)
    by_cases own : walker = thread
    · subst own
      rw [stacked]
      exact List.mem_cons_of_mem frame (by simpa [onto] using mem)
    · simpa [onto, own] using mem
  beneath walker other mem := by
    refine sound.beneath walker other ?_
    by_cases own : walker = thread
    · subst own
      rw [stacked]
      exact List.mem_of_mem_tail (by simpa [onto] using mem)
    · simpa [onto, own] using mem
  apart walker := by
    by_cases own : walker = thread
    · subst own
      have pairs := sound.apart walker
      rw [stacked, List.pairwise_cons] at pairs
      simpa [onto] using pairs.2
    · simpa [onto, own] using sound.apart walker
  owned place dentry entered := by
    obtain ⟨placed, walker, owner, mem, here, owns⟩ := sound.owned place dentry entered
    obtain kept | ⟨rfl, rfl⟩ := owner_cases stacked mem
    · refine ⟨placed, walker, owner, ?_, here, owns⟩
      by_cases own : walker = thread
      · subst own
        simpa [onto] using kept.2 rfl
      · simpa [onto, own] using kept.1
    · exact absurd owns (Owns.elim taken begun)

omit [DecidableEq ν] in
/-- A walk that reaches a name, over walks that stand still. -/
theorem Sound.push (sound : world.Sound) (still : ∀ lower ∈ world.stack thread,
      lower.phase.beneath = true) (known : world.Knows thread frame.key frame.phase)
    (begun : frame.phase.begun = none) :
    (world.onto thread (frame :: world.stack thread)).Sound where
  tabled := onto_tabled sound.tabled thread _
  known walker other mem := by
    refine (onto_onward world thread _).knows ?_
    by_cases own : walker = thread
    · subst own
      have member : other ∈ frame :: world.stack walker := by simpa [onto] using mem
      obtain same | lower := List.mem_cons.mp member
      · exact same ▸ known
      · exact sound.known walker other lower
    · exact sound.known walker other (by simpa [onto, own] using mem)
  beneath walker other mem := by
    by_cases own : walker = thread
    · subst own
      exact still other (by simpa [onto] using mem)
    · exact sound.beneath walker other (by simpa [onto, own] using mem)
  apart walker := by
    by_cases own : walker = thread
    · subst own
      have pairs : (frame :: world.stack walker).Pairwise Apart :=
        List.pairwise_cons.mpr
          ⟨fun _ _ dentry begins => by simp [begun] at begins, sound.apart walker⟩
      simpa [onto] using pairs
    · simpa [onto, own] using sound.apart walker
  owned place dentry entered := by
    obtain ⟨placed, walker, owner, mem, here, owns⟩ := sound.owned place dentry entered
    refine ⟨placed, walker, owner, ?_, here, owns⟩
    by_cases own : walker = thread
    · subst own
      simpa [onto] using .inr mem
    · simpa [onto, own] using mem

omit [DecidableEq τ] [DecidableEq ν] in
/-- The walks beneath the innermost one stand still. -/
theorem Sound.still (sound : world.Sound) (stacked : world.stack thread = frame :: rest)
    (top : frame.phase.beneath = true) : ∀ lower ∈ world.stack thread,
      lower.phase.beneath = true := by
  intro lower mem
  rw [stacked] at mem
  obtain same | under := List.mem_cons.mp mem
  · exact same ▸ top
  · exact sound.beneath thread lower (by rw [stacked]; exact under)

omit [DecidableEq ν] in
theorem Sound.spell (sound : world.Sound) (stacked : world.stack thread = frame :: rest) {name : ν}
    {inode : ι} (splicing : frame.phase = .splicing dentry ends (.spelled name inode)) :
    (world.onto thread (⟨(world.key dentry).1, name, some inode, .slow⟩ ::
      frame.at (.spelled dentry ends) :: rest)).Sound := by
  have here := sound.here stacked
  rw [splicing] at here
  have spelled : (world.onto thread (frame.at (.spelled dentry ends) :: rest)).Sound := by
    refine sound.turn stacked here ?_ ?_
    · rw [splicing]
      exact fun _ begins => begins
    · rw [splicing]
      exact fun _ owns => owns
  have stacked' : (world.onto thread (frame.at (.spelled dentry ends) :: rest)).stack thread =
      frame.at (.spelled dentry ends) :: rest := by simp [onto]
  have pushed : ((world.onto thread (frame.at (.spelled dentry ends) :: rest)).onto thread
      (⟨(world.key dentry).1, name, some inode, .slow⟩ ::
        (world.onto thread (frame.at (.spelled dentry ends) :: rest)).stack thread)).Sound :=
    spelled.push (spelled.still stacked' rfl) trivial rfl
  rw [stacked', onto_onto] at pushed
  exact pushed

omit [DecidableEq ν] in
theorem Sound.handDown (sound : world.Sound) (stacked : world.stack thread = frame :: rest)
    {answer : Except Refusal Nat} (done : frame.phase = .done answer) :
    (world.onto thread (handDown frame answer rest)).Sound := by
  have here := sound.here stacked
  rw [done] at here
  have popped := sound.pop stacked (by rw [done]; rfl) (by rw [done]; rfl)
  unfold World.handDown
  split
  · exact popped
  · rename_i below lower
    split
    · rename_i inode dentry ends _ spelled
      have stacked' : (world.onto thread (below :: lower)).stack thread = below :: lower := by
        simp [onto]
      have known := popped.here stacked'
      rw [spelled] at known
      have ended : (world.onto thread (below :: lower)).Knows thread below.key
          (.ending dentry ends (answer.map some)) := by
        refine ⟨known, fun spliced told => ?_⟩
        cases answer with
        | error e => cases told
        | ok found =>
          cases told
          exact here found rfl
      have turned := popped.turn stacked' ended (by rw [spelled]; exact fun _ begins => begins)
        (by rw [spelled]; exact fun _ owns => owns)
      rw [onto_onto] at turned
      exact turned
    · exact popped

/-! ## Every step -/

omit [DecidableEq τ] [DecidableEq ν] in
theorem Sound.drop (sound : world.Sound)
    (held : ∀ walker, ∀ frame ∈ world.stack walker, dentry ∉ frame.holds) :
    (world.drop dentry).Sound := by
  have isOver : (world.asked dentry).inLookup = false := by
    by_contra within
    have entered := sound.tabled.entered dentry (by simpa using within)
    obtain ⟨-, walker, owner, mem, -, owns⟩ := sound.owned _ dentry entered
    refine held walker owner mem (List.mem_cons_of_mem _ ?_)
    obtain ⟨-, takes⟩ | ⟨-, begins⟩ := owns
    · cases phased : owner.phase <;> simp_all [Phase.taken, Phase.holds]
    · have engages := Phase.engaged_of_begun begins
      cases phased : owner.phase <;> simp_all [Phase.engaged, Phase.holds]
  exact {
    tabled := drop_tabled sound.tabled isOver
    known := fun walker frame mem => (drop_onward world dentry).knows (sound.known walker frame mem)
    beneath := sound.beneath
    apart := sound.apart
    owned := by
      intro place entry entered
      exact sound.owned place entry (Option.filter_eq_some_iff.mp entered).1 }

theorem Sound.advance [DecidableEq ι] (isDir : ι → Bool) {next : World τ ν ι} (sound : world.Sound)
    (stacked : world.stack thread = frame :: rest) {fatal : Bool}
    (advanced : world.advance isDir thread fatal frame rest = some next) : next.Sound := by
  have here := sound.here stacked
  unfold World.advance at advanced
  split at advanced
  · rename_i fast
    have taken : frame.phase.taken = none := by rw [fast]; rfl
    have begun : frame.phase.begun = none := by rw [fast]; rfl
    split at advanced
    · rename_i dentry found
      cases advanced
      exact sound.turnFrom stacked taken begun (sound.tabled.found _ dentry found) rfl
    · cases advanced
      exact sound.turnFrom stacked taken begun trivial rfl
  · rename_i slow
    cases advanced
    exact sound.allocTurn stacked slow
  · rename_i waited waiting
    cases advanced
    exact sound.wait stacked fatal waiting
  · rename_i waited left
    have taken : frame.phase.taken = none := by rw [left]; rfl
    have begun : frame.phase.begun = none := by rw [left]; rfl
    rw [left] at here
    cases advanced
    split
    · exact sound.turnFrom stacked taken begun here rfl
    · exact sound.turnFrom stacked taken begun trivial rfl
  · rename_i waited comparing
    have taken : frame.phase.taken = none := by rw [comparing]; rfl
    have begun : frame.phase.begun = none := by rw [comparing]; rfl
    cases advanced
    split
    · rename_i hashed
      exact sound.turnFrom stacked taken begun (.inl (sound.tabled.hashed waited hashed)) rfl
    · exact sound.turnFrom stacked taken begun trivial rfl
  · rename_i dentry given
    cases advanced
    exact sound.give stacked given
  · rename_i dentry beginning
    cases advanced
    exact sound.beginWait stacked fatal beginning
  · rename_i dentry entering
    cases advanced
    exact sound.beginLookup stacked entering
  · rename_i dentry ends splicing
    cases advanced
    exact sound.answerAbsent stacked splicing
  · rename_i dentry ends inode splicing
    obtain ⟨added, found, ended⟩ | ⟨other, found, turned⟩ := sound.splice isDir stacked splicing
    · rw [found] at advanced
      cases advanced
      exact ended
    · rw [found] at advanced
      cases advanced
      exact turned
  · rename_i dentry ends name inode splicing
    cases advanced
    exact sound.spell stacked splicing
  · rename_i dentry ends other aliased
    rw [aliased] at here
    cases advanced
    refine sound.turn stacked here ?_ ?_
    · rw [aliased]
      exact fun _ begins => begins
    · rw [aliased]
      exact fun _ owns => owns
  · rename_i dentry ends asked ending
    cases advanced
    exact sound.endAsk stacked ending
  · rename_i answer done
    cases advanced
    exact sound.handDown stacked done
  all_goals cases advanced

/-- `revalidate` answered, and what it takes away. -/
theorem Sound.trust (sound : world.Sound) (stacked : world.stack thread = frame :: rest)
    (valid : Except FsError Bool) {kept again : Phase ν ι} (taken : frame.phase.taken = none)
    (begun : frame.phase.begun = none) (known : world.Knows thread frame.key kept)
    (begins : kept.begun = none) (look : again = .locking ∨ again = .slow) :
    ((world.revalidated dentry valid kept again).1.onto thread
      (frame.at (world.revalidated dentry valid kept again).2 :: rest)).Sound := by
  unfold revalidated
  split
  · exact sound.turnFrom stacked taken begun known begins
  · refine sound.change stacked (unhash_rest world dentry).2.2.2 (world.unhash_onward dentry)
      (unhash_tabled sound.tabled dentry) ?_ ?_ ?_
    · obtain rfl | rfl := look
      · trivial
      · trivial
    · obtain rfl | rfl := look
      · nofun
      · nofun
    · intro place other entered
      rw [(unhash_rest world dentry).2.1] at entered
      have same := unhash_dentry world dentry other
      exact ⟨entered, same.1, same.2.1,
        fun owns => absurd owns (Owns.elim taken begun)⟩
  · exact sound.turnFrom stacked taken begun nofun rfl

/-- Every step keeps it. -/
theorem Sound.step [DecidableEq ι] [Fintype τ] (isDir : ι → Bool) (act : Act τ ν ι)
    {next : World τ ν ι} (sound : world.Sound) (stepped : world.step isDir act = some next) :
    next.Sound := by
  cases steps_of_step stepped with
  | @walk thread parent name outside =>
    refine sound.push ?_ trivial rfl
    intro lower mem
    cases stacked : world.stack thread with
    | nil =>
      rw [stacked] at mem
      cases mem
    | cons frame rest =>
      have top : frame.phase.beneath = true := by
        cases phased : frame.phase <;> simp_all [Phase.outside, Phase.beneath]
      exact sound.still stacked top lower mem
  | go stacked advanced => exact sound.advance isDir stacked advanced
  | @turn thread act frame rest _ _ stacked turns =>
    have here := sound.here stacked
    generalize stood : frame.phase = before at here turns
    cases turns with
    | locked => exact sound.turnFrom stacked (by rw [stood]; rfl) (by rw [stood]; rfl) trivial rfl
    | refused e =>
      exact sound.turnFrom stacked (by rw [stood]; rfl) (by rw [stood]; rfl) nofun rfl
    | trusted dentry valid =>
      refine sound.trust stacked valid (by rw [stood]; rfl) (by rw [stood]; rfl)
        (fun other told => ?_) rfl (.inl rfl)
      cases told
      exact here
    | revalidated dentry valid =>
      exact sound.trust stacked valid (by rw [stood]; rfl) (by rw [stood]; rfl)
        (.inl here) rfl (.inr rfl)
    | found dentry ends found =>
      exact sound.turn stacked here (by rw [stood]; exact fun _ begins => begins)
        (by rw [stood]; exact fun _ owns => owns)
    | failed dentry ends e =>
      exact sound.turn stacked ⟨here, nofun⟩ (by rw [stood]; exact fun _ begins => begins)
        (by rw [stood]; exact fun _ owns => owns)
    | unaliased dentry ends other place free => exact sound.unalias stacked free stood
  | forget held => exact sound.drop held

end World

end Kobako.Dcache
