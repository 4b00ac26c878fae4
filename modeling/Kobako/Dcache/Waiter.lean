import Kobako.Dcache.Asker

/-!
# The walks that wait

What becomes of a walk that finds its name in lookup by another thread: it takes the dentry it
waited on once a lookup answered for it and it stands at the name, it is refused, or it sees that
the dentry does not stand there and looks again.
-/

namespace Kobako.Dcache

open Kobako.Vfs (FsError)

variable {τ ν ι : Type}

/-- The dentry a walk waits on, or has waited on and is to take. -/
def Phase.awaited : Phase ν ι → Option Nat
  | .waiting dentry | .left dentry | .comparing dentry | .given dentry | .revalidating dentry
  | .beginning dentry | .entering dentry => some dentry
  | _ => none

/-- How many steps of its own a walk may be from the end of a wait that nothing holds up. -/
def Phase.toGo : Phase ν ι → Nat
  | .waiting _ => 7
  | .left _ => 6
  | .comparing _ => 5
  | .given _ => 4
  | .revalidating _ => 3
  | .beginning _ => 2
  | .entering _ => 1
  | _ => 0

/-- The thread an act is a step of. -/
def Act.thread : Act τ ν ι → Option τ
  | .walk thread _ _ | .go thread _ | .lock thread _ | .trust thread _ | .answer thread _
  | .unalias thread _ => some thread
  | .forget _ => none

namespace World

variable {world next : World τ ν ι} {thread : τ} {frame : Frame ν ι} {rest : List (Frame ν ι)}
  {place : Key ν} {waited : Nat} [DecidableEq ν] (isDir : ι → Bool)

/-- A walk of a thread waits on a dentry another holds in lookup, or has yet to take it; what the
Filesystem asks while it revalidates goes on above. -/
def Waits (world : World τ ν ι) (thread : τ) (rest : List (Frame ν ι)) (place : Key ν)
    (waited : Nat) : Prop :=
  (world.asked waited).heldFor ≠ some thread ∧
    ∃ upper frame, world.stack thread = upper ++ frame :: rest ∧ frame.key = place ∧
      frame.phase.awaited = some waited ∧ (upper ≠ [] → frame.phase = .revalidating waited)

/-- What comes of the wait, by the act that ends it. -/
def Told (world : World τ ν ι) (act : Act τ ν ι) (next : World τ ν ι) (thread : τ)
    (rest : List (Frame ν ι)) (place : Key ν) (waited : Nat) : Prop :=
  ∃ frame phase, world.stack thread = frame :: rest ∧ frame.key = place ∧
    next.stack thread = frame.at phase :: rest ∧
    -- it returns the dentry, which a lookup answered for
    ((phase = .done (.ok waited) ∧ next.Answered waited) ∨
      -- a fatal signal ends it while another walk holds the dentry in lookup
      (phase = .done (.error .interrupted) ∧ act = .go thread true ∧
        (world.asked waited).inLookup = true) ∨
      -- it is refused with the error `revalidate` of the dentry ended with
      (∃ e, phase = .done (.error (.told e)) ∧ act = .trust thread (.error e) ∧
        frame.phase = .revalidating waited) ∨
      -- it looks again, the lookup over and the dentry not found at the name
      (phase = .slow ∧ (next.asked waited).inLookup = false ∧
        ¬((next.dentries waited).hashed = true ∧ next.key waited = place)))

/-! ## What a step does to the walks of its thread -/

/-- The walks of a thread once its innermost one stepped: something over the others, or the one
beneath with the answer of the one it called. -/
def Above (under frames : List (Frame ν ι)) : Prop :=
  (∃ upper, frames = upper ++ under) ∨
    ∃ below lower phase, under = below :: lower ∧ (∃ dentry ends, below.phase = .spelled dentry ends) ∧
      frames = below.at phase :: lower

omit [DecidableEq ν] in
theorem handDown_above (upper : Frame ν ι) (answer : Except Refusal Nat)
    (under : List (Frame ν ι)) : Above under (handDown upper answer under) := by
  unfold handDown
  split
  · exact .inl ⟨[], rfl⟩
  · split
    · rename_i below lower _ _ inode dentry ends _ spelled
      exact .inr ⟨below, lower, _, rfl, ⟨dentry, ends, spelled⟩, rfl⟩
    · exact .inl ⟨[], rfl⟩

/-- A walk that turns is the thread's own. -/
theorem Turns.own {act : Act τ ν ι} {before phase : Phase ν ι}
    {after : World τ ν ι} (turns : world.Turns thread before act after phase) :
    act.thread = some thread := by
  cases turns <;> rfl

variable [DecidableEq τ] [DecidableEq ι]

theorem advance_onto {fatal : Bool}
    (advanced : world.advance isDir thread fatal frame rest = some next) :
    ∃ (after : World τ ν ι) (frames : List (Frame ν ι)), after.stack = world.stack ∧
      Above rest frames ∧ next = after.onto thread frames := by
  have turned : ∀ {after : World τ ν ι} {phase : Phase ν ι}, after.stack = world.stack →
      some (after.onto thread (frame.at phase :: rest)) = some next →
      ∃ (after : World τ ν ι) (frames : List (Frame ν ι)), after.stack = world.stack ∧
        Above rest frames ∧ next = after.onto thread frames := by
    intro after phase stack went
    exact ⟨after, _, stack, .inl ⟨[frame.at phase], rfl⟩, (Option.some.inj went).symm⟩
  unfold World.advance at advanced
  split at advanced
  · split at advanced
    · exact turned rfl advanced
    · exact turned rfl advanced
  · exact turned (allocTurn_stack world thread frame.key) advanced
  · exact turned rfl advanced
  · exact turned rfl advanced
  · exact turned rfl advanced
  · exact turned rfl advanced
  · exact turned rfl advanced
  · exact turned (beginLookup_stack world thread frame _) advanced
  · exact turned (rehash_stack world _) advanced
  · rename_i dentry ends inode splicing
    have stack := findAliasOrAdd_stack isDir world inode dentry
    split at advanced
    · rename_i added found
      rw [found] at stack
      exact turned stack advanced
    · rename_i same holder found
      rw [found] at stack
      exact turned stack advanced
  · rename_i dentry ends name inode splicing
    exact ⟨world, _, rfl, .inl ⟨[⟨(world.key dentry).1, name, some inode, .slow⟩,
      frame.at (.spelled dentry ends)], rfl⟩, (Option.some.inj advanced).symm⟩
  · exact turned rfl advanced
  · exact turned (endAsk_stack world _ _) advanced
  · exact ⟨world, _, rfl, handDown_above frame _ rest, (Option.some.inj advanced).symm⟩
  all_goals cases advanced

/-- What a step does to the walks: nothing, one walk more for its thread, or the innermost one at
its next phase. -/
def Restacked (world next : World τ ν ι) (act : Act τ ν ι) : Prop :=
  next.stack = world.stack ∨
    ∃ (walker : τ) (after : World τ ν ι) (frames : List (Frame ν ι)), act.thread = some walker ∧
      after.stack = world.stack ∧ next = after.onto walker frames ∧
      ((∃ top, frames = top :: world.stack walker) ∨
        ∃ frame rest, world.stack walker = frame :: rest ∧ Above rest frames)

/-- A step of one thread leaves the walks of the others as they are, and of its own all but the
innermost. -/
theorem step_onto [Fintype τ] {act : Act τ ν ι} (stepped : world.step isDir act = some next) :
    world.Restacked next act := by
  cases steps_of_step stepped with
  | @walk thread parent name outside =>
    exact .inr ⟨thread, world, _, rfl, rfl, rfl, .inl ⟨⟨parent, name, none, .fast⟩, rfl⟩⟩
  | @go thread fatal frame rest _ stacked advanced =>
    obtain ⟨after, frames, stack, above, went⟩ := advance_onto isDir advanced
    exact .inr ⟨thread, after, frames, rfl, stack, went, .inr ⟨frame, rest, stacked, above⟩⟩
  | @turn thread act frame rest after phase stacked turns =>
    exact .inr ⟨thread, after, _, turns.own, turns.stack, rfl,
      .inr ⟨frame, rest, stacked, .inl ⟨[frame.at phase], rfl⟩⟩⟩
  | forget held => exact .inl rfl

/-- A step of another thread leaves the walks of this one alone. -/
theorem step_elsewhere [Fintype τ] {act : Act τ ν ι} (stepped : world.step isDir act = some next)
    (other : act.thread ≠ some thread) : next.stack thread = world.stack thread := by
  obtain same | ⟨walker, after, frames, own, stack, went, -⟩ := step_onto isDir stepped
  · rw [same]
  · have apart : thread ≠ walker := by
      intro same
      exact other (same ▸ own)
    subst went
    simp [onto, apart, stack]

/-! ## The wait -/

omit [DecidableEq τ] [DecidableEq ν] [DecidableEq ι] in
/-- What a walk waits on is a dentry that was made. -/
theorem Sound.awaited_lt_made (sound : world.Sound) {walker : τ} {other : Frame ν ι}
    (mem : other ∈ world.stack walker) (awaited : other.phase.awaited = some waited) :
    waited < world.made := by
  have knows := sound.known walker other mem
  have answered : world.Answered waited → waited < world.made := fun answered =>
    sound.tabled.lt_made (by rw [answered]; nofun)
  cases phased : other.phase with
  | waiting dentry | left dentry | comparing dentry =>
    rw [phased] at knows awaited
    cases awaited
    exact knows.1
  | given dentry =>
    rw [phased] at knows awaited
    cases awaited
    exact HeldAt.lt_made knows sound.tabled
  | revalidating dentry =>
    rw [phased] at knows awaited
    cases awaited
    exact answered knows
  | beginning dentry | entering dentry =>
    rw [phased] at knows awaited
    cases awaited
    exact HeldAt.lt_made knows sound.tabled
  | _ =>
    rw [phased] at awaited
    cases awaited

/-- No thread takes over a lookup another holds or held. -/
theorem step_heldFor [Fintype τ] {act : Act τ ν ι} (sound : world.Sound)
    (stepped : world.step isDir act = some next) (bound : waited < world.made)
    (another : (world.asked waited).heldFor ≠ some thread) :
    (next.asked waited).heldFor ≠ some thread := by
  obtain same | ⟨answered, -⟩ | left | ⟨walk, allocated, asking⟩ :=
    step_follows isDir sound stepped bound
  · rwa [same]
  · rw [answered]
    nofun
  · rw [left]
    nofun
  · rw [allocated] at another
    rw [asking]
    exact another

/-- A walk that waits stays with the dentry, and where no walk holds it in lookup comes closer to
its end. -/
def Nears (world next : World τ ν ι) (thread : τ) (frame : Frame ν ι) (rest : List (Frame ν ι))
    (waited : Nat) : Prop :=
  ∃ phase, next.stack thread = frame.at phase :: rest ∧ phase.awaited = some waited ∧
    ((world.asked waited).inLookup = false → phase.toGo < frame.phase.toGo)

/-- The innermost walk of a thread that waits, and a step of that walk. -/
theorem advance_waits {fatal : Bool} (sound : world.Sound)
    (stacked : world.stack thread = frame :: rest)
    (another : (world.asked waited).heldFor ≠ some thread)
    (awaited : frame.phase.awaited = some waited)
    (advanced : world.advance isDir thread fatal frame rest = some next) :
    world.Nears next thread frame rest waited ∨
      world.Told (.go thread fatal) next thread rest frame.key waited := by
  have here := sound.here stacked
  have turned : ∀ (phase : Phase ν ι), phase.awaited = some waited →
      ((world.asked waited).inLookup = false → phase.toGo < frame.phase.toGo) →
      world.Nears (world.onto thread (frame.at phase :: rest)) thread frame rest waited :=
    fun phase awaits nearer => ⟨phase, by simp [onto], awaits, nearer⟩
  have stays : ∀ (phase : Phase ν ι), phase.awaited = some waited →
      (world.asked waited).inLookup = true →
      world.Nears (world.onto thread (frame.at phase :: rest)) thread frame rest waited := by
    intro phase awaits within
    refine turned phase awaits fun isOver => ?_
    rw [within] at isOver
    cases isOver
  have killed : fatal = true → (world.asked waited).inLookup = true →
      world.Told (.go thread fatal) (world.onto thread (frame.at (.done (.error .interrupted)) :: rest))
        thread rest frame.key waited :=
    fun signal within => ⟨frame, _, stacked, rfl, by simp [onto],
      .inr (.inl ⟨rfl, by rw [signal], within⟩)⟩
  have again : (world.asked waited).inLookup = false →
      ¬((world.dentries waited).hashed = true ∧ world.key waited = frame.key) →
      world.Told (.go thread fatal) (world.onto thread (frame.at .slow :: rest)) thread rest
        frame.key waited :=
    fun isOver moved => ⟨frame, _, stacked, rfl, by simp [onto],
      .inr (.inr (.inr ⟨rfl, isOver, moved⟩))⟩
  cases phased : frame.phase with
  | waiting dentry =>
    rw [phased] at awaited here turned
    cases awaited
    simp only [advance, phased] at advanced
    cases advanced
    obtain ⟨held, -⟩ | ⟨within, -, went | ⟨signal, went⟩⟩ | ⟨-, went⟩ :=
      waitLookup_cases world thread waited fatal (.waiting waited : Phase ν ι) (.given waited)
        (.left waited)
    · exact absurd held another
    · rw [went]
      exact .inl (stays (.waiting waited) rfl within)
    · rw [went]
      exact .inr (killed signal within)
    · rw [went]
      exact .inl (turned (.left waited) rfl fun _ => by simp [Phase.toGo])
  | left dentry =>
    rw [phased] at awaited here turned
    cases awaited
    simp only [advance, phased] at advanced
    cases advanced
    split
    · exact .inl (turned (.comparing waited) rfl fun _ => by simp [Phase.toGo])
    · rename_i elsewhere
      exact .inr (again here.2 fun stands => elsewhere stands.2)
  | comparing dentry =>
    rw [phased] at awaited here turned
    cases awaited
    simp only [advance, phased] at advanced
    cases advanced
    split
    · exact .inl (turned (.given waited) rfl fun _ => by simp [Phase.toGo])
    · rename_i unhashed
      exact .inr (again here.2 fun stands => unhashed stands.1)
  | given dentry =>
    rw [phased] at awaited turned
    cases awaited
    simp only [advance, phased] at advanced
    cases advanced
    split
    · exact .inl (turned (.beginning waited) rfl fun _ => by simp [Phase.toGo])
    · exact .inl (turned (.revalidating waited) rfl fun _ => by simp [Phase.toGo])
  | revalidating dentry =>
    simp only [advance, phased] at advanced
    cases advanced
  | beginning dentry =>
    rw [phased] at awaited turned
    cases awaited
    simp only [advance, phased] at advanced
    cases advanced
    obtain ⟨-, went⟩ | ⟨within, -, went | ⟨signal, went⟩⟩ | ⟨-, went⟩ :=
      waitLookup_cases world thread waited fatal (.beginning waited : Phase ν ι) (.entering waited)
        (.entering waited)
    · rw [went]
      exact .inl (turned (.entering waited) rfl fun _ => by simp [Phase.toGo])
    · rw [went]
      exact .inl (stays (.beginning waited) rfl within)
    · rw [went]
      exact .inr (killed signal within)
    · rw [went]
      exact .inl (turned (.entering waited) rfl fun _ => by simp [Phase.toGo])
  | entering dentry =>
    rw [phased] at awaited here
    cases awaited
    have answered : world.Answered waited := by
      obtain answered | ⟨held, -⟩ := (here : world.HeldAt thread frame.key waited)
      · exact answered
      · exact absurd held another
    simp only [advance, phased] at advanced
    cases advanced
    right
    have state : world.asked waited = .answered := answered
    simp only [beginLookup, state]
    exact ⟨frame, _, stacked, rfl, by simp [onto], .inl ⟨rfl, answered⟩⟩
  | _ =>
    rw [phased] at awaited
    cases awaited

omit [DecidableEq ν] [DecidableEq ι] in
/-- A walk that waits stands at the bottom of what its thread does meanwhile. -/
theorem Above.waits {upper frames : List (Frame ν ι)}
    (still : frame.phase = .revalidating waited)
    (above : Above (upper ++ frame :: rest) frames) :
    ∃ higher, frames = higher ++ frame :: rest := by
  obtain ⟨higher, rfl⟩ | ⟨below, lower, phase, split, ⟨dentry, ends, spelled⟩, rfl⟩ := above
  · exact ⟨higher ++ upper, by simp⟩
  · cases upper with
    | nil =>
      obtain ⟨rfl, -⟩ := List.cons.inj split
      simp [still] at spelled
    | cons one more =>
      obtain ⟨rfl, rfl⟩ := List.cons.inj split
      exact ⟨one.at phase :: more, rfl⟩

/-- A step of the thread, its innermost walk the one that waits. -/
theorem step_waits [Fintype τ] {act : Act τ ν ι} (sound : world.Sound)
    (stepped : world.step isDir act = some next) (stacked : world.stack thread = frame :: rest)
    (own : act.thread = some thread) (another : (world.asked waited).heldFor ≠ some thread)
    (awaited : frame.phase.awaited = some waited) :
    world.Nears next thread frame rest waited ∨
      (frame.phase = .revalidating waited ∧ (∃ parent name, act = .walk thread parent name) ∧
        ∃ top, next.stack thread = top :: frame :: rest) ∨
      world.Told act next thread rest frame.key waited := by
  have here := sound.here stacked
  cases steps_of_step stepped with
  | @walk walker parent name outside =>
    obtain rfl : walker = thread := Option.some.inj own
    right
    left
    refine ⟨?_, ⟨parent, name, rfl⟩, ⟨parent, name, none, .fast⟩, by simp [onto, stacked]⟩
    have free := outside frame rest stacked
    cases phased : frame.phase <;> simp_all [Phase.outside, Phase.awaited]
  | @go walker fatal top under _ above advanced =>
    obtain rfl : walker = thread := Option.some.inj own
    obtain ⟨rfl, rfl⟩ := List.cons.inj (above.symm.trans stacked)
    exact (advance_waits isDir sound stacked another awaited advanced).imp_right .inr
  | @turn walker act top under _ _ above turns =>
    obtain rfl : walker = thread := Option.some.inj (turns.own.symm.trans own)
    obtain ⟨rfl, rfl⟩ := List.cons.inj (above.symm.trans stacked)
    generalize stood : top.phase = before at turns
    rw [stood] at awaited here
    cases turns with
    | revalidated dentry valid =>
      cases awaited
      obtain ⟨-, went⟩ | ⟨rfl, went⟩ | ⟨e, rfl, went⟩ :=
        revalidated_phase world waited valid (.beginning waited : Phase ν ι) .slow
      · rw [went]
        refine .inl ⟨.beginning waited, by simp [onto], rfl, fun _ => ?_⟩
        rw [stood]
        simp [Phase.toGo]
      · rw [went]
        right
        right
        refine ⟨top, .slow, stacked, rfl, by simp [onto],
          .inr (.inr (.inr ⟨rfl, ?_, fun stands => ?_⟩))⟩
        · exact ((unhash_dentry world waited waited).1 ▸ Answered.inLookup here)
        · have unhashed := unhash_hashed world waited
          rw [show ((world.revalidated waited (.ok false) (.beginning waited : Phase ν ι)
            .slow).1.onto walker (top.at .slow :: under)).dentries =
              (world.unhash waited).dentries from rfl, unhashed] at stands
          cases stands.1
      · rw [went]
        right
        right
        exact ⟨top, _, stacked, rfl, by simp [onto], .inr (.inr (.inl ⟨e, rfl, rfl, stood⟩))⟩
    | _ => cases awaited
  | forget held => cases own

/-- A walk that waits goes on waiting, or is told. -/
theorem Waits.step [Fintype τ] {act : Act τ ν ι} (sound : world.Sound)
    (waits : world.Waits thread rest place waited) (stepped : world.step isDir act = some next) :
    next.Waits thread rest place waited ∨ world.Told act next thread rest place waited := by
  obtain ⟨another, upper, frame, stacked, here, awaited, still⟩ := waits
  have mem : frame ∈ world.stack thread := by
    rw [stacked]
    simp
  have held := step_heldFor isDir sound stepped (sound.awaited_lt_made mem awaited) another
  by_cases own : act.thread = some thread
  · cases upper with
    | nil =>
      obtain ⟨phase, went, awaits, -⟩ | ⟨revalidating, -, top, went⟩ | told :=
        step_waits isDir sound stepped stacked own another awaited
      · exact .inl ⟨held, [], frame.at phase, went, here, awaits, fun some => absurd rfl some⟩
      · exact .inl ⟨held, [top], frame, went, here, awaited, fun _ => revalidating⟩
      · exact .inr (here ▸ told)
    | cons top more =>
      left
      have revalidating := still (List.cons_ne_nil top more)
      obtain same | ⟨walker, after, frames, walks, -, went, pushed | ⟨first, under, under', above⟩⟩ :=
        step_onto isDir stepped
      · exact ⟨held, top :: more, frame, by rw [same, stacked], here, awaited, still⟩
      · obtain ⟨new, rfl⟩ := pushed
        obtain rfl : walker = thread := Option.some.inj (walks.symm.trans own)
        refine ⟨held, new :: top :: more, frame, ?_, here, awaited, fun _ => revalidating⟩
        rw [went]
        simp [onto, stacked]
      · obtain rfl : walker = thread := Option.some.inj (walks.symm.trans own)
        rw [stacked] at under'
        obtain ⟨-, rfl⟩ := List.cons.inj under'
        obtain ⟨higher, split⟩ := Above.waits revalidating above
        refine ⟨held, higher, frame, ?_, here, awaited, fun _ => revalidating⟩
        rw [went, ← split]
        simp [onto]
  · left
    exact ⟨held, upper, frame, (step_elsewhere isDir stepped own).trans stacked, here, awaited,
      still⟩

/-! ## Every run -/

/-- No walk is under way and no name in lookup. -/
structure AtRest (world : World τ ν ι) : Prop where
  tabled : world.Tabled
  idle : ∀ thread, world.stack thread = []
  free : ∀ place, world.inLookupHashtable place = none

omit [DecidableEq τ] [DecidableEq ν] [DecidableEq ι] in
theorem AtRest.sound (atRest : world.AtRest) : world.Sound where
  tabled := atRest.tabled
  known thread frame mem := by
    rw [atRest.idle thread] at mem
    cases mem
  beneath thread frame mem := by
    rw [atRest.idle thread] at mem
    cases mem
  apart thread := by
    rw [atRest.idle thread]
    exact List.Pairwise.nil
  owned place dentry entered := by
    rw [atRest.free place] at entered
    cases entered

omit [DecidableEq τ] [DecidableEq ν] [DecidableEq ι] in
theorem AtRest.unanswered (atRest : world.AtRest) : world.Unanswered := by
  intro thread frame mem
  rw [atRest.idle thread] at mem
  cases mem

/-- What a walk that looks a name up again comes to: an answered dentry that stands there, a dentry
in lookup to wait on, or a dentry of its own to ask about. -/
def LooksAgain (world next : World τ ν ι) (thread : τ) (frame : Frame ν ι)
    (rest : List (Frame ν ι)) : Prop :=
  (∃ found, world.dentryHashtable frame.key = some found ∧ next.Answered found ∧
      next.stack thread = frame.at (.given found) :: rest) ∨
    (∃ waited, world.inLookupHashtable frame.key = some waited ∧
      (next.asked waited).inLookup = true ∧
      next.stack thread = frame.at (.waiting waited) :: rest) ∨
    (world.dentryHashtable frame.key = none ∧ world.inLookupHashtable frame.key = none ∧
      ∃ made, next.asked made = .allocated thread ∧
        next.inLookupHashtable frame.key = some made ∧
        next.stack thread = frame.at (.given made) :: rest)

theorem Sound.looksAgain [Fintype τ] (sound : world.Sound) {fatal : Bool}
    (stacked : world.stack thread = frame :: rest) (slow : frame.phase = .slow)
    (stepped : world.step isDir (.go thread fatal) = some next) :
    world.LooksAgain next thread frame rest := by
  simp only [World.step, stacked, World.advance, slow] at stepped
  cases stepped
  unfold World.allocTurn
  cases table : world.dentryHashtable frame.key with
  | some found => exact .inl ⟨found, table, sound.tabled.found _ _ table, by simp [onto]⟩
  | none =>
    cases entry : world.inLookupHashtable frame.key with
    | some waited =>
      obtain ⟨-, walker, owner, -, -, owns⟩ := sound.owned _ _ entry
      exact .inr (.inl ⟨waited, entry, owns.inLookup, by simp [onto]⟩)
    | none =>
      refine .inr (.inr ⟨table, entry, world.made, ?_, ?_, by simp [onto]⟩)
      · change (world.make thread frame.key).asked world.made = .allocated thread
        rw [make_asked, if_pos rfl]
      · change (world.make thread frame.key).inLookupHashtable frame.key = some world.made
        simp [World.make]

end World

open World in
/-- In every run from a Filesystem nobody walks: as long as no answer is given within a lookup that
is still inside the Filesystem, one thread at a time is inside the `lookup` of a name; a walk that
waits on another's goes on waiting until it returns the dentry that lookup answered, is refused by a
fatal signal while the lookup goes on or with the error `revalidate` of the dentry ended with, or
finds it out of lookup and not at the name and looks again, which leads it to an answered dentry, to
another wait or to a lookup of its own; once the lookup is over each step of its own brings it
nearer to one of these; a walk that returns a dentry returns one that was answered; and a name
nobody looks up stands in `in_lookup_hashtable` no more. -/
theorem one_asker_per_name [Fintype τ] [DecidableEq τ] [DecidableEq ν] [DecidableEq ι]
    (isDir : ι → Bool) (start world : World τ ν ι) (events : List (Act τ ν ι))
    (atRest : start.AtRest) (ran : run (step isDir) start events = some world) :
    (Along (step isDir) (fun state act => ¬state.AnswersWithin isDir act) start events →
        world.OneAsker) ∧
      (∀ thread frame rest waited, world.stack thread = frame :: rest →
        frame.phase = .waiting waited → (world.asked waited).heldFor ≠ some thread →
        ∀ more last, run (step isDir) world more = some last →
          last.Waits thread rest frame.key waited ∨
            ∃ before act after middle next, more = before ++ act :: after ∧
              run (step isDir) world before = some middle ∧
              middle.Waits thread rest frame.key waited ∧
              middle.step isDir act = some next ∧
              middle.Told act next thread rest frame.key waited) ∧
      (∀ thread frame rest waited act next, world.stack thread = frame :: rest →
        frame.phase.awaited = some waited → (world.asked waited).inLookup = false →
        act.thread = some thread → (∀ parent name, act ≠ .walk thread parent name) →
        world.step isDir act = some next →
        (∃ phase, next.stack thread = frame.at phase :: rest ∧ phase.awaited = some waited ∧
          phase.toGo < frame.phase.toGo) ∨
          world.Told act next thread rest frame.key waited) ∧
      (∀ thread fatal frame rest next, world.stack thread = frame :: rest → frame.phase = .slow →
        world.step isDir (.go thread fatal) = some next →
        world.LooksAgain next thread frame rest) ∧
      (∀ thread, ∀ frame ∈ world.stack thread, ∀ dentry, frame.phase = .done (.ok dentry) →
        world.Answered dentry) ∧
      ∀ place, (∀ thread, ∀ frame ∈ world.stack thread, frame.key ≠ place) →
        world.inLookupHashtable place = none := by
  have sound : world.Sound :=
    run_preserves (step isDir) (fun _ act _ sound stepped => Sound.step isDir act sound stepped)
      events start world atRest.sound ran
  refine ⟨fun outward => ?_, ?_, ?_, ?_, ?_, ?_⟩
  · have kept : ∀ (state : World τ ν ι) act next, state.Sound ∧ state.Unanswered →
        ¬state.AnswersWithin isDir act → state.step isDir act = some next →
        next.Sound ∧ next.Unanswered := by
      intro state act next holds meets stepped
      exact ⟨Sound.step isDir act holds.1 stepped, holds.2.step isDir holds.1 meets stepped⟩
    have reached := run_preserves_along (step isDir) kept events start world
      ⟨atRest.sound, atRest.unanswered⟩ outward ran
    exact reached.1.oneAsker reached.2
  · intro thread frame rest waited stacked waiting another more last went
    have waits : world.Waits thread rest frame.key waited :=
      ⟨another, [], frame, stacked, rfl, by rw [waiting]; rfl, fun some => absurd rfl some⟩
    have kept : ∀ (state : World τ ν ι) act next,
        state.Sound ∧ state.Waits thread rest frame.key waited → state.step isDir act = some next →
        (next.Sound ∧ next.Waits thread rest frame.key waited) ∨
          state.Told act next thread rest frame.key waited := by
      intro state act next holds stepped
      obtain still | told := holds.2.step isDir holds.1 stepped
      · exact .inl ⟨Sound.step isDir act holds.1 stepped, still⟩
      · exact .inr told
    obtain ⟨-, still⟩ | ⟨before, act, after, middle, next, split, reached, held, taken, told⟩ :=
      run_until (step isDir) kept more world last ⟨sound, waits⟩ went
    · exact .inl still
    · exact .inr ⟨before, act, after, middle, next, split, reached, held.2, taken, told⟩
  · intro thread frame rest waited act next stacked awaited isOver own unwalked stepped
    have another : (world.asked waited).heldFor ≠ some thread := by
      intro held
      rw [LookupState.inLookup_of_heldFor held] at isOver
      cases isOver
    obtain ⟨phase, went, awaits, nearer⟩ | ⟨-, ⟨parent, name, walks⟩, -⟩ | told :=
      step_waits isDir sound stepped stacked own another awaited
    · exact .inl ⟨phase, went, awaits, nearer isOver⟩
    · exact absurd walks (unwalked parent name)
    · exact .inr told
  · intro thread fatal frame rest next stacked slow stepped
    exact sound.looksAgain isDir stacked slow stepped
  · intro thread frame mem dentry done
    have knows := sound.known thread frame mem
    rw [done] at knows
    exact knows dentry rfl
  · intro place nobody
    cases entry : world.inLookupHashtable place with
    | none => rfl
    | some dentry =>
      obtain ⟨-, thread, frame, mem, here, -⟩ := sound.owned place dentry entry
      exact absurd here (nobody thread frame mem)

/-! ## A Filesystem just mounted -/

/-- The dentries of a Filesystem just mounted: its root, by `make_root`. -/
def World.fresh [DecidableEq ι] (unnamed : ν) (root : ι) : World τ ν ι where
  dentries number := ⟨none, unnamed, if number = 0 then some root else none, .unasked, false⟩
  made := 1
  dentryHashtable _ := none
  inLookupHashtable _ := none
  inodeDentry := Function.update (fun _ => none) root (some 0)
  stack _ := []

theorem World.fresh_atRest [DecidableEq ι] (unnamed : ν) (root : ι) :
    (World.fresh unnamed root : World τ ν ι).AtRest where
  tabled := {
    entered := nofun
    found := nofun
    hashed := nofun
    standing := by
      intro inode dentry held
      simp only [fresh, Function.update_apply] at held
      split at held
      · cases held
        exact .inr ⟨rfl, Nat.zero_lt_one⟩
      · cases held
    blank := fun _ _ => rfl }
  idle _ := rfl
  free _ := rfl

/-- A thread looks `x` up in the root, as far as the Filesystem's `lookup`. -/
def asksForX (thread : Bool) : List (Act Bool String Nat) :=
  [.walk thread 0 "x", .go thread false, .lock thread none, .go thread false, .go thread false,
    .go thread false, .go thread false]

/-- A thread looks `x` up in the root, as far as the wait on another's lookup. -/
def waitsForX (thread : Bool) : List (Act Bool String Nat) :=
  [.walk thread 0 "x", .go thread false, .lock thread none, .go thread false]

open World in
/-- Where no thread walks from within a walk, no answer is given within a lookup. -/
theorem not_answersWithin_of_flat [DecidableEq ν] [DecidableEq ι] {isDir : ι → Bool}
    {world : World τ ν ι} {act : Act τ ν ι} (flat : ∀ thread, (world.stack thread).length ≤ 1) :
    ¬world.AnswersWithin isDir act := by
  rintro ⟨thread, fatal, frame, rest, dentry, -, stacked, -, lower, mem, -⟩
  have short := flat thread
  rw [stacked, List.length_cons] at short
  rw [List.eq_nil_of_length_eq_zero (by omega : rest.length = 0)] at mem
  cases mem

open World in
/-- Two threads look `x` up: the first is inside the Filesystem, alone there, and the second waits
for it, to the end of every run or until it is told. -/
theorem one_asker_per_name_waiting :
    ∃ world : World Bool String Nat,
      run (step fun _ => true) (fresh "" 0) (asksForX false ++ waitsForX true) = some world ∧
        world.InsideAt false (0, "x") ∧ world.OneAsker ∧
        (∀ more last, run (step fun _ => true) world more = some last →
          last.Waits true [] (0, "x") 1 ∨
            ∃ before act after middle next, more = before ++ act :: after ∧
              run (step fun _ => true) world before = some middle ∧
              middle.Waits true [] (0, "x") 1 ∧ middle.step (fun _ => true) act = some next ∧
              middle.Told act next true [] (0, "x") 1) := by
  have reached : (run (step fun _ => true) (fresh "" 0 : World Bool String Nat)
      (asksForX false ++ waitsForX true)).map
        (fun world => (world.stack false, world.stack true, world.asked 1)) =
      some ([⟨0, "x", none, .inside 1 true⟩], [⟨0, "x", none, .waiting 1⟩], .asking false) := rfl
  obtain ⟨world, ran, stood⟩ := Option.map_eq_some_iff.mp reached
  obtain ⟨asks, waits, asked⟩ : world.stack false = _ ∧ world.stack true = _ ∧ world.asked 1 = _ :=
    ⟨congrArg Prod.fst stood, congrArg (·.2.1) stood, congrArg (·.2.2) stood⟩
  have flat : Along (step fun _ => true)
      (fun state _ => ∀ thread : Bool, (state.stack thread).length ≤ 1)
      (fresh "" 0 : World Bool String Nat) (asksForX false ++ waitsForX true) := by
    decide +kernel
  obtain ⟨alone, waiting, -⟩ := one_asker_per_name (fun _ => true) (fresh "" 0) world
    (asksForX false ++ waitsForX true) (fresh_atRest "" 0) ran
  refine ⟨world, ran, ?_, alone (flat.mono _ fun _ _ short => not_answersWithin_of_flat short), ?_⟩
  · exact ⟨_, by rw [asks]; exact List.mem_singleton_self _, rfl, 1, true, rfl⟩
  · exact waiting true _ [] 1 waits rfl (by simp [asked, LookupState.heldFor])

open World in
/-- A walk killed while it waits returns neither the dentry nor looks again; and where a Filesystem
asks about `x` within its own lookup of `x`, the answer it is given there and another walk lets go
of leaves two threads inside `lookup` of `x`. -/
theorem one_asker_per_name_killed_and_nested :
    (∃ world : World Bool String Nat,
      run (step fun _ => true) (fresh "" 0)
          (asksForX false ++ waitsForX true ++ [Act.go true true]) = some world ∧
        world.InsideAt false (0, "x") ∧
        ∃ frame, world.stack true = [frame] ∧ frame.key = (0, "x") ∧
          frame.phase = .done (.error .interrupted)) ∧
      ∃ world : World Bool String Nat,
        run (step fun _ => true) (fresh "" 0)
            (asksForX false ++ waitsForX false ++
              [Act.go false false, .go false false, .go false false, .go false false,
                .answer false (.ok .absent), .go false false, .go false false, .go false false,
                .walk true 0 "x", .go true false, .trust true (.ok false), .lock true none,
                .go true false, .go true false, .go true false, .go true false]) = some world ∧
          ¬world.OneAsker := by
  constructor
  · have reached : (run (step fun _ => true) (fresh "" 0 : World Bool String Nat)
        (asksForX false ++ waitsForX true ++ [Act.go true true])).map
          (fun world => (world.stack false, world.stack true)) =
        some ([⟨0, "x", none, .inside 1 true⟩],
          [⟨0, "x", none, .done (.error .interrupted)⟩]) := rfl
    obtain ⟨world, ran, stood⟩ := Option.map_eq_some_iff.mp reached
    obtain ⟨asks, killed⟩ := Prod.mk.inj stood
    refine ⟨world, ran, ?_, _, killed, rfl, rfl⟩
    exact ⟨_, by rw [asks]; exact List.mem_singleton_self _, rfl, 1, true, rfl⟩
  · have reached : (run (step fun _ => true) (fresh "" 0 : World Bool String Nat)
        (asksForX false ++ waitsForX false ++
          [Act.go false false, .go false false, .go false false, .go false false,
            .answer false (.ok .absent), .go false false, .go false false, .go false false,
            .walk true 0 "x", .go true false, .trust true (.ok false), .lock true none,
            .go true false, .go true false, .go true false, .go true false])).map
          (fun world => (world.stack false, world.stack true)) =
        some ([⟨0, "x", none, .inside 1 true⟩], [⟨0, "x", none, .inside 2 true⟩]) := rfl
    obtain ⟨world, ran, stood⟩ := Option.map_eq_some_iff.mp reached
    obtain ⟨first, second⟩ := Prod.mk.inj stood
    refine ⟨world, ran, fun one => ?_⟩
    have both := one (0, "x") false true
      ⟨_, by rw [first]; exact List.mem_singleton_self _, rfl, 1, true, rfl⟩
      ⟨_, by rw [second]; exact List.mem_singleton_self _, rfl, 2, true, rfl⟩
    cases both

end Kobako.Dcache
