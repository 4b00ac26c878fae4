import Kobako.Dcache.Ended

/-!
# One asker for each name

Among the walks of any number of threads one alone is inside the Filesystem's `lookup` of a name.
The others wait for its dentry, and take it once it is answered for and still stands at the name;
where it does not they look the name up again. A Filesystem that asks about the very name its
`lookup` is to answer is asked again within that lookup, and an answer given there ends it for the
outer one too: that one excepted, nothing lets a second walk in.
-/

namespace Kobako.Dcache

open Kobako.Vfs (FsError)

variable {τ ν ι : Type}

namespace World

variable {world next : World τ ν ι} {thread : τ} {frame : Frame ν ι} {rest : List (Frame ν ι)}
  [DecidableEq ν] (isDir : ι → Bool)

/-! ## How a lookup goes on -/

/-- The dentry a walk at a phase answers for with its next step. -/
def answersFor [DecidableEq ι] (world : World τ ν ι) : Phase ν ι → Option Nat
  | .splicing dentry _ .absent => some dentry
  | .splicing dentry _ (.found inode) =>
    if (world.findAliasOrAdd isDir inode dentry).2.isNone then some dentry else none
  | _ => none

/-- A lookup stays as it is, is answered, is left, or is begun by the walk it was made for. -/
def Follows (before after : LookupState τ) (answers : Prop) : Prop :=
  after = before ∨ (after = .answered ∧ answers) ∨ after = .unasked ∨
    ∃ walk, before = .allocated walk ∧ after = .asking walk

theorem rehash_follows (world : World τ ν ι) (dentry other : Nat) {answers : Option Nat}
    (answering : answers = some dentry) :
    Follows (world.asked other) ((world.rehash dentry).asked other) (answers = some other) := by
  rw [rehash_asked]
  split
  · rename_i same
    exact .inr (.inl ⟨rfl, by rw [answering, same]⟩)
  · exact .inl rfl

theorem lookupDone_follows (world : World τ ν ι) (dentry other : Nat) (answers : Prop) :
    Follows (world.asked other) ((world.lookupDone dentry).asked other) answers := by
  unfold lookupDone
  split
  · rw [setAsked_asked]
    split
    · exact .inr (.inr (.inl rfl))
    · exact .inl (leaveLookup_asked world dentry other)
  · exact .inl rfl

variable {dentry : Nat} {ends : Bool} {act : Act τ ν ι} {walker : τ} {other : Frame ν ι}

omit [DecidableEq ν] in
theorem beginLookup_follows (sound : world.Sound) (stacked : world.stack thread = frame :: rest)
    (entering : frame.phase = .entering dentry) (other : Nat) (answers : Prop) :
    Follows (world.asked other) ((world.beginLookup thread frame dentry).1.asked other)
      answers := by
  have here := sound.here stacked
  rw [entering] at here
  unfold beginLookup
  split
  · exact .inl rfl
  · exact .inl rfl
  · rename_i walk allocated
    rw [setAsked_asked]
    split
    · rename_i same
      subst same
      obtain answered | ⟨held, -⟩ := (here : world.HeldAt thread frame.key other)
      · simp [Answered, allocated] at answered
      · have own : walk = thread := by simpa [allocated, LookupState.heldFor] using held
        subst own
        exact .inr (.inr (.inr ⟨walk, allocated, rfl⟩))
    · exact .inl rfl
  · rename_i unasked
    obtain answered | ⟨held, -⟩ := (here : world.HeldAt thread frame.key dentry)
    · simp [Answered, unasked] at answered
    · simp [unasked, LookupState.heldFor] at held

theorem splice_follows [DecidableEq ι] (world : World τ ν ι) {inode : ι}
    (splicing : frame.phase = .splicing dentry ends (.found inode)) (other : Nat) :
    Follows (world.asked other) ((world.findAliasOrAdd isDir inode dentry).1.asked other)
      (world.answersFor isDir frame.phase = some other) := by
  have added : Follows (world.asked other)
      (((world.instantiate isDir dentry inode).rehash dentry).asked other)
      (some dentry = some other) := by
    rw [instantiate_rehash, instantiate_asked]
    exact rehash_follows world dentry other rfl
  rw [splicing, answersFor]
  unfold findAliasOrAdd
  cases held : world.inodeDentry inode with
  | none => simpa using added
  | some holder =>
    by_cases same : holder = dentry
    · simpa [same] using added
    · simp only [same, if_false]
      exact .inl rfl

theorem advance_follows [DecidableEq τ] [DecidableEq ι] (sound : world.Sound)
    (stacked : world.stack thread = frame :: rest) {fatal : Bool}
    (advanced : world.advance isDir thread fatal frame rest = some next) {other : Nat}
    (bound : other < world.made) :
    Follows (world.asked other) (next.asked other)
      (world.answersFor isDir frame.phase = some other) := by
  unfold World.advance at advanced
  split at advanced
  · split at advanced
    · cases advanced
      exact .inl rfl
    · cases advanced
      exact .inl rfl
  · cases advanced
    left
    change (world.allocTurn thread frame.key).1.asked other = world.asked other
    unfold allocTurn
    split
    · rfl
    · split
      · rfl
      · rw [make_asked, if_neg (Nat.ne_of_lt bound)]
  all_goals first | (cases advanced; exact .inl rfl) | (cases advanced; done) | skip
  · rename_i dentry entering
    cases advanced
    exact beginLookup_follows sound stacked entering other _
  · rename_i dentry ends splicing
    cases advanced
    refine rehash_follows world dentry other ?_
    rw [splicing, answersFor]
  · rename_i dentry ends inode splicing
    have follows := splice_follows isDir world splicing other
    split at advanced
    · rename_i added found
      cases advanced
      rw [found] at follows
      exact follows
    · rename_i same holder found
      cases advanced
      rw [found] at follows
      exact follows
  · rename_i dentry ends asked ending
    cases advanced
    change Follows (world.asked other) ((world.endAsk dentry ends).asked other) _
    unfold endAsk
    split
    · exact lookupDone_follows world dentry other _
    · exact .inl rfl

/-- The dentry a step answers for. -/
def answers [DecidableEq ι] (world : World τ ν ι) : Act τ ν ι → Option Nat
  | .go thread _ => (world.stack thread).head?.bind fun frame => world.answersFor isDir frame.phase
  | _ => none

theorem revalidated_asked (world : World τ ν ι) (dentry other : Nat) (valid : Except FsError Bool)
    (kept again : Phase ν ι) :
    (world.revalidated dentry valid kept again).1.asked other = world.asked other := by
  unfold revalidated
  split
  · rfl
  · exact (unhash_dentry world dentry other).1
  · rfl

theorem unaliased_asked (world : World τ ν ι) (dentry moved : Nat) (place : Key ν) (free : Bool)
    (other : Nat) : (world.unaliased dentry moved place free).1.asked other = world.asked other := by
  unfold unaliased
  split
  · rfl
  · split
    · exact moveTo_asked world moved place other
    · rfl

theorem revalidated_stack (world : World τ ν ι) (dentry : Nat) (valid : Except FsError Bool)
    (kept again : Phase ν ι) :
    (world.revalidated dentry valid kept again).1.stack = world.stack := by
  unfold revalidated
  split
  · rfl
  · exact (unhash_rest world dentry).2.2.2
  · rfl

theorem revalidated_phase (world : World τ ν ι) (dentry : Nat) (valid : Except FsError Bool)
    (kept again : Phase ν ι) :
    (valid = .ok true ∧ (world.revalidated dentry valid kept again).2 = kept) ∨
      (valid = .ok false ∧ (world.revalidated dentry valid kept again).2 = again) ∨
      ∃ e, valid = .error e ∧
        (world.revalidated dentry valid kept again).2 = .done (.error (.told e)) := by
  unfold revalidated
  split
  · exact .inl ⟨rfl, rfl⟩
  · exact .inr (.inl ⟨rfl, rfl⟩)
  · exact .inr (.inr ⟨_, rfl, rfl⟩)

theorem unaliased_stack (world : World τ ν ι) (dentry moved : Nat) (place : Key ν)
    (free : Bool) : (world.unaliased dentry moved place free).1.stack = world.stack := by
  unfold unaliased
  split
  · rfl
  · split
    · rfl
    · rfl

/-- A walk that turns leaves every walk where it stands but itself. -/
theorem Turns.stack {before phase : Phase ν ι} {after : World τ ν ι}
    (turns : world.Turns thread before act after phase) : after.stack = world.stack := by
  cases turns with
  | trusted dentry valid => exact revalidated_stack world dentry valid _ _
  | revalidated dentry valid => exact revalidated_stack world dentry valid _ _
  | unaliased dentry ends other place free => exact unaliased_stack world dentry other place free
  | _ => rfl

/-- It leaves every lookup as it is. -/
theorem Turns.asked {before phase : Phase ν ι} {after : World τ ν ι}
    (turns : world.Turns thread before act after phase) (other : Nat) :
    after.asked other = world.asked other := by
  cases turns with
  | trusted dentry valid => exact revalidated_asked world dentry other valid _ _
  | revalidated dentry valid => exact revalidated_asked world dentry other valid _ _
  | unaliased dentry ends moved place free =>
    exact unaliased_asked world dentry moved place free other
  | _ => rfl

/-- It comes inside no lookup. -/
theorem Turns.apart {before phase : Phase ν ι} {after : World τ ν ι}
    (turns : world.Turns thread before act after phase) : phase ≠ .inside dentry ends := by
  cases turns with
  | trusted seen valid | revalidated seen valid =>
    obtain ⟨-, phased⟩ | ⟨-, phased⟩ | ⟨e, -, phased⟩ := revalidated_phase world seen valid _ _
    all_goals
      rw [phased]
      simp
  | _ => simp

/-- How every step leaves the lookup of a dentry. -/
theorem step_follows [DecidableEq τ] [DecidableEq ι] [Fintype τ] (sound : world.Sound)
    (stepped : world.step isDir act = some next) {other : Nat} (bound : other < world.made) :
    Follows (world.asked other) (next.asked other) (world.answers isDir act = some other) := by
  cases steps_of_step stepped with
  | walk outside => exact .inl rfl
  | go stacked advanced =>
    simpa [answers, stacked] using advance_follows isDir sound stacked advanced bound
  | turn stacked turns => exact .inl (turns.asked other)
  | forget held => exact .inl rfl

/-! ## The walks inside the Filesystem -/

/-- A step answers for a dentry whose lookup a lower walk of the same thread is still inside. -/
def AnswersWithin [DecidableEq ι] (world : World τ ν ι) (act : Act τ ν ι) : Prop :=
  ∃ thread fatal frame rest dentry, act = .go thread fatal ∧
    world.stack thread = frame :: rest ∧ world.answersFor isDir frame.phase = some dentry ∧
    ∃ lower ∈ rest, ∃ ends, lower.phase = .inside dentry ends

/-- No walk inside a lookup has an answer to it already. -/
def Unanswered (world : World τ ν ι) : Prop :=
  ∀ walker, ∀ frame ∈ world.stack walker, ∀ dentry ends, frame.phase = .inside dentry ends →
    ¬world.Answered dentry

/-- A walk is inside the Filesystem's `lookup` of a name. -/
def InsideAt (world : World τ ν ι) (walker : τ) (place : Key ν) : Prop :=
  ∃ frame ∈ world.stack walker, frame.key = place ∧
    ∃ dentry ends, frame.phase = .inside dentry ends

/-- At most one thread is inside the Filesystem's `lookup` of each name. -/
def OneAsker (world : World τ ν ι) : Prop :=
  ∀ place one two, world.InsideAt one place → world.InsideAt two place → one = two

section

omit [DecidableEq ν]

/-- A walk inside a lookup that is unanswered is the one the dentry is held for. -/
theorem Sound.inside_asking (sound : world.Sound) {asker : Frame ν ι}
    (mem : asker ∈ world.stack walker) (inside : asker.phase = .inside dentry ends)
    (unanswered : ¬world.Answered dentry) :
    world.asked dentry = .asking walker ∧ world.key dentry = asker.key := by
  have knows := sound.known walker asker mem
  rw [inside] at knows
  obtain answered | asking := (knows : world.AskedAt walker asker.key dentry)
  · exact absurd answered unanswered
  · exact asking

theorem Sound.oneAsker (sound : world.Sound) (unanswered : world.Unanswered) :
    world.OneAsker := by
  rintro place one two ⟨first, firstMem, firstHere, dentry, ends, inside⟩
    ⟨second, secondMem, secondHere, other, others, within⟩
  obtain ⟨asking, placed⟩ :=
    sound.inside_asking firstMem inside (unanswered one first firstMem dentry ends inside)
  obtain ⟨alsoAsking, alsoPlaced⟩ :=
    sound.inside_asking secondMem within (unanswered two second secondMem other others within)
  have entered := sound.tabled.entered dentry (by rw [asking]; rfl)
  have alsoEntered := sound.tabled.entered other (by rw [alsoAsking]; rfl)
  rw [placed, firstHere] at entered
  rw [alsoPlaced, secondHere, entered] at alsoEntered
  have same : dentry = other := Option.some.inj alsoEntered
  rw [← same, asking] at alsoAsking
  exact LookupState.asking.inj alsoAsking

/-- A walk after a step stood there before it, or is the one that stepped at its next phase. -/
theorem mem_goOn [DecidableEq τ] {after : World τ ν ι}
    (stacked : world.stack thread = frame :: rest) (stack : after.stack = world.stack)
    {phase : Phase ν ι} (mem : other ∈ (after.onto thread (frame.at phase :: rest)).stack walker) :
    other ∈ world.stack walker ∨ other.phase = phase := by
  obtain ⟨-, same⟩ | ⟨own, lower⟩ | ⟨-, stood⟩ := mem_onto stack mem
  · right
    rw [same]
    rfl
  · left
    rw [own, stacked]
    exact List.mem_cons_of_mem frame lower
  · exact .inl stood

/-- The walks beneath one that is over stood there before, or end an ask. -/
theorem mem_handDown {answer : Except Refusal Nat} (mem : other ∈ handDown frame answer rest) :
    other ∈ rest ∨ ∃ dentry ends asked, other.phase = .ending dentry ends asked := by
  cases rest with
  | nil => exact .inl mem
  | cons below lower =>
    simp only [handDown] at mem
    split at mem
    · obtain same | under := List.mem_cons.mp mem
      · right
        rw [same]
        exact ⟨_, _, _, rfl⟩
      · exact .inl (List.mem_cons_of_mem below under)
    · exact .inl mem

end

theorem findAliasOrAdd_stack [DecidableEq ι] (world : World τ ν ι) (inode : ι) (dentry : Nat) :
    (world.findAliasOrAdd isDir inode dentry).1.stack = world.stack := by
  have added : ((world.instantiate isDir dentry inode).rehash dentry).stack = world.stack := by
    rw [rehash_stack, (instantiate_tables isDir world dentry inode).2.2.2]
  unfold findAliasOrAdd
  split
  · split
    · exact added
    · rfl
  · exact added

omit [DecidableEq ν] in
theorem askPhase_engaged (frame : Frame ν ι) (dentry : Nat) (ends : Bool) :
    (askPhase frame dentry ends).engaged = some dentry := by
  unfold askPhase
  split
  · rfl
  · rfl

theorem allocTurn_stack (world : World τ ν ι) (thread : τ) (place : Key ν) :
    (world.allocTurn thread place).1.stack = world.stack := by
  unfold allocTurn
  split
  · rfl
  · split
    · rfl
    · rfl

omit [DecidableEq ν] in
theorem beginLookup_stack (world : World τ ν ι) (thread : τ) (frame : Frame ν ι) (dentry : Nat) :
    (world.beginLookup thread frame dentry).1.stack = world.stack := by
  unfold beginLookup
  split
  · rfl
  · rfl
  · rfl
  · rfl

theorem endAsk_stack (world : World τ ν ι) (dentry : Nat) (ends : Bool) :
    (world.endAsk dentry ends).stack = world.stack := by
  unfold endAsk
  split
  · exact lookupDone_stack world dentry
  · rfl

/-- A turn of `alloc_parallel` comes inside no lookup. -/
theorem allocTurn_apart (world : World τ ν ι) (thread : τ) (place : Key ν) :
    (world.allocTurn thread place).2 ≠ .inside dentry ends := by
  unfold allocTurn
  split
  · simp
  · split
    · simp
    · simp

omit [DecidableEq ν] in
/-- A wait comes inside a lookup only where one of its ends is inside. -/
theorem waitLookup_apart [DecidableEq τ] (world : World τ ν ι) (thread : τ) (waited : Nat)
    (fatal : Bool) {stay owned settled inside : Phase ν ι} (waits : stay ≠ inside)
    (owns : owned ≠ inside) (settles : settled ≠ inside)
    (signal : inside ≠ .done (.error .interrupted)) :
    world.waitLookup thread waited fatal stay owned settled ≠ inside := by
  obtain ⟨-, went⟩ | ⟨-, -, went | ⟨-, went⟩⟩ | ⟨-, went⟩ :=
    waitLookup_cases world thread waited fatal stay owned settled
  · rwa [went]
  · rwa [went]
  · rw [went]
    exact signal.symm
  · rwa [went]

omit [DecidableEq ν] in
/-- The one phase that goes inside: the lookup it begins was not answered. -/
theorem beginLookup_inside [DecidableEq τ] {entered : Nat} (sound : world.Sound)
    (stacked : world.stack thread = frame :: rest) (entering : frame.phase = .entering entered)
    (mem : other ∈ ((world.beginLookup thread frame entered).1.onto thread
      (frame.at (world.beginLookup thread frame entered).2 :: rest)).stack walker)
    (inside : other.phase = .inside dentry ends) :
    other ∈ world.stack walker ∨ (dentry < world.made ∧ ¬world.Answered dentry) := by
  have here := sound.here stacked
  rw [entering] at here
  have bound := HeldAt.lt_made here sound.tabled
  have began : ∀ begun, ¬world.Answered entered →
      other.phase = askPhase frame entered begun → dentry < world.made ∧ ¬world.Answered dentry := by
    intro begun unanswered same
    have about := askPhase_engaged frame entered begun
    rw [← same, inside] at about
    obtain rfl : dentry = entered := Option.some.inj about
    exact ⟨bound, unanswered⟩
  unfold beginLookup at mem
  split at mem
  · rename_i walk asking
    exact (mem_goOn stacked rfl mem).imp_right (began false (by simp [Answered, asking]))
  · obtain stood | same := mem_goOn stacked rfl mem
    · exact .inl stood
    · exact absurd (same.symm.trans inside) (by simp)
  all_goals
    rename_i asked
    exact (mem_goOn stacked rfl mem).imp_right (began true (by simp [Answered, asked]))

/-- A walk inside a lookup was inside it before, or has just begun one that was not answered. -/
theorem advance_inside [DecidableEq τ] [DecidableEq ι] (sound : world.Sound) {fatal : Bool}
    (stacked : world.stack thread = frame :: rest)
    (advanced : world.advance isDir thread fatal frame rest = some next)
    (mem : other ∈ next.stack walker) (inside : other.phase = .inside dentry ends) :
    other ∈ world.stack walker ∨
      (world.answersFor isDir frame.phase = none ∧ dentry < world.made ∧
        ¬world.Answered dentry) := by
  have turned : ∀ {after : World τ ν ι} {phase : Phase ν ι},
      some (after.onto thread (frame.at phase :: rest)) = some next →
      after.stack = world.stack → (∀ seen begun, phase ≠ .inside seen begun) →
      other ∈ world.stack walker := by
    intro after phase went stack apart
    cases went
    obtain stood | same := mem_goOn stacked stack mem
    · exact stood
    · exact absurd (same.symm.trans inside) (apart dentry ends)
  unfold World.advance at advanced
  split at advanced
  · split at advanced
    · exact .inl (turned advanced rfl (by simp))
    · exact .inl (turned advanced rfl (by simp))
  · exact .inl (turned advanced (allocTurn_stack world thread frame.key)
      fun _ _ => allocTurn_apart world thread frame.key)
  · exact .inl (turned advanced rfl fun _ _ => waitLookup_apart world thread _ fatal (by simp)
      (by simp) (by simp) (by simp))
  · refine .inl (turned advanced rfl ?_)
    split
    · simp
    · simp
  · refine .inl (turned advanced rfl ?_)
    split
    · simp
    · simp
  · refine .inl (turned advanced rfl ?_)
    split
    · simp
    · simp
  · exact .inl (turned advanced rfl fun _ _ => waitLookup_apart world thread _ fatal (by simp)
      (by simp) (by simp) (by simp))
  · rename_i entered entering
    cases advanced
    have begun : world.answersFor isDir frame.phase = none := by
      rw [entering]
      rfl
    exact (beginLookup_inside sound stacked entering mem inside).imp_right fun new => ⟨begun, new⟩
  · exact .inl (turned advanced (rehash_stack world _) (by simp))
  · rename_i spliced ends inode splicing
    have stack := findAliasOrAdd_stack isDir world inode spliced
    split at advanced
    · rename_i added found
      rw [found] at stack
      exact .inl (turned advanced stack (by simp))
    · rename_i same holder found
      rw [found] at stack
      exact .inl (turned advanced stack (by simp))
  · rename_i splicing
    cases advanced
    obtain ⟨-, same⟩ | ⟨own, lower⟩ | ⟨-, stood⟩ := mem_onto rfl mem
    · rw [same] at inside
      cases inside
    · obtain same | under := List.mem_cons.mp lower
      · rw [same] at inside
        cases inside
      · left
        rw [own, stacked]
        exact List.mem_cons_of_mem frame under
    · exact .inl stood
  · exact .inl (turned advanced rfl (by simp))
  · exact .inl (turned advanced (endAsk_stack world _ _) (by simp))
  · rename_i answer done
    cases advanced
    left
    by_cases own : walker = thread
    · subst own
      have under : other ∈ handDown frame answer rest := by simpa [onto] using mem
      obtain stood | ⟨_, _, _, ending⟩ := mem_handDown under
      · rw [stacked]
        exact List.mem_cons_of_mem frame stood
      · exact absurd (ending.symm.trans inside) (by simp)
    · simpa [onto, own] using mem
  all_goals cases advanced

variable [DecidableEq ι]

/-- A walk inside a lookup was inside it before the step, or has just begun one that was not
answered. -/
theorem step_inside [DecidableEq τ] [Fintype τ] (sound : world.Sound)
    (stepped : world.step isDir act = some next) (mem : other ∈ next.stack walker)
    (inside : other.phase = .inside dentry ends) :
    other ∈ world.stack walker ∨
      (world.answers isDir act = none ∧ dentry < world.made ∧ ¬world.Answered dentry) := by
  cases steps_of_step stepped with
  | walk outside =>
    left
    obtain ⟨-, same⟩ | ⟨own, lower⟩ | ⟨-, stood⟩ := mem_onto rfl mem
    · rw [same] at inside
      cases inside
    · rw [own]
      exact lower
    · exact stood
  | go stacked advanced =>
    simpa [answers, stacked] using advance_inside isDir sound stacked advanced mem inside
  | turn stacked turns =>
    left
    obtain stood | same := mem_goOn stacked turns.stack mem
    · exact stood
    · exact absurd (same.symm.trans inside) turns.apart
  | forget held => exact .inl mem

theorem answers_cases (answers : world.answers isDir act = some dentry) :
    ∃ thread fatal frame rest, act = .go thread fatal ∧ world.stack thread = frame :: rest ∧
      world.answersFor isDir frame.phase = some dentry := by
  cases act with
  | go thread fatal =>
    simp only [World.answers] at answers
    cases stacked : world.stack thread with
    | nil => simp [stacked] at answers
    | cons frame rest =>
      exact ⟨thread, fatal, frame, rest, rfl, stacked, by simpa [stacked] using answers⟩
  | walk thread parent name => cases answers
  | lock thread refused => cases answers
  | trust thread valid => cases answers
  | answer thread found => cases answers
  | unalias thread free => cases answers
  | forget other => cases answers

/-- A walk that answers asks. -/
theorem Sound.answersFor_askedAt (sound : world.Sound)
    (stacked : world.stack thread = frame :: rest)
    (answering : world.answersFor isDir frame.phase = some dentry) :
    world.AskedAt thread frame.key dentry := by
  have here := sound.here stacked
  unfold answersFor at answering
  split at answering
  · rename_i asked ends splicing
    rw [splicing] at here
    cases answering
    exact here
  · rename_i asked ends inode splicing
    rw [splicing] at here
    split at answering
    · cases answering
      exact here
    · cases answering
  · cases answering

/-- A step that answers for nothing a lower walk is inside of leaves every walk inside a lookup
without an answer. -/
theorem Unanswered.step [DecidableEq τ] [Fintype τ] (sound : world.Sound)
    (unanswered : world.Unanswered) (outward : ¬world.AnswersWithin isDir act)
    (stepped : world.step isDir act = some next) :
    next.Unanswered := by
  intro walker other mem dentry ends inside answered
  obtain stood | ⟨silent, bound, fresh⟩ := step_inside isDir sound stepped mem inside
  · have before := unanswered walker other stood dentry ends inside
    obtain ⟨asking, placed⟩ := sound.inside_asking stood inside before
    have bound : dentry < world.made := sound.tabled.lt_made (by rw [asking]; nofun)
    obtain same | ⟨-, answers⟩ | left | ⟨walk, allocated, -⟩ :=
      step_follows isDir sound stepped bound
    · exact before (same.symm.trans answered)
    · obtain ⟨thread, fatal, frame, rest, went, stacked, answering⟩ := answers_cases isDir answers
      -- the walk that answers asks about it too, so it is one of this thread
      have asks := sound.answersFor_askedAt isDir stacked answering
      obtain stands | ⟨askedBy, -⟩ := asks
      · exact before stands
      · rw [asking] at askedBy
        have own : walker = thread := LookupState.asking.inj askedBy
        subst own
        rw [stacked] at stood
        obtain same | lower := List.mem_cons.mp stood
        · subst same
          rw [inside] at answering
          cases answering
        · exact outward ⟨walker, fatal, frame, rest, dentry, went, stacked, answering, other,
            lower, ends, inside⟩
    · rw [Answered, left] at answered
      cases answered
    · simp [asking] at allocated
  · obtain same | ⟨-, answers⟩ | left | ⟨walk, -, asking⟩ :=
      step_follows isDir sound stepped bound
    · exact fresh (same.symm.trans answered)
    · simp [silent] at answers
    · rw [Answered, left] at answered
      cases answered
    · rw [Answered, asking] at answered
      cases answered

end World

end Kobako.Dcache
