import Kobako.Transport.Machine

/-!
# Block exits

A block that leaves by `break` or `return` has its exit held in one slot until the Service it
unwinds answers. The slot is shared by every Call: a Service that yields again on its way out runs
guest code, and a block of a Call nested there may exit too, taking the slot over. A Call answered
on the break arm continues the last exit of its own blocks whenever no nested block exited after
that one, and the slot is gone with the nested exit when one did.
-/

namespace Kobako.Transport

/-- What the held exit says of the Services it may be continued for. -/
structure ExitHeld (s : State) : Prop where
  /-- A Service not overtaken has its last exit in the slot. -/
  slot : ∀ service ∈ s.services, service.overtaken = false → ∀ exit,
    service.lastExit = some exit → s.guest.blockExit.held = some exit
  /-- A Service inside whose yields a block exited is overtaken. -/
  chain : s.services.Pairwise fun inner outer =>
    inner.lastExit ≠ none → outer.overtaken = true
  /-- A Service unwinds from an exit of its own. -/
  unwinds : ∀ service ∈ s.services, service.throws ≠ 0 → service.lastExit ≠ none
  /-- A break is answered for a Service that unwound. -/
  answers : ∀ block service, s.now = .answered .break_ block service →
    ∃ unwound, service = some unwound ∧ unwound.lastExit ≠ none

/-! ## What each operation does to the slot -/

@[simp] theorem blockExit_yieldToBlock (guest : Guest) (frame : Nat)
    (unreadable : Option ErrorRecord) :
    (guest.yieldToBlock frame unreadable).2.blockExit = guest.blockExit := by
  unfold Guest.yieldToBlock
  split
  · rfl
  · dsimp only
    split <;> rfl

/-- A fault or a refusal never reads as a break. -/
theorem fitInMessage_eq_break (reply : Reply) (breaks : fitInMessage reply = .break_) :
    reply = .break_ := by
  unfold fitInMessage at breaks
  split at breaks
  · cases breaks
  · exact breaks

theorem dispatchReply_eq_break (newest : Option Failure) (ending : Ending)
    (breaks : dispatchReply newest ending = .break_) : ending = .thrown := by
  cases ending with
  | returned body => cases breaks
  | raised error =>
    cases error with
    | failure failure =>
      simp only [dispatchReply, faultOf] at breaks
      split at breaks <;> cases breaks
    | bare klass message => cases breaks
    | own klass message => cases breaks
  | thrown => rfl
  | escaped => cases breaks

@[simp] theorem lastExit_receive (host : Host) (service : Service) (reply : Option YieldReply) :
    (receive host service reply).2.lastExit = service.lastExit := by
  unfold receive
  split <;> rfl

@[simp] theorem overtaken_receive (host : Host) (service : Service) (reply : Option YieldReply) :
    (receive host service reply).2.overtaken = service.overtaken := by
  unfold receive
  split <;> rfl

/-- Only a break adds a throw to unwind from. -/
theorem throws_receive (host : Host) (service : Service) (reply : Option YieldReply)
    (other : reply ≠ some .break_) :
    (receive host service reply).2.throws = service.throws := by
  unfold receive
  split
  · rfl
  · rfl
  · exact absurd rfl other
  · rfl

theorem readYieldReply_eq_break (reply : YieldReply) (lost : Bool)
    (breaks : readYieldReply reply lost = some .break_) : reply = .break_ := by
  unfold readYieldReply at breaks
  split at breaks
  · cases breaks
  · exact Option.some.inj breaks

/-- A block answered as a break exited. -/
theorem leaveBlock_eq_break (guest : Guest) (outcome : BlockOutcome)
    (breaks : (guest.leaveBlock outcome).1 = .break_) : ∃ exit, outcome = .exited exit := by
  cases outcome with
  | value body => cases body <;> cases breaks
  | raised exc => cases breaks
  | exited exit => exact ⟨exit, rfl⟩

/-- A yield that runs no block is not answered as a break. -/
theorem yieldToBlock_ne_break {guest after : Guest} {frame : Nat}
    {unreadable : Option ErrorRecord} {reply : YieldReply}
    (fails : guest.yieldToBlock frame unreadable = (.error reply, after)) : reply ≠ .break_ := by
  rintro rfl
  unfold Guest.yieldToBlock at fails
  split at fails
  · cases fails
  · dsimp only at fails
    split at fails <;> cases fails

/-! ## The invariant -/

theorem exitHeld_start : ExitHeld start := by
  refine ⟨?_, ?_, ?_, ?_⟩ <;> simp [start, State.services, Now.services]

/-- Replacing the innermost Service by one with the same exits, its throws explained, and leaving
the slot alone keeps the invariant. -/
theorem ExitHeld.replace {s s' : State} {service service' : Service} {outer : List Service}
    (holds : ExitHeld s) (before : s.services = service :: outer)
    (later : s'.services = service' :: outer) (slot : s'.guest.blockExit = s.guest.blockExit)
    (lastExit : service'.lastExit = service.lastExit)
    (overtaken : service'.overtaken = service.overtaken)
    (throws : service'.throws ≠ 0 → service.lastExit ≠ none)
    (answers : ∀ block unwound, s'.now = .answered .break_ block unwound →
      ∃ named, unwound = some named ∧ named.lastExit ≠ none) :
    ExitHeld s' := by
  obtain ⟨held, chain, unwinds, -⟩ := holds
  rw [before] at held chain unwinds
  rw [List.forall_mem_cons] at held unwinds
  rw [List.pairwise_cons] at chain
  refine ⟨?_, ?_, ?_, answers⟩
  · rw [later, List.forall_mem_cons, slot, lastExit, overtaken]
    exact held
  · rw [later, List.pairwise_cons, lastExit]
    exact chain
  · rw [later, List.forall_mem_cons, lastExit]
    exact ⟨throws, unwinds.2⟩

/-- A block left by no exit overtakes no Service around it. -/
theorem suspended_leftBeneath (suspended : List (Service × Block)) {outcome : BlockOutcome}
    (exits : ¬∃ exit, outcome = .exited exit) :
    (suspended.map fun (caller, block) => (caller.leftBeneath outcome, block)) = suspended := by
  have same : ∀ caller : Service, caller.leftBeneath outcome = caller := by
    intro caller
    cases outcome with
    | exited exit => exact absurd ⟨exit, rfl⟩ exits
    | _ => rfl
  simp [same]

/-- Every step keeps what the slot says of the Services. -/
theorem ExitHeld.step {s s' : State} {event : Event} (taken : Step s event s')
    (holds : ExitHeld s) : ExitHeld s' := by
  cases taken with
  | call guest host suspended block =>
    obtain ⟨held, chain, unwinds, -⟩ := holds
    exact ⟨held, chain, unwinds, by simp⟩
  | refuse guest host suspended block refusal =>
    obtain ⟨held, chain, unwinds, -⟩ := holds
    refine ⟨held, chain, unwinds, ?_⟩
    intro parked unwound answered
    have breaks : fitInMessage refusal.reply = .break_ := by simp_all
    have reply := fitInMessage_eq_break _ breaks
    cases refusal <;> cases reply
  | serve guest host suspended block =>
    obtain ⟨held, chain, unwinds, -⟩ := holds
    have fresh : (Service.opened host.openCalls block).lastExit = none := rfl
    refine ⟨?_, ?_, ?_, by simp⟩
    · simp only [State.services, Now.services, List.singleton_append, List.forall_mem_cons]
      refine ⟨?_, held⟩
      intro _ exit exits
      rw [fresh] at exits
      cases exits
    · simp only [State.services, Now.services, List.singleton_append, List.pairwise_cons]
      exact ⟨fun _ _ exits => absurd fresh exits, chain⟩
    · simp only [State.services, Now.services, List.singleton_append, List.forall_mem_cons]
      exact ⟨fun unwinding => absurd rfl unwinding, unwinds⟩
  | yieldRuns guest host suspended service frame unreadable lost block after runs =>
    have slot := blockExit_yieldToBlock guest frame unreadable
    rw [runs] at slot
    exact holds.replace rfl rfl slot rfl rfl
      (holds.unwinds service (by simp [State.services, Now.services])) (by simp)
  | yieldFails guest host suspended service frame unreadable lost reply after fails =>
    have slot := blockExit_yieldToBlock guest frame unreadable
    rw [fails] at slot
    have other : readYieldReply reply lost ≠ some .break_ := fun breaks =>
      yieldToBlock_ne_break fails (readYieldReply_eq_break _ _ breaks)
    refine holds.replace rfl rfl slot (lastExit_receive ..) (overtaken_receive ..) ?_ (by simp)
    rw [throws_receive _ _ _ other]
    exact holds.unwinds service (by simp [State.services, Now.services])
  | leave guest host suspended service block outcome lost =>
    by_cases exits : ∃ exit, outcome = .exited exit
    · obtain ⟨exit, rfl⟩ := exits
      -- The block's own exit takes the slot, and every Service around it is overtaken.
      obtain ⟨-, -, unwinds, -⟩ := holds
      refine ⟨?_, ?_, ?_, by simp⟩
      · simp only [State.services, Now.services, List.singleton_append, services_leftBeneath,
          List.forall_mem_cons, List.forall_mem_map]
        refine ⟨?_, fun caller _ fresh => absurd fresh (by simp [Service.leftBeneath])⟩
        intro _ last exits
        rw [lastExit_receive] at exits
        exact exits
      · simp only [State.services, Now.services, List.singleton_append, services_leftBeneath,
          List.pairwise_cons, List.forall_mem_map]
        refine ⟨fun caller _ _ => rfl, ?_⟩
        exact List.pairwise_map.mpr (List.pairwise_of_forall fun _ _ _ => rfl)
      · simp only [State.services, Now.services, List.singleton_append, services_leftBeneath,
          List.forall_mem_cons, List.forall_mem_map, lastExit_receive]
        refine ⟨fun _ => Option.some_ne_none exit, ?_⟩
        intro caller called
        exact unwinds caller.1 (List.mem_cons_of_mem _ (List.mem_map_of_mem called))
    · have outer := suspended_leftBeneath suspended exits
      have slot : (guest.leaveBlock outcome).2.blockExit = guest.blockExit := by
        cases outcome with
        | value body => cases body <;> rfl
        | raised exc => rfl
        | exited exit => exact absurd ⟨exit, rfl⟩ exits
      have other : readYieldReply (guest.leaveBlock outcome).1 lost ≠ some .break_ := fun breaks =>
        exits (leaveBlock_eq_break guest outcome (readYieldReply_eq_break _ _ breaks))
      have kept : (service.left outcome).lastExit = service.lastExit ∧
          (service.left outcome).overtaken = service.overtaken ∧
          (service.left outcome).throws = service.throws := by
        cases outcome with
        | exited exit => exact absurd ⟨exit, rfl⟩ exits
        | _ => exact ⟨rfl, rfl, rfl⟩
      rw [outer]
      refine holds.replace rfl rfl slot ?_ ?_ ?_ (by simp)
      · rw [lastExit_receive, kept.1]
      · rw [overtaken_receive, kept.2.1]
      · rw [throws_receive _ _ _ other, kept.2.2]
        exact holds.unwinds service (by simp [State.services, Now.services])
  | override guest host suspended service unwinding =>
    refine holds.replace rfl rfl rfl rfl rfl ?_ (by simp)
    intro _
    exact holds.unwinds service (by simp [State.services, Now.services]) unwinding
  | answer guest host suspended service ending unwound =>
    have unwinds := holds.unwinds service (by simp [State.services, Now.services])
    refine holds.replace rfl rfl rfl rfl rfl unwinds ?_
    intro block named answered
    have breaks : fitInMessage (dispatchReply host.newest ending) = .break_ := by simp_all
    have thrown := dispatchReply_eq_break _ _ (fitInMessage_eq_break _ breaks)
    refine ⟨service, ?_, unwinds (unwound thrown)⟩
    simp_all
  | resume guest host suspended reply block service unreadable =>
    obtain ⟨held, chain, unwinds, answers⟩ := holds
    have outer : ∀ caller ∈ suspended.map Prod.fst,
        caller ∈ (Now.answered reply block service).services ++ suspended.map Prod.fst :=
      fun caller called => List.mem_append_right _ called
    refine ⟨?_, (List.pairwise_append.mp chain).2.1,
      fun caller called => unwinds caller (outer caller called), by simp⟩
    intro caller called fresh exit exits
    rw [Guest.bridge_guest]
    by_cases breaks : reply = .break_
    · -- The slot is spent, and the Service that unwound overtook every one around it.
      subst breaks
      obtain ⟨named, rfl, exited⟩ := answers block service rfl
      have overtaken := (List.pairwise_append.mp chain).2.2 named (by simp [Now.services]) caller
        called exited
      rw [fresh] at overtaken
      cases overtaken
    · rw [if_neg breaks]
      exact held caller (outer caller called) fresh exit exits

/-- The slot and the Services agree in every reachable state. -/
theorem exitHeld_of_reachable {s : State} (reached : Reachable step start s) : ExitHeld s :=
  reachable_invariant exitHeld_start ExitHeld.step reached

/-- A Call answered on the break arm continues the exit the last of its own blocks to exit left
with. -/
def ContinuesOwnExit (s : State) : Prop :=
  ∀ block answered, s.now = .answered .break_ block answered →
    ∃ service exit, answered = some service ∧ service.lastExit = some exit ∧
      ∀ unreadable, (s.guest.bridge .break_ unreadable).1 = .exited exit

/-- In every run, a break answer continues the Call's own last exit when no block of a Call nested
in its Service's yields exited after that one. -/
theorem continuesOwnExit_of_reachable {s : State} (reached : Reachable step start s)
    (fresh : ∀ block service, s.now = .answered .break_ block (some service) →
      service.overtaken = false) :
    ContinuesOwnExit s := by
  intro block answered breaks
  have holds := exitHeld_of_reachable reached
  obtain ⟨service, rfl, exited⟩ := holds.answers block answered breaks
  obtain ⟨exit, last⟩ := Option.ne_none_iff_exists'.mp exited
  refine ⟨service, exit, rfl, last, ?_⟩
  intro unreadable
  have inside : service ∈ s.services := by simp [State.services, breaks, Now.services]
  have held : s.guest.blockExit.held = some exit :=
    holds.slot service inside (fresh block service breaks) exit last
  have dropped : s.guest.dropFrame.blockExit.held = some exit := held
  unfold Guest.bridge
  dsimp only [HeldExit.take]
  rw [dropped]

/-- A Call whose block broke, and whose Service yielded again on its way out to a block that ran to
its end, at its break answer. -/
def unwoundOnce : State :=
  ⟨⟨true, [some ⟨7⟩], .new, ⟨some ⟨1⟩⟩⟩, ⟨0, none, 0⟩, [],
    .answered .break_ (some ⟨7⟩) (some ⟨0, some ⟨7⟩, 1, some ⟨1⟩, false, none, none, []⟩)⟩

/-- The first exit is continued past the second yield. -/
theorem continuesOwnExit_ensure :
    run step start
        [.call (some ⟨7⟩), .serve, .yield 0 none false, .leave (.exited ⟨1⟩) false,
          .yield 0 none false, .leave (.value (.ok [])) false, .answer .thrown] =
        some unwoundOnce ∧
      (unwoundOnce.guest.bridge .break_ none).1 = .exited ⟨1⟩ := by
  have ran : run step start
      [.call (some ⟨7⟩), .serve, .yield 0 none false, .leave (.exited ⟨1⟩) false,
        .yield 0 none false, .leave (.value (.ok [])) false, .answer .thrown] =
      some unwoundOnce := by decide
  have fresh : ∀ block service, unwoundOnce.now = .answered .break_ block (some service) →
      service.overtaken = false := by
    rintro block service answered
    cases answered
    rfl
  refine ⟨ran, ?_⟩
  obtain ⟨service, exit, named, last, continues⟩ :=
    continuesOwnExit_of_reachable ⟨_, ran⟩ fresh _ _ rfl
  obtain rfl := Option.some.inj named
  obtain rfl := Option.some.inj last
  exact continues none

/-- The same Call when the block of the second yield makes a Call of its own, whose block breaks:
the nested break takes the slot and leaves it empty. -/
def unwoundTwice : State :=
  ⟨⟨true, [some ⟨7⟩], .new, .new⟩, ⟨0, none, 0⟩, [],
    .answered .break_ (some ⟨7⟩) (some ⟨0, some ⟨7⟩, 1, some ⟨1⟩, true, none, none, []⟩)⟩

/-- The outer Call is answered on the break arm for its own block's exit, and the bridge finds
nothing to continue. -/
theorem bridge_loses_exit :
    run step start
        [.call (some ⟨7⟩), .serve, .yield 0 none false, .leave (.exited ⟨1⟩) false,
          .yield 0 none false,
          .call (some ⟨8⟩), .serve, .yield 1 none false, .leave (.exited ⟨2⟩) false,
          .answer .thrown, .resume none,
          .leave (.value (.ok [])) false, .answer .thrown] = some unwoundTwice ∧
      (unwoundTwice.guest.bridge .break_ none).1 = .transportError ∧
      ¬ ContinuesOwnExit unwoundTwice := by
  refine ⟨by decide, rfl, ?_⟩
  intro continues
  obtain ⟨service, exit, -, -, continued⟩ := continues _ _ rfl
  cases continued none

end Kobako.Transport
