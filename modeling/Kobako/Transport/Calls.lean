import Kobako.Transport.Machine

/-!
# Open Calls on both sides

The guest parks a slot when it makes a Call and drops it when the answer is back; the host counts
a Call from the moment it opens it until its Service ended. The two differ only while a request or
a Reply is on its way. Whenever guest code runs the counts agree, and the number lent to a Call
is the slot its block stands in, whatever Calls came and went after it.
-/

namespace Kobako.Transport

/-- The Service that runs now. -/
def Now.opened : Now → List Service
  | .serving service => [service]
  | _ => []

/-- The slot of the Call whose request or Reply is on its way. -/
def Now.inFlight : Now → List (Option Block)
  | .sent block => [block]
  | .answered _ block _ => [block]
  | _ => []

/-- The Calls the host has open, innermost first. -/
def State.openServices (s : State) : List Service := s.now.opened ++ s.suspended.map Prod.fst

/-- Each Call of a list, innermost first, was lent the number of Calls outside it. -/
def Framed : List Service → Prop
  | [] => True
  | service :: outer => service.frame = outer.length ∧ Framed outer

/-- The guest's slots and the host's count describe the same Calls. -/
structure Counted (s : State) : Prop where
  /-- The VM of the invocation is bound. -/
  bound : s.guest.mrb = true
  /-- The slots are the blocks of the open Calls and of the one on its way. -/
  slots : s.guest.blockStack.reverse = s.now.inFlight ++ s.openServices.map Service.block
  /-- The host counts the open Calls. -/
  counts : s.host.openCalls = s.openServices.length
  /-- Each open Call was lent its place. -/
  framed : Framed s.openServices

/-! ## What each side's operations leave alone -/

@[simp] theorem mrb_yieldToBlock (guest : Guest) (frame : Nat) (unreadable : Option ErrorRecord) :
    (guest.yieldToBlock frame unreadable).2.mrb = guest.mrb := by
  unfold Guest.yieldToBlock
  split
  · rfl
  · dsimp only
    split <;> rfl

@[simp] theorem blockStack_yieldToBlock (guest : Guest) (frame : Nat)
    (unreadable : Option ErrorRecord) :
    (guest.yieldToBlock frame unreadable).2.blockStack = guest.blockStack := by
  unfold Guest.yieldToBlock
  split
  · rfl
  · dsimp only
    split <;> rfl

@[simp] theorem blockStack_leaveBlock (guest : Guest) (outcome : BlockOutcome) :
    (guest.leaveBlock outcome).2.blockStack = guest.blockStack := by
  cases outcome with
  | value body => cases body <;> rfl
  | raised exc => rfl
  | exited exit => rfl

@[simp] theorem mrb_leaveBlock (guest : Guest) (outcome : BlockOutcome) :
    (guest.leaveBlock outcome).2.mrb = guest.mrb := by
  cases outcome with
  | value body => cases body <;> rfl
  | raised exc => rfl
  | exited exit => rfl

@[simp] theorem openCalls_receive (host : Host) (service : Service) (reply : Option YieldReply) :
    (receive host service reply).1.openCalls = host.openCalls := by
  unfold receive
  split <;> rfl

@[simp] theorem frame_receive (host : Host) (service : Service) (reply : Option YieldReply) :
    (receive host service reply).2.frame = service.frame := by
  unfold receive
  split <;> rfl

@[simp] theorem block_receive (host : Host) (service : Service) (reply : Option YieldReply) :
    (receive host service reply).2.block = service.block := by
  unfold receive
  split <;> rfl

@[simp] theorem frame_left (service : Service) (outcome : BlockOutcome) :
    (service.left outcome).frame = service.frame := by
  cases outcome <;> rfl

@[simp] theorem block_left (service : Service) (outcome : BlockOutcome) :
    (service.left outcome).block = service.block := by
  cases outcome <;> rfl

@[simp] theorem frame_leftBeneath (service : Service) (outcome : BlockOutcome) :
    (service.leftBeneath outcome).frame = service.frame := by
  cases outcome <;> rfl

@[simp] theorem block_leftBeneath (service : Service) (outcome : BlockOutcome) :
    (service.leftBeneath outcome).block = service.block := by
  cases outcome <;> rfl

/-- The frames of a list of Calls are all that `Framed` reads. -/
theorem framed_map {change : Service → Service}
    (same : ∀ service, (change service).frame = service.frame) (services : List Service)
    (framed : Framed services) : Framed (services.map change) := by
  induction services with
  | nil => trivial
  | cons service outer ih =>
    obtain ⟨placed, rest⟩ := framed
    refine ⟨?_, ih rest⟩
    rw [same, placed, List.length_map]

/-! ## The invariant -/

theorem counted_start : Counted start := ⟨rfl, rfl, rfl, trivial⟩

/-- Every step keeps the two sides in step. -/
theorem Counted.step {s s' : State} {event : Event} (taken : Step s event s')
    (counted : Counted s) : Counted s' := by
  obtain ⟨bound, slots, counts, framed⟩ := counted
  cases taken with
  | call guest host suspended block =>
    refine ⟨bound, ?_, counts, framed⟩
    simp only [Guest.park, List.reverse_append, slots]
    rfl
  | refuse guest host suspended block refusal => exact ⟨bound, slots, counts, framed⟩
  | serve guest host suspended block =>
    refine ⟨bound, ?_, ?_, ?_⟩
    · exact slots
    · change host.openCalls + 1 = _
      rw [counts]
      rfl
    · refine ⟨?_, framed⟩
      exact counts
  | yieldRuns guest host suspended service frame unreadable lost block after runs =>
    have mrb := mrb_yieldToBlock guest frame unreadable
    have stack := blockStack_yieldToBlock guest frame unreadable
    rw [runs] at mrb stack
    refine ⟨mrb.trans bound, ?_, counts, framed⟩
    rw [stack]
    exact slots
  | yieldFails guest host suspended service frame unreadable lost reply after fails =>
    have mrb := mrb_yieldToBlock guest frame unreadable
    have stack := blockStack_yieldToBlock guest frame unreadable
    rw [fails] at mrb stack
    refine ⟨mrb.trans bound, ?_, ?_, ?_⟩
    · rw [stack, slots]
      simp [State.openServices, Now.opened, Now.inFlight, Service.reenter]
    · rw [openCalls_receive]
      exact counts
    · refine ⟨?_, framed.2⟩
      rw [frame_receive]
      exact framed.1
  | leave guest host suspended service block outcome lost =>
    have outer := services_leftBeneath suspended outcome
    have blocks : ((suspended.map Prod.fst).map fun caller => caller.leftBeneath outcome).map
        Service.block = (suspended.map Prod.fst).map Service.block := by
      rw [List.map_map]
      exact List.map_congr_left fun caller _ => block_leftBeneath caller outcome
    refine ⟨?_, ?_, ?_, ?_⟩
    · rw [mrb_leaveBlock]
      exact bound
    · rw [blockStack_leaveBlock, slots]
      simp only [State.openServices, Now.opened, Now.inFlight, List.nil_append, outer,
        List.singleton_append, List.map_cons, block_receive, block_left, blocks]
    · rw [openCalls_receive, counts]
      simp [State.openServices, Now.opened]
    · simp only [State.openServices, Now.opened, outer, List.singleton_append, Framed,
        frame_receive, frame_left, List.length_map]
      refine ⟨?_, framed_map (fun caller => frame_leftBeneath caller outcome) _ framed.2⟩
      have placed : service.frame = (suspended.map Prod.fst).length := framed.1
      rw [placed, List.length_map]
  | override guest host suspended service unwinding => exact ⟨bound, slots, counts, framed⟩
  | answer guest host suspended service ending unwound =>
    refine ⟨bound, slots, ?_, framed.2⟩
    change host.openCalls - 1 = (suspended.map Prod.fst).length
    have counted : host.openCalls = (suspended.map Prod.fst).length + 1 := counts
    omega
  | resume guest host suspended reply block service unreadable =>
    refine ⟨?_, ?_, counts, framed⟩
    · rw [Guest.bridge_guest]
      exact bound
    · have parked : guest.blockStack.reverse =
          block :: (suspended.map Prod.fst).map Service.block := slots
      rw [Guest.bridge_guest, ← List.tail_reverse, parked]
      rfl

/-- The two sides are in step in every reachable state. -/
theorem counted_of_reachable {s : State} (reached : Reachable step start s) : Counted s :=
  reachable_invariant counted_start Counted.step reached

/-! ## Frames and blocks -/

/-- The number a Call was lent is where its block stands, counted from the outermost. -/
theorem getElem?_frame {services : List Service} (framed : Framed services) (service : Service)
    (isOpen : service ∈ services) :
    (services.map Service.block).reverse[service.frame]? = some service.block := by
  induction services with
  | nil => cases isOpen
  | cons inner outer ih =>
    obtain ⟨placed, rest⟩ := framed
    rw [List.map_cons, List.reverse_cons]
    rcases List.mem_cons.mp isOpen with rfl | outside
    · rw [placed, List.getElem?_append_right (by simp)]
      simp
    · have found := ih rest outside
      have inside : service.frame < (outer.map Service.block).reverse.length := by
        by_contra beyond
        rw [List.getElem?_eq_none (by omega)] at found
        cases found
      rw [List.getElem?_append_left inside, found]

/-- What a yield to a Call that parked `block` starts. -/
def yieldAnswer (block : Option Block) (unreadable : Option ErrorRecord) :
    Except YieldReply Block :=
  match block, unreadable with
  | none, _ => .error (Guest.errorReply "LocalJumpError" "no block given (yield)" [])
  | some _, some refusal => .error (Guest.errorReply refusal.name refusal.message [])
  | some block, none => .ok block

/-- A yield by the frame of an open Call reaches what that Call parked. -/
theorem yieldToBlock_frame {s : State} (counted : Counted s) {caller : Service}
    (serving : s.now = .serving caller) (service : Service) (isOpen : service ∈ s.openServices)
    (unreadable : Option ErrorRecord) :
    (s.guest.yieldToBlock service.frame unreadable).1 = yieldAnswer service.block unreadable := by
  have stack : s.guest.blockStack = (s.openServices.map Service.block).reverse := by
    have slots := counted.slots
    rw [serving] at slots
    rw [← List.reverse_reverse s.guest.blockStack, slots]
    rfl
  have parked : s.guest.block service.frame = service.block := by
    rw [Guest.block, stack, getElem?_frame counted.framed service isOpen]
    rfl
  have cleared : ({ s.guest with blockRaise := s.guest.blockRaise.clear } : Guest).block
      service.frame = service.block := parked
  unfold Guest.yieldToBlock
  rw [if_neg (by simp [counted.bound])]
  dsimp only
  rw [cleared]
  cases service.block with
  | none => rfl
  | some block => cases unreadable <;> rfl

/-- Whenever guest code runs, the guest has as many slots as the host has open Calls; and a yield
by the frame of any open Call runs the block that Call parked, or answers `LocalJumpError` exactly
when it parked none. -/
theorem openCalls_agree {s : State} (reached : Reachable step start s) :
    (s.now = .guest → s.guest.blockStack.length = s.host.openCalls) ∧
      ∀ caller, s.now = .serving caller → ∀ service ∈ s.openServices,
        (∀ unreadable, (s.guest.yieldToBlock service.frame unreadable).1 =
            yieldAnswer service.block unreadable) ∧
          ((s.guest.yieldToBlock service.frame none).1 =
              .error (Guest.errorReply "LocalJumpError" "no block given (yield)" []) ↔
            service.block = none) ∧
          ∀ block, service.block = some block → ∀ lost, ∃ s',
            step s (.yield service.frame none lost) = some s' ∧ s'.now = .guest ∧
              s'.suspended = (caller.reenter, block) :: s.suspended := by
  have counted := counted_of_reachable reached
  constructor
  · intro guest
    have slots := counted.slots
    rw [guest] at slots
    rw [counted.counts, ← List.length_reverse, slots]
    simp [Now.inFlight]
  · intro caller serving service isOpen
    have answers := yieldToBlock_frame counted serving service isOpen
    refine ⟨answers, ?_, ?_⟩
    · rw [answers none]
      cases service.block with
      | none => simp [yieldAnswer]
      | some block => simp [yieldAnswer]
    · intro block parked lost
      have runs : (s.guest.yieldToBlock service.frame none).1 = .ok block := by
        rw [answers none, parked]
        rfl
      have split : s.guest.yieldToBlock service.frame none =
          (.ok block, (s.guest.yieldToBlock service.frame none).2) := Prod.ext runs rfl
      refine ⟨{ s with
        guest := (s.guest.yieldToBlock service.frame none).2
        suspended := (caller.reenter, block) :: s.suspended
        now := .guest }, ?_, rfl, rfl⟩
      rw [step, serving]
      dsimp only
      rw [split]

/-- Inside the block of a Call, another refused and a third opened without a block. -/
def nestedCalls : State :=
  ⟨⟨true, [some ⟨7⟩, none], .new, .new⟩, ⟨2, none, 0⟩, [(.opened 0 (some ⟨7⟩), ⟨7⟩)],
    .serving (.opened 1 none)⟩

/-- The Call made first is still reached by its own frame, and the one without a block answers so.
-/
theorem openCalls_agree_nested :
    run step start
        [.call (some ⟨7⟩), .serve, .yield 0 none false, .call (some ⟨8⟩), .refuse .malformed,
          .resume none, .call none, .serve] = some nestedCalls ∧
      (nestedCalls.guest.yieldToBlock 0 none).1 = .ok ⟨7⟩ ∧
      (nestedCalls.guest.yieldToBlock 1 none).1 =
        .error (Guest.errorReply "LocalJumpError" "no block given (yield)" []) := by
  have ran : run step start
      [.call (some ⟨7⟩), .serve, .yield 0 none false, .call (some ⟨8⟩), .refuse .malformed,
        .resume none, .call none, .serve] = some nestedCalls := by decide
  have agree := (openCalls_agree ⟨_, ran⟩).2 (.opened 1 none) rfl
  refine ⟨ran, ?_, ?_⟩
  · exact (agree (.opened 0 (some ⟨7⟩)) (by decide)).1 none
  · exact (agree (.opened 1 none) (by decide)).1 none

end Kobako.Transport
