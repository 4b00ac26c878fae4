import Kobako.Run
import Kobako.Transport.Host

/-!
# Calls and yields in motion

One instance with its host, step by step. Guest code makes a Call, which parks its block and goes
to the host; the host refuses it or opens it, the Service yields to the block of any open Call,
each block again being guest code, and the answer travels back to the bridge of the Call that was
made last. The Services suspended in a yield form the stack, so a run is well nested by
construction. Beside what the two sides keep, a Service carries what a reader of the run knows of
it: how its last yield went, and the exits its own blocks left with.
-/

namespace Kobako.Transport

/-- An open Call as its Service runs it. -/
structure Service where
  /-- The frame number the dispatch lent. -/
  frame : Nat
  /-- The block its Call parked. -/
  block : Option Block
  /-- The `throw`s of block exits it is unwinding from. -/
  throws : Nat
  /-- The exit the last of its own blocks to exit left with. -/
  lastExit : Option Exit
  /-- Whether a block of a Call nested in one of its yields exited after that. -/
  overtaken : Bool
  /-- The failure its last yield raised. -/
  lastFailure : Option Failure
  /-- What the block of its last yield raised. -/
  lastRaise : Option Raised
  /-- Every failure a yield of its raised for a block that raised, with what the block raised. -/
  failures : List (Failure × Raised)
deriving Repr, DecidableEq

/-- Where the instance stands: guest code runs, a request is on its way to the host, a Service
runs, or a Reply is on its way back to the bridge. -/
inductive Now where
  | guest
  | sent (block : Option Block)
  | serving (service : Service)
  | answered (reply : Reply) (block : Option Block) (service : Option Service)
deriving Repr, DecidableEq

/-- One instance and its host. -/
structure State where
  /-- The guest's statics. -/
  guest : Guest
  /-- The host's invocation. -/
  host : Host
  /-- The Services suspended in a yield, innermost first, each with the block it runs. -/
  suspended : List (Service × Block)
  /-- What runs now. -/
  now : Now
deriving Repr, DecidableEq

/-- What happens next. -/
inductive Event where
  /-- Guest code makes a Call with or without a block. -/
  | call (block : Option Block)
  /-- The host answers without opening a Call. -/
  | refuse (refusal : Refusal)
  /-- The host opens the Call and runs its Service. -/
  | serve
  /-- The Service yields to the block of the Call `frame` counts to. -/
  | yield (frame : Nat) (unreadable : Option ErrorRecord) (lost : Bool)
  /-- The block a Service yielded to leaves. -/
  | leave (outcome : BlockOutcome) (lost : Bool)
  /-- An `ensure` of the Service replaces the `throw` it was unwinding from. -/
  | override
  /-- The Service ends. -/
  | answer (ending : Ending)
  /-- The bridge continues with the Reply. -/
  | resume (unreadable : Option ErrorRecord)
deriving Repr

namespace Service

/-- The Service of a Call just opened. -/
def opened (frame : Nat) (block : Option Block) : Service :=
  ⟨frame, block, 0, none, false, none, none, []⟩

/-- The Service on its way into a yield. -/
def reenter (service : Service) : Service :=
  { service with lastFailure := none, lastRaise := none }

/-- The Service after its own block left. -/
def left (service : Service) : BlockOutcome → Service
  | .value _ => service
  | .raised exc => { service with lastRaise := some exc }
  | .exited exit => { service with lastExit := some exit, overtaken := false }

/-- The Service after a block of a Call nested in its yield left. -/
def leftBeneath (service : Service) : BlockOutcome → Service
  | .exited _ => { service with overtaken := true }
  | _ => service

end Service

/-- `drive_yield` reading the block's answer: one past the cap, or one the guest could not place,
raises a trap at the yield instead. -/
def readYieldReply (reply : YieldReply) (lost : Bool) : Option YieldReply :=
  if lost = true ∨ reply.encodedLen > maxDispatchPayload then none else some reply

/-- `Yielder#yield` past the re-entry: a failure is remembered and raised, a break thrown. -/
def receive (host : Host) (service : Service) : Option YieldReply → Host × Service
  | none => (host, service)
  | some (.ok _) => (host, service)
  | some .break_ => (host, { service with throws := service.throws + 1 })
  | some (.error record) =>
    let failure := (host.remember record).1
    let failures := match service.lastRaise with
      | some exc => (failure, exc) :: service.failures
      | none => service.failures
    ((host.remember record).2, { service with lastFailure := some failure, failures })

/-- The instance before any Call. -/
def start : State := ⟨⟨true, [], .new, .new⟩, ⟨0, none, 0⟩, [], .guest⟩

/-- One step, refused where the event cannot happen. -/
def step (s : State) : Event → Option State
  | .call block =>
    match s.now with
    | .guest => some { s with guest := s.guest.park block, now := .sent block }
    | _ => none
  | .refuse refusal =>
    match s.now with
    | .sent block => some { s with now := .answered (fitInMessage refusal.reply) block none }
    | _ => none
  | .serve =>
    match s.now with
    | .sent block =>
      some { s with
        host := { s.host with openCalls := s.host.openCalls + 1 }
        now := .serving (.opened s.host.openCalls block) }
    | _ => none
  | .yield frame unreadable lost =>
    match s.now with
    | .serving service =>
      match s.guest.yieldToBlock frame unreadable with
      | (.ok block, guest) =>
        some { s with
          guest
          suspended := (service.reenter, block) :: s.suspended
          now := .guest }
      | (.error reply, guest) =>
        let received := receive s.host service.reenter (readYieldReply reply lost)
        some { s with guest, host := received.1, now := .serving received.2 }
    | _ => none
  | .leave outcome lost =>
    match s.now, s.suspended with
    | .guest, (service, _) :: outer =>
      let answer := s.guest.leaveBlock outcome
      let received := receive s.host (service.left outcome) (readYieldReply answer.1 lost)
      some {
        guest := answer.2
        host := received.1
        suspended := outer.map fun (caller, block) => (caller.leftBeneath outcome, block)
        now := .serving received.2 }
    | _, _ => none
  | .override =>
    match s.now with
    | .serving service =>
      if service.throws = 0 then none
      else some { s with now := .serving { service with throws := service.throws - 1 } }
    | _ => none
  | .answer ending =>
    match s.now with
    | .serving service =>
      if ending = .thrown ∧ service.throws = 0 then none
      else
        some { s with
          host := { s.host with openCalls := s.host.openCalls - 1 }
          now := .answered (fitInMessage (dispatchReply s.host.newest ending)) service.block
            (some service) }
    | _ => none
  | .resume unreadable =>
    match s.now with
    | .answered reply _ _ =>
      some { s with guest := (s.guest.bridge reply unreadable).2, now := .guest }
    | _ => none

/-- What one step does, by the event it takes. -/
inductive Step : State → Event → State → Prop where
  | call (guest host suspended block) :
    Step ⟨guest, host, suspended, .guest⟩ (.call block)
      ⟨guest.park block, host, suspended, .sent block⟩
  | refuse (guest host suspended block refusal) :
    Step ⟨guest, host, suspended, .sent block⟩ (.refuse refusal)
      ⟨guest, host, suspended, .answered (fitInMessage refusal.reply) block none⟩
  | serve (guest host suspended block) :
    Step ⟨guest, host, suspended, .sent block⟩ .serve
      ⟨guest, { host with openCalls := host.openCalls + 1 }, suspended,
        .serving (.opened host.openCalls block)⟩
  | yieldRuns (guest host suspended service frame unreadable lost block after)
    (runs : guest.yieldToBlock frame unreadable = (.ok block, after)) :
    Step ⟨guest, host, suspended, .serving service⟩ (.yield frame unreadable lost)
      ⟨after, host, (service.reenter, block) :: suspended, .guest⟩
  | yieldFails (guest host suspended service frame unreadable lost reply after)
    (fails : guest.yieldToBlock frame unreadable = (.error reply, after)) :
    Step ⟨guest, host, suspended, .serving service⟩ (.yield frame unreadable lost)
      ⟨after, (receive host service.reenter (readYieldReply reply lost)).1, suspended,
        .serving (receive host service.reenter (readYieldReply reply lost)).2⟩
  | leave (guest host suspended service block outcome lost) :
    Step ⟨guest, host, (service, block) :: suspended, .guest⟩ (.leave outcome lost)
      ⟨(guest.leaveBlock outcome).2,
        (receive host (service.left outcome)
          (readYieldReply (guest.leaveBlock outcome).1 lost)).1,
        suspended.map fun (caller, block) => (caller.leftBeneath outcome, block),
        .serving (receive host (service.left outcome)
          (readYieldReply (guest.leaveBlock outcome).1 lost)).2⟩
  | override (guest host suspended service) (unwinding : service.throws ≠ 0) :
    Step ⟨guest, host, suspended, .serving service⟩ .override
      ⟨guest, host, suspended, .serving { service with throws := service.throws - 1 }⟩
  | answer (guest host suspended service ending)
    (unwound : ending = .thrown → service.throws ≠ 0) :
    Step ⟨guest, host, suspended, .serving service⟩ (.answer ending)
      ⟨guest, { host with openCalls := host.openCalls - 1 }, suspended,
        .answered (fitInMessage (dispatchReply host.newest ending)) service.block (some service)⟩
  | resume (guest host suspended reply block service unreadable) :
    Step ⟨guest, host, suspended, .answered reply block service⟩ (.resume unreadable)
      ⟨(guest.bridge reply unreadable).2, host, suspended, .guest⟩

/-- Every step taken is one of these. -/
theorem step_cases {s s' : State} {event : Event} (taken : step s event = some s') :
    Step s event s' := by
  obtain ⟨guest, host, suspended, now⟩ := s
  cases event with
  | call block =>
    cases now with
    | guest => cases taken; exact .call ..
    | _ => cases taken
  | refuse refusal =>
    cases now with
    | sent block => cases taken; exact .refuse ..
    | _ => cases taken
  | serve =>
    cases now with
    | sent block => cases taken; exact .serve ..
    | _ => cases taken
  | yield frame unreadable lost =>
    cases now with
    | serving service =>
      simp only [step] at taken
      split at taken
      · rename_i runs
        cases taken
        exact .yieldRuns _ _ _ _ _ _ _ _ _ runs
      · rename_i fails
        cases taken
        exact .yieldFails _ _ _ _ _ _ _ _ _ fails
    | _ => cases taken
  | leave outcome lost =>
    cases now with
    | guest =>
      cases suspended with
      | nil => cases taken
      | cons top outer => cases taken; exact .leave ..
    | _ => cases taken
  | override =>
    cases now with
    | serving service =>
      simp only [step] at taken
      split at taken
      · cases taken
      · rename_i unwinding
        cases taken
        exact .override _ _ _ _ unwinding
    | _ => cases taken
  | answer ending =>
    cases now with
    | serving service =>
      simp only [step] at taken
      split at taken
      · cases taken
      · rename_i unwound
        cases taken
        exact .answer _ _ _ _ _ (fun thrown still => unwound ⟨thrown, still⟩)
    | _ => cases taken
  | resume unreadable =>
    cases now with
    | answered reply block service => cases taken; exact .resume ..
    | _ => cases taken

/-- The Service behind what runs now, running or answered. -/
def Now.services : Now → List Service
  | .serving service => [service]
  | .answered _ _ (some service) => [service]
  | _ => []

/-- The Services of a state, innermost first. -/
def State.services (s : State) : List Service := s.now.services ++ s.suspended.map Prod.fst

/-- The Services suspended around a block that left, after it left. -/
theorem services_leftBeneath (suspended : List (Service × Block)) (outcome : BlockOutcome) :
    (suspended.map fun (caller, block) => (caller.leftBeneath outcome, block)).map Prod.fst =
      (suspended.map Prod.fst).map fun caller => caller.leftBeneath outcome := by
  rw [List.map_map, List.map_map]
  rfl

/-- What every step keeps, stated over the steps a state can take, every reachable state has. -/
theorem reachable_invariant {Holds : State → Prop} {s : State} (initial : Holds start)
    (kept : ∀ {s event s'}, Step s event s' → Holds s → Holds s')
    (reached : Reachable step start s) : Holds s :=
  reached.invariant step initial fun _ _ _ holds taken => kept (step_cases taken) holds

end Kobako.Transport
