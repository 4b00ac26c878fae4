import Kobako.Transport.Calls

/-!
# Block failures

A block that raises has its exception held by the guest, and the failure the host raises at the
yield remembered by the frontend. The host forgets a failure for a newer one only; the guest
forgets the exception whenever it is entered again. So a Service that lets a block's failure
through is answered on the block arm, and the bridge re-raises the exception exactly when the last
block that Service ran is the one that raised it.
-/

namespace Kobako.Transport

/-- What the held raise and the remembered failure say of the Services. -/
structure RaiseHeld (s : State) : Prop where
  /-- The VM of the invocation is bound. -/
  bound : s.guest.mrb = true
  /-- While guest code runs, or its request is on its way, nothing is held. -/
  spent : (s.now = .guest ∨ ∃ block, s.now = .sent block) → s.guest.blockRaise.held = none
  /-- What the block of a Service's last yield raised is held while it runs. -/
  slot : ∀ service ∈ s.now.services, s.guest.blockRaise.held = service.lastRaise
  /-- The failure of a Service's last yield is remembered while it runs. -/
  remembered : ∀ service ∈ s.now.services, ∀ failure, service.lastFailure = some failure →
    s.host.newest = some failure
  /-- A Service inside a yield has no outcome of it yet. -/
  entered : ∀ service ∈ s.suspended.map Prod.fst,
    service.lastFailure = none ∧ service.lastRaise = none
  /-- The text of a remembered failure fits a message. -/
  fits : ∀ failure, s.host.newest = some failure →
    (Reply.fault .block (failure.klass ++ ": " ++ failure.message)).encodedLen ≤
      maxDispatchPayload
  /-- A failure a Service was raised is one that was made. -/
  made : ∀ service ∈ s.services, ∀ raised ∈ service.failures, raised.1.number < s.host.made
  /-- The failure of a Service's last yield stands for what the block of that yield raised. -/
  matched : ∀ service ∈ s.services, ∀ failure, service.lastFailure = some failure →
    ∀ exc, (failure, exc) ∈ service.failures → service.lastRaise = some exc

/-! ## What each operation does to the slot -/

/-- Every re-entry clears the held raise. -/
theorem blockRaise_yieldToBlock (guest : Guest) (frame : Nat) (unreadable : Option ErrorRecord)
    (bound : guest.mrb = true) :
    (guest.yieldToBlock frame unreadable).2.blockRaise.held = none := by
  unfold Guest.yieldToBlock
  rw [if_neg (by simp [bound])]
  dsimp only
  split <;> rfl

/-- The text a failure is answered with is no longer than the record the guest answered. -/
theorem encodedLen_block_le (record : ErrorRecord) :
    (Reply.fault .block (record.name ++ ": " ++ record.message)).encodedLen ≤
      (YieldReply.error record).encodedLen := by
  have separator : (": " : String).utf8ByteSize = 2 := by decide
  simp only [Reply.encodedLen, YieldReply.encodedLen, textLen, String.utf8ByteSize_append,
    separator]
  omega

/-- A failure is as long as the record it was made from, and newer than any before. -/
theorem remember_fits (host : Host) (record : ErrorRecord) (reply : YieldReply) (lost : Bool)
    (read : readYieldReply reply lost = some (.error record)) :
    (Reply.fault .block ((host.remember record).1.klass ++ ": " ++
      (host.remember record).1.message)).encodedLen ≤ maxDispatchPayload := by
  unfold readYieldReply at read
  split at read
  · cases read
  · rename_i within
    obtain rfl := Option.some.inj read
    have short : (YieldReply.error record).encodedLen ≤ maxDispatchPayload := by
      rw [not_or] at within
      omega
    exact Nat.le_trans (encodedLen_block_le record) short

theorem raiseHeld_start : RaiseHeld start := by
  refine ⟨rfl, fun _ => rfl, ?_, ?_, ?_, ?_, ?_, ?_⟩ <;> simp [start, State.services, Now.services]

/-- A Service whose yield just ended: the guest holds what its block raised, and the host
remembers the failure that came of it. -/
theorem RaiseHeld.received {guest : Guest} {host : Host} {suspended : List (Service × Block)}
    {service : Service} (reply : YieldReply) (lost : Bool) (bound : guest.mrb = true)
    (held : guest.blockRaise.held = service.lastRaise) (entered : service.lastFailure = none)
    (fits : ∀ failure, host.newest = some failure →
      (Reply.fault .block (failure.klass ++ ": " ++ failure.message)).encodedLen ≤
        maxDispatchPayload)
    (made : ∀ raised ∈ service.failures, raised.1.number < host.made)
    (outerEntered : ∀ caller ∈ suspended.map Prod.fst,
      caller.lastFailure = none ∧ caller.lastRaise = none)
    (outerMade : ∀ caller ∈ suspended.map Prod.fst, ∀ raised ∈ caller.failures,
      raised.1.number < host.made) :
    RaiseHeld ⟨guest, (receive host service (readYieldReply reply lost)).1, suspended,
      .serving (receive host service (readYieldReply reply lost)).2⟩ := by
  have outerMatched : ∀ caller ∈ suspended.map Prod.fst, ∀ failure,
      caller.lastFailure = some failure → ∀ exc, (failure, exc) ∈ caller.failures →
        caller.lastRaise = some exc := by
    intro caller called failure failed
    rw [(outerEntered caller called).1] at failed
    cases failed
  have quiet : ∀ running : Service, running.lastFailure = none →
      running.lastRaise = service.lastRaise → running.failures = service.failures →
      RaiseHeld ⟨guest, host, suspended, .serving running⟩ := by
    intro running last raise failures
    refine ⟨bound, by simp, ?_, ?_, outerEntered, fits, ?_, ?_⟩
    · simpa [Now.services, raise] using held
    · simp only [Now.services, List.forall_mem_singleton, last]
      intro failure impossible
      cases impossible
    · simp only [State.services, Now.services, List.singleton_append, List.forall_mem_cons,
        failures]
      exact ⟨made, outerMade⟩
    · simp only [State.services, Now.services, List.singleton_append, List.forall_mem_cons, last]
      refine ⟨?_, outerMatched⟩
      intro failure impossible
      cases impossible
  cases read : readYieldReply reply lost with
  | none => exact quiet service entered rfl rfl
  | some answer =>
    cases answer with
    | ok body => exact quiet service entered rfl rfl
    | break_ => exact quiet _ entered rfl rfl
    | error record =>
      refine ⟨bound, by simp, ?_, ?_, outerEntered, ?_, ?_, ?_⟩
      · simpa [Now.services, receive] using held
      · simp only [Now.services, List.forall_mem_singleton, receive]
        rintro failure same
        exact same
      · intro failure same
        obtain rfl := Option.some.inj same
        exact remember_fits host record reply lost read
      · have later : (host.remember record).2.made = host.made + 1 := rfl
        simp only [State.services, Now.services, List.singleton_append, List.forall_mem_cons,
          receive, later]
        refine ⟨?_, fun caller called raised found =>
          Nat.lt_succ_of_lt (outerMade caller called raised found)⟩
        intro raised found
        split at found
        · rcases List.mem_cons.mp found with rfl | older
          · exact Nat.lt_succ_self host.made
          · exact Nat.lt_succ_of_lt (made raised older)
        · exact Nat.lt_succ_of_lt (made raised found)
      · simp only [State.services, Now.services, List.singleton_append, List.forall_mem_cons,
          receive]
        refine ⟨?_, outerMatched⟩
        rintro failure same exc found
        obtain rfl := Option.some.inj same
        -- Older failures carry smaller numbers, so only the new one is found under its own.
        have older : ((host.remember record).1, exc) ∉ service.failures :=
          fun old => absurd (made _ old) (Nat.lt_irrefl host.made)
        split at found
        · rename_i raise
          rcases List.mem_cons.mp found with new | old
          · rw [raise]
            exact congrArg some (Prod.ext_iff.mp new).2.symm
          · exact absurd old older
        · exact absurd found older

/-- What a block raised is held once it left. -/
theorem blockRaise_leaveBlock (guest : Guest) (outcome : BlockOutcome) (service : Service)
    (held : guest.blockRaise.held = none) (entered : service.lastRaise = none) :
    (guest.leaveBlock outcome).2.blockRaise.held = (service.left outcome).lastRaise := by
  cases outcome with
  | value body => cases body <;> exact held.trans entered.symm
  | raised exc => rfl
  | exited exit => exact held.trans entered.symm

@[simp] theorem lastFailure_left (service : Service) (outcome : BlockOutcome) :
    (service.left outcome).lastFailure = service.lastFailure := by
  cases outcome <;> rfl

@[simp] theorem failures_left (service : Service) (outcome : BlockOutcome) :
    (service.left outcome).failures = service.failures := by
  cases outcome <;> rfl

@[simp] theorem lastFailure_leftBeneath (service : Service) (outcome : BlockOutcome) :
    (service.leftBeneath outcome).lastFailure = service.lastFailure := by
  cases outcome <;> rfl

@[simp] theorem lastRaise_leftBeneath (service : Service) (outcome : BlockOutcome) :
    (service.leftBeneath outcome).lastRaise = service.lastRaise := by
  cases outcome <;> rfl

@[simp] theorem failures_leftBeneath (service : Service) (outcome : BlockOutcome) :
    (service.leftBeneath outcome).failures = service.failures := by
  cases outcome <;> rfl

/-- Every step keeps what is held and remembered in step with the Services. -/
theorem RaiseHeld.step {s s' : State} {event : Event} (taken : Step s event s')
    (holds : RaiseHeld s) : RaiseHeld s' := by
  obtain ⟨bound, spent, slot, remembered, entered, fits, made, matched⟩ := holds
  cases taken with
  | call guest host suspended block =>
    exact ⟨bound, fun _ => spent (.inl rfl), by simp [Now.services], by simp [Now.services],
      entered, fits, made, matched⟩
  | refuse guest host suspended block refusal =>
    exact ⟨bound, by simp, by simp [Now.services], by simp [Now.services], entered, fits, made,
      matched⟩
  | serve guest host suspended block =>
    refine ⟨bound, by simp, ?_, ?_, entered, fits, ?_, ?_⟩
    · simpa [Now.services, Service.opened] using spent (.inr ⟨block, rfl⟩)
    · simp [Now.services, Service.opened]
    · simp only [State.services, Now.services, List.singleton_append, List.forall_mem_cons]
      exact ⟨by simp [Service.opened], made⟩
    · simp only [State.services, Now.services, List.singleton_append, List.forall_mem_cons]
      exact ⟨by simp [Service.opened], matched⟩
  | yieldRuns guest host suspended service frame unreadable lost block after runs =>
    have mrb := mrb_yieldToBlock guest frame unreadable
    have cleared := blockRaise_yieldToBlock guest frame unreadable bound
    rw [runs] at mrb cleared
    simp only [State.services, Now.services, List.singleton_append, List.forall_mem_cons]
      at made matched
    refine ⟨mrb.trans bound, fun _ => cleared, by simp [Now.services], by simp [Now.services],
      ?_, fits, ?_, ?_⟩
    · rw [List.map_cons, List.forall_mem_cons]
      exact ⟨⟨rfl, rfl⟩, entered⟩
    · simp only [State.services, Now.services, List.nil_append, List.map_cons,
        List.forall_mem_cons]
      exact made
    · simp only [State.services, Now.services, List.nil_append, List.map_cons,
        List.forall_mem_cons]
      exact ⟨by simp [Service.reenter], matched.2⟩
  | yieldFails guest host suspended service frame unreadable lost reply after fails =>
    have mrb := mrb_yieldToBlock guest frame unreadable
    have cleared := blockRaise_yieldToBlock guest frame unreadable bound
    rw [fails] at mrb cleared
    simp only [State.services, Now.services, List.singleton_append, List.forall_mem_cons] at made
    exact RaiseHeld.received reply lost (mrb.trans bound) cleared rfl fits made.1 entered made.2
  | leave guest host suspended service block outcome lost =>
    have none : guest.blockRaise.held = none := spent (.inl rfl)
    rw [List.map_cons, List.forall_mem_cons] at entered
    simp only [State.services, Now.services, List.nil_append, List.map_cons,
      List.forall_mem_cons] at made
    apply RaiseHeld.received
    · rw [mrb_leaveBlock]
      exact bound
    · exact blockRaise_leaveBlock guest outcome service none entered.1.2
    · rw [lastFailure_left]
      exact entered.1.1
    · exact fits
    · rw [failures_left]
      exact made.1
    · rw [services_leftBeneath, List.forall_mem_map]
      intro caller called
      rw [lastFailure_leftBeneath, lastRaise_leftBeneath]
      exact entered.2 caller called
    · rw [services_leftBeneath, List.forall_mem_map]
      intro caller called
      rw [failures_leftBeneath]
      exact made.2 caller called
  | override guest host suspended service unwinding =>
    simp only [State.services, Now.services, List.singleton_append, List.forall_mem_cons]
      at slot remembered made matched
    refine ⟨bound, by simp, ?_, ?_, entered, fits, ?_, ?_⟩ <;>
      simp only [State.services, Now.services, List.singleton_append, List.forall_mem_cons]
    · exact slot
    · exact remembered
    · exact made
    · exact matched
  | answer guest host suspended service ending unwound =>
    exact ⟨bound, by simp, slot, remembered, entered, fits, made, matched⟩
  | resume guest host suspended reply block service unreadable =>
    rw [Guest.bridge_guest]
    have outer : ∀ caller ∈ suspended.map Prod.fst,
        caller ∈ (Now.answered reply block service).services ++ suspended.map Prod.fst :=
      fun caller called => List.mem_append_right _ called
    exact ⟨bound, fun _ => rfl, by simp [Now.services], by simp [Now.services], entered, fits,
      fun caller called => made caller (outer caller called),
      fun caller called => matched caller (outer caller called)⟩

/-- What is held and remembered is in step with the Services in every reachable state. -/
theorem raiseHeld_of_reachable {s : State} (reached : Reachable step start s) : RaiseHeld s :=
  reachable_invariant raiseHeld_start RaiseHeld.step reached

/-- The Service lets `failure` through, and the bridge of its Call re-raises `exc`. -/
def Reraises (s : State) (failure : Failure) (exc : Raised) : Prop :=
  ∃ s' reply block service,
    step s (.answer (.raised (.failure failure))) = some s' ∧
      s'.now = .answered reply block (some service) ∧
      ∀ unreadable, (s'.guest.bridge reply unreadable).1 = .raised exc

/-- The Reply of a failure let through is on the block arm exactly when it is the newest. -/
theorem dispatchReply_failure {s : State} (holds : RaiseHeld s) (failure : Failure) :
    (∃ text, fitInMessage (dispatchReply s.host.newest (.raised (.failure failure))) =
        .fault .block text) ↔
      ∃ newest, s.host.newest = some newest ∧ failure.number = newest.number := by
  simp only [dispatchReply, faultOf, faultText]
  cases remembered : s.host.newest with
  | none =>
    simp only [reduceCtorEq, false_and, exists_false, iff_false, not_exists]
    intro text
    unfold fitInMessage
    split <;> simp
  | some newest =>
    have fits := holds.fits newest remembered
    by_cases same : failure.number = newest.number
    · have within : ¬ (Reply.fault .block
          (newest.klass ++ ": " ++ newest.message)).encodedLen > maxDispatchPayload := by omega
      simp only [if_pos same, fitInMessage, if_neg within]
      exact ⟨fun _ => ⟨newest, rfl, same⟩, fun _ => ⟨_, rfl⟩⟩
    · simp only [if_neg same]
      constructor
      · rintro ⟨text, blocks⟩
        unfold fitInMessage at blocks
        split at blocks <;> cases blocks
      · rintro ⟨other, found, equal⟩
        obtain rfl := Option.some.inj found
        exact absurd equal same

/-- What the bridge of a Call makes of a failure its Service let through. -/
theorem reraises_iff_held {s : State} (holds : RaiseHeld s) {service : Service}
    (serving : s.now = .serving service) (failure : Failure) (exc : Raised) :
    Reraises s failure exc ↔
      (∃ newest, s.host.newest = some newest ∧ failure.number = newest.number) ∧
        service.lastRaise = some exc := by
  have held : s.guest.blockRaise.held = service.lastRaise :=
    holds.slot service (by simp [serving, Now.services])
  have arm := dispatchReply_failure holds failure
  have taken : step s (.answer (.raised (.failure failure))) =
      some { s with
        host := { s.host with openCalls := s.host.openCalls - 1 }
        now := .answered (fitInMessage (dispatchReply s.host.newest (.raised (.failure failure))))
          service.block (some service) } := by
    rw [step, serving]
    rfl
  constructor
  · rintro ⟨s', reply, block, named, stepped, answered, again⟩
    obtain rfl := Option.some.inj (taken.symm.trans stepped)
    cases answered
    have raised := again none
    -- Only a fault on the block arm with a raise held re-raises anything.
    unfold Guest.bridge at raised
    dsimp only [Guest.dropFrame, HeldExit.take] at raised
    rw [held] at raised
    split at raised
    · cases raised
    · rename_i kind message reply
      split at raised
      · rename_i last
        cases raised
        exact ⟨arm.mp ⟨message, reply⟩, last⟩
      · cases raised
    · split at raised <;> cases raised
    · cases raised
  · rintro ⟨newest, last⟩
    obtain ⟨text, reply⟩ := arm.mpr newest
    rw [reply] at taken
    refine ⟨_, _, _, _, taken, rfl, ?_⟩
    intro unreadable
    unfold Guest.bridge
    dsimp only [Guest.dropFrame, HeldExit.take]
    rw [held, last]

/-- In every run, a Service that lets through a failure one of its own blocks raised has the
bridge re-raise that block's exception when the failing yield was its last; and the exception is
re-raised exactly when no newer failure was remembered and the last block the Service ran raised
it. -/
theorem reraises_of_reachable {s : State} (reached : Reachable step start s) {service : Service}
    (serving : s.now = .serving service) {failure : Failure} {exc : Raised}
    (own : (failure, exc) ∈ service.failures) :
    (service.lastFailure = some failure → Reraises s failure exc) ∧
      (Reraises s failure exc ↔
        (∃ newest, s.host.newest = some newest ∧ failure.number = newest.number) ∧
          service.lastRaise = some exc) := by
  have holds := raiseHeld_of_reachable reached
  have exactly := reraises_iff_held holds serving failure exc
  refine ⟨?_, exactly⟩
  intro last
  have newest : s.host.newest = some failure :=
    holds.remembered service (by simp [serving, Now.services]) failure last
  have raised : service.lastRaise = some exc :=
    holds.matched service (by simp [State.services, serving, Now.services]) failure last exc own
  exact exactly.mpr ⟨⟨failure, newest, rfl⟩, raised⟩

/-- A Call whose block raised, its Service on its way out. -/
def raisedOnce : State :=
  ⟨⟨true, [some ⟨7⟩], ⟨some ⟨3, ⟨"RuntimeError", "boom", []⟩⟩⟩, .new⟩,
    ⟨1, some ⟨0, "RuntimeError", "boom"⟩, 1⟩, [],
    .serving ⟨0, some ⟨7⟩, 0, none, false, some ⟨0, "RuntimeError", "boom"⟩,
      some ⟨3, ⟨"RuntimeError", "boom", []⟩⟩,
      [(⟨0, "RuntimeError", "boom"⟩, ⟨3, ⟨"RuntimeError", "boom", []⟩⟩)]⟩⟩

/-- Let through at once, the exception is re-raised. -/
theorem reraises_raisedOnce :
    run step start
        [.call (some ⟨7⟩), .serve, .yield 0 none false,
          .leave (.raised ⟨3, ⟨"RuntimeError", "boom", []⟩⟩) false] = some raisedOnce ∧
      Reraises raisedOnce ⟨0, "RuntimeError", "boom"⟩ ⟨3, ⟨"RuntimeError", "boom", []⟩⟩ := by
  have ran : run step start
      [.call (some ⟨7⟩), .serve, .yield 0 none false,
        .leave (.raised ⟨3, ⟨"RuntimeError", "boom", []⟩⟩) false] = some raisedOnce := by decide
  exact ⟨ran, (reraises_of_reachable ⟨_, ran⟩ rfl (by decide)).1 rfl⟩

/-- The same Call after an `ensure` of its Service yielded again, to a block that ran to its
end. -/
def ensuredOnce : State :=
  ⟨⟨true, [some ⟨7⟩], .new, .new⟩, ⟨1, some ⟨0, "RuntimeError", "boom"⟩, 1⟩, [],
    .serving ⟨0, some ⟨7⟩, 0, none, false, none, none,
      [(⟨0, "RuntimeError", "boom"⟩, ⟨3, ⟨"RuntimeError", "boom", []⟩⟩)]⟩⟩

/-- The failure is still the newest and is answered on the block arm, but the guest let go of the
exception when it was entered again, and the bridge reports the Service instead. -/
theorem ensured_loses_exception :
    run step start
        [.call (some ⟨7⟩), .serve, .yield 0 none false,
          .leave (.raised ⟨3, ⟨"RuntimeError", "boom", []⟩⟩) false,
          .yield 0 none false, .leave (.value (.ok [])) false] = some ensuredOnce ∧
      ensuredOnce.host.newest = some ⟨0, "RuntimeError", "boom"⟩ ∧
      (ensuredOnce.guest.bridge (fitInMessage (dispatchReply ensuredOnce.host.newest
          (.raised (.failure ⟨0, "RuntimeError", "boom"⟩)))) none).1 =
        .serviceError .block "RuntimeError: boom" ∧
      ¬ Reraises ensuredOnce ⟨0, "RuntimeError", "boom"⟩ ⟨3, ⟨"RuntimeError", "boom", []⟩⟩ := by
  refine ⟨by decide, rfl, by decide, ?_⟩
  rintro ⟨s', reply, block, service, taken, answered, again⟩
  cases taken
  cases answered
  exact absurd (again none) (by decide)

end Kobako.Transport
