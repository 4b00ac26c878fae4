import Kobako.Endpoint.Dispatch

/-!
# A trapped guest

What the log of a run can tell. An upcall is told from its beginning to its end: calls into the
guest, writes, yields and the upcalls nested in its calls, until a call of its own traps; from
there on yields answered by an error only, and the end is that first trap. The trap slot is empty
whenever the guest runs, so every upcall, nested or not, is told so.
-/

namespace Kobako.Endpoint

open Kobako.Envelope

variable {F : Type}

/-- What reaches the guest from an upcall at a depth, and the yields it is asked for. -/
inductive Own (depth : Nat) : Event F → Prop where
  | alloc : Own depth (.alloc depth)
  | downcall : Own depth (.downcall depth)
  | write : Own depth (.write depth)
  | yielded (answered : Bool) : Own depth (.yielded depth answered)

mutual

/-- Upcalls at a depth, one after another, each told whole: one in which a call of its own trapped
ended with the first trap. -/
inductive Upcalls : Nat → List (Event F) → Prop where
  | none (depth : Nat) : Upcalls depth []
  | more {depth : Nat} {body rest : List (Event F)} {trap : Option F}
      {ended : Except (UpcallEnd F) UInt64} (told : Told depth trap body)
      (first : ∀ kept, trap = some kept → ended = .error (.fault kept))
      (after : Upcalls depth rest) :
      Upcalls depth (.opened depth :: (body ++ .closed depth ended :: rest))

/-- What one upcall at a depth told, with the first trap of a call of its own: past it nothing
reaches the guest, and a yield is answered by an error. -/
inductive Told : Nat → Option F → List (Event F) → Prop where
  | nothing (depth : Nat) : Told depth none []
  | own {depth : Nat} {body : List (Event F)} {event : Event F} (told : Told depth none body)
      (own : Own depth event) : Told depth none (body ++ [event])
  | nested {depth : Nat} {body calls : List (Event F)} (told : Told depth none body)
      (inner : Upcalls (depth + 1) calls) : Told depth none (body ++ calls)
  | trapped {depth : Nat} {body : List (Event F)} (told : Told depth none body) (trap : F) :
      Told depth (some trap) (body ++ [.trapped depth trap])
  | refused {depth : Nat} {body : List (Event F)} {trap : F} (told : Told depth (some trap) body) :
      Told depth (some trap) (body ++ [.yielded depth false])

end

/-! ## Inside one upcall -/

/-- An upcall that began at `start` has been told so far as the trap slot says. -/
def Follows (start guest : Instance F) : Prop :=
  ∃ body, guest.log = start.log ++ body ∧ guest.depth = start.depth ∧
    Told start.depth guest.reentryTrap body

/-- No call of it has trapped yet. -/
def Calm (start guest : Instance F) : Prop := Follows start guest ∧ guest.reentryTrap = none

/-- A call of it has trapped, and the slot is still to be told. -/
def Struck (start : Instance F) (trap : F) (guest : Instance F) : Prop :=
  guest.reentryTrap = none ∧ Follows start { guest with reentryTrap := some trap }

/-- A call into the guest: made with an empty slot it leaves one, and tells upcalls only. -/
def Quiet (call : GuestCall F) : Prop :=
  ∀ guest, guest.reentryTrap = none → (call guest).2.reentryTrap = none ∧
    (call guest).2.depth = guest.depth ∧
    ∃ calls, (call guest).2.log = guest.log ++ calls ∧ Upcalls (guest.depth + 1) calls

/-- What says nothing of the log, the depth or the slot changes nothing here. -/
theorem Follows.congr {start guest after : Instance F} (follows : Follows start guest)
    (log : after.log = guest.log) (depth : after.depth = guest.depth)
    (trap : after.reentryTrap = guest.reentryTrap) : Follows start after := by
  obtain ⟨body, told, same, whole⟩ := follows
  exact ⟨body, log.trans told, depth.trans same, trap ▸ whole⟩

/-- One event more, as the upcall's own telling allows. -/
theorem Follows.tell {start guest : Instance F} (follows : Follows start guest)
    {event : Nat → Event F}
    (onward : ∀ body, Told start.depth guest.reentryTrap body →
      Told start.depth guest.reentryTrap (body ++ [event start.depth])) :
    Follows start (guest.tell event) := by
  obtain ⟨body, told, same, whole⟩ := follows
  refine ⟨body ++ [event start.depth], ?_, same, onward body whole⟩
  rw [Instance.tell, told, same, List.append_assoc]

theorem Calm.tell {start guest : Instance F} (calm : Calm start guest) {event : Nat → Event F}
    (onward : ∀ body, Told start.depth none body →
      Told start.depth none (body ++ [event start.depth])) : Calm start (guest.tell event) := by
  obtain ⟨follows, empty⟩ := calm
  refine ⟨follows.tell ?_, empty⟩
  rw [empty]
  exact onward

section Steps

variable {start : Instance F}

variable {guest : Instance F} {alloc : GuestCall F}

/-- A call into the guest is told, and its trap with it. -/
theorem callGuest_ends {ε : Type} {failed : ε → Instance F → Prop} (calm : Calm start guest)
    {event : Nat → Event F} {call : GuestCall F} (quiet : Quiet call)
    (onward : ∀ body, Told start.depth none body →
      Told start.depth none (body ++ [event start.depth])) :
    Ends (callGuest event call : Host F ε _) guest
      (fun result after => match result with
        | some (.error trap) => Struck start trap after
        | _ => Calm start after)
      failed := by
  obtain ⟨⟨body, told, same, whole⟩, empty⟩ := calm.tell onward
  obtain ⟨still, deep, calls, heard, upcalls⟩ := quiet (guest.tell event) empty
  rw [empty] at whole
  rw [same] at upcalls
  have log : (call (guest.tell event)).2.log = start.log ++ (body ++ calls) := by
    rw [heard, told, List.append_assoc]
  have nested : Told start.depth none (body ++ calls) := whole.nested upcalls
  unfold Ends callGuest
  cases called : call (guest.tell event) with
  | mk result after =>
    rw [called] at still deep log
    dsimp only at still deep log
    have calmly : Calm start after :=
      ⟨⟨body ++ calls, log, deep.trans same, still ▸ nested⟩, still⟩
    cases result with
    | none => exact calmly
    | some ended =>
      cases ended with
      | ok value => exact calmly
      | error trap =>
        refine ⟨still, body ++ calls ++ [.trapped start.depth trap], ?_, deep.trans same,
          nested.trapped trap⟩
        show after.log ++ [Event.trapped after.depth trap] = _
        rw [log, deep.trans same, List.append_assoc]

/-- How a failed write leaves the upcall: struck by the trap it answers, or calm. -/
def LeftBy (start : Instance F) : WriteError F → Instance F → Prop
  | .trapped trap, guest => Struck start trap guest
  | _, guest => Calm start guest

/-- Bytes written by a call of its own. -/
theorem writeMemory_ends (calm : Calm start guest) (ptr : UInt32) (bytes : List UInt8) :
    Ends (writeMemory ptr bytes) guest (fun _ after => Calm start after) (LeftBy start) := by
  unfold writeMemory
  have begun : Ends (get : Host F (WriteError F) (Instance F)) guest
      (fun _ after => Calm start after) (LeftBy start) := calm
  apply begun.bind
  intro now after calmly
  split
  · exact Ends.throw calmly
  · split
    · exact Ends.throw calmly
    · have same : ∀ memory, Calm start { after with memory } :=
        fun memory => ⟨calmly.1.congr rfl rfl rfl, calmly.2⟩
      exact (same _).tell fun body told => told.own .write

/-- An allocation and the write into it. -/
theorem allocAndWrite_ends (calm : Calm start guest) (quiet : Quiet alloc) (bytes : List UInt8) :
    Ends (allocAndWrite alloc bytes) guest (fun _ after => Calm start after) (LeftBy start) := by
  unfold allocAndWrite
  split
  · exact Ends.throw calm
  · have begun : Ends (get : Host F (WriteError F) (Instance F)) guest
        (fun _ after => Calm start after) (LeftBy start) := calm
    apply begun.bind
    intro now after calmly
    split
    · exact Ends.throw calmly
    · apply (callGuest_ends calmly quiet fun body told => told.own .alloc).bind
      intro result later ended
      split
      · exact Ends.throw ended
      · exact Ends.throw ended
      · split
        · exact Ends.throw ended
        · exact writeMemory_ends ended _ bytes

/-- Keeping the trap of a call tells the slot of it. -/
theorem keepTrap_ends {ε : Type} {failed : ε → Instance F → Prop} {trap : F}
    (struck : Struck start trap guest) (reason : String) :
    Ends (keepTrap trap reason : Host F ε String) guest (fun _ after => Follows start after)
      failed := by
  obtain ⟨empty, follows⟩ := struck
  show Follows start { guest with reentryTrap := some (guest.reentryTrap.getD trap) }
  rw [empty]
  exact follows

/-- A write from inside the upcall: made while it is calm, refused once a call of it trapped. -/
theorem writeFromCallback_ends (follows : Follows start guest) (quiet : Quiet alloc)
    (bytes : List UInt8) :
    Ends (writeFromCallback alloc bytes) guest (fun _ after => Calm start after)
      fun _ after => Follows start after := by
  unfold writeFromCallback
  have begun : Ends (get : Host F String (Instance F)) guest
      (fun now after => after = now ∧ Follows start after) fun _ after => Follows start after :=
    ⟨rfl, follows⟩
  apply begun.bind
  rintro now after ⟨rfl, still⟩
  split
  · exact Ends.throw still
  · rename_i untrapped
    have calm : Calm start after := ⟨still, by simpa using untrapped⟩
    have written : Ends (outcomeOf (allocAndWrite alloc bytes) : Host F String _) after
        (fun result later => match result with
          | .ok _ => Calm start later
          | .error e => LeftBy start e later) fun _ later => Follows start later :=
      Ends.outcomeOf (allocAndWrite_ends calm quiet bytes)
    apply written.bind
    intro result later ended
    split
    · exact Ends.pure ended
    · exact Ends.throw ended.1
    · exact Ends.throw ended.1
    · apply (keepTrap_ends ended _).bind
      exact fun reason last kept => Ends.throw kept
    · exact Ends.throw ended.1
    · exact Ends.throw ended.1

/-- Reading a block's result changes nothing. -/
theorem readYield_ends (calm : Calm start guest) (packed : UInt64) :
    Ends (readYield packed) guest (fun _ after => Calm start after)
      fun _ after => Follows start after := by
  unfold readYield
  dsimp only
  split
  · exact Ends.throw calm.1
  · have begun : Ends (get : Host F String (Instance F)) guest
        (fun _ after => Calm start after) fun _ after => Follows start after := calm
    apply begun.bind
    intro now after calmly
    split
    · exact Ends.throw calmly.1
    · split
      · exact Ends.throw calmly.1
      · exact Ends.throw calmly.1
      · exact Ends.pure calmly

/-- A yield: answered while the upcall is calm, and by an error once a call of it trapped. -/
theorem driveYield_ends (follows : Follows start guest) {alloc downcall : GuestCall F}
    (allocates : Quiet alloc) (calls : Quiet downcall) (frame : UInt32) (args : List UInt8) :
    Ends (driveYield alloc downcall frame args) guest (fun _ after => Calm start after)
      fun _ after => Follows start after := by
  unfold driveYield
  dsimp only
  split
  · exact Ends.throw follows
  · apply (writeFromCallback_ends follows allocates _).bind
    intro ptr after calm
    apply (callGuest_ends calm calls fun body told => told.own .downcall).bind
    intro result later ended
    split
    · exact Ends.throw ended.1
    · apply (keepTrap_ends ended _).bind
      exact fun reason last kept => Ends.throw kept
    · exact readYield_ends ended _

theorem yieldToBlock_ends (follows : Follows start guest) {alloc downcall : GuestCall F}
    (allocates : Quiet alloc) (calls : Quiet downcall) (frame : UInt32) (args : List UInt8) :
    Ends (yieldToBlock alloc downcall frame args) guest (fun _ after => Calm start after)
      fun _ after => Follows start after := by
  unfold yieldToBlock
  have driven : Ends (outcomeOf (driveYield alloc downcall frame args) : Host F Trap _) guest
      (fun result later => match result with
        | .ok _ => Calm start later
        | .error _ => Follows start later) fun _ later => Follows start later :=
    Ends.outcomeOf (driveYield_ends follows allocates calls frame args)
  apply driven.bind
  intro result after ended
  split
  · exact Ends.throw ended
  · split
    · exact Ends.pure ended
    · exact Ends.throw ended.1

/-- A yield answered by an error is told so, trapped or not. -/
theorem Follows.refused (follows : Follows start guest) :
    Follows start (guest.tell (.yielded · false)) := by
  apply follows.tell
  cases guest.reentryTrap with
  | none => exact fun body told => told.own (.yielded false)
  | some trap => exact fun body told => told.refused

/-- Reading the request, the handler and the count of open Calls, from a handler that follows. -/
theorem replyTo_keeps {dispatch : Call → Host F String (Option Reply)}
    (follows : ∀ call, Keeps (Follows start) (dispatch call) fun _ => True)
    (reqPtr reqLen : UInt32) :
    Keeps (Follows start) (replyTo dispatch reqPtr reqLen) fun _ => True := by
  have counts : ∀ change : Instance F → UInt32, Keeps (Follows start)
      (modify fun guest => { guest with openCalls := change guest } : Host F String PUnit)
      fun _ => True :=
    fun change => Keeps.modify fun guest kept => kept.congr rfl rfl rfl
  have reads : Keeps (Follows start) (readRequest reqPtr reqLen) fun _ => True := by
    unfold readRequest
    apply Keeps.get.bind
    intro guest _
    split
    · exact Keeps.throw
    · split
      · exact Keeps.throw
      · exact Keeps.throw
      · exact Keeps.pure trivial
  have dispatches : ∀ call, Keeps (Follows start) (dispatchCall dispatch call) fun _ => True := by
    intro call
    unfold dispatchCall
    apply (counts _).bind
    intro _ _
    apply (follows call).bind
    intro reply _
    apply (counts _).bind
    intro _ _
    split
    · exact Keeps.pure trivial
    · exact Keeps.throw
  unfold replyTo
  apply reads.bind
  intro request _
  split
  · exact Keeps.throw
  · exact Keeps.pure trivial
  · apply Keeps.get.bind
    intro guest _
    split
    · exact dispatches _
    · exact Keeps.throw

/-- How an upcall that began at `start` ends: the slot empty, and told whole. -/
def Closes (start : Instance F) (ended : Except (UpcallEnd F) UInt64) (after : Instance F) : Prop :=
  after.reentryTrap = none ∧ after.depth = start.depth ∧
    ∃ trap body, after.log = start.log ++ body ∧ Told start.depth trap body ∧
      ∀ kept, trap = some kept → ended = .error (.fault kept)

/-- Whatever the handler answered, the first trap ends the upcall. -/
theorem settle_ends (follows : Follows start guest) (abandoned : Instance F → Bool)
    (written : Except String UInt64) :
    Ends (settle abandoned written) guest (fun packed after => Closes start (.ok packed) after)
      fun e after => Closes start (.error e) after := by
  obtain ⟨body, log, depth, told⟩ := follows
  have begun : Ends (get : Host F (UpcallEnd F) (Instance F)) guest
      (fun now after => now = guest ∧ after = guest) fun e after => Closes start (.error e) after :=
    ⟨rfl, rfl⟩
  unfold settle
  apply begun.bind
  rintro now after ⟨rfl, rfl⟩
  split
  · rename_i first trap
    rw [trap] at told
    have closes : Closes start (.error (.fault first)) { after with reentryTrap := none } := by
      refine ⟨rfl, depth, some first, body, log, told, ?_⟩
      rintro kept same
      cases same
      rfl
    exact closes
  · rename_i trap
    rw [trap] at told
    have closes : ∀ ended, Closes start ended after :=
      fun ended => ⟨trap, depth, none, body, log, told, nofun⟩
    apply begun.bind
    rintro now later ⟨rfl, rfl⟩
    split
    · exact Ends.throw (closes _)
    · split
      · exact Ends.pure (closes _)
      · exact Ends.throw (closes _)

/-- One upcall, from a handler that follows and an allocation that is quiet. -/
theorem handle_ends (begun : Follows start start) {dispatch : Call → Host F String (Option Reply)}
    (follows : ∀ call, Keeps (Follows start) (dispatch call) fun _ => True) (quiet : Quiet alloc)
    (abandoned : Instance F → Bool) (reqPtr reqLen : UInt32) :
    Ends (handle dispatch alloc abandoned reqPtr reqLen) start
      (fun packed after => Closes start (.ok packed) after)
      fun e after => Closes start (.error e) after := by
  unfold handle
  have replies : Ends (outcomeOf (replyTo dispatch reqPtr reqLen) : Host F (UpcallEnd F) _) start
      (fun _ after => Follows start after) fun e after => Closes start (.error e) after := by
    apply Ends.outcomeOf
    exact (replyTo_keeps follows reqPtr reqLen start begun).mono (fun _ _ kept => kept.1)
      fun _ _ kept => kept
  apply replies.bind
  intro answered after told
  have writes : ∀ bytes, Ends (outcomeOf (writeReply alloc bytes) : Host F (UpcallEnd F) _) after
      (fun _ later => Follows start later) fun e later => Closes start (.error e) later := by
    intro bytes
    apply Ends.outcomeOf
    apply (writeFromCallback_ends told quiet bytes).bind
    exact fun ptr later calm => Ends.pure calm.1
  apply (writes _).bind
  exact fun written later still => settle_ends still abandoned written

end Steps

/-! ## Runs -/

/-- An upcall that closed, and whatever upcalls follow it. -/
theorem Closes.upcall {guest after : Instance F} {memory : Option (List UInt8)}
    {ended : Except (UpcallEnd F) UInt64} (closes : Closes (beginUpcall guest memory) ended after) :
    (endUpcall after ended).reentryTrap = none ∧ (endUpcall after ended).depth = guest.depth ∧
      ∀ rest, Upcalls (guest.depth + 1) rest →
        ∃ calls, (endUpcall after ended).log ++ rest = guest.log ++ calls ∧
          Upcalls (guest.depth + 1) calls := by
  obtain ⟨empty, depth, trap, body, log, told, first⟩ := closes
  have deep : after.depth = guest.depth + 1 := depth
  refine ⟨empty, ?_, fun rest upcalls => ⟨_, ?_, .more told first upcalls⟩⟩
  · show after.depth - 1 = guest.depth
    omega
  · show after.log ++ [Event.closed after.depth ended] ++ rest = _
    rw [log, deep]
    simp [beginUpcall, Instance.tell]

mutual

/-- Every call into the guest is quiet, whatever upcalls it makes. -/
theorem Play.quiet (message : String → F) : (play : Play F) → Quiet (play.run message)
  | .ends memory result => by
    intro guest empty
    exact ⟨empty, rfl, [], (List.append_nil _).symm, .none _⟩
  | .upcall memory reqPtr reqLen service reply abandoned next => by
    intro guest empty
    have begun : Follows (beginUpcall guest memory) (beginUpcall guest memory) :=
      ⟨[], (List.append_nil _).symm, rfl, empty ▸ .nothing _⟩
    have upcall := handle_ends begun (fun call => Service.follows message _ (service call))
      (fun now calm => Play.quiet message (reply now) now calm) abandoned reqPtr reqLen
    unfold Ends at upcall
    rw [Play.run]
    dsimp only
    split at upcall
    · rename_i packed after answered
      rw [answered]
      obtain ⟨still, depth, onward⟩ := upcall.upcall
      obtain ⟨last, same, rest, more, upcalls⟩ := Play.quiet message
        (next (endUpcall after (.ok packed)) packed) (endUpcall after (.ok packed)) still
      rw [depth] at same upcalls
      obtain ⟨calls, log, whole⟩ := onward rest upcalls
      exact ⟨last, same, calls, more.trans log, whole⟩
    · rename_i ended after failed
      rw [failed]
      obtain ⟨still, depth, onward⟩ := upcall.upcall
      obtain ⟨calls, log, whole⟩ := onward [] (.none _)
      rw [List.append_nil] at log
      exact ⟨still, depth, calls, log, whole⟩

/-- Every handler follows, however often it yields. -/
theorem Service.follows (message : String → F) (start : Instance F) :
    (service : Service F) → Keeps (Follows start) (service.run message) fun _ => True
  | .answers reply => Keeps.pure trivial
  | .yields frame args alloc downcall next => by
    intro guest told
    have yielded := yieldToBlock_ends told (fun now calm => Play.quiet message (alloc now) now calm)
      (fun now calm => Play.quiet message (downcall now) now calm) frame args
    unfold Ends at yielded ⊢
    rw [Service.run]
    dsimp only
    split at yielded
    · rename_i reply after answered
      rw [answered]
      have calm : Calm start (after.tell (.yielded · true)) :=
        yielded.tell fun body told => told.own (.yielded true)
      exact Service.follows message start (next _ (.ok reply)) _ calm.1
    · rename_i trap after failed
      rw [failed]
      exact Service.follows message start (next _ (.error trap)) _ yielded.refused

end

/-! ## What is told -/

/-- The number of upcalls open as an event happened. -/
def Event.depth : Event F → Nat
  | .opened depth | .closed depth _ | .alloc depth | .downcall depth | .trapped depth _
  | .write depth | .yielded depth _ => depth

theorem Own.depth_eq {depth : Nat} {event : Event F} (own : Own depth event) :
    event.depth = depth := by
  cases own <;> rfl

/-- One event more that happened no further out. -/
theorem within_snoc {depth : Nat} {body : List (Event F)} {event : Event F}
    (earlier : ∀ other ∈ body, depth ≤ other.depth) (last : event.depth = depth) :
    ∀ other ∈ body ++ [event], depth ≤ other.depth := by
  intro other member
  rcases List.mem_append.mp member with before | here
  · exact earlier other before
  · rw [List.mem_singleton.mp here, last]

mutual

/-- Nothing an upcall tells happened outside it. -/
theorem Upcalls.within : {depth : Nat} → {calls : List (Event F)} → Upcalls depth calls →
    ∀ event ∈ calls, depth ≤ event.depth
  | _, _, .none _ => nofun
  | _, _, .more told first after => by
    intro event member
    rcases List.mem_cons.mp member with rfl | member
    · exact Nat.le_refl _
    · rcases List.mem_append.mp member with inBody | member
      · exact told.within event inBody
      · rcases List.mem_cons.mp member with rfl | inRest
        · exact Nat.le_refl _
        · exact after.within event inRest

theorem Told.within : {depth : Nat} → {trap : Option F} → {body : List (Event F)} →
    Told depth trap body → ∀ event ∈ body, depth ≤ event.depth
  | _, _, _, .nothing _ => nofun
  | _, _, _, .own told own => within_snoc told.within own.depth_eq
  | _, _, _, .nested told inner => by
    intro event member
    rcases List.mem_append.mp member with earlier | inside
    · exact told.within event earlier
    · exact Nat.le_of_succ_le (inner.within event inside)
  | _, _, _, .trapped told trap => within_snoc told.within rfl
  | _, _, _, .refused told => within_snoc told.within rfl

end

/-- No call of an upcall has trapped that is told without a trap. -/
theorem Told.untrapped : {depth : Nat} → {trap : Option F} → {body : List (Event F)} →
    Told depth trap body → trap = none → ∀ kept, Event.trapped depth kept ∉ body
  | _, _, _, .nothing _ => fun _ _ => List.not_mem_nil
  | _, _, _, .own told mine => by
    intro _ kept member
    rcases List.mem_append.mp member with earlier | last
    · exact told.untrapped rfl kept earlier
    · rw [← List.mem_singleton.mp last] at mine
      cases mine
  | depth, _, _, .nested told inner => by
    intro _ kept member
    rcases List.mem_append.mp member with earlier | inside
    · exact told.untrapped rfl kept earlier
    · exact absurd (inner.within _ inside) (Nat.not_succ_le_self depth)
  | _, _, _, .trapped _ _ => nofun
  | _, _, _, .refused _ => nofun

/-- A list with one more at its end, split at a mark: the mark is the one, or stands before it. -/
theorem snoc_split {α : Type} {body before after : List α} {last mark : α}
    (split : body ++ [last] = before ++ mark :: after) :
    (after = [] ∧ body = before ∧ last = mark) ∨
      ∃ front, after = front ++ [last] ∧ body = before ++ mark :: front := by
  rcases List.eq_nil_or_concat' after with rfl | ⟨front, final, rfl⟩
  · obtain ⟨same, single⟩ := List.append_inj' split rfl
    exact .inl ⟨rfl, same, List.singleton_inj.mp single⟩
  · rw [← List.cons_append, ← List.append_assoc] at split
    obtain ⟨same, single⟩ := List.append_inj' split rfl
    exact .inr ⟨front, by rw [List.singleton_inj.mp single], same⟩

/-- Past the trap of a call of its own an upcall tells of yields answered by an error only, and the
trap is its first. -/
theorem Told.past_trap : {depth : Nat} → {trap : Option F} → {body : List (Event F)} →
    Told depth trap body → ∀ before kept after, body = before ++ .trapped depth kept :: after →
      trap = some kept ∧ (∀ event ∈ after, event = .yielded depth false) ∧
        ∀ other, .trapped depth other ∉ before
  | _, none, _, told => by
    intro before kept after split
    refine absurd ?_ (told.untrapped rfl kept)
    rw [split]
    exact List.mem_append_right _ List.mem_cons_self
  | _, some _, _, .trapped told trap => by
    intro before kept after split
    rcases snoc_split split with ⟨rfl, rfl, same⟩ | ⟨front, -, earlier⟩
    · cases same
      exact ⟨rfl, nofun, told.untrapped rfl⟩
    · refine absurd ?_ (told.untrapped rfl kept)
      rw [earlier]
      exact List.mem_append_right _ List.mem_cons_self
  | _, some _, _, .refused told => by
    intro before kept after split
    rcases snoc_split split with ⟨-, -, same⟩ | ⟨front, rfl, earlier⟩
    · cases same
    · obtain ⟨trap, refused, first⟩ := told.past_trap before kept front earlier
      refine ⟨trap, ?_, first⟩
      intro event member
      rcases List.mem_append.mp member with before | last
      · exact refused event before
      · exact List.mem_singleton.mp last

/-- Every upcall of a call into the guest, however they nest, is told whole: once a call of its own
traps, nothing of it reaches the guest any more, every yield still tried is answered by an error,
and it ends with that first trap. -/
theorem upcalls_end_with_first_trap (message : String → F) (play : Play F) (guest : Instance F)
    (fresh : guest.reentryTrap = none) :
    (play.run message guest).2.reentryTrap = none ∧
    (∃ calls, (play.run message guest).2.log = guest.log ++ calls ∧
      Upcalls (guest.depth + 1) calls) ∧
    ∀ depth trap (body : List (Event F)), Told depth trap body →
      ∀ before kept after, body = before ++ .trapped depth kept :: after →
        trap = some kept ∧ (∀ event ∈ after, event = .yielded depth false) ∧
          ∀ other, .trapped depth other ∉ before := by
  obtain ⟨empty, -, calls, log, upcalls⟩ := Play.quiet message play guest fresh
  exact ⟨empty, ⟨calls, log, upcalls⟩, fun depth trap body told => told.past_trap⟩

/-- A handler that yields again after the allocation for its first yield trapped, and answers. -/
def stubborn : Service String :=
  .yields 0 [] (fun _ => .ends (some []) (some (.error "boom"))) (fun _ => .ends none none)
    fun _ _ => .yields 0 [] (fun _ => .ends none none) (fun _ => .ends none none)
      fun _ _ => .answers (some (.ok []))

/-- A guest call that calls `K.m` with a block. -/
def callsOut : Play String :=
  .upcall (some [4, 0, 0, 0, 0, 1, 0x4b, 0, 0, 0, 1, 0x6d, 1]) 0 13 (fun _ => stubborn)
    (fun _ => .ends none none) (fun _ => false) fun _ _ => .ends none none

/-- The upcall ends with the trap, the second yield refused and the answer not written. -/
theorem upcalls_end_with_first_trap_stubborn :
    Upcalls 1 ([.opened 1, .alloc 1, .trapped 1 "boom", .yielded 1 false, .yielded 1 false,
      .closed 1 (.error (.fault "boom"))] : List (Event String)) := by
  obtain ⟨-, ⟨calls, log, upcalls⟩, -⟩ :=
    upcalls_end_with_first_trap id callsOut ⟨none, true, 0, none, 0, []⟩ rfl
  have told : (callsOut.run id ⟨none, true, 0, none, 0, []⟩).2.log =
      [.opened 1, .alloc 1, .trapped 1 "boom", .yielded 1 false, .yielded 1 false,
        .closed 1 (.error (.fault "boom"))] := by decide +kernel
  rw [told] at log
  rw [log]
  exact upcalls

end Kobako.Endpoint
