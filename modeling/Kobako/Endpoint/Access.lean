import Kobako.Endpoint.Dispatch
import Kobako.Envelope.RoundTrip
import Kobako.Shadow

/-!
# What the endpoint touches

The endpoint's half of an upcall once more, each function as in `Dispatch`, with every access to
guest memory made visible: a slice that does not lie within the memory as it stands panics, as
does a copy between slices of two lengths, and every access made is noted with its extent and the
size of the memory then. The watched endpoint shadows the plain one, so what holds of an answer
there holds of it too.
-/

namespace Kobako.Endpoint

open Kobako.Envelope

variable {F ε : Type}

/-- One copy into or out of guest memory. -/
structure Access where
  /-- Where it starts. -/
  start : Nat
  /-- How many bytes it copies. -/
  length : Nat
  /-- The size of the memory as it stood. -/
  size : Nat
deriving Repr, DecidableEq

/-- Within the memory as it stood, and no more than a message. -/
def Access.Harmless (access : Access) : Prop :=
  access.start + access.length ≤ access.size ∧ access.length ≤ MAX_DISPATCH_PAYLOAD

/-- An instance with its accesses. -/
abbrev Guarded (F : Type) := Watch (Instance F) Access

/-- A step of the endpoint, its accesses noted. -/
abbrev Guard (F ε : Type) := Watched ε (Instance F) Access

/-- A call into the guest, none where an upcall of it panicked. -/
abbrev GuardedCall (F : Type) := Guarded F → Option (Option (Except F UInt64) × Guarded F)

namespace Guard

/-- `data[range].to_vec()`. -/
def copyOut (start length : Nat) : Guard F ε (List UInt8) := fun s =>
  match s.state.memory with
  | none => .error .panicked s
  | some memory =>
    if start + length ≤ memory.length then
      .ok ((memory.drop start).take length)
        { s with ledger := s.ledger ++ [⟨start, length, memory.length⟩] }
    else .error .panicked s

/-- `memory[range].copy_from_slice(bytes)`. -/
def copyIn (start length : Nat) (bytes : List UInt8) : Guard F ε Unit := fun s =>
  match s.state.memory with
  | none => .error .panicked s
  | some memory =>
    if start + length ≤ memory.length ∧ length = bytes.length then
      .ok () ⟨{ s.state with
          memory := some (memory.take start ++ bytes ++ memory.drop (start + length)) },
        s.ledger ++ [⟨start, length, memory.length⟩]⟩
    else .error .panicked s

/-- `buffer::read_buffer`. -/
def readBuffer (data : List UInt8) (ptr len : Nat) : Guard F ReadError (List UInt8) :=
  if len > MAX_DISPATCH_PAYLOAD then Watched.fail .tooLarge
  else match guestBufferRange ptr len data.length with
    | .error _ => Watched.fail .outOfBounds
    | .ok start => copyOut start len

/-- A call into the guest, told in the log with the trap it ends in. -/
def callGuest (event : Nat → Event F) (call : GuardedCall F) :
    Guard F ε (Option (Except F UInt64)) := fun s =>
  match call { s with state := s.state.tell event } with
  | none => .error .panicked s
  | some (some (.error trap), after) =>
    .ok (some (.error trap)) { after with state := after.state.tell fun depth => .trapped depth trap }
  | some (result, after) => .ok result after

/-- The copy of `buffer::alloc_and_write` into the buffer the guest gave. -/
def writeMemory (ptr : UInt32) (bytes : List UInt8) : Guard F (WriteError F) UInt32 := do
  match (← Watched.lift get).memory with
  | none => Watched.fail (.incompatible SANDBOX_RUNTIME_NOT_KOBAKO)
  | some memory =>
    match guestBufferRange ptr.toNat bytes.length memory.length with
    | .error _ => Watched.fail .outOfBounds
    | .ok start => do
      copyIn start bytes.length bytes
      Watched.lift (modify fun guest => guest.tell .write)
      return ptr

/-- `buffer::alloc_and_write`. -/
def allocAndWrite (alloc : GuardedCall F) (bytes : List UInt8) :
    Guard F (WriteError F) UInt32 := do
  match checkedPayloadLen bytes.length with
  | .error _ => Watched.fail .tooLarge
  | .ok _ =>
    if (← Watched.lift get).memory.isNone then
      Watched.fail (.incompatible SANDBOX_RUNTIME_NOT_KOBAKO)
    else
      match ← callGuest .alloc alloc with
      | none => Watched.fail (.incompatible RUNTIME_INCOMPATIBLE)
      | some (.error trap) => Watched.fail (.trapped trap)
      | some (.ok address) =>
        if address.toUInt32 = 0 then Watched.fail .outOfMemory
        else writeMemory address.toUInt32 bytes

/-- `dispatch::write_from_callback`. -/
def writeFromCallback (alloc : GuardedCall F) (bytes : List UInt8) : Guard F String UInt32 := do
  if (← Watched.lift get).reentryTrap.isSome then
    Watched.fail "the Sandbox already trapped during this invocation"
  else
    match ← Watched.outcomeOf (allocAndWrite alloc bytes) with
    | .ok ptr => return ptr
    | .error .tooLarge => Watched.fail "payload exceeds the 16 MiB limit"
    | .error (.incompatible message) => Watched.fail message
    | .error (.trapped trap) => do
      let reason ← Watched.lift
        (keepTrap trap "the Sandbox trapped while allocating memory for the request")
      Watched.fail reason
    | .error .outOfMemory =>
      Watched.fail "the Sandbox ran out of memory while preparing the request"
    | .error .outOfBounds =>
      Watched.fail "could not write the request into the Sandbox's memory"

/-- The end of `dispatch::drive_yield`: the block's result, read from where the guest says. -/
def readYield (packed : UInt64) : Guard F String (List UInt8) := do
  let (ptr, len) := unpackPtrLen packed
  if len = 0 then Watched.fail "the Sandbox returned an empty block result"
  else
    match (← Watched.lift get).memory with
    | none => Watched.fail SANDBOX_RUNTIME_NOT_KOBAKO
    | some memory =>
      match ← Watched.outcomeOf (readBuffer memory ptr.toNat len.toNat) with
      | .error .tooLarge => Watched.fail "block result payload exceeds the 16 MiB limit"
      | .error .outOfBounds => Watched.fail "the Sandbox returned an out-of-bounds block result"
      | .ok bytes => return bytes

/-- `dispatch::drive_yield`. -/
def driveYield (alloc downcall : GuardedCall F) (frame : UInt32) (args : List UInt8) :
    Guard F String (List UInt8) := do
  let request := (Downcall.yield frame args).encode
  match checkedPayloadLen request.length with
  | .error reason => Watched.fail reason
  | .ok _ => do
    let _ ← writeFromCallback alloc request
    match ← callGuest .downcall downcall with
    | none => Watched.fail RUNTIME_INCOMPATIBLE
    | some (.error trap) => do
      let reason ← Watched.lift (keepTrap trap "the Sandbox trapped while invoking a block")
      Watched.fail reason
    | some (.ok packed) => readYield packed

/-- `FrameYielder::yield_to_block`. -/
def yieldToBlock (alloc downcall : GuardedCall F) (frame : UInt32) (args : List UInt8) :
    Guard F Trap YieldReply := do
  match ← Watched.outcomeOf (driveYield alloc downcall frame args) with
  | .error message => Watched.fail (.other message)
  | .ok bytes =>
    match YieldReply.decode bytes with
    | .ok reply => return reply
    | .error e => Watched.fail (.other e.message)

/-- `dispatch::read_request`. -/
def readRequest (reqPtr reqLen : UInt32) : Guard F String (List UInt8) := do
  match (← Watched.lift get).memory with
  | none => Watched.fail SANDBOX_RUNTIME_NOT_KOBAKO
  | some memory =>
    match ← Watched.outcomeOf (readBuffer memory reqPtr.toNat reqLen.toNat) with
    | .error .tooLarge => Watched.fail "request payload exceeds the 16 MiB limit"
    | .error .outOfBounds => Watched.fail "the Sandbox produced an out-of-bounds request"
    | .ok bytes => return bytes

/-- The Call handed to the handler, `Calls::open` counting it meanwhile. -/
def dispatchCall (dispatch : Call → Guard F String (Option Reply)) (call : Call) :
    Guard F String Reply := do
  Watched.lift (modify fun guest => { guest with openCalls := guest.openCalls + 1 })
  let reply ← dispatch call
  Watched.lift (modify fun guest => { guest with openCalls := guest.openCalls - 1 })
  match reply with
  | some reply => return reply
  | none =>
    Watched.fail ("a Sandbox callback raised an exception instead of returning a fault — " ++
      "please report this as a kobako bug")

/-- `dispatch::reply_to`. -/
def replyTo (dispatch : Call → Guard F String (Option Reply)) (reqPtr reqLen : UInt32) :
    Guard F String Reply := do
  let request ← readRequest reqPtr reqLen
  match Upcall.decode request with
  | .error _ =>
    Watched.fail "the guest sent a malformed Call envelope — please report this as a kobako bug"
  | .ok (.unknown _ _) => return .unsupported ⟨"the host does not serve this request"⟩
  | .ok (.call call) =>
    if (← Watched.lift get).bound then dispatchCall dispatch call
    else
      Watched.fail ("a Sandbox callback fired outside an active invocation — " ++
        "please report this as a kobako bug")

/-- `dispatch::write_reply`. -/
def writeReply (alloc : GuardedCall F) (bytes : List UInt8) : Guard F String UInt64 := do
  let ptr ← writeFromCallback alloc bytes
  return packPtrLen ptr (UInt32.ofNat bytes.length)

/-- `dispatch::handle`. -/
def handle (dispatch : Call → Guard F String (Option Reply)) (alloc : GuardedCall F)
    (abandoned : Instance F → Bool) (reqPtr reqLen : UInt32) :
    Guard F (UpcallEnd F) UInt64 := do
  let answered ← Watched.outcomeOf (replyTo dispatch reqPtr reqLen)
  let reply := match answered with
    | .ok reply => reply
    | .error reason => .fault ⟨.internal, reason⟩
  let written ← Watched.outcomeOf (writeReply alloc (fitInMessage reply).encode)
  Watched.lift (settle abandoned written)

end Guard

mutual

/-- A call into the guest, to its end, its upcalls watched. -/
def Play.guarded (message : String → F) : Play F → GuardedCall F
  | .ends memory result => fun s => some (result, { s with state := { s.state with memory } })
  | .upcall memory reqPtr reqLen service reply abandoned next => fun s =>
    match Guard.handle (fun call => (service call).guarded message)
        (fun s => (reply s.state).guarded message s) abandoned reqPtr reqLen
        { s with state := beginUpcall s.state memory } with
    | .ok packed after =>
      (next (endUpcall after.state (.ok packed)) packed).guarded message
        { after with state := endUpcall after.state (.ok packed) }
    | .error (.failed ended) after =>
      some (some (.error (raise message ended)),
        { after with state := endUpcall after.state (.error ended) })
    | .error .panicked _ => none

/-- A handler, to its answer, its yields watched. -/
def Service.guarded (message : String → F) : Service F → Guard F String (Option Reply)
  | .answers reply => pure reply
  | .yields frame args alloc downcall next => fun s =>
    match Guard.yieldToBlock (fun s => (alloc s.state).guarded message s)
        (fun s => (downcall s.state).guarded message s) frame args s with
    | .ok reply after =>
      (next (after.state.tell (.yielded · true)) (.ok reply)).guarded message
        { after with state := after.state.tell (.yielded · true) }
    | .error (.failed trap) after =>
      (next (after.state.tell (.yielded · false)) (.error trap)).guarded message
        { after with state := after.state.tell (.yielded · false) }
    | .error .panicked after => .error .panicked after

end

/-! ## The watched endpoint shadows the plain one -/

/-- From a state with harmless accesses, a watched step ends as the plain one does. -/
abbrev Mirrors {α : Type} (watched : Guard F ε α) (plain : Host F ε α) (s : Guarded F) : Prop :=
  Shadows Access.Harmless watched plain s

/-- From any state with harmless accesses, a watched call ends as the plain one does. -/
def MirrorsCall (watched : GuardedCall F) (plain : GuestCall F) : Prop :=
  ∀ s : Guarded F, Harmless Access.Harmless s.ledger →
    ∃ after : Guarded F, watched s = some ((plain s.state).1, after) ∧
      after.state = (plain s.state).2 ∧ Harmless Access.Harmless after.ledger

/-- A range that is answered lies within memory. -/
theorem guestBufferRange_ok {ptr len memSize start : Nat}
    (answered : guestBufferRange ptr len memSize = .ok start) :
    start = ptr ∧ ptr + len ≤ memSize := by
  unfold guestBufferRange at answered
  split at answered
  · cases answered
  · split at answered
    · cases answered
    · cases answered
      exact ⟨rfl, by omega⟩

section Steps

variable {s : Guarded F}

/-- What is read is within memory, and no more than a message. -/
theorem readBuffer_mirrors {memory : List UInt8} (here : s.state.memory = some memory)
    (ptr len : Nat) :
    Mirrors (Watched.outcomeOf (Guard.readBuffer memory ptr len) : Guard F ε _)
      (pure (readBuffer memory ptr len)) s := by
  intro kept
  unfold Watched.outcomeOf Guard.readBuffer readBuffer
  by_cases large : len > MAX_DISPATCH_PAYLOAD
  · rw [if_pos large, if_pos large]
    exact ⟨rfl, kept⟩
  · rw [if_neg large, if_neg large]
    cases range : guestBufferRange ptr len memory.length with
    | error reason => exact ⟨rfl, kept⟩
    | ok start =>
      obtain ⟨same, inside⟩ := guestBufferRange_ok range
      have fits : start + len ≤ memory.length := by omega
      dsimp only
      unfold Guard.copyOut
      rw [here]
      dsimp only
      rw [if_pos fits]
      exact ⟨rfl, kept.snoc ⟨fits, Nat.not_lt.mp large⟩⟩

/-- What is written is within memory, and no more than a message. -/
theorem writeMemory_mirrors (ptr : UInt32) {bytes : List UInt8}
    (small : bytes.length ≤ MAX_DISPATCH_PAYLOAD) :
    Mirrors (Guard.writeMemory ptr bytes) (writeMemory ptr bytes) s := by
  unfold Guard.writeMemory writeMemory
  apply Shadows.get
  cases here : s.state.memory with
  | none => exact Shadows.fail _
  | some memory =>
    dsimp only
    cases range : guestBufferRange ptr.toNat bytes.length memory.length with
    | error reason => exact Shadows.fail _
    | ok start =>
      obtain ⟨same, inside⟩ := guestBufferRange_ok range
      have fits : start + bytes.length ≤ memory.length ∧ bytes.length = bytes.length := by omega
      let written := memory.take start ++ bytes ++ memory.drop (start + bytes.length)
      have copied : Mirrors (Guard.copyIn start bytes.length bytes : Guard F (WriteError F) Unit)
          (modify fun guest => { guest with memory := some written }) s := by
        intro kept
        unfold Guard.copyIn
        rw [here]
        dsimp only
        rw [if_pos fits]
        exact ⟨rfl, kept.snoc ⟨fits.1, small⟩⟩
      exact copied.bind fun _ _ _ => (Shadows.lift _).bind fun _ _ _ => Shadows.pure ptr

variable {plain : GuestCall F} {watched : GuardedCall F}

/-- A call into the guest, and the trap it ends in. -/
theorem callGuest_mirrors (mirrors : MirrorsCall watched plain) (event : Nat → Event F) :
    Mirrors (Guard.callGuest event watched : Guard F ε _) (callGuest event plain) s := by
  intro kept
  obtain ⟨after, called, same, still⟩ := mirrors { s with state := s.state.tell event } kept
  unfold Guard.callGuest callGuest
  rw [called]
  dsimp only at same ⊢
  cases ended : plain (s.state.tell event) with
  | mk result guest =>
    rw [ended] at same
    dsimp only at same ⊢
    cases result with
    | none => exact ⟨by rw [same], still⟩
    | some result =>
      cases result with
      | ok address => exact ⟨by rw [same], still⟩
      | error trap => exact ⟨by rw [same], still⟩

/-- `alloc_and_write` writes nothing past a message. -/
theorem allocAndWrite_mirrors (mirrors : MirrorsCall watched plain) (bytes : List UInt8) :
    Mirrors (Guard.allocAndWrite watched bytes) (allocAndWrite plain bytes) s := by
  unfold Guard.allocAndWrite allocAndWrite checkedPayloadLen
  by_cases large : bytes.length > MAX_DISPATCH_PAYLOAD
  · rw [if_pos large]
    exact Shadows.fail _
  · rw [if_neg large]
    apply Shadows.get
    split
    · exact Shadows.fail _
    · apply (callGuest_mirrors mirrors .alloc).bind
      intro result after _
      cases result with
      | none => exact Shadows.fail _
      | some ended =>
        cases ended with
        | error trap => exact Shadows.fail _
        | ok address =>
          dsimp only
          split
          · exact Shadows.fail _
          · exact writeMemory_mirrors _ (Nat.not_lt.mp large)

/-- A write from inside a callback. -/
theorem writeFromCallback_mirrors (mirrors : MirrorsCall watched plain) (bytes : List UInt8) :
    Mirrors (Guard.writeFromCallback watched bytes) (writeFromCallback plain bytes) s := by
  unfold Guard.writeFromCallback writeFromCallback
  apply Shadows.get
  split
  · exact Shadows.fail _
  · apply (allocAndWrite_mirrors mirrors bytes).outcomeOf.bind
    intro written after _
    cases written with
    | ok ptr => exact Shadows.pure ptr
    | error e =>
      cases e with
      | trapped trap => exact (Shadows.lift _).bind fun reason _ _ => Shadows.fail reason
      | tooLarge => exact Shadows.fail _
      | incompatible message => exact Shadows.fail _
      | outOfMemory => exact Shadows.fail _
      | outOfBounds => exact Shadows.fail _

/-- The block's result, read from where the guest says. -/
theorem readYield_mirrors (packed : UInt64) :
    Mirrors (Guard.readYield packed) (readYield packed) s := by
  unfold Guard.readYield readYield
  dsimp only
  split
  · exact Shadows.fail _
  · apply Shadows.get
    cases here : s.state.memory with
    | none => exact Shadows.fail _
    | some memory =>
      apply (readBuffer_mirrors here _ _).bind_pure
      intro after _
      dsimp only
      cases readBuffer memory (unpackPtrLen packed).1.toNat (unpackPtrLen packed).2.toNat with
      | ok bytes => exact Shadows.pure bytes
      | error e => cases e <;> exact Shadows.fail _

/-- `drive_yield`, of any arguments. -/
theorem driveYield_mirrors {watchedAlloc watchedDown : GuardedCall F} {alloc downcall : GuestCall F}
    (allocs : MirrorsCall watchedAlloc alloc) (downcalls : MirrorsCall watchedDown downcall)
    (frame : UInt32) (args : List UInt8) :
    Mirrors (Guard.driveYield watchedAlloc watchedDown frame args)
      (driveYield alloc downcall frame args) s := by
  unfold Guard.driveYield driveYield
  dsimp only
  cases checkedPayloadLen (Downcall.yield frame args).encode.length with
  | error reason => exact Shadows.fail reason
  | ok len =>
    apply (writeFromCallback_mirrors allocs _).bind
    intro _ after _
    apply (callGuest_mirrors downcalls .downcall).bind
    intro result later _
    cases result with
    | none => exact Shadows.fail _
    | some ended =>
      cases ended with
      | error trap => exact (Shadows.lift _).bind fun reason _ _ => Shadows.fail reason
      | ok packed => exact readYield_mirrors packed

/-- `yield_to_block`, whatever the block answers. -/
theorem yieldToBlock_mirrors {watchedAlloc watchedDown : GuardedCall F}
    {alloc downcall : GuestCall F} (allocs : MirrorsCall watchedAlloc alloc)
    (downcalls : MirrorsCall watchedDown downcall) (frame : UInt32) (args : List UInt8) :
    Mirrors (Guard.yieldToBlock watchedAlloc watchedDown frame args)
      (yieldToBlock alloc downcall frame args) s := by
  unfold Guard.yieldToBlock yieldToBlock
  apply (driveYield_mirrors allocs downcalls frame args).outcomeOf.bind
  intro driven after _
  cases driven with
  | error message => exact Shadows.fail _
  | ok bytes =>
    dsimp only
    cases YieldReply.decode bytes with
    | ok reply => exact Shadows.pure reply
    | error e => exact Shadows.fail _

/-- `read_request`, of any pointer and length. -/
theorem readRequest_mirrors (reqPtr reqLen : UInt32) :
    Mirrors (Guard.readRequest reqPtr reqLen) (readRequest reqPtr reqLen) s := by
  unfold Guard.readRequest readRequest
  apply Shadows.get
  cases here : s.state.memory with
  | none => exact Shadows.fail _
  | some memory =>
    apply (readBuffer_mirrors here _ _).bind_pure
    intro after _
    dsimp only
    cases readBuffer memory reqPtr.toNat reqLen.toNat with
    | ok bytes => exact Shadows.pure bytes
    | error e => cases e <;> exact Shadows.fail _

/-- `reply_to`, whatever the handler does. -/
theorem replyTo_mirrors {watched : Call → Guard F String (Option Reply)}
    {dispatch : Call → Host F String (Option Reply)}
    (mirrors : ∀ call after, Mirrors (watched call) (dispatch call) after)
    (reqPtr reqLen : UInt32) :
    Mirrors (Guard.replyTo watched reqPtr reqLen) (replyTo dispatch reqPtr reqLen) s := by
  unfold Guard.replyTo replyTo
  apply (readRequest_mirrors reqPtr reqLen).bind
  intro request after _
  cases Upcall.decode request with
  | error e => exact Shadows.fail _
  | ok upcall =>
    cases upcall with
    | unknown tag body => exact Shadows.pure _
    | call call =>
      apply Shadows.get
      split
      · unfold Guard.dispatchCall dispatchCall
        apply (Shadows.lift _).bind
        intro _ later _
        apply (mirrors call later).bind
        intro reply last _
        apply (Shadows.lift _).bind
        intro _ final _
        cases reply with
        | some reply => exact Shadows.pure reply
        | none => exact Shadows.fail _
      · exact Shadows.fail _

/-- `handle`, whatever the guest and the handler do. -/
theorem handle_mirrors {watched : Call → Guard F String (Option Reply)}
    {dispatch : Call → Host F String (Option Reply)}
    (mirrors : ∀ call after, Mirrors (watched call) (dispatch call) after)
    {watchedAlloc : GuardedCall F} {alloc : GuestCall F} (allocs : MirrorsCall watchedAlloc alloc)
    (abandoned : Instance F → Bool) (reqPtr reqLen : UInt32) :
    Mirrors (Guard.handle watched watchedAlloc abandoned reqPtr reqLen)
      (handle dispatch alloc abandoned reqPtr reqLen) s := by
  unfold Guard.handle handle
  apply (replyTo_mirrors mirrors reqPtr reqLen).outcomeOf.bind
  intro answered after _
  have writes : ∀ bytes, Mirrors (Guard.writeReply watchedAlloc bytes) (writeReply alloc bytes) after :=
    fun bytes => (writeFromCallback_mirrors allocs bytes).bind fun _ _ _ => Shadows.pure _
  apply (writes _).outcomeOf.bind
  exact fun written later _ => Shadows.lift _

end Steps

/-! ## Runs -/

mutual

/-- Every call into the guest is mirrored, whatever upcalls it makes. -/
theorem Play.mirrors (message : String → F) :
    (play : Play F) → MirrorsCall (play.guarded message) (play.run message)
  | .ends memory result => by
    intro s kept
    exact ⟨_, rfl, rfl, kept⟩
  | .upcall memory reqPtr reqLen service reply abandoned next => by
    intro s kept
    have allocs : MirrorsCall (fun s => (reply s.state).guarded message s)
        (fun guest => (reply guest).run message guest) :=
      fun s kept => Play.mirrors message (reply s.state) s kept
    have upcall := handle_mirrors (s := { s with state := beginUpcall s.state memory })
      (fun call after => Service.mirrors message (service call) after) allocs abandoned reqPtr
      reqLen kept
    rw [Play.guarded, Play.run]
    dsimp only
    split at upcall
    · rename_i packed after answered
      rw [answered, upcall.1]
      exact Play.mirrors message (next (endUpcall after.state (.ok packed)) packed)
        { after with state := endUpcall after.state (.ok packed) } upcall.2
    · rename_i ended after failed
      rw [failed, upcall.1]
      exact ⟨_, rfl, rfl, upcall.2⟩
    · exact upcall.elim

/-- Every handler is mirrored, however often it yields. -/
theorem Service.mirrors (message : String → F) :
    (service : Service F) → ∀ s, Mirrors (service.guarded message) (service.run message) s
  | .answers reply => fun s => Shadows.pure reply
  | .yields frame args alloc downcall next => by
    intro s kept
    have allocs : MirrorsCall (fun s => (alloc s.state).guarded message s)
        (fun guest => (alloc guest).run message guest) :=
      fun s kept => Play.mirrors message (alloc s.state) s kept
    have downcalls : MirrorsCall (fun s => (downcall s.state).guarded message s)
        (fun guest => (downcall guest).run message guest) :=
      fun s kept => Play.mirrors message (downcall s.state) s kept
    have yielded := yieldToBlock_mirrors (s := s) allocs downcalls frame args kept
    rw [Service.guarded, Service.run]
    dsimp only
    split at yielded
    · rename_i reply after answered
      rw [answered, yielded.1]
      exact Service.mirrors message (next _ (.ok reply))
        { after with state := after.state.tell (.yielded · true) } yielded.2
    · rename_i trap after failed
      rw [failed, yielded.1]
      exact Service.mirrors message (next _ (.error trap))
        { after with state := after.state.tell (.yielded · false) } yielded.2
    · exact yielded.elim

end

/-! ## What is answered -/

/-- An answer that says the request was not served. -/
def IsRefusal : Reply → Prop
  | .fault _ | .unsupported _ => True
  | _ => False

variable (dispatch : Call → Host F String (Option Reply))

/-- The Reply the handler returns to a request, none where the request does not reach it or it
returns none. -/
def handlerReply (reqPtr reqLen : UInt32) (guest : Instance F) : Option Reply :=
  match readRequest reqPtr reqLen guest with
  | .error _ _ => none
  | .ok request after =>
    match Upcall.decode request with
    | .ok (.call call) =>
      if after.bound then
        match dispatch call { after with openCalls := after.openCalls + 1 } with
        | .ok reply _ => reply
        | .error _ _ => none
      else none
    | _ => none

/-- What a Reply read back is, by what the handler returned: that Reply, or a refusal where there
is none or it is too large for a message. -/
def Serves (replied : Option Reply) (reply : Reply) : Prop :=
  match replied with
  | some sent =>
    if sent.encode.length ≤ MAX_DISPATCH_PAYLOAD then reply = sent else IsRefusal reply
  | none => IsRefusal reply

/-- The bytes of an answer, in guest memory where a packed pointer and length say. -/
def Holds (guest : Instance F) (packed : UInt64) (bytes : List UInt8) : Prop :=
  ∃ memory, guest.memory = some memory ∧
    (unpackPtrLen packed).1.toNat + (unpackPtrLen packed).2.toNat ≤ memory.length ∧
    (memory.drop (unpackPtrLen packed).1.toNat).take (unpackPtrLen packed).2.toNat = bytes

/-- What a program answers is what it is known to answer. -/
theorem ends_self {α : Type} (program : Host F ε α) (guest : Instance F) :
    Ends program guest (fun a after => program guest = .ok a after)
      fun e after => program guest = .error e after := by
  unfold Ends
  cases program guest <;> rfl

/-- The handler's Reply is handed on. -/
theorem dispatchCall_ends (call : Call) (guest : Instance F) (replied : Option Reply)
    (answers : replied = match dispatch call { guest with openCalls := guest.openCalls + 1 } with
      | .ok reply _ => reply
      | .error _ _ => none) :
    Ends (dispatchCall dispatch call) guest (fun reply _ => replied = some reply)
      fun _ _ => replied = none := by
  unfold dispatchCall
  apply Ends.bind (ends_self _ guest |>.mono (fun _ _ same => same) nofun)
  intro _ counted same
  cases same
  apply Ends.bind (ends_self (dispatch call) _ |>.mono (fun _ _ same => same) ?_)
  · intro reply after dispatched
    rw [dispatched] at answers
    have counted : (modify fun guest => { guest with openCalls := guest.openCalls - 1 } :
      Host F String PUnit) after = .ok ⟨⟩ { after with openCalls := after.openCalls - 1 } := rfl
    rw [Ends, bind_eq counted, ← Ends]
    cases reply with
    | none => exact Ends.throw answers
    | some reply => exact Ends.pure answers
  · intro e after failed
    rw [failed] at answers
    exact answers

/-- `reply_to` answers the handler's Reply, or refuses a request the handler did not serve. -/
theorem replyTo_ends (reqPtr reqLen : UInt32) (guest : Instance F) :
    Ends (replyTo dispatch reqPtr reqLen) guest
      (fun reply _ => handlerReply dispatch reqPtr reqLen guest = some reply ∨
        handlerReply dispatch reqPtr reqLen guest = none ∧ IsRefusal reply)
      fun _ _ => handlerReply dispatch reqPtr reqLen guest = none := by
  apply Ends.bind ((ends_self (readRequest reqPtr reqLen) guest).mono (fun _ _ same => same) ?_)
  · intro request after read
    unfold handlerReply
    rw [read]
    dsimp only
    cases Upcall.decode request with
    | error e => exact Ends.throw rfl
    | ok upcall =>
      cases upcall with
      | unknown tag body => exact Ends.pure (.inr ⟨rfl, trivial⟩)
      | call call =>
        dsimp only
        have got : (get : Host F String _) after = .ok after after := rfl
        rw [Ends, bind_eq got, ← Ends]
        by_cases bound : after.bound = true
        · rw [if_pos bound, if_pos bound]
          exact (dispatchCall_ends dispatch call after _ rfl).mono (fun _ _ same => .inl same)
            fun _ _ same => same
        · rw [if_neg bound, if_neg bound]
          exact Ends.throw rfl
  · intro reason after failed
    unfold handlerReply
    rw [failed]

/-- A text is no longer than the field it is written as. -/
theorem utf8ByteSize_le_length_text (s : String) : s.utf8ByteSize ≤ (Writer.text s).length := by
  unfold Writer.text Writer.bytes
  rw [List.length_append, Codec.length_strBytes]
  omega

variable {reply : Reply}

/-- A Reply no larger than a message carries a text a `u32` counts. -/
theorem fits_of_encode_le (small : reply.encode.length ≤ MAX_DISPATCH_PAYLOAD) :
    reply.Fits := by
  unfold MAX_DISPATCH_PAYLOAD at small
  cases reply with
  | ok body => trivial
  | brk => trivial
  | fault failure =>
    have text := utf8ByteSize_le_length_text failure.message
    unfold Reply.encode Fault.write at small
    simp only [List.length_append] at small
    show failure.message.utf8ByteSize < 2 ^ 32
    omega
  | unsupported refusal =>
    have text := utf8ByteSize_le_length_text refusal.message
    unfold Reply.encode Unsupported.encode at small
    simp only [List.length_append] at small
    show refusal.message.utf8ByteSize < 2 ^ 32
    omega

/-- What is written is no larger than a message, and read back as it was. -/
theorem decode_fitInMessage (reply : Reply) :
    (fitInMessage reply).encode.length ≤ MAX_DISPATCH_PAYLOAD ∧
      Reply.decode (fitInMessage reply).encode = .ok (fitInMessage reply) := by
  have small : (fitInMessage reply).encode.length ≤ MAX_DISPATCH_PAYLOAD := by
    unfold fitInMessage checkedPayloadLen
    by_cases large : reply.encode.length > MAX_DISPATCH_PAYLOAD
    · rw [if_pos large]
      show (Reply.fault ⟨.runtime, "Sandbox could not write the Service's answer: " ++
        "payload exceeds the 16 MiB limit"⟩).encode.length ≤ MAX_DISPATCH_PAYLOAD
      decide
    · rw [if_neg large]
      exact Nat.not_lt.mp large
  exact ⟨small, Reply.decode_of_encode (fits_of_encode_le small)⟩

/-- A pointer and length are unpacked as they were packed. -/
theorem unpackPtrLen_packPtrLen (ptr len : UInt32) :
    unpackPtrLen (packPtrLen ptr len) = (ptr, len) := by
  unfold unpackPtrLen packPtrLen
  apply Prod.ext
  · apply UInt32.toBitVec_inj.mp
    apply BitVec.eq_of_getLsbD_eq
    intro i small
    have high : 32 + i < 64 := by omega
    have low : i < 64 := by omega
    simp [small, high, low]
  · apply UInt32.toBitVec_inj.mp
    apply BitVec.eq_of_getLsbD_eq
    intro i small
    simp [small]

/-- The bytes stand in guest memory where the pointer says. -/
def Written (bytes : List UInt8) (ptr : UInt32) (guest : Instance F) : Prop :=
  ∃ memory, guest.memory = some memory ∧ ptr.toNat + bytes.length ≤ memory.length ∧
    (memory.drop ptr.toNat).take bytes.length = bytes

/-- The copy leaves the bytes where the pointer says. -/
theorem writeMemory_written (ptr : UInt32) (bytes : List UInt8) (guest : Instance F) :
    Ends (writeMemory ptr bytes) guest (fun answer after => Written bytes answer after)
      fun _ _ => True := by
  unfold writeMemory
  have got : (get : Host F (WriteError F) _) guest = .ok guest guest := rfl
  rw [Ends, bind_eq got, ← Ends]
  cases here : guest.memory with
  | none => exact Ends.throw trivial
  | some memory =>
    dsimp only
    cases range : guestBufferRange ptr.toNat bytes.length memory.length with
    | error reason => exact Ends.throw trivial
    | ok start =>
      obtain ⟨same, inside⟩ := guestBufferRange_ok range
      subst same
      have front : (memory.take ptr.toNat).length = ptr.toNat := by
        rw [List.length_take]
        omega
      let written := memory.take ptr.toNat ++ bytes ++ memory.drop (ptr.toNat + bytes.length)
      refine ⟨written, rfl, ?_, ?_⟩
      · simp only [written, List.length_append, List.length_drop, front]
        omega
      · have behind : written.drop ptr.toNat = bytes ++ memory.drop (ptr.toNat + bytes.length) := by
          simp only [written, List.append_assoc]
          rw [List.drop_append_of_le_length (by omega), List.drop_of_length_le (by omega)]
          rfl
        rw [behind, List.take_append_of_le_length (Nat.le_refl _), List.take_length]

variable (alloc : GuestCall F)

/-- `alloc_and_write` leaves the bytes where it answers. -/
theorem allocAndWrite_written (bytes : List UInt8) (guest : Instance F) :
    Ends (allocAndWrite alloc bytes) guest (fun ptr after => Written bytes ptr after)
      fun _ _ => True := by
  unfold allocAndWrite
  cases checkedPayloadLen bytes.length with
  | error reason => exact Ends.throw trivial
  | ok len =>
    dsimp only
    have got : (get : Host F (WriteError F) _) guest = .ok guest guest := rfl
    rw [Ends, bind_eq got, ← Ends]
    split
    · exact Ends.throw trivial
    · apply Ends.bind ((ends_self _ guest).mono (fun _ _ same => same) fun _ _ _ => trivial)
      intro result after _
      cases result with
      | none => exact Ends.throw trivial
      | some ended =>
        cases ended with
        | error trap => exact Ends.throw trivial
        | ok address =>
          dsimp only
          split
          · exact Ends.throw trivial
          · exact writeMemory_written address.toUInt32 bytes after

/-- So does a write from inside a callback. -/
theorem writeFromCallback_written (bytes : List UInt8) (guest : Instance F) :
    Ends (writeFromCallback alloc bytes) guest (fun ptr after => Written bytes ptr after)
      fun _ _ => True := by
  unfold writeFromCallback
  have got : (get : Host F String _) guest = .ok guest guest := rfl
  rw [Ends, bind_eq got, ← Ends]
  split
  · exact Ends.throw trivial
  · have tried : Ends (outcomeOf (allocAndWrite alloc bytes) : Host F String _) guest
        (fun result after => ∀ ptr, result = .ok ptr → Written bytes ptr after)
        fun _ _ => True := by
      apply Ends.outcomeOf
      apply (allocAndWrite_written alloc bytes guest).mono
      · intro ptr after written other same
        cases same
        exact written
      · exact fun _ _ _ => nofun
    apply tried.bind
    intro result after written
    cases result with
    | ok ptr => exact Ends.pure (written ptr rfl)
    | error e =>
      cases e with
      | trapped trap =>
        apply Ends.bind ((ends_self _ after).mono (fun _ _ same => same) fun _ _ _ => trivial)
        exact fun _ _ _ => Ends.throw trivial
      | tooLarge => exact Ends.throw trivial
      | incompatible message => exact Ends.throw trivial
      | outOfMemory => exact Ends.throw trivial
      | outOfBounds => exact Ends.throw trivial

/-- What `write_reply` answers is where the bytes stand. -/
theorem writeReply_holds {bytes : List UInt8} (small : bytes.length ≤ MAX_DISPATCH_PAYLOAD)
    (guest : Instance F) :
    Ends (writeReply alloc bytes) guest (fun packed after => Holds after packed bytes)
      fun _ _ => True := by
  apply (writeFromCallback_written alloc bytes guest).bind
  intro ptr after written
  obtain ⟨memory, here, inside, same⟩ := written
  have counted : (UInt32.ofNat bytes.length).toNat = bytes.length := by
    apply UInt32.toNat_ofNat_of_lt'
    unfold MAX_DISPATCH_PAYLOAD at small
    have wide : UInt32.size = 4294967296 := rfl
    omega
  refine Ends.pure ⟨memory, here, ?_, ?_⟩
  · rw [unpackPtrLen_packPtrLen, counted]
    exact inside
  · rw [unpackPtrLen_packPtrLen, counted]
    exact same

/-- `fit_in_message` leaves a Reply that fits, and refuses for any other. -/
theorem serves_fitInMessage {replied : Option Reply}
    (answered : replied = some reply ∨ replied = none ∧ IsRefusal reply) :
    Serves replied (fitInMessage reply) := by
  unfold fitInMessage checkedPayloadLen
  cases answered with
  | inl sent =>
    rw [sent]
    by_cases large : reply.encode.length > MAX_DISPATCH_PAYLOAD
    · rw [if_pos large]
      unfold Serves
      dsimp only
      rw [if_neg (Nat.not_le.mpr large)]
      trivial
    · rw [if_neg large]
      unfold Serves
      dsimp only
      rw [if_pos (Nat.not_lt.mp large)]
  | inr refused =>
    rw [refused.1]
    by_cases large : reply.encode.length > MAX_DISPATCH_PAYLOAD
    · rw [if_pos large]
      trivial
    · rw [if_neg large]
      exact refused.2

/-- A Reply that was written and settled stands where it is answered. -/
theorem settled_answers (abandoned : Instance F → Bool) {replied : Option Reply}
    (serves : Serves replied (fitInMessage reply)) (guest : Instance F) :
    Ends (do
        let written ← outcomeOf (writeReply alloc (fitInMessage reply).encode)
        settle abandoned written : Host F (UpcallEnd F) UInt64) guest
      (fun packed after => ∃ bytes reply, Holds after packed bytes ∧
        Reply.decode bytes = .ok reply ∧ Serves replied reply)
      fun _ _ => True := by
  obtain ⟨small, decoded⟩ := decode_fitInMessage reply
  have wrote : Ends (outcomeOf (writeReply alloc (fitInMessage reply).encode) :
      Host F (UpcallEnd F) _) guest
      (fun written later => ∀ packed, written = .ok packed →
        Holds later packed (fitInMessage reply).encode)
      fun _ _ => True := by
    apply Ends.outcomeOf
    apply (writeReply_holds alloc small guest).mono
    · intro packed later holds other same
      cases same
      exact holds
    · exact fun _ _ _ => nofun
  apply wrote.bind
  intro written later holds
  unfold settle
  have got : (get : Host F (UpcallEnd F) _) later = .ok later later := rfl
  rw [Ends, bind_eq got, ← Ends]
  cases later.reentryTrap with
  | some trap =>
    apply Ends.bind ((ends_self _ later).mono (fun _ _ same => same) fun _ _ _ => trivial)
    exact fun _ _ _ => Ends.throw trivial
  | none =>
    dsimp only
    rw [Ends, bind_eq got, ← Ends]
    split
    · exact Ends.throw trivial
    · cases written with
      | error reason => exact Ends.throw trivial
      | ok packed => exact Ends.pure ⟨_, _, holds packed rfl, decoded, serves⟩

/-- What `handle` answers is where the handler's Reply stands, or a refusal. -/
theorem handle_answers (alloc : GuestCall F) (abandoned : Instance F → Bool)
    (reqPtr reqLen : UInt32) (guest : Instance F) :
    Ends (handle dispatch alloc abandoned reqPtr reqLen) guest
      (fun packed after => ∃ bytes reply, Holds after packed bytes ∧
        Reply.decode bytes = .ok reply ∧
        Serves (handlerReply dispatch reqPtr reqLen guest) reply)
      fun _ _ => True := by
  unfold handle
  have replied : Ends (outcomeOf (replyTo dispatch reqPtr reqLen) : Host F (UpcallEnd F) _) guest
      (fun answered _ => Serves (handlerReply dispatch reqPtr reqLen guest)
        (fitInMessage (match answered with
          | .ok reply => reply
          | .error reason => .fault ⟨.internal, reason⟩)))
      fun _ _ => True := by
    apply Ends.outcomeOf
    apply (replyTo_ends dispatch reqPtr reqLen guest).mono
    · exact fun reply _ answered => serves_fitInMessage answered
    · exact fun reason _ unserved => serves_fitInMessage (.inr ⟨unserved, trivial⟩)
  apply replied.bind
  exact fun answered after serves => settled_answers alloc abandoned serves after

/-- Whatever the guest's memory, its request, what it answers to the calls into it and what the
handler does, an upcall ends without a panic and without an access outside memory or past a
message; where it answers, the handler's Reply stands in guest memory, or a refusal. -/
theorem handle_survives (message : String → F) (service : Call → Service F)
    (reply : Instance F → Play F) (abandoned : Instance F → Bool) (reqPtr reqLen : UInt32)
    (guest : Instance F) :
    ∃ after : Guarded F, (∀ access ∈ after.ledger, access.Harmless) ∧
      ((∃ ended, Guard.handle (fun call => (service call).guarded message)
          (fun s => (reply s.state).guarded message s) abandoned reqPtr reqLen ⟨guest, []⟩ =
          .error (.failed ended) after) ∨
        ∃ packed, Guard.handle (fun call => (service call).guarded message)
          (fun s => (reply s.state).guarded message s) abandoned reqPtr reqLen ⟨guest, []⟩ =
          .ok packed after ∧
          ∃ bytes decoded, Holds after.state packed bytes ∧ Reply.decode bytes = .ok decoded ∧
            Serves (handlerReply (fun call => (service call).run message) reqPtr reqLen guest)
              decoded) := by
  have allocs : MirrorsCall (fun s => (reply s.state).guarded message s)
      (fun guest => (reply guest).run message guest) :=
    fun s kept => Play.mirrors message (reply s.state) s kept
  have mirrors := handle_mirrors (s := ⟨guest, []⟩)
    (fun call after => Service.mirrors message (service call) after) allocs abandoned reqPtr
    reqLen nofun
  have answers := handle_answers (fun call => (service call).run message)
    (fun guest => (reply guest).run message guest) abandoned reqPtr reqLen guest
  split at mirrors
  · rename_i packed after answered
    unfold Ends at answers
    rw [mirrors.1] at answers
    exact ⟨after, mirrors.2, .inr ⟨packed, answered, answers⟩⟩
  · rename_i ended after failed
    exact ⟨after, mirrors.2, .inl ⟨ended, failed⟩⟩
  · exact mirrors.elim

end Kobako.Endpoint
