import Kobako.Envelope.Messages
import Kobako.Outcome

/-!
# The endpoint's half of an upcall

`dispatch::handle` and what it calls, over one guest instance. What the guest does of a call into
it, and what a handler does with a Call, are handed in: a guest call may make upcalls of its own
before it ends, and a handler may yield as often as it likes, each with whatever was seen so far.
The instance keeps a log of every call and every write that reaches the guest and of how each
yield was answered, for a reader of the run only.
-/

namespace Kobako.Endpoint

open Kobako.Envelope

/-- `abi::MAX_DISPATCH_PAYLOAD`. -/
def MAX_DISPATCH_PAYLOAD : Nat := 16 * 1024 * 1024

/-- `endpoint::RUNTIME_INCOMPATIBLE`. -/
def RUNTIME_INCOMPATIBLE : String :=
  "the Sandbox runtime is incompatible; rebuild it against the kobako version in use"

/-- `endpoint::SANDBOX_RUNTIME_NOT_KOBAKO`. -/
def SANDBOX_RUNTIME_NOT_KOBAKO : String :=
  "the loaded Wasm module is not a Kobako-compatible runtime"

/-- `error::Trap`, as a yield answers it. -/
inductive Trap where
  | other (message : String)
deriving Repr, DecidableEq

/-- `dispatch::UpcallEnd`. -/
inductive UpcallEnd (F : Type) where
  | fault (trap : F)
  | abandoned
  | unwritable (reason : String)
deriving Repr, DecidableEq

/-- `buffer::WriteError`. -/
inductive WriteError (F : Type) where
  | tooLarge
  | incompatible (message : String)
  | trapped (trap : F)
  | outOfMemory
  | outOfBounds
deriving Repr, DecidableEq

/-- `buffer::ReadError`. -/
inductive ReadError where
  | tooLarge
  | outOfBounds
deriving Repr, DecidableEq

/-- What the log tells, each with the number of upcalls open as it happened. -/
inductive Event (F : Type) where
  /-- An upcall began. -/
  | opened (depth : Nat)
  /-- It ended, answered or not. -/
  | closed (depth : Nat) (ended : Except (UpcallEnd F) UInt64)
  /-- `GuestInstance::alloc` was called. -/
  | alloc (depth : Nat)
  /-- `GuestInstance::downcall` was called. -/
  | downcall (depth : Nat)
  /-- A call into the guest trapped. -/
  | trapped (depth : Nat) (trap : F)
  /-- Bytes were written into guest memory. -/
  | write (depth : Nat)
  /-- A yield was answered, a Yield Reply or a trap. -/
  | yielded (depth : Nat) (answered : Bool)
deriving Repr, DecidableEq

/-- One guest instance and its `Calls`. -/
structure Instance (F : Type) where
  /-- `GuestInstance::memory`. -/
  memory : Option (List UInt8)
  /-- Whether `Calls::on_dispatch` is set. -/
  bound : Bool
  /-- `Calls::open`. -/
  openCalls : UInt32
  /-- `Calls::reentry_trap`. -/
  reentryTrap : Option F
  /-- The upcalls open, for the log. -/
  depth : Nat
  log : List (Event F)

variable {F : Type}

namespace Instance

/-- The log with one event more. -/
def tell (guest : Instance F) (event : Nat → Event F) : Instance F :=
  { guest with log := guest.log ++ [event guest.depth] }

end Instance

/-- A call into the guest: `None` where the export is missing. -/
abbrev GuestCall (F : Type) := Instance F → Option (Except F UInt64) × Instance F

/-- A step of the endpoint, failing with `ε`. -/
abbrev Host (F ε : Type) := EStateM ε (Instance F)

/-- `buffer::checked_payload_len`. -/
def checkedPayloadLen (len : Nat) : Except String Nat :=
  if len > MAX_DISPATCH_PAYLOAD then .error "payload exceeds the 16 MiB limit" else .ok len

/-- `buffer::guest_buffer_range`, answering where the range starts. -/
def guestBufferRange (ptr len memSize : Nat) : Except String Nat :=
  if 2 ^ 64 ≤ ptr + len then .error "ptr + len overflow"
  else if ptr + len > memSize then .error "range exceeds Sandbox memory size"
  else .ok ptr

/-- `buffer::read_buffer`. -/
def readBuffer (data : List UInt8) (ptr len : Nat) : Except ReadError (List UInt8) :=
  if len > MAX_DISPATCH_PAYLOAD then .error .tooLarge
  else match guestBufferRange ptr len data.length with
    | .error _ => .error .outOfBounds
    | .ok start => .ok ((data.drop start).take len)

/-- `abi::pack_ptr_len`. -/
def packPtrLen (ptr len : UInt32) : UInt64 := (ptr.toUInt64 <<< 32) ||| len.toUInt64

/-- `abi::unpack_ptr_len`. -/
def unpackPtrLen (packed : UInt64) : UInt32 × UInt32 := ((packed >>> 32).toUInt32, packed.toUInt32)

/-- A call into the guest, told in the log with the trap it ends in. -/
def callGuest {ε : Type} (event : Nat → Event F) (call : GuestCall F) :
    Host F ε (Option (Except F UInt64)) := fun guest =>
  match call (guest.tell event) with
  | (some (.error trap), after) =>
    .ok (some (.error trap)) (after.tell fun depth => .trapped depth trap)
  | (result, after) => .ok result after

/-- The copy of `buffer::alloc_and_write` into the buffer the guest gave. -/
def writeMemory (ptr : UInt32) (bytes : List UInt8) : Host F (WriteError F) UInt32 := do
  match (← get).memory with
  | none => throw (.incompatible SANDBOX_RUNTIME_NOT_KOBAKO)
  | some memory =>
    match guestBufferRange ptr.toNat bytes.length memory.length with
    | .error _ => throw .outOfBounds
    | .ok start => do
      let written := memory.take start ++ bytes ++ memory.drop (start + bytes.length)
      modify fun guest => { guest with memory := some written }
      modify fun guest => guest.tell .write
      return ptr

/-- `buffer::alloc_and_write`. -/
def allocAndWrite (alloc : GuestCall F) (bytes : List UInt8) : Host F (WriteError F) UInt32 := do
  match checkedPayloadLen bytes.length with
  | .error _ => throw .tooLarge
  | .ok _ =>
    if (← get).memory.isNone then throw (.incompatible SANDBOX_RUNTIME_NOT_KOBAKO)
    else
      match ← callGuest .alloc alloc with
      | none => throw (.incompatible RUNTIME_INCOMPATIBLE)
      | some (.error trap) => throw (.trapped trap)
      | some (.ok address) =>
        if address.toUInt32 = 0 then throw .outOfMemory
        else writeMemory address.toUInt32 bytes

/-- `dispatch::keep_trap`: the first trap stays. -/
def keepTrap {ε : Type} (trap : F) (reason : String) : Host F ε String := do
  modify fun guest => { guest with reentryTrap := some (guest.reentryTrap.getD trap) }
  return reason

/-- `dispatch::write_from_callback`. -/
def writeFromCallback (alloc : GuestCall F) (bytes : List UInt8) : Host F String UInt32 := do
  if (← get).reentryTrap.isSome then throw "the Sandbox already trapped during this invocation"
  else
    match ← outcomeOf (allocAndWrite alloc bytes) with
    | .ok ptr => return ptr
    | .error .tooLarge => throw "payload exceeds the 16 MiB limit"
    | .error (.incompatible message) => throw message
    | .error (.trapped trap) =>
      throw (← keepTrap trap "the Sandbox trapped while allocating memory for the request")
    | .error .outOfMemory => throw "the Sandbox ran out of memory while preparing the request"
    | .error .outOfBounds => throw "could not write the request into the Sandbox's memory"

/-- The end of `dispatch::drive_yield`: the block's result, read from where the guest says. -/
def readYield (packed : UInt64) : Host F String (List UInt8) := do
  let (ptr, len) := unpackPtrLen packed
  if len = 0 then throw "the Sandbox returned an empty block result"
  else
    match (← get).memory with
    | none => throw SANDBOX_RUNTIME_NOT_KOBAKO
    | some memory =>
      match readBuffer memory ptr.toNat len.toNat with
      | .error .tooLarge => throw "block result payload exceeds the 16 MiB limit"
      | .error .outOfBounds => throw "the Sandbox returned an out-of-bounds block result"
      | .ok bytes => return bytes

/-- `dispatch::drive_yield`. -/
def driveYield (alloc downcall : GuestCall F) (frame : UInt32) (args : List UInt8) :
    Host F String (List UInt8) := do
  let request := (Downcall.yield frame args).encode
  match checkedPayloadLen request.length with
  | .error reason => throw reason
  | .ok _ => do
    let _ ← writeFromCallback alloc request
    match ← callGuest .downcall downcall with
    | none => throw RUNTIME_INCOMPATIBLE
    | some (.error trap) =>
      throw (← keepTrap trap "the Sandbox trapped while invoking a block")
    | some (.ok packed) => readYield packed

/-- `FrameYielder::yield_to_block`. -/
def yieldToBlock (alloc downcall : GuestCall F) (frame : UInt32) (args : List UInt8) :
    Host F Trap YieldReply := do
  match ← outcomeOf (driveYield alloc downcall frame args) with
  | .error message => throw (.other message)
  | .ok bytes =>
    match YieldReply.decode bytes with
    | .ok reply => return reply
    | .error e => throw (.other e.message)

/-- `dispatch::read_request`. -/
def readRequest (reqPtr reqLen : UInt32) : Host F String (List UInt8) := do
  match (← get).memory with
  | none => throw SANDBOX_RUNTIME_NOT_KOBAKO
  | some memory =>
    match readBuffer memory reqPtr.toNat reqLen.toNat with
    | .error .tooLarge => throw "request payload exceeds the 16 MiB limit"
    | .error .outOfBounds => throw "the Sandbox produced an out-of-bounds request"
    | .ok bytes => return bytes

/-- The Call handed to the handler, `Calls::open` counting it meanwhile. -/
def dispatchCall (dispatch : Call → Host F String (Option Reply)) (call : Call) :
    Host F String Reply := do
  modify fun guest => { guest with openCalls := guest.openCalls + 1 }
  let reply ← dispatch call
  modify fun guest => { guest with openCalls := guest.openCalls - 1 }
  match reply with
  | some reply => return reply
  | none =>
    throw ("a Sandbox callback raised an exception instead of returning a fault — " ++
      "please report this as a kobako bug")

/-- `dispatch::reply_to`. -/
def replyTo (dispatch : Call → Host F String (Option Reply)) (reqPtr reqLen : UInt32) :
    Host F String Reply := do
  let request ← readRequest reqPtr reqLen
  match Upcall.decode request with
  | .error _ =>
    throw "the guest sent a malformed Call envelope — please report this as a kobako bug"
  | .ok (.unknown _ _) => return .unsupported ⟨"the host does not serve this request"⟩
  | .ok (.call call) =>
    if (← get).bound then dispatchCall dispatch call
    else
      throw ("a Sandbox callback fired outside an active invocation — " ++
        "please report this as a kobako bug")

/-- `dispatch::fit_in_message`. -/
def fitInMessage (reply : Reply) : Reply :=
  match checkedPayloadLen reply.encode.length with
  | .ok _ => reply
  | .error limit =>
    .fault ⟨.runtime, "Sandbox could not write the Service's answer: " ++ limit⟩

/-- `dispatch::write_reply`. -/
def writeReply (alloc : GuestCall F) (bytes : List UInt8) : Host F String UInt64 := do
  let ptr ← writeFromCallback alloc bytes
  return packPtrLen ptr (UInt32.ofNat bytes.length)

/-- The last checks of `dispatch::handle`: a trap kept, a host that gave up, then the answer. -/
def settle (abandoned : Instance F → Bool) (written : Except String UInt64) :
    Host F (UpcallEnd F) UInt64 := do
  match (← get).reentryTrap with
  | some trap => do
    modify fun guest => { guest with reentryTrap := none }
    throw (.fault trap)
  | none =>
    if abandoned (← get) then throw .abandoned
    else
      match written with
      | .ok packed => return packed
      | .error reason => throw (.unwritable reason)

/-- `dispatch::handle`. -/
def handle (dispatch : Call → Host F String (Option Reply)) (alloc : GuestCall F)
    (abandoned : Instance F → Bool) (reqPtr reqLen : UInt32) : Host F (UpcallEnd F) UInt64 := do
  let answered ← outcomeOf (replyTo dispatch reqPtr reqLen)
  let reply := match answered with
    | .ok reply => reply
    | .error reason => .fault ⟨.internal, reason⟩
  let written ← outcomeOf (writeReply alloc (fitInMessage reply).encode)
  settle abandoned written

/-! ## The other side -/

mutual

/-- What one call into the guest does: it ends, or it makes an upcall and goes on with the answer.
`reply` is what the guest then does of the allocation for the answer. -/
inductive Play (F : Type) where
  | ends (memory : Option (List UInt8)) (result : Option (Except F UInt64))
  | upcall (memory : Option (List UInt8)) (reqPtr reqLen : UInt32) (service : Call → Service F)
      (reply : Instance F → Play F) (abandoned : Instance F → Bool)
      (next : Instance F → UInt64 → Play F)

/-- What a handler does with a Call: it answers, or it yields and goes on with what the yield
answered. `alloc` and `downcall` are what the guest does of the two calls into it. -/
inductive Service (F : Type) where
  | answers (reply : Option Reply)
  | yields (frame : UInt32) (args : List UInt8) (alloc downcall : Instance F → Play F)
      (next : Instance F → Except Trap YieldReply → Service F)

end

/-- How the engine raises what ends an upcall in the call into the guest that made it: a trap as
itself, anything else as an error of its own. -/
def raise (message : String → F) : UpcallEnd F → F
  | .fault trap => trap
  | .abandoned => message "the host abandoned the invocation"
  | .unwritable reason => message reason

/-- An upcall begins. -/
def beginUpcall (guest : Instance F) (memory : Option (List UInt8)) : Instance F :=
  { guest with memory, depth := guest.depth + 1 }.tell .opened

/-- An upcall ends. -/
def endUpcall (guest : Instance F) (ended : Except (UpcallEnd F) UInt64) : Instance F :=
  { guest.tell fun depth => .closed depth ended with depth := guest.depth - 1 }

mutual

/-- A call into the guest, to its end. One whose upcall ended the invocation traps with it. -/
def Play.run (message : String → F) : Play F → GuestCall F
  | .ends memory result => fun guest => (result, { guest with memory })
  | .upcall memory reqPtr reqLen service reply abandoned next => fun guest =>
    match handle (fun call => (service call).run message)
        (fun guest => (reply guest).run message guest) abandoned reqPtr reqLen
        (beginUpcall guest memory) with
    | .ok packed after =>
      (next (endUpcall after (.ok packed)) packed).run message (endUpcall after (.ok packed))
    | .error ended after =>
      (some (.error (raise message ended)), endUpcall after (.error ended))

/-- A handler, to its answer. -/
def Service.run (message : String → F) : Service F → Host F String (Option Reply)
  | .answers reply => pure reply
  | .yields frame args alloc downcall next => fun guest =>
    match yieldToBlock (fun guest => (alloc guest).run message guest)
        (fun guest => (downcall guest).run message guest) frame args guest with
    | .ok reply after =>
      (next (after.tell (.yielded · true)) (.ok reply)).run message (after.tell (.yielded · true))
    | .error trap after =>
      (next (after.tell (.yielded · false)) (.error trap)).run message
        (after.tell (.yielded · false))

end

end Kobako.Endpoint
