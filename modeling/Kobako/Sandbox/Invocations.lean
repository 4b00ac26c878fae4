import Kobako.Run
import Kobako.Sandbox.Tables
import Mathlib.Logic.Function.Basic

/-!
# The invocations of a shared Sandbox

Threads invoke one Sandbox at once. An invocation checks the Extensions' dependencies, seals what
was set up, lets its caller stand objects and Mounts in, builds its arguments, has each provider
make its object, and runs the guest. The guest calls host objects by a bound path or by a Handle;
a host object may hand it further ones, and yield to the block of its call, in which the guest calls
again. What a path or a Handle means to the guest is told apart from how it is looked up: by what
was set up and what this one invocation did before.
-/

namespace Kobako.Sandbox

open Kobako.Envelope

/-! ## The handler of an invocation -/

/-- A call of the guest's that an object is running. -/
structure Frame where
  call : Call
  object : Nat
  /-- `Yielder::broken`. -/
  broken : Bool
  /-- Within a yield to the call's block. -/
  yielding : Bool

/-- `CatalogHandler`, the Grants beside it, and what its guest was answered. -/
structure Invocation where
  tables : Tables
  resolved : List (String × Object)
  /-- What each provider called for it answered. -/
  made : List (Nat × Nat)
  grants : List Mount
  handles : List Nat
  /-- The calls under way, the innermost first. -/
  frames : List Frame
  replies : List (Call × Reply)

/-- `MAX_HANDLE_ID`. -/
def maxHandleId : Nat := 0x7fffffff

/-- `HandleTable::alloc`, the table kept where the ids are used up. -/
def alloc (handles : List Nat) (object : Nat) : List Nat :=
  if maxHandleId ≤ handles.length % UInt32.size then handles else handles ++ [object]

/-- `HandleTable::get`. -/
def get (handles : List Nat) (id : UInt32) : Option Nat :=
  if id.toNat = 0 then none else handles[id.toNat - 1]?

/-- `CatalogHandler::resolve_target`. -/
def Invocation.resolveTarget (invocation : Invocation) : Target → Except Fault Object
  | .path path =>
    match ((invocation.resolved.find? (·.1 == path)).map (·.2)).or
        (invocation.tables.lookup path) with
    | some object => .ok object
    | none => .error ⟨.undefined, "unknown constant " ++ path⟩
  | .handle id =>
    match get invocation.handles id with
    | some object => .ok (.host object)
    | none => .error ⟨.undefined, "unknown Handle id: " ++ toString id.toNat⟩

/-- What `Unresolved` answers. -/
def unresolvedFault : Fault := ⟨.undefined, "service is declared but unresolved this invocation"⟩

/-- A call answered at once. -/
def Invocation.reply (invocation : Invocation) (call : Call) (reply : Reply) : Invocation :=
  { invocation with replies := invocation.replies ++ [(call, reply)] }

/-- `CatalogHandler::answer` up to where the object's `call` runs. -/
def Invocation.answer (invocation : Invocation) (call : Call) (exposed : Bool) : Invocation :=
  match invocation.resolveTarget call.target with
  | .error fault => invocation.reply call (.fault fault)
  | .ok .unresolved => invocation.reply call (.fault unresolvedFault)
  | .ok (.host object) =>
    if exposed then { invocation with frames := ⟨call, object, false, false⟩ :: invocation.frames }
    else invocation.reply call
      (.fault ⟨.undefined, "method :" ++ call.method ++ " is not exposed to the guest"⟩)

/-- `CatalogHandler::answer` once the object's `call` returned. -/
def Frame.reply (frame : Frame) : Except Fault (List UInt8) → Reply
  | .ok body => if frame.broken then .brk else .ok body
  | .error fault => if frame.broken then .brk else .fault fault

/-! ## The machine -/

/-- How far an invocation is. -/
inductive Phase
  | idle
  /-- Between the check of the dependencies and the seal. -/
  | starting (run met : Bool)
  /-- In the closure of `eval_with` or `run_with`. -/
  | collecting (run : Bool) (tables : Tables) (overrides : List (String × Object))
      (mounts : List Mount)
  /-- In `RunPayload::encode`. -/
  | building (tables : Tables) (overrides : List (String × Object)) (mounts : List Mount)
      (handles : List Nat)
  | running (invocation : Invocation)
  /-- Its `Execution`, by the table it resolves against. -/
  | ended (handles : List Nat)
  /-- Without an `Execution`. -/
  | failed

/-- `Registry`. -/
inductive Registry
  | opened (tables : Tables)
  | sealed (tables : Tables)

/-- `Registry::seal`, by the tables it leaves and whether the engine panicked. -/
def Registry.seal (met : Bool) (compiled : Tables.Compiled) : Registry → Tables × Bool
  | .sealed tables => (tables, false)
  | .opened tables => if met then tables.compile compiled else (tables, false)

/-- `Sandbox`. -/
structure State where
  registry : Registry
  extensions : List Extension
  /-- `Extensions::asserted`. -/
  asserted : Bool
  /-- The invocations between their check and their seal. -/
  starting : List Nat
  invocations : Nat → Phase

/-- `Sandbox::with_runtime`. -/
def start : State := ⟨.opened .empty, [], false, [], fun _ => .idle⟩

/-- A call of the host's, of the guest's or of a host object's. -/
inductive Event
  | bind (path : String) (object : Nat)
  | bindFillable (path : String)
  | mount (path : String) (filesystem : Nat) (readOnly : Bool) (policy : Option Nat)
  | install (extension : Extension)
  | preload (name source : String)
  | preloadBinary (bytecode : List UInt8)
  | flag (name value : String) (critical : Bool)
  /-- `eval_with`, or `run_with` of a target, up to the check. -/
  | begins (i : Nat) (target : Option String)
  | seals (i : Nat) (compiled : Tables.Compiled)
  /-- `Context::bind`. -/
  | override (i : Nat) (path : String) (object : Nat)
  /-- `Context::mount` or `Context::mount_with_policy`. -/
  | remount (i : Nat) (path : String) (filesystem : Nat) (readOnly : Bool) (policy : Option Nat)
  /-- The closure of `run_with` returns. -/
  | collected (i : Nat)
  /-- The guest starts, `provide` what the providers answer, call by call. -/
  | invoke (i : Nat) (provide : Nat → Nat → Nat)
  /-- `Handles::alloc`. -/
  | alloc (i : Nat) (object : Nat)
  /-- A Call of the guest's, `exposed` what `respond_to_guest` answers it. -/
  | dispatch (i : Nat) (call : Call) (exposed : Bool)
  | yields (i : Nat)
  /-- The block's reply, or none of a guest that trapped. -/
  | yielded (i : Nat) (reply : Option YieldReply)
  | returns (i : Nat) (answer : Except Fault (List UInt8))
  | finish (i : Nat)
  /-- A refusal or a panic ends the invocation. -/
  | fails (i : Nat)

namespace State

variable (state : State)

/-- An invocation moved on. -/
def move (i : Nat) (phase : Phase) : State :=
  { state with invocations := Function.update state.invocations i phase }

/-- A setup call, which needs the Sandbox to itself and is refused once it is sealed. -/
def setup (change : Tables → Tables × List Extension) : Option State :=
  if state.starting ≠ [] then none
  else
    match state.registry with
    | .sealed _ => some state
    | .opened tables =>
      some { state with registry := .opened (change tables).1, extensions := (change tables).2 }

/-- What a setup call leaves. -/
def after (tables : Tables) : Except Error Tables → Tables
  | .ok next => next
  | .error _ => tables

/-- `Sandbox::register_mount`. -/
def registerMount (presents : Bool) (tables : Tables) : Except Error Mount → Except Error Tables
  | .ok mount => if presents then tables.mount mount else .error .mountKind
  | .error refused => .error refused

/-- `begin_invocation` up to the seal. -/
def begins (i : Nat) (run : Bool) : State :=
  let met := state.asserted || (unmet state.extensions).isNone
  { state with
    asserted := met, starting := i :: state.starting,
    invocations := Function.update state.invocations i (.starting run met) }

/-- `begin_invocation` from the seal on. -/
def seals (i : Nat) (compiled : Tables.Compiled) (run met : Bool) : State :=
  let sealing := state.registry.seal met compiled
  { state with
    registry := .sealed sealing.1, starting := state.starting.filter (· ≠ i),
    invocations := Function.update state.invocations i
      (if sealing.2 || !met then .failed else .collecting run sealing.1 [] []) }

theorem move_self (i : Nat) (phase : Phase) :
    (state.move i phase).invocations i = phase := Function.update_self ..

theorem move_of_ne {i j : Nat} (apart : j ≠ i) (phase : Phase) :
    (state.move i phase).invocations j = state.invocations j := Function.update_of_ne apart ..

theorem begins_self (i : Nat) (run : Bool) : (state.begins i run).invocations i =
    .starting run (state.asserted || (unmet state.extensions).isNone) := Function.update_self ..

theorem begins_of_ne {i j : Nat} (apart : j ≠ i) (run : Bool) :
    (state.begins i run).invocations j = state.invocations j := Function.update_of_ne apart ..

theorem seals_self (i : Nat) (compiled : Tables.Compiled) (run met : Bool) :
    (state.seals i compiled run met).invocations i =
      if (state.registry.seal met compiled).2 || !met then .failed
      else .collecting run (state.registry.seal met compiled).1 [] [] := Function.update_self ..

theorem seals_of_ne {i j : Nat} (apart : j ≠ i) (compiled : Tables.Compiled) (run met : Bool) :
    (state.seals i compiled run met).invocations j = state.invocations j :=
  Function.update_of_ne apart ..

/-- `Sandbox::invoke` up to the guest. -/
def invoke (i : Nat) (provide : Nat → Nat → Nat) (tables : Tables)
    (overrides : List (String × Object)) (mounts : List Mount) (handles : List Nat) : State :=
  state.move i (.running
    { tables, handles
      resolved := overrides ++ (resolve state.extensions provide).2
      made := (resolve state.extensions provide).1
      grants := tables.forInvocation mounts
      frames := []
      replies := [] })

/-- One step; none where the event is not due. `presents` is what the engine answers of Mounts. -/
def step (presents : Bool) (state : State) : Event → Option State
  | .bind path object => state.setup fun tables =>
    (after tables (tables.bind path (.host object)), state.extensions)
  | .bindFillable path => state.setup fun tables =>
    (after tables (tables.bind path .unresolved), state.extensions)
  | .mount path filesystem readOnly policy => state.setup fun tables =>
    (after tables (registerMount presents tables (Mount.new path filesystem readOnly policy)),
      state.extensions)
  | .install extension => state.setup fun tables =>
    ((Sandbox.install tables state.extensions extension).1,
      (Sandbox.install tables state.extensions extension).2.1)
  | .preload name source => state.setup fun tables =>
    (after tables (tables.registerSource name source), state.extensions)
  | .preloadBinary bytecode => state.setup fun tables =>
    (tables.registerBinary bytecode, state.extensions)
  | .flag name value critical => state.setup fun tables =>
    (after tables (tables.flag name value critical), state.extensions)
  | .begins i target =>
    match state.invocations i with
    | .idle =>
      match target with
      | none => some (state.begins i false)
      | some name =>
        -- a target that names no constant is refused before the seal
        if Path.isConstantName name.toList then some (state.begins i true)
        else some (state.move i .failed)
    | _ => none
  | .seals i compiled =>
    match state.invocations i with
    | .starting run met => some (state.seals i compiled run met)
    | _ => none
  | .override i path object =>
    match state.invocations i with
    | .collecting run tables overrides mounts =>
      if (tables.lookup path).isNone then some state
      else some (state.move i
        (.collecting run tables (replace (·.1) overrides (path, .host object)) mounts))
    | _ => none
  | .remount i path filesystem readOnly policy =>
    match state.invocations i, Mount.new path filesystem readOnly policy with
    | .collecting run tables overrides mounts, .ok mount =>
      if !tables.isMounted mount.path then some state
      else some (state.move i (.collecting run tables overrides (replace (·.path) mounts mount)))
    | .collecting _ _ _ _, .error _ => some state
    | _, _ => none
  | .collected i =>
    match state.invocations i with
    | .collecting true tables overrides mounts =>
      some (state.move i (.building tables overrides mounts []))
    | _ => none
  | .invoke i provide =>
    match state.invocations i with
    | .collecting false tables overrides mounts =>
      some (state.invoke i provide tables overrides mounts [])
    | .building tables overrides mounts handles =>
      some (state.invoke i provide tables overrides mounts handles)
    | _ => none
  | .alloc i object =>
    match state.invocations i with
    | .building tables overrides mounts handles =>
      some (state.move i (.building tables overrides mounts (Sandbox.alloc handles object)))
    | .running invocation =>
      -- only an object that is running a call has the table
      if invocation.frames.head?.any (!·.yielding) then
        some (state.move i (.running
          { invocation with handles := Sandbox.alloc invocation.handles object }))
      else none
    | _ => none
  | .dispatch i call exposed =>
    match state.invocations i with
    | .running invocation =>
      if invocation.frames.head?.all (·.yielding) then
        some (state.move i (.running (invocation.answer call exposed)))
      else none
    | _ => none
  | .yields i =>
    match state.invocations i with
    | .running invocation =>
      match invocation.frames with
      | frame :: rest =>
        if frame.call.blockGiven && !frame.yielding then
          some (state.move i (.running
            { invocation with frames := { frame with yielding := true } :: rest }))
        else none
      | [] => none
    | _ => none
  | .yielded i reply =>
    match state.invocations i with
    | .running invocation =>
      match invocation.frames with
      | frame :: rest =>
        if frame.yielding then
          some (state.move i (.running { invocation with
            frames := { frame with
              yielding := false, broken := frame.broken || reply == some .brk } :: rest }))
        else none
      | [] => none
    | _ => none
  | .returns i answer =>
    match state.invocations i with
    | .running invocation =>
      match invocation.frames with
      | frame :: rest =>
        if frame.yielding then none
        else some (state.move i (.running
          ({ invocation with frames := rest }.reply frame.call (frame.reply answer))))
      | [] => none
    | _ => none
  | .finish i =>
    match state.invocations i with
    | .running invocation =>
      if invocation.frames.isEmpty then some (state.move i (.ended invocation.handles)) else none
    | _ => none
  | .fails i =>
    match state.invocations i with
    | .idle | .starting _ _ | .ended _ | .failed => none
    | _ => some (state.move i .failed)

end State

/-! ## What an invocation did -/

/-- What an invocation's caller, providers and objects did for it, whatever the code made of it. -/
structure Past where
  /-- The object last bound at each path. -/
  bound : String → Option Nat
  /-- The Mount last put at each path. -/
  mounted : String → Option Mount
  /-- The objects handed to the guest, in order. -/
  given : List Nat
  /-- What its providers answered. -/
  provide : Option (Nat → Nat → Nat)

/-- An invocation that did nothing. -/
def Past.none : Past := ⟨fun _ => .none, fun _ => .none, [], .none⟩

/-- What one event adds. -/
def Past.add (i : Nat) (past : Past) : Event → Past
  | .override j path object =>
    if j = i then { past with bound := Function.update past.bound path (some object) } else past
  | .remount j path filesystem readOnly policy =>
    if j = i then
      match Mount.new path filesystem readOnly policy with
      | .ok mount => { past with mounted := Function.update past.mounted path (some mount) }
      | .error _ => past
    else past
  | .invoke j provide => if j = i then { past with provide := some provide } else past
  | .alloc j object => if j = i then { past with given := past.given ++ [object] } else past
  | _ => past

/-- What an invocation did in a run. -/
def past (i : Nat) (events : List Event) : Past := events.foldl (Past.add i) .none

/-- What a path means to an invocation: the object it bound there, else what the path's provider
made for it, else what was set up; and nothing where nothing was. -/
def means (tables : Tables) (extensions : List Extension) (past : Past) (made : List (Nat × Nat))
    (path : String) : Option Object :=
  (tables.lookup path).map fun base =>
    match past.bound path with
    | some object => .host object
    | none =>
      match (providerAt extensions path).bind (List.lookup · made) with
      | some object => .host object
      | none => base

end Kobako.Sandbox
