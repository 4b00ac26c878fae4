import Mathlib.Data.List.Basic

/-!
# The guest's half of a Call

What the guest keeps across the host round-trip: the blocks of its open Calls, the exception the
last block raised while a Service may still rescue it, and the `break` or `return` the last block
left with until the Service it unwinds answers. A Call parks its block, a yield runs one, and the
answer is what the bridge continues with.
-/

namespace Kobako.Transport

/-- `envelope::ErrorRecord`. -/
structure ErrorRecord where
  /-- The class the failure is raised under. -/
  name : String
  /-- The wording it carries. -/
  message : String
  /-- Where it was raised, innermost first. -/
  backtrace : List String
deriving Repr, DecidableEq

/-- A block an mruby method received, told apart by the object it is. -/
structure Block where
  /-- The object. -/
  object : Nat
deriving Repr, DecidableEq

/-- An mruby exception: the object, and the fields `exception_fields` reads off it. -/
structure Raised where
  /-- The object a bridge re-raises. -/
  object : Nat
  /-- Its class, message and backtrace. -/
  fields : ErrorRecord
deriving Repr, DecidableEq

/-- The `RBreak` of a `break`, or of a `return` to a frame past the yield. -/
structure Exit where
  /-- The object a bridge continues. -/
  object : Nat
deriving Repr, DecidableEq

/-- `block_exit::HeldExit`: the object a block left with, while it waits. -/
structure HeldExit (α : Type) where
  /-- What is held, if anything. -/
  held : Option α
deriving Repr, DecidableEq

namespace HeldExit

variable {α : Type}

/-- `HeldExit::new`. -/
def new : HeldExit α := ⟨none⟩

variable (slot : HeldExit α)

/-- `HeldExit::take`. -/
def take : Option α × HeldExit α := (slot.held, new)

/-- `HeldExit::clear`. -/
def clear : HeldExit α := slot.take.2

/-- `HeldExit::set`, which releases what was held before. -/
def set (exit : α) : HeldExit α := { slot.clear with held := some exit }

@[simp] theorem held_clear : slot.clear.held = none := rfl

@[simp] theorem held_set (exit : α) : (slot.set exit).held = some exit := rfl

end HeldExit

/-- The guest's statics one Call after another shares. -/
structure Guest where
  /-- Whether `MRB` holds the VM of an active invocation. -/
  mrb : Bool
  /-- `BLOCK_STACK`: the blocks of the open Calls, outermost first. -/
  blockStack : List (Option Block)
  /-- `BLOCK_RAISE`. -/
  blockRaise : HeldExit Raised
  /-- `BLOCK_EXIT`. -/
  blockExit : HeldExit Exit
deriving Repr, DecidableEq

/-- `envelope::YieldReply`, as the bundled guest answers. -/
inductive YieldReply where
  | ok (body : List UInt8)
  | break_
  | error (record : ErrorRecord)
deriving Repr, DecidableEq

/-- `envelope::FaultKind`. -/
inductive FaultKind where
  | runtime
  | argument
  | undefined
  | internal
  | block
deriving Repr, DecidableEq

/-- `envelope::Reply`. -/
inductive Reply where
  | ok (body : List UInt8)
  | fault (kind : FaultKind) (message : String)
  | break_
  | unsupported (message : String)
deriving Repr, DecidableEq

/-- How a guest block left: with a value the codec wrote or refused, with an exception, or with a
`break` or `return`. -/
inductive BlockOutcome where
  | value (body : Except ErrorRecord (List UInt8))
  | raised (exc : Raised)
  | exited (exit : Exit)
deriving Repr

/-- What a bridge leaves a Call with. -/
inductive Continuation where
  | value (body : List UInt8)
  | refused (refusal : ErrorRecord)
  | raised (exc : Raised)
  | serviceError (kind : FaultKind) (message : String)
  | exited (exit : Exit)
  | unsupportedError (message : String)
  | transportError
deriving Repr, DecidableEq

namespace Guest

variable (guest : Guest)

/-- `BlockFrame::park`: every Call pushes a slot, block or none. -/
def park (block : Option Block) : Guest :=
  { guest with blockStack := guest.blockStack ++ [block] }

/-- Dropping a `BlockFrame` pops its slot. -/
def dropFrame : Guest :=
  { guest with blockStack := guest.blockStack.dropLast }

/-- `BlockStack::get`: the block of the open Call `frame` counts to, if it carried one. -/
def block (frame : Nat) : Option Block := guest.blockStack[frame]?.join

/-- `yield_block::error_reply`. -/
def errorReply (name message : String) (backtrace : List String) : YieldReply :=
  .error ⟨name, message, backtrace⟩

/-- `yield_block::yield_to_block` up to the block's own run: the block to call, or the answer when
there is none to call. `unreadable` is the refusal of arguments the codec cannot read. -/
def yieldToBlock (frame : Nat) (unreadable : Option ErrorRecord) :
    Except YieldReply Block × Guest :=
  if guest.mrb = false then
    (.error (errorReply "RuntimeError" "block was called outside an active Sandbox invocation" []),
      guest)
  else
    let guest := { guest with blockRaise := guest.blockRaise.clear }
    match guest.block frame, unreadable with
    | none, _ => (.error (errorReply "LocalJumpError" "no block given (yield)" []), guest)
    | some _, some refusal => (.error (errorReply refusal.name refusal.message []), guest)
    | some block, none => (.ok block, guest)

/-- `yield_block::exception_reply`: the exception is held, and its fields answered. -/
def exceptionReply (exc : Raised) : YieldReply × Guest :=
  (.error exc.fields, { guest with blockRaise := guest.blockRaise.set exc })

/-- `yield_block::value_reply`, a refused value answered under its refusal. -/
def valueReply (body : Except ErrorRecord (List UInt8)) : YieldReply × Guest :=
  match body with
  | .ok body => (.ok body, guest)
  | .error refusal => (errorReply refusal.name refusal.message [], guest)

/-- `yield_block::yield_to_block` past the block's own run, with `exit_reply`. -/
def leaveBlock : BlockOutcome → YieldReply × Guest
  | .value body => guest.valueReply body
  | .raised exc => guest.exceptionReply exc
  | .exited exit => (.break_, { guest with blockExit := guest.blockExit.set exit })

/-- `bridges::forward_to_dispatch` past the upcall: the frame drops, the held raise is taken on
every arm, and the held exit on the break arm alone. `unreadable` is the refusal of an ok body the
codec cannot read. -/
def bridge (reply : Reply) (unreadable : Option ErrorRecord) :
    Continuation × Guest :=
  let guest := guest.dropFrame
  let raised := guest.blockRaise.take.1
  let guest := { guest with blockRaise := guest.blockRaise.take.2 }
  match reply with
  | .ok body =>
    match unreadable with
    | none => (.value body, guest)
    | some refusal => (.refused refusal, guest)
  | .fault kind message =>
    match kind, raised with
    | .block, some exc => (.raised exc, guest)
    | _, _ => (.serviceError kind message, guest)
  | .break_ =>
    let exit := guest.blockExit.take.1
    let guest := { guest with blockExit := guest.blockExit.take.2 }
    match exit with
    | some exit => (.exited exit, guest)
    | none => (.transportError, guest)
  | .unsupported message => (.unsupportedError message, guest)

/-- What a bridge leaves of the guest, whatever it continues with. -/
theorem bridge_guest (reply : Reply) (unreadable : Option ErrorRecord) :
    (guest.bridge reply unreadable).2 =
      { guest with
        blockStack := guest.blockStack.dropLast
        blockRaise := .new
        blockExit := if reply = .break_ then .new else guest.blockExit } := by
  cases reply with
  | ok body => cases unreadable <;> rfl
  | fault kind message =>
    cases kind with
    | block =>
      unfold bridge
      dsimp only
      split <;> rfl
    | _ => rfl
  | break_ =>
    unfold bridge
    dsimp only
    split <;> rfl
  | unsupported message => rfl

end Guest

end Kobako.Transport
