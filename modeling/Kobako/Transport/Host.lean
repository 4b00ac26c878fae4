import Kobako.Transport.Guest
import Mathlib.Algebra.GroupWithZero.Nat

/-!
# The host's half of a Call

The endpoint counts the Calls it has opened and lends each the number it opened at. The frontend
keeps the newest failure a guest block raised, told by identity, and answers each Call with one
arm: the Service's value, a fault under the category its error takes, or a break when a block exit
unwound the Service.
-/

namespace Kobako.Transport

/-- `abi::MAX_DISPATCH_PAYLOAD`. -/
def maxDispatchPayload : Nat := 16 * 1024 * 1024

/-- The bytes `Writer::bytes` writes for a text: a `u32` length and the text. -/
def textLen (text : String) : Nat := 4 + text.utf8ByteSize

/-- How long `YieldReply::encode` is. -/
def YieldReply.encodedLen : YieldReply → Nat
  | .ok body => 1 + body.length
  | .break_ => 1
  | .error record =>
    1 + textLen record.name + textLen record.message + (4 + (record.backtrace.map textLen).sum)

/-- How long `Reply::encode` is. -/
def Reply.encodedLen : Reply → Nat
  | .ok body => 1 + body.length
  | .fault _ message => 1 + (1 + textLen message)
  | .break_ => 1
  | .unsupported message => 1 + (1 + textLen message)

/-- `dispatch::fit_in_message`: an answer past the message cap becomes the Service's fault. -/
def fitInMessage (reply : Reply) : Reply :=
  if reply.encodedLen > maxDispatchPayload then
    .fault .runtime "Sandbox could not write the Service's answer: payload exceeds the 16 MiB limit"
  else reply

/-- A `BlockError` object, told apart from every other by its number. -/
structure Failure where
  /-- Which `BlockError` it is, in the order they were made. -/
  number : Nat
  /-- The class the guest raised under. -/
  klass : String
  /-- The message it carries. -/
  message : String
deriving Repr, DecidableEq

/-- `BlockFailure#fault_text`: the text of `error`, when it is the newest failure itself. -/
def faultText (newest : Option Failure) (error : Failure) : Option String :=
  match newest with
  | none => none
  | some raised =>
    if error.number = raised.number then some (raised.klass ++ ": " ++ raised.message) else none

/-- The classes `Dispatcher::BARE_FAULTS` names. -/
inductive BareClass where
  | handleExhausted
  | undefinedTarget
  | argument
  | yieldValue
  | unsupported
  | codec
  | sandbox
deriving Repr, DecidableEq

/-- `Dispatcher::BARE_FAULTS`. -/
def bareFault : BareClass → FaultKind
  | .handleExhausted => .internal
  | .undefinedTarget => .undefined
  | .argument => .argument
  | .yieldValue => .runtime
  | .unsupported => .runtime
  | .codec => .internal
  | .sandbox => .runtime

/-- The `StandardError` a Service lets through: a block's failure, one of a class the table names,
or one of any other class. -/
inductive ServiceError where
  | failure (error : Failure)
  | bare (klass : BareClass) (message : String)
  | own (klass message : String)
deriving Repr, DecidableEq

/-- `Dispatcher.fault_of`. A `BlockError` is no class of the table, so one that is not the newest
is the Service's own. -/
def faultOf (error : ServiceError) (newest : Option Failure) : Reply :=
  match error with
  | .failure failure =>
    match faultText newest failure with
    | some text => .fault .block text
    | none => .fault .runtime ("Kobako::BlockError" ++ ": " ++ failure.message)
  | .bare klass message => .fault (bareFault klass) message
  | .own klass message => .fault .runtime (klass ++ ": " ++ message)

/-- Why `dispatch::reply_to` answers a request without opening a Call. -/
inductive Refusal where
  | unsupported
  | malformed
  | noHandler
  | tooLarge
  | outOfBounds
  | notKobako
deriving Repr, DecidableEq

/-- The Reply of a request no Call was opened for. -/
def Refusal.reply : Refusal → Reply
  | .unsupported => .unsupported "the host does not serve this request"
  | .malformed =>
    .fault .internal
      "the guest sent a malformed Call envelope — please report this as a kobako bug"
  | .noHandler =>
    .fault .internal
      "a Sandbox callback fired outside an active invocation — please report this as a kobako bug"
  | .tooLarge => .fault .internal "request payload exceeds the 16 MiB limit"
  | .outOfBounds => .fault .internal "the Sandbox produced an out-of-bounds request"
  | .notKobako => .fault .internal "the loaded Wasm module is not a Kobako-compatible runtime"

/-- How a Service ends: with a value, with an error, unwound by a block exit to the dispatcher's
`catch`, or with an exception no `rescue StandardError` stops. -/
inductive Ending where
  | returned (body : List UInt8)
  | raised (error : ServiceError)
  | thrown
  | escaped
deriving Repr, DecidableEq

/-- `Dispatcher.dispatch`, and `reply_to`'s answer for a handler that returned none. -/
def dispatchReply (newest : Option Failure) : Ending → Reply
  | .returned body => .ok body
  | .raised error => faultOf error newest
  | .thrown => .break_
  | .escaped =>
    .fault .internal
      ("a Sandbox callback raised an exception instead of returning a fault — " ++
        "please report this as a kobako bug")

/-- What the host keeps for one invocation. -/
structure Host where
  /-- `Calls::open`. -/
  openCalls : Nat
  /-- The failure `BlockFailure` remembers. -/
  newest : Option Failure
  /-- How many `BlockError` objects were made. -/
  made : Nat
deriving Repr, DecidableEq

namespace Host

/-- `Yielder#yield` on the error arm: a new failure, remembered and raised. -/
def remember (host : Host) (record : ErrorRecord) : Failure × Host :=
  let failure : Failure := ⟨host.made, record.name, record.message⟩
  (failure, { host with newest := some failure, made := host.made + 1 })

end Host

end Kobako.Transport
