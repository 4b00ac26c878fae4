import Kobako.Envelope.Bytes

/-!
# Envelope messages

Every message the two sides exchange, as the source lays it out: the requests, the answers and the
Preamble, each with its `decode` and its `encode`. An encode never fails; a decode answers the
message or the reason the bytes are none.
-/

namespace Kobako.Envelope

open Kobako.Codec (strBytes)

open Reader

/-! ## The tag registry -/

namespace Tag

def INVALID : UInt8 := 0x00
def EVAL : UInt8 := 0x01
def RUN : UInt8 := 0x02
def YIELD : UInt8 := 0x03
def CALL : UInt8 := 0x04
def BINDINGS : UInt8 := 0x05
def SNIPPETS : UInt8 := 0x06
def FLAG : UInt8 := 0x07
def COMPILE : UInt8 := 0x08
def OK : UInt8 := 0x10
def FAULT : UInt8 := 0x11
def BREAK : UInt8 := 0x12
def ERROR : UInt8 := 0x13
def PANIC : UInt8 := 0x14
def UNSUPPORTED : UInt8 := 0x15

/-- `tag::is_assigned`. -/
def isAssigned (tag : UInt8) : Bool :=
  [INVALID, EVAL, RUN, YIELD, CALL, BINDINGS, SNIPPETS, FLAG, COMPILE, OK, FAULT, BREAK, ERROR,
    PANIC, UNSUPPORTED].contains tag

end Tag

/-! ## Records the answers share -/

/-- `envelope::ErrorRecord`. -/
structure ErrorRecord where
  name : String
  message : String
  backtrace : List String
deriving Repr, DecidableEq

namespace ErrorRecord

/-- `ErrorRecord::read`. -/
def read : Reader ErrorRecord := do
  let name ← readText
  let message ← readText
  let backtrace ← readTextList
  return { name, message, backtrace }

/-- `ErrorRecord::write`. -/
def write (record : ErrorRecord) : List UInt8 :=
  Writer.text record.name ++ Writer.text record.message ++ Writer.textList record.backtrace

end ErrorRecord

/-- `envelope::FaultKind`. -/
inductive FaultKind where
  | runtime
  | argument
  | undefined
  | internal
  | block
deriving Repr, DecidableEq

namespace FaultKind

/-- `FaultKind::tag`. -/
def tag : FaultKind → UInt8
  | runtime => 0
  | argument => 1
  | undefined => 2
  | internal => 3
  | block => 4

/-- `FaultKind::from_tag`: a category this reader predates reads as `undefined`. -/
def fromTag (tag : UInt8) : FaultKind :=
  if tag = 0 then runtime
  else if tag = 1 then argument
  else if tag = 3 then internal
  else if tag = 4 then block
  else undefined

end FaultKind

/-- `envelope::Fault`. -/
structure Fault where
  kind : FaultKind
  message : String
deriving Repr, DecidableEq

namespace Fault

/-- `Fault::read`. -/
def read : Reader Fault := do
  let kind := FaultKind.fromTag (← readU8)
  let message ← readText
  skipUnknownFields
  return { kind, message }

/-- `Fault::write`. -/
def write (fault : Fault) : List UInt8 := Writer.u8 fault.kind.tag ++ Writer.text fault.message

end Fault

/-- `envelope::Unsupported`. -/
structure Unsupported where
  message : String
deriving Repr, DecidableEq

namespace Unsupported

/-- `Unsupported::encode`. -/
def encode (refusal : Unsupported) : List UInt8 :=
  Writer.u8 Tag.UNSUPPORTED ++ Writer.u8 0 ++ Writer.text refusal.message

/-- `Unsupported::read`. -/
def read : Reader Unsupported := do
  let _ ← readU8
  let message ← readText
  skipUnknownFields
  return { message }

end Unsupported

/-! ## Requests -/

/-- `envelope::Target`. -/
inductive Target where
  | path (path : String)
  | handle (id : UInt32)
deriving Repr, DecidableEq

/-- `envelope::Call`. -/
structure Call where
  target : Target
  method : String
  blockGiven : Bool
  payload : List UInt8
deriving Repr, DecidableEq

namespace Call

/-- The target of `Call::decode`, the invalid Handle refused. -/
def readTarget : Reader Target := do
  let kind ← readU8
  if kind = 0 then return .path (← readText)
  else if kind = 1 then do
    let id ← readU32
    if id = 0 then throw ⟨"Call target Handle id 0 is the invalid sentinel"⟩
    else return .handle id
  else throw ⟨"Call kind must be 0 (path) or 1 (handle)"⟩

/-- The `block_given` of `Call::decode`. -/
def readBlockGiven : Reader Bool := do
  let given ← readU8
  if given = 0 then return false
  else if given = 1 then return true
  else throw ⟨"Call block_given must be 0 or 1"⟩

/-- The fields of `Call::decode`. -/
def read : Reader Call := do
  let target ← readTarget
  let method ← readText
  let blockGiven ← readBlockGiven
  let payload ← remaining
  return { target, method, blockGiven, payload }

/-- `Call::decode`. -/
def decode (bytes : List UInt8) : Except DecodeError Call := run read bytes

/-- The target of `Call::encode`. -/
def writeTarget : Target → List UInt8
  | .path path => Writer.u8 0 ++ Writer.text path
  | .handle id => Writer.u8 1 ++ Writer.u32 id

/-- `Call::encode`. -/
def encode (call : Call) : List UInt8 :=
  writeTarget call.target ++ Writer.text call.method ++
    Writer.u8 (if call.blockGiven then 1 else 0) ++ call.payload

end Call

/-- `envelope::Run`. -/
structure Run where
  entrypoint : String
  payload : List UInt8
deriving Repr, DecidableEq

namespace Run

/-- The fields of `Run::decode`. -/
def read : Reader Run := do
  let entrypoint ← readText
  let payload ← remaining
  return { entrypoint, payload }

/-- `Run::decode`. -/
def decode (bytes : List UInt8) : Except DecodeError Run := Reader.run read bytes

/-- `Run::encode`. -/
def encode (run : Run) : List UInt8 := Writer.text run.entrypoint ++ run.payload

end Run

/-- `envelope::UnknownTag`: a tag the registry has not assigned, so no other can be held. -/
structure UnknownTag where
  /-- `UnknownTag::get`. -/
  get : UInt8
  unassigned : Tag.isAssigned get = false
deriving DecidableEq

namespace UnknownTag

/-- `UnknownTag::new`. -/
def new (tag : UInt8) : Option UnknownTag :=
  if unassigned : Tag.isAssigned tag = false then some ⟨tag, unassigned⟩ else none

end UnknownTag

/-- `request::read_tag`. -/
def readTag : Reader UInt8 := do
  let tag ← readU8
  if tag = Tag.INVALID then throw ⟨"request tag 0x00 is invalid"⟩ else return tag

/-- `request::unknown`. -/
def unknown (tag : UInt8) : Reader UnknownTag :=
  match UnknownTag.new tag with
  | some tag => return tag
  | none => throw ⟨"request tag is assigned to the other direction or to an answer"⟩

/-- A nested decode, its refusal the reader's own. -/
def liftDecode {α : Type} (decoded : Except DecodeError α) : Reader α :=
  match decoded with
  | .ok a => return a
  | .error e => throw e

/-- `envelope::Downcall`. -/
inductive Downcall where
  | eval (source : List UInt8)
  | run (request : Run)
  | yield (frame : UInt32) (args : List UInt8)
  | compile
  | unknown (tag : UnknownTag) (body : List UInt8)
deriving DecidableEq

namespace Downcall

/-- The `match` of `Downcall::decode` on the tag. -/
def readBody (tag : UInt8) : Reader Downcall := do
  let body ← remaining
  if tag = Tag.EVAL then return .eval body
  else if tag = Tag.RUN then return .run (← liftDecode (Run.decode body))
  else if tag = Tag.YIELD then do
    let frame ← readU32
    return .yield frame (← remaining)
  else if tag = Tag.COMPILE then
    if body.isEmpty then return .compile
    else throw ⟨"a compile request carries no body"⟩
  else return .unknown (← Envelope.unknown tag) body

/-- `Downcall::decode`. -/
def decode (bytes : List UInt8) : Except DecodeError Downcall := Reader.run (readTag >>= readBody) bytes

/-- `Downcall::encode`. -/
def encode : Downcall → List UInt8
  | eval source => Writer.u8 Tag.EVAL ++ source
  | run request => Writer.u8 Tag.RUN ++ request.encode
  | yield frame args => Writer.u8 Tag.YIELD ++ Writer.u32 frame ++ args
  | compile => Writer.u8 Tag.COMPILE
  | unknown tag body => Writer.u8 tag.get ++ body

end Downcall

/-- `envelope::Upcall`. -/
inductive Upcall where
  | call (request : Call)
  | unknown (tag : UnknownTag) (body : List UInt8)
deriving DecidableEq

namespace Upcall

/-- The `match` of `Upcall::decode` on the tag. -/
def readBody (tag : UInt8) : Reader Upcall := do
  let body ← remaining
  if tag = Tag.CALL then return .call (← liftDecode (Call.decode body))
  else return .unknown (← Envelope.unknown tag) body

/-- `Upcall::decode`. -/
def decode (bytes : List UInt8) : Except DecodeError Upcall := Reader.run (readTag >>= readBody) bytes

/-- `Upcall::encode`. -/
def encode : Upcall → List UInt8
  | call request => Writer.u8 Tag.CALL ++ request.encode
  | unknown tag body => Writer.u8 tag.get ++ body

end Upcall

/-! ## Answers -/

/-- `envelope::Reply`. -/
inductive Reply where
  | ok (body : List UInt8)
  | fault (fault : Fault)
  | brk
  | unsupported (refusal : Unsupported)
deriving Repr, DecidableEq

namespace Reply

/-- The `match` of `Reply::decode` on the tag. -/
def readBody (tag : UInt8) : Reader Reply := do
  if tag = Tag.OK then return .ok (← remaining)
  else if tag = Tag.FAULT then return .fault (← Fault.read)
  else if tag = Tag.BREAK then do
    finish
    return .brk
  else if tag = Tag.UNSUPPORTED then return .unsupported (← Unsupported.read)
  else throw ⟨"Reply tag must be 0x10 (ok), 0x11 (fault), 0x12 (break), or 0x15 (unsupported)"⟩

/-- `Reply::decode`. -/
def decode (bytes : List UInt8) : Except DecodeError Reply := run (readU8 >>= readBody) bytes

/-- `Reply::encode`. -/
def encode : Reply → List UInt8
  | ok body => Writer.u8 Tag.OK ++ body
  | fault failure => Writer.u8 Tag.FAULT ++ failure.write
  | brk => Writer.u8 Tag.BREAK
  | unsupported refusal => refusal.encode

end Reply

/-- `envelope::YieldReply`. -/
inductive YieldReply where
  | ok (body : List UInt8)
  | brk
  | error (record : ErrorRecord)
  | unsupported (refusal : Unsupported)
deriving Repr, DecidableEq

namespace YieldReply

/-- The `match` of `YieldReply::decode` on the tag. -/
def readBody (tag : UInt8) : Reader YieldReply := do
  if tag = Tag.OK then return .ok (← remaining)
  else if tag = Tag.BREAK then do
    finish
    return .brk
  else if tag = Tag.ERROR then do
    let record ← ErrorRecord.read
    finish
    return .error record
  else if tag = Tag.UNSUPPORTED then return .unsupported (← Unsupported.read)
  else throw ⟨"Yield Reply tag is not recognised"⟩

/-- `YieldReply::decode`. -/
def decode (bytes : List UInt8) : Except DecodeError YieldReply := run (readU8 >>= readBody) bytes

/-- `YieldReply::encode`. -/
def encode : YieldReply → List UInt8
  | ok body => Writer.u8 Tag.OK ++ body
  | brk => Writer.u8 Tag.BREAK
  | error record => Writer.u8 Tag.ERROR ++ record.write
  | unsupported refusal => refusal.encode

end YieldReply

/-- `envelope::CompileReply`. -/
inductive CompileReply where
  | ok (bytecodes : List (List UInt8))
  | error (record : ErrorRecord)
  | unsupported (refusal : Unsupported)
deriving Repr, DecidableEq

namespace CompileReply

/-- The `match` of `CompileReply::decode` on the tag. -/
def readBody (tag : UInt8) : Reader CompileReply := do
  if tag = Tag.OK then do
    let bytecodes ← readBytesList
    finish
    return .ok bytecodes
  else if tag = Tag.ERROR then do
    let record ← ErrorRecord.read
    finish
    return .error record
  else if tag = Tag.UNSUPPORTED then return .unsupported (← Unsupported.read)
  else throw ⟨"Compile Reply tag must be 0x10 (ok), 0x13 (error), or 0x15 (unsupported)"⟩

/-- `CompileReply::decode`. -/
def decode (bytes : List UInt8) : Except DecodeError CompileReply :=
  run (readU8 >>= readBody) bytes

/-- `CompileReply::encode`. -/
def encode : CompileReply → List UInt8
  | ok bytecodes => Writer.u8 Tag.OK ++ Writer.list bytecodes
  | error record => Writer.u8 Tag.ERROR ++ record.write
  | unsupported refusal => refusal.encode

end CompileReply

/-- `envelope::Origin`. -/
inductive Origin where
  | sandbox
  | service
deriving Repr, DecidableEq

namespace Origin

/-- `Origin::name`. -/
def name : Origin → String
  | sandbox => "sandbox"
  | service => "service"

/-- `Origin::from_name`: everything but `"service"` attributes to the sandbox. -/
def fromName (name : String) : Origin := if name = "service" then service else sandbox

end Origin

/-- `envelope::Panic`. -/
structure Panic where
  origin : Origin
  error : ErrorRecord
  available : List String
deriving Repr, DecidableEq

/-- `envelope::Outcome`. -/
inductive Outcome where
  | ok (value : List UInt8)
  | panic (failure : Panic)
  | unsupported (refusal : Unsupported)
deriving Repr, DecidableEq

namespace Outcome

/-- The panic arm of `Outcome::decode`. -/
def readPanic : Reader Outcome := do
  let origin := Origin.fromName (← readText)
  let error ← ErrorRecord.read
  let available ← readTextList
  finish
  return .panic { origin, error, available }

/-- The `match` of `Outcome::decode` on the tag. -/
def readBody (tag : UInt8) : Reader Outcome := do
  if tag = Tag.OK then return .ok (← remaining)
  else if tag = Tag.PANIC then readPanic
  else if tag = Tag.UNSUPPORTED then return .unsupported (← Unsupported.read)
  else throw ⟨"Outcome tag must be 0x10 (ok), 0x14 (panic), or 0x15 (unsupported)"⟩

/-- `Outcome::decode`. -/
def decode (bytes : List UInt8) : Except DecodeError Outcome := run (readU8 >>= readBody) bytes

/-- `Outcome::encode`. -/
def encode : Outcome → List UInt8
  | ok value => Writer.u8 Tag.OK ++ value
  | panic failure =>
    Writer.u8 Tag.PANIC ++ Writer.text failure.origin.name ++ failure.error.write ++
      Writer.textList failure.available
  | unsupported refusal => refusal.encode

end Outcome

/-! ## The Preamble -/

/-- `envelope::Snippet`. -/
inductive Snippet where
  | source (name body : String)
  | bytecode (body : List UInt8)
deriving Repr, DecidableEq

/-- `envelope::Flag`. -/
structure Flag where
  name : String
  value : String
  critical : Bool
deriving Repr, DecidableEq

/-- `envelope::Preamble`, the paths of its `Bindings` and the entries of its `Snippets` told
directly: each wraps its one list. -/
structure Preamble where
  bindings : List String
  snippets : List Snippet
  flags : List Flag
deriving Repr, DecidableEq

namespace Preamble

/-- `preamble::decode_bindings`. -/
def readBindings : Reader (List String) := do
  let paths ← readTextList
  finish
  return paths

/-- An entry of `preamble::decode_snippets`. -/
def readSnippet : Reader Snippet := do
  let kind ← readU8
  if kind = 0 then do
    let name ← readText
    let body ← readText
    return .source name body
  else if kind = 1 then return .bytecode (← readBytes)
  else throw ⟨"Preamble snippet kind must be 0 or 1"⟩

/-- `preamble::decode_snippets`. -/
def readSnippets : Reader (List Snippet) := do
  let count ← readU32
  let left ← remaining
  if count.toNat > left.length / 5 then
    throw ⟨"Preamble snippets declare more entries than they hold"⟩
  else do
    let entries ← times readSnippet count.toNat
    finish
    return entries

/-- `preamble::decode_flag`. -/
def readFlag (critical : Bool) : Reader Flag := do
  let name ← readText
  let value ← readText
  finish
  return { name, value, critical }

/-- The records read so far: `bindings` and `snippets` at most once. -/
structure Read where
  bindings : Option (List String)
  snippets : Option (List Snippet)
  flags : List Flag
deriving Repr, DecidableEq

/-- The criticality byte of a record. -/
def readCritical : Reader Bool := do
  let byte ← readU8
  if byte = 0 then return false
  else if byte = 1 then return true
  else throw ⟨"Preamble criticality must be 0 or 1"⟩

/-- `preamble::once`: a value for a slot that holds none. -/
def once {α : Type} (slot : Option α) (value : α) : Reader (Option α) :=
  match slot with
  | none => return some value
  | some _ => throw ⟨"Preamble repeats a record that appears once"⟩

/-- The `match` of `Preamble::decode` on the kind of a record. -/
def take (held : Read) (critical : Bool) (kind : UInt8) (body : List UInt8) : Reader Read := do
  if kind = Tag.BINDINGS then
    let bindings ← liftDecode (run readBindings body)
    return { held with bindings := ← once held.bindings bindings }
  else if kind = Tag.SNIPPETS then
    let snippets ← liftDecode (run readSnippets body)
    return { held with snippets := ← once held.snippets snippets }
  else if kind = Tag.FLAG then
    let flag ← liftDecode (run (readFlag critical) body)
    return { held with flags := held.flags ++ [flag] }
  else if Tag.isAssigned kind then
    throw ⟨"Preamble record kind is assigned to another message"⟩
  else if critical then
    throw ⟨"Preamble carries a critical record of a kind this reader does not know"⟩
  else return held

/-- The loop of `Preamble::decode` over its records. -/
def readRecords : Nat → Read → Reader Read
  | 0, held => return held
  | count + 1, held => do
    let critical ← readCritical
    let kind ← readU8
    let body ← readBytes
    readRecords count (← take held critical kind body)

/-- The fields of `Preamble::decode`. -/
def read : Reader Preamble := do
  let count ← readU32
  let left ← remaining
  if count.toNat > left.length then
    throw ⟨"Preamble declares more records than it holds"⟩
  else do
    let held ← readRecords count.toNat ⟨none, none, []⟩
    finish
    return ⟨held.bindings.getD [], held.snippets.getD [], held.flags⟩

/-- `Preamble::decode`. -/
def decode (bytes : List UInt8) : Except DecodeError Preamble := run read bytes

/-- `preamble::encode_bindings`. -/
def encodeBindings (paths : List String) : List UInt8 := Writer.textList paths

/-- An entry of `preamble::encode_snippets`. -/
def writeSnippet : Snippet → List UInt8
  | .source name body => Writer.u8 0 ++ Writer.text name ++ Writer.text body
  | .bytecode body => Writer.u8 1 ++ Writer.bytes body

/-- `preamble::encode_snippets`. -/
def encodeSnippets (entries : List Snippet) : List UInt8 :=
  Writer.u32 (UInt32.ofNat entries.length) ++ entries.flatMap writeSnippet

/-- `preamble::encode_flag`. -/
def encodeFlag (flag : Flag) : List UInt8 := Writer.text flag.name ++ Writer.text flag.value

/-- A record of `Preamble::encode`: its criticality, its kind and its body. -/
structure Record where
  critical : Bool
  kind : UInt8
  body : List UInt8
deriving Repr, DecidableEq

/-- The records of `Preamble::encode`, empty bindings and snippets left out. -/
def records (preamble : Preamble) : List Record :=
  (if preamble.bindings.isEmpty then []
    else [⟨true, Tag.BINDINGS, encodeBindings preamble.bindings⟩]) ++
  (if preamble.snippets.isEmpty then []
    else [⟨true, Tag.SNIPPETS, encodeSnippets preamble.snippets⟩]) ++
  preamble.flags.map fun flag => ⟨flag.critical, Tag.FLAG, encodeFlag flag⟩

/-- A record as `Preamble::encode` writes it. -/
def writeRecord (record : Record) : List UInt8 :=
  Writer.u8 (if record.critical then 1 else 0) ++ Writer.u8 record.kind ++ Writer.bytes record.body

/-- `Preamble::encode`. -/
def encode (preamble : Preamble) : List UInt8 :=
  Writer.u32 (UInt32.ofNat preamble.records.length) ++ preamble.records.flatMap writeRecord

end Preamble

end Kobako.Envelope
