import Kobako.Envelope.Messages

/-!
# Envelope round trips

Every message is read back from what it is written as, once each length and count its layout spells
fits the word it is spelled in. Conversely the bytes a request or a settled answer is read from are
the ones it is written as, so each has one form. A Fault, an Unsupported and an attribution the
reader does not know are read more widely than they are written, so that a later peer is understood.
-/

namespace Kobako.Envelope

open Kobako.Codec (strBytes)

open Reader

/-! ## What fits -/

/-- A text whose length a `u32` holds. -/
def TextFits (s : String) : Prop := FitsU32 s.utf8ByteSize

/-- A list of texts whose count and lengths a `u32` holds. -/
def TextsFit (items : List String) : Prop := FitsU32 items.length ∧ ∀ s ∈ items, TextFits s

namespace ErrorRecord

/-- A record each of whose texts has a length its field can hold. -/
def Fits (record : ErrorRecord) : Prop :=
  TextFits record.name ∧ TextFits record.message ∧ TextsFit record.backtrace

theorem read_reads {record : ErrorRecord} (fits : record.Fits) :
    Reads read record.write record := by
  obtain ⟨name, message, count, backtrace⟩ := fits
  rw [write, List.append_assoc]
  apply (readText_reads name).bind
  apply (readText_reads message).bind
  exact (readTextList_reads count backtrace).map rfl

theorem read_exact : Exact read write := by
  intro input record rest answered
  obtain ⟨name, named, first, more⟩ := bind_answered answered
  obtain ⟨message, told, second, still⟩ := bind_answered more
  obtain ⟨backtrace, last, third, ended⟩ := bind_answered still
  cases ended
  rw [readText_exact _ _ _ first, readText_exact _ _ _ second, readTextList_exact _ _ _ third]
  simp [write]

end ErrorRecord

/-! ## Reading to the end -/

theorem run_eq {α : Type} {reader : Reader α} {bytes rest : List UInt8} {a : α}
    (answered : reader bytes = .ok a rest) : run reader bytes = .ok a := by
  rw [run, answered]

/-- An answer of a message is one its reader gave. -/
theorem run_ok {α : Type} {reader : Reader α} {bytes : List UInt8} {a : α}
    (decoded : run reader bytes = .ok a) : ∃ rest, reader bytes = .ok a rest := by
  unfold run at decoded
  cases answered : reader bytes with
  | ok found rest =>
    rw [answered] at decoded
    cases decoded
    exact ⟨rest, rfl⟩
  | error e rest =>
    rw [answered] at decoded
    cases decoded

/-- A nested decode answers what it decoded, and takes nothing. -/
theorem liftDecode_answered {α : Type} {decoded : Except DecodeError α} {input rest : List UInt8}
    {a : α} (answered : liftDecode decoded input = .ok a rest) : decoded = .ok a ∧ rest = input := by
  cases decoded with
  | ok found =>
    cases answered
    exact ⟨rfl, rfl⟩
  | error e => cases answered

/-! ## Requests -/

namespace Call

/-- A Call whose path and method fit their fields. -/
def Fits (call : Call) : Prop :=
  (∀ path, call.target = .path path → TextFits path) ∧ TextFits call.method

/-- The target of a Call a host can be sent: no Call is addressed to the invalid Handle. -/
def Addressed (call : Call) : Prop := call.target ≠ .handle 0

theorem readTarget_reads {target : Target} (fits : ∀ path, target = .path path → TextFits path)
    (addressed : target ≠ .handle 0) : Reads readTarget (writeTarget target) target := by
  cases target with
  | path path => exact (readU8_reads 0).bind ((readText_reads (fits path rfl)).map rfl)
  | handle id =>
    have nonzero : id ≠ 0 := fun zero => addressed (by rw [zero])
    apply (readU8_reads 1).bind
    apply (readU32_reads id).map
    rw [if_neg nonzero]

theorem readTarget_exact : Exact readTarget writeTarget := by
  intro input target rest answered
  obtain ⟨kind, middle, tagged, more⟩ := bind_answered answered
  rw [readU8_exact _ _ _ tagged]
  by_cases path : kind = 0
  · rw [if_pos path] at more
    obtain ⟨found, last, read, ended⟩ := bind_answered more
    cases ended
    rw [path, readText_exact _ _ _ read]
    rfl
  · rw [if_neg path] at more
    by_cases handle : kind = 1
    · rw [if_pos handle] at more
      obtain ⟨id, last, read, ended⟩ := bind_answered more
      by_cases zero : id = 0
      · rw [if_pos zero] at ended
        cases ended
      · rw [if_neg zero] at ended
        cases ended
        rw [handle, readU32_exact _ _ _ read]
        rfl
    · rw [if_neg handle] at more
      cases more

theorem readBlockGiven_reads (given : Bool) :
    Reads readBlockGiven (Writer.u8 (if given then 1 else 0)) given := by
  cases given with
  | false => exact (readU8_reads 0).map rfl
  | true => exact (readU8_reads 1).map rfl

theorem readBlockGiven_exact :
    Exact readBlockGiven fun given => Writer.u8 (if given then 1 else 0) := by
  intro input given rest answered
  obtain ⟨byte, middle, read, more⟩ := bind_answered answered
  rw [readU8_exact _ _ _ read]
  by_cases without : byte = 0
  · rw [if_pos without] at more
    cases more
    rw [without]
    rfl
  · rw [if_neg without] at more
    by_cases block : byte = 1
    · rw [if_pos block] at more
      cases more
      rw [block]
      rfl
    · rw [if_neg block] at more
      cases more

/-- A Call is read back from what it is written as. -/
theorem decode_of_encode {call : Call} (fits : call.Fits) (addressed : call.Addressed) :
    decode call.encode = .ok call := by
  unfold decode encode
  apply run_eq
  · unfold read
    rw [List.append_assoc, List.append_assoc, (readTarget_reads fits.1 addressed).last,
      (readText_reads fits.2).last, (readBlockGiven_reads call.blockGiven).last]
    rfl

/-- The bytes a Call is read from are those it is written as. -/
theorem encode_decode {bytes : List UInt8} {call : Call} (decoded : decode bytes = .ok call) :
    call.encode = bytes := by
  obtain ⟨rest, answered⟩ := run_ok decoded
  obtain ⟨target, addressed, first, more⟩ := bind_answered answered
  obtain ⟨method, named, second, still⟩ := bind_answered more
  obtain ⟨given, told, third, last⟩ := bind_answered still
  cases last
  rw [readTarget_exact _ _ _ first, readText_exact _ _ _ second, readBlockGiven_exact _ _ _ third]
  simp [encode]

end Call

namespace Run

/-- A Run whose entrypoint fits its field. -/
def Fits (run : Run) : Prop := TextFits run.entrypoint

theorem decode_of_encode {request : Run} (fits : request.Fits) :
    decode request.encode = .ok request := by
  unfold decode encode
  apply run_eq
  · unfold read
    rw [(readText_reads fits).last]
    rfl

theorem encode_decode {bytes : List UInt8} {request : Run} (decoded : decode bytes = .ok request) :
    request.encode = bytes := by
  obtain ⟨rest, answered⟩ := run_ok decoded
  obtain ⟨entrypoint, named, first, last⟩ := bind_answered answered
  cases last
  rw [readText_exact _ _ _ first]
  rfl

end Run

/-- A request's tag is any but the invalid one. -/
theorem readTag_reads {tag : UInt8} (valid : tag ≠ Tag.INVALID) :
    Reads readTag (Writer.u8 tag) tag := by
  apply (readU8_reads tag).map
  rw [if_neg valid]

theorem readTag_exact : Exact readTag Writer.u8 := by
  intro input tag rest answered
  obtain ⟨byte, middle, read, more⟩ := bind_answered answered
  rw [readU8_exact _ _ _ read]
  split at more
  · cases more
  · cases more
    rfl

theorem unknown_eq (tag : UnknownTag) : unknown tag.get = pure tag := by
  unfold unknown UnknownTag.new
  rw [dif_pos tag.unassigned]

theorem unknown_answered {tag : UInt8} {found : UnknownTag} {input rest : List UInt8}
    (answered : unknown tag input = .ok found rest) : found.get = tag := by
  unfold unknown at answered
  cases made : UnknownTag.new tag with
  | none =>
    rw [made] at answered
    cases answered
  | some unknown =>
    rw [made] at answered
    cases answered
    unfold UnknownTag.new at made
    split at made
    · cases made
      rfl
    · cases made

/-- An unknown tag is none the registry assigns. -/
theorem UnknownTag.ne (tag : UnknownTag) {assigned : UInt8}
    (known : Tag.isAssigned assigned = true) : tag.get ≠ assigned := by
  rintro rfl
  rw [tag.unassigned] at known
  cases known

namespace Downcall

/-- A request whose texts fit their fields. -/
def Fits : Downcall → Prop
  | run request => request.Fits
  | _ => True

/-- A downcall is read back from what it is written as. -/
theorem decode_of_encode {request : Downcall} (fits : request.Fits) :
    decode request.encode = .ok request := by
  cases request with
  | eval source => rfl
  | run request =>
    have body := Run.decode_of_encode fits
    unfold decode encode
    apply run_eq
    · rw [(readTag_reads (by decide)).last]
      show (liftDecode (Run.decode request.encode) >>= fun run => pure (Downcall.run run))
        request.encode = _
      rw [body]
      rfl
  | yield frame args =>
    rw [decode, encode, List.append_assoc]
    apply run_eq
    · rw [(readTag_reads (by decide)).last]
      show (readU32 >>= fun frame => remaining >>= fun args => pure (Downcall.yield frame args))
        (Writer.u32 frame ++ args) = _
      rw [(readU32_reads frame).last]
      rfl
  | compile => rfl
  | unknown tag body =>
    unfold decode encode
    apply run_eq
    · rw [(readTag_reads (tag.ne rfl)).last]
      unfold readBody
      rw [bind_eq (show remaining body = .ok body body from rfl), if_neg (tag.ne rfl),
        if_neg (tag.ne rfl), if_neg (tag.ne rfl), if_neg (tag.ne rfl), unknown_eq]
      rfl

/-- The bytes a downcall is read from are those it is written as. -/
theorem encode_decode {bytes : List UInt8} {request : Downcall}
    (decoded : decode bytes = .ok request) : request.encode = bytes := by
  obtain ⟨rest, answered⟩ := run_ok decoded
  obtain ⟨tag, body, tagged, more⟩ := bind_answered answered
  rw [readTag_exact _ _ _ tagged]
  unfold readBody at more
  rw [bind_eq (show remaining body = .ok body body from rfl)] at more
  split at more
  · rename_i eval
    cases more
    rw [eval]
    rfl
  · split at more
    · rename_i run
      obtain ⟨found, middle, nested, ended⟩ := bind_answered more
      cases ended
      obtain ⟨inner, -⟩ := liftDecode_answered nested
      rw [run, ← Run.encode_decode inner]
      rfl
    · split at more
      · rename_i yield
        obtain ⟨frame, middle, counted, ended⟩ := bind_answered more
        cases ended
        rw [yield, readU32_exact _ _ _ counted]
        simp [encode]
      · split at more
        · rename_i compile
          split at more
          · rename_i empty
            cases more
            rw [compile, List.isEmpty_iff.mp empty]
            rfl
          · cases more
        · obtain ⟨found, middle, unassigned, ended⟩ := bind_answered more
          cases ended
          rw [encode, unknown_answered unassigned]

end Downcall

namespace Upcall

/-- A request of the guest whose texts fit their fields. -/
def Fits : Upcall → Prop
  | call request => request.Fits
  | unknown _ _ => True

/-- A Call is addressed to no invalid Handle. -/
def Addressed : Upcall → Prop
  | call request => request.Addressed
  | unknown _ _ => True

/-- An upcall is read back from what it is written as. -/
theorem decode_of_encode {request : Upcall} (fits : request.Fits) (addressed : request.Addressed) :
    decode request.encode = .ok request := by
  cases request with
  | call request =>
    have body := Call.decode_of_encode fits addressed
    unfold decode encode
    apply run_eq
    · rw [(readTag_reads (by decide)).last]
      show (liftDecode (Call.decode request.encode) >>= fun call => pure (Upcall.call call))
        request.encode = _
      rw [body]
      rfl
  | unknown tag body =>
    unfold decode encode
    apply run_eq
    · rw [(readTag_reads (tag.ne rfl)).last]
      unfold readBody
      rw [bind_eq (show remaining body = .ok body body from rfl), if_neg (tag.ne rfl), unknown_eq]
      rfl

/-- The bytes an upcall is read from are those it is written as. -/
theorem encode_decode {bytes : List UInt8} {request : Upcall}
    (decoded : decode bytes = .ok request) : request.encode = bytes := by
  obtain ⟨rest, answered⟩ := run_ok decoded
  obtain ⟨tag, body, tagged, more⟩ := bind_answered answered
  rw [readTag_exact _ _ _ tagged]
  unfold readBody at more
  rw [bind_eq (show remaining body = .ok body body from rfl)] at more
  split at more
  · rename_i call
    obtain ⟨found, middle, nested, ended⟩ := bind_answered more
    cases ended
    obtain ⟨inner, -⟩ := liftDecode_answered nested
    rw [call, ← Call.encode_decode inner]
    rfl
  · obtain ⟨found, middle, unassigned, ended⟩ := bind_answered more
    cases ended
    rw [encode, unknown_answered unassigned]

end Upcall

/-! ## Answers -/

namespace Fault

/-- A fault whose message fits its field. -/
def Fits (fault : Fault) : Prop := TextFits fault.message

theorem fromTag_tag (kind : FaultKind) : FaultKind.fromTag kind.tag = kind := by
  cases kind <;> rfl

/-- A Fault is read back, to the end of its answer. -/
theorem read_write {fault : Fault} (fits : fault.Fits) : read fault.write = .ok fault [] := by
  unfold read write
  rw [(readU8_reads _).last, (readText_reads fits).whole, fromTag_tag]
  rfl

end Fault

namespace Unsupported

/-- A refusal whose message fits its field. -/
def Fits (refusal : Unsupported) : Prop := TextFits refusal.message

/-- A refusal is read back, to the end of its answer. -/
theorem read_body {refusal : Unsupported} (fits : refusal.Fits) :
    read (Writer.u8 0 ++ Writer.text refusal.message) = .ok refusal [] := by
  unfold read
  rw [(readU8_reads _).last, (readText_reads fits).whole]
  rfl

/-- Every answer spells the arm the same way, so each reads it alike. -/
theorem run_encode {α : Type} {body : UInt8 → Reader α} {arm : Unsupported → α}
    {refusal : Unsupported} (fits : refusal.Fits)
    (reads : body Tag.UNSUPPORTED = read >>= fun refusal => pure (arm refusal)) :
    run (readU8 >>= body) refusal.encode = .ok (arm refusal) := by
  rw [encode, List.append_assoc]
  apply run_eq
  · rw [(readU8_reads _).last, reads, bind_eq (read_body fits)]
    rfl

end Unsupported

namespace Reply

/-- An answer whose texts fit their fields. -/
def Fits : Reply → Prop
  | fault failure => failure.Fits
  | unsupported refusal => refusal.Fits
  | _ => True

/-- An arm whose bytes say all of it: what the method returned, or that a block exit unwound it. -/
def Settled : Reply → Prop
  | ok _ => True
  | brk => True
  | _ => False

theorem decode_of_encode {reply : Reply} (fits : reply.Fits) : decode reply.encode = .ok reply := by
  cases reply with
  | ok body => rfl
  | fault failure =>
    rw [decode, encode]
    apply run_eq
    · rw [(readU8_reads _).last]
      show (Fault.read >>= fun fault => pure (Reply.fault fault)) failure.write = _
      rw [bind_eq (Fault.read_write fits)]
      rfl
  | brk => rfl
  | unsupported refusal => exact Unsupported.run_encode fits rfl

theorem encode_decode {bytes : List UInt8} {reply : Reply} (decoded : decode bytes = .ok reply)
    (settled : reply.Settled) : reply.encode = bytes := by
  obtain ⟨rest, answered⟩ := run_ok decoded
  obtain ⟨tag, body, tagged, more⟩ := bind_answered answered
  rw [readU8_exact _ _ _ tagged]
  unfold readBody at more
  split at more
  · rename_i ok
    cases more
    rw [ok]
    rfl
  · split at more
    · obtain ⟨fault, middle, read, ended⟩ := bind_answered more
      cases ended
      cases settled
    · split at more
      · rename_i brk
        obtain ⟨_, middle, finished, ended⟩ := bind_answered more
        cases ended
        rw [brk, finish_answered finished]
        rfl
      · split at more
        · obtain ⟨refusal, middle, read, ended⟩ := bind_answered more
          cases ended
          cases settled
        · cases more

end Reply

namespace YieldReply

/-- A block's answer whose texts fit their fields. -/
def Fits : YieldReply → Prop
  | error record => record.Fits
  | unsupported refusal => refusal.Fits
  | _ => True

/-- An arm whose bytes say all of it: every one but the refusal. -/
def Settled : YieldReply → Prop
  | unsupported _ => False
  | _ => True

theorem decode_of_encode {reply : YieldReply} (fits : reply.Fits) :
    decode reply.encode = .ok reply := by
  cases reply with
  | ok body => rfl
  | brk => rfl
  | error record =>
    rw [decode, encode]
    apply run_eq
    · rw [(readU8_reads _).last]
      show (ErrorRecord.read >>= fun record => finish >>= fun _ => pure (YieldReply.error record))
        record.write = _
      rw [(ErrorRecord.read_reads fits).whole]
      rfl
  | unsupported refusal => exact Unsupported.run_encode fits rfl

theorem encode_decode {bytes : List UInt8} {reply : YieldReply}
    (decoded : decode bytes = .ok reply) (settled : reply.Settled) : reply.encode = bytes := by
  obtain ⟨rest, answered⟩ := run_ok decoded
  obtain ⟨tag, body, tagged, more⟩ := bind_answered answered
  rw [readU8_exact _ _ _ tagged]
  unfold readBody at more
  split at more
  · rename_i ok
    cases more
    rw [ok]
    rfl
  · split at more
    · rename_i brk
      obtain ⟨_, middle, finished, ended⟩ := bind_answered more
      cases ended
      rw [brk, finish_answered finished]
      rfl
    · split at more
      · rename_i error
        obtain ⟨record, middle, read, still⟩ := bind_answered more
        obtain ⟨_, last, finished, ended⟩ := bind_answered still
        cases ended
        rw [error, ErrorRecord.read_exact _ _ _ read, finish_answered finished, List.append_nil]
        rfl
      · split at more
        · obtain ⟨refusal, middle, read, ended⟩ := bind_answered more
          cases ended
          cases settled
        · cases more

end YieldReply

namespace CompileReply

/-- A compilation's answer whose bytecodes or record fit their fields. -/
def Fits : CompileReply → Prop
  | ok bytecodes => FitsU32 bytecodes.length ∧ ∀ bytecode ∈ bytecodes, FitsU32 bytecode.length
  | error record => record.Fits
  | unsupported refusal => refusal.Fits

theorem decode_of_encode {reply : CompileReply} (fits : reply.Fits) :
    decode reply.encode = .ok reply := by
  cases reply with
  | ok bytecodes =>
    rw [decode, encode]
    apply run_eq
    · rw [(readU8_reads _).last]
      show (readBytesList >>= fun bytecodes => finish >>= fun _ =>
        pure (CompileReply.ok bytecodes)) (Writer.list bytecodes) = _
      rw [(readBytesList_reads fits.1 fits.2).whole]
      rfl
  | error record =>
    rw [decode, encode]
    apply run_eq
    · rw [(readU8_reads _).last]
      show (ErrorRecord.read >>= fun record => finish >>= fun _ =>
        pure (CompileReply.error record)) record.write = _
      rw [(ErrorRecord.read_reads fits).whole]
      rfl
  | unsupported refusal => exact Unsupported.run_encode fits rfl

end CompileReply

namespace Outcome

/-- An outcome whose record fits its fields. -/
def Fits : Outcome → Prop
  | ok _ => True
  | panic failure => failure.error.Fits ∧ TextsFit failure.available
  | unsupported refusal => refusal.Fits

/-- The attribution a panic's bytes spell, right behind the tag. -/
def originText (bytes : List UInt8) : Except DecodeError String :=
  run (readU8 >>= fun _ => readText) bytes

variable {outcome : Outcome}

theorem decode_of_encode (fits : outcome.Fits) :
    decode outcome.encode = .ok outcome := by
  cases outcome with
  | ok value => rfl
  | panic failure =>
    obtain ⟨error, count, available⟩ := fits
    have named : TextFits failure.origin.name := by
      cases failure.origin <;> exact (by decide : 7 < 2 ^ 32)
    have attributed : Origin.fromName failure.origin.name = failure.origin := by
      cases failure.origin <;> rfl
    rw [decode, encode, List.append_assoc, List.append_assoc]
    apply run_eq
    · rw [(readU8_reads _).last]
      show readPanic (Writer.text failure.origin.name ++ (failure.error.write ++
        Writer.textList failure.available)) = _
      unfold readPanic
      rw [(readText_reads named).last, (ErrorRecord.read_reads error).last,
        (readTextList_reads count available).whole, attributed]
      rfl
  | unsupported refusal => exact Unsupported.run_encode fits rfl

/-- The fields a panic is read from. -/
theorem readPanic_answered {body rest : List UInt8} (answered : readPanic body = .ok outcome rest) :
    ∃ origin failure, outcome = .panic failure ∧ failure.origin = Origin.fromName origin ∧
      run readText body = .ok origin ∧
      body = Writer.text origin ++ failure.error.write ++ Writer.textList failure.available := by
  obtain ⟨origin, attributed, first, more⟩ := bind_answered answered
  obtain ⟨error, told, second, still⟩ := bind_answered more
  obtain ⟨available, named, third, left⟩ := bind_answered still
  obtain ⟨_, last, finished, ended⟩ := bind_answered left
  cases ended
  refine ⟨origin, ⟨Origin.fromName origin, error, available⟩, rfl, rfl, run_eq first, ?_⟩
  rw [readText_exact _ _ _ first, ErrorRecord.read_exact _ _ _ second,
    readTextList_exact _ _ _ third, finish_answered finished, List.append_nil, List.append_assoc]

/-- What an Outcome was read from, by the arm it took. -/
theorem decode_ok {bytes : List UInt8} (decoded : decode bytes = .ok outcome) :
    (∃ value, outcome = .ok value ∧ bytes = Writer.u8 Tag.OK ++ value) ∨
      (∃ origin failure, outcome = .panic failure ∧ failure.origin = Origin.fromName origin ∧
        originText bytes = .ok origin ∧ bytes = Writer.u8 Tag.PANIC ++
          (Writer.text origin ++ failure.error.write ++ Writer.textList failure.available)) ∨
      ∃ refusal, outcome = .unsupported refusal := by
  obtain ⟨rest, answered⟩ := run_ok decoded
  obtain ⟨tag, body, tagged, more⟩ := bind_answered answered
  rw [readU8_exact _ _ _ tagged]
  unfold readBody at more
  split at more
  · rename_i ok
    cases more
    exact .inl ⟨rest, rfl, by rw [ok]⟩
  · split at more
    · rename_i panic
      obtain ⟨origin, failure, same, attributed, named, spelled⟩ := readPanic_answered more
      exact .inr (.inl ⟨origin, failure, same, attributed, named, by rw [panic, spelled]⟩)
    · split at more
      · obtain ⟨refusal, middle, read, ended⟩ := bind_answered more
        cases ended
        exact .inr (.inr ⟨refusal, rfl⟩)
      · cases more

/-- The bytes a value is read from are those it is written as. -/
theorem encode_decode_ok {bytes value : List UInt8} (decoded : decode bytes = .ok (.ok value)) :
    (Outcome.ok value).encode = bytes := by
  obtain ⟨found, same, spelled⟩ | ⟨origin, failure, same, -⟩ | ⟨refusal, same⟩ := decode_ok decoded
  · cases same
    exact spelled.symm
  · cases same
  · cases same

/-- An attribution this side spells is read back as itself. -/
theorem name_fromName {text : String} (known : text = "sandbox" ∨ text = "service") :
    (Origin.fromName text).name = text := by
  rcases known with rfl | rfl
  · rfl
  · rfl

/-- The bytes a panic is read from are those it is written as, once they spell its attribution as
this side does. -/
theorem encode_decode_panic {bytes : List UInt8} {failure : Panic}
    (decoded : decode bytes = .ok (.panic failure))
    (known : originText bytes = .ok "sandbox" ∨ originText bytes = .ok "service") :
    (Outcome.panic failure).encode = bytes := by
  obtain ⟨found, same, -⟩ | ⟨origin, found, same, attributed, text, spelled⟩ | ⟨refusal, same⟩ :=
    decode_ok decoded
  · cases same
  · cases same
    have spells : origin = "sandbox" ∨ origin = "service" := by
      rw [text] at known
      exact known.imp Except.ok.inj Except.ok.inj
    rw [encode, attributed, name_fromName spells, spelled]
    simp only [List.append_assoc]
  · cases same

end Outcome

/-! ## The Preamble -/

namespace Snippet

/-- A snippet whose parts fit their fields. -/
def Fits : Snippet → Prop
  | source name body => TextFits name ∧ TextFits body
  | bytecode body => FitsU32 body.length

end Snippet

namespace Preamble

/-- Every text and byte string of a Preamble, and the count of each of its lists. -/
def Fits (preamble : Preamble) : Prop :=
  TextsFit preamble.bindings ∧
    (FitsU32 preamble.snippets.length ∧ ∀ snippet ∈ preamble.snippets, snippet.Fits) ∧
    FitsU32 preamble.flags.length ∧ ∀ flag ∈ preamble.flags, TextFits flag.name ∧ TextFits flag.value

/-- The records a Preamble is written as: their number, and the body of each. -/
def RecordsFit (preamble : Preamble) : Prop :=
  FitsU32 preamble.records.length ∧ ∀ record ∈ preamble.records, FitsU32 record.body.length

theorem readBindings_encode {paths : List String} (fits : TextsFit paths) :
    run readBindings (encodeBindings paths) = .ok paths := by
  apply run_eq
  · unfold readBindings encodeBindings
    rw [(readTextList_reads fits.1 fits.2).whole]
    rfl

theorem readSnippet_reads {snippet : Snippet} (fits : snippet.Fits) :
    Reads readSnippet (writeSnippet snippet) snippet := by
  cases snippet with
  | source name body =>
    rw [writeSnippet, List.append_assoc]
    apply (readU8_reads 0).bind
    exact (readText_reads fits.1).bind ((readText_reads fits.2).map rfl)
  | bytecode body => exact (readU8_reads 1).bind ((readBytes_reads fits).map rfl)

/-- An entry takes its kind and a length at least. -/
theorem five_le_writeSnippet (snippet : Snippet) : 5 ≤ (writeSnippet snippet).length := by
  cases snippet with
  | source name body =>
    have wide := four_le_bytes (strBytes name)
    simp only [writeSnippet, Writer.u8, Writer.text, List.length_append, List.length_singleton]
    omega
  | bytecode body =>
    have wide := four_le_bytes body
    simp only [writeSnippet, Writer.u8, List.length_append, List.length_singleton]
    omega

theorem readSnippets_encode {entries : List Snippet} (count : FitsU32 entries.length)
    (fits : ∀ snippet ∈ entries, snippet.Fits) :
    run readSnippets (encodeSnippets entries) = .ok entries := by
  have spelled : (UInt32.ofNat entries.length).toNat = entries.length :=
    UInt32.toNat_ofNat_of_lt' count
  have enough : ¬ entries.length > (entries.flatMap writeSnippet).length / 5 := by
    have bound := mul_le_length_flatMap fun snippet (_ : snippet ∈ entries) =>
      five_le_writeSnippet snippet
    omega
  have read : Reads (times readSnippet entries.length) (entries.flatMap writeSnippet) entries :=
    Reads.times fun snippet member => readSnippet_reads (fits snippet member)
  apply run_eq
  · unfold readSnippets encodeSnippets
    rw [(readU32_reads _).last,
      bind_eq (show remaining (entries.flatMap writeSnippet) = .ok _ _ from rfl), spelled,
      if_neg enough, read.whole]
    rfl

theorem readFlag_encode {flag : Flag} (fits : TextFits flag.name ∧ TextFits flag.value) :
    run (readFlag flag.critical) (encodeFlag flag) = .ok flag := by
  apply run_eq
  · unfold readFlag encodeFlag
    rw [(readText_reads fits.1).last, (readText_reads fits.2).whole]
    rfl

theorem readCritical_reads (critical : Bool) :
    Reads readCritical (Writer.u8 (if critical then 1 else 0)) critical := by
  cases critical with
  | false => exact (readU8_reads 0).map rfl
  | true => exact (readU8_reads 1).map rfl

/-- A record whose body fits is handed to what its kind does. -/
theorem readRecords_cons {record : Record} (fits : FitsU32 record.body.length) (count : Nat)
    (held : Read) (rest : List UInt8) :
    readRecords (count + 1) held (writeRecord record ++ rest) =
      (take held record.critical record.kind record.body >>= readRecords count) rest := by
  rw [writeRecord, List.append_assoc, List.append_assoc]
  unfold readRecords
  rw [(readCritical_reads record.critical).last, (readU8_reads record.kind).last,
    (readBytes_reads fits).last]

theorem take_bindings {paths : List String} (fits : TextsFit paths) (critical : Bool)
    (snippets : Option (List Snippet)) (flags : List Flag) :
    take ⟨none, snippets, flags⟩ critical Tag.BINDINGS (encodeBindings paths) =
      pure ⟨some paths, snippets, flags⟩ := by
  unfold take
  rw [if_pos rfl, readBindings_encode fits]
  rfl

theorem take_snippets {entries : List Snippet} (count : FitsU32 entries.length)
    (fits : ∀ snippet ∈ entries, snippet.Fits) (critical : Bool)
    (bindings : Option (List String)) (flags : List Flag) :
    take ⟨bindings, none, flags⟩ critical Tag.SNIPPETS (encodeSnippets entries) =
      pure ⟨bindings, some entries, flags⟩ := by
  unfold take
  rw [if_neg (by decide), if_pos rfl, readSnippets_encode count fits]
  rfl

theorem take_flag {flag : Flag} (fits : TextFits flag.name ∧ TextFits flag.value) (held : Read) :
    take held flag.critical Tag.FLAG (encodeFlag flag) =
      pure { held with flags := held.flags ++ [flag] } := by
  unfold take
  rw [if_neg (by decide), if_neg (by decide), if_pos rfl, readFlag_encode fits]
  rfl

/-- Taking records in order leads from what was read before them to what is read after. -/
def Leads : Read → List Record → Read → Prop
  | held, [], last => last = held
  | held, record :: records, last =>
    ∃ next, take held record.critical record.kind record.body = pure next ∧
      Leads next records last

theorem Leads.append {held middle last : Read} {front back : List Record}
    (start : Leads held front middle) (onward : Leads middle back last) :
    Leads held (front ++ back) last := by
  induction front generalizing held with
  | nil =>
    cases start
    exact onward
  | cons record front ih =>
    obtain ⟨next, taken, more⟩ := start
    exact ⟨next, taken, ih more⟩

/-- Records whose bodies fit are read to the end. -/
theorem readRecords_leads {held last : Read} {records : List Record}
    (bodies : ∀ record ∈ records, FitsU32 record.body.length) (leads : Leads held records last) :
    readRecords records.length held (records.flatMap writeRecord) = .ok last [] := by
  induction records generalizing held with
  | nil =>
    cases leads
    rfl
  | cons record records ih =>
    obtain ⟨first, others⟩ := List.forall_mem_cons.mp bodies
    obtain ⟨next, taken, more⟩ := leads
    rw [List.flatMap_cons, List.length_cons, readRecords_cons first, taken]
    exact ih others more

/-- Flags are taken in order, behind those taken already. -/
theorem leads_flags {flags : List Flag}
    (fits : ∀ flag ∈ flags, TextFits flag.name ∧ TextFits flag.value) (held : Read) :
    Leads held (flags.map fun flag => ⟨flag.critical, Tag.FLAG, encodeFlag flag⟩)
      { held with flags := held.flags ++ flags } := by
  induction flags generalizing held with
  | nil => simp [Leads]
  | cons flag flags ih =>
    obtain ⟨first, others⟩ := List.forall_mem_cons.mp fits
    have rest := ih others { held with flags := held.flags ++ [flag] }
    rw [List.append_assoc] at rest
    exact ⟨_, take_flag first held, rest⟩

variable {preamble : Preamble}

/-- The records a Preamble is written as lead to what it holds, an absent list read as empty. -/
theorem leads_records (fits : preamble.Fits) :
    ∃ bindings snippets, bindings.getD [] = preamble.bindings ∧
      snippets.getD [] = preamble.snippets ∧
      Leads ⟨none, none, []⟩ preamble.records ⟨bindings, snippets, preamble.flags⟩ := by
  obtain ⟨bound, ⟨count, entries⟩, -, flagged⟩ := fits
  have paths : ∃ bindings : Option (List String), bindings.getD [] = preamble.bindings ∧
      Leads ⟨none, none, []⟩ (if preamble.bindings.isEmpty then []
        else [⟨true, Tag.BINDINGS, encodeBindings preamble.bindings⟩]) ⟨bindings, none, []⟩ := by
    by_cases empty : preamble.bindings.isEmpty
    · rw [if_pos empty]
      exact ⟨none, (List.isEmpty_iff.mp empty).symm, rfl⟩
    · rw [if_neg empty]
      exact ⟨some preamble.bindings, rfl, _, take_bindings bound true none [], rfl⟩
  obtain ⟨bindings, sameBindings, first⟩ := paths
  have preloaded : ∃ snippets : Option (List Snippet), snippets.getD [] = preamble.snippets ∧
      Leads ⟨bindings, none, []⟩ (if preamble.snippets.isEmpty then []
        else [⟨true, Tag.SNIPPETS, encodeSnippets preamble.snippets⟩])
        ⟨bindings, snippets, []⟩ := by
    by_cases empty : preamble.snippets.isEmpty
    · rw [if_pos empty]
      exact ⟨none, (List.isEmpty_iff.mp empty).symm, rfl⟩
    · rw [if_neg empty]
      exact ⟨some preamble.snippets, rfl, _, take_snippets count entries true bindings [], rfl⟩
  obtain ⟨snippets, sameSnippets, second⟩ := preloaded
  exact ⟨bindings, snippets, sameBindings, sameSnippets,
    (first.append second).append (leads_flags flagged ⟨bindings, snippets, []⟩)⟩

/-- A record takes a byte at least. -/
theorem one_le_writeRecord (record : Record) : 1 ≤ (writeRecord record).length := by
  simp only [writeRecord, Writer.u8, List.length_append, List.length_singleton]
  omega

/-- Records that fit are decoded to what taking them in order leads to. -/
theorem decode_leads {records : List Record} {last : Read} (count : FitsU32 records.length)
    (bodies : ∀ record ∈ records, FitsU32 record.body.length)
    (leads : Leads ⟨none, none, []⟩ records last) :
    decode (Writer.u32 (UInt32.ofNat records.length) ++ records.flatMap writeRecord) =
      .ok ⟨last.bindings.getD [], last.snippets.getD [], last.flags⟩ := by
  have spelled : (UInt32.ofNat records.length).toNat = records.length :=
    UInt32.toNat_ofNat_of_lt' count
  have enough : ¬ records.length > (records.flatMap writeRecord).length := by
    have bound := mul_le_length_flatMap fun record (_ : record ∈ records) =>
      one_le_writeRecord record
    omega
  apply run_eq
  · unfold read
    rw [(readU32_reads _).last,
      bind_eq (show remaining (records.flatMap writeRecord) = .ok _ _ from rfl), spelled,
      if_neg enough, bind_eq (readRecords_leads bodies leads)]
    rfl

/-- A Preamble is read back from what it is written as, once its records fit. -/
theorem decode_of_encode (fits : preamble.Fits) (records : preamble.RecordsFit) :
    decode preamble.encode = .ok preamble := by
  obtain ⟨count, bodies⟩ := records
  obtain ⟨bindings, snippets, sameBindings, sameSnippets, leads⟩ := leads_records fits
  rw [encode, decode_leads count bodies leads, sameBindings, sameSnippets]

/-- A number of records that a `u32` spells as none leaves the records themselves over. -/
theorem decode_encode_wrapped (wraps : UInt32.ofNat preamble.records.length = 0)
    (some : preamble.records ≠ []) :
    decode preamble.encode = .error ⟨"Envelope carries bytes past its last field"⟩ := by
  have left : ∃ byte more, preamble.records.flatMap writeRecord = byte :: more := by
    cases listed : preamble.records with
    | nil => exact absurd listed some
    | cons record records =>
      rw [List.flatMap_cons, writeRecord, Writer.u8, Writer.u8]
      exact ⟨_, _, rfl⟩
  obtain ⟨byte, more, spelled⟩ := left
  unfold decode encode run read
  rw [wraps, spelled, (readU32_reads 0).last]
  rfl

/-- One bound path and `2 ^ 32 - 1` flags, each text and each list within a `u32`, are written as
`2 ^ 32` records: the count is spelled as none, and the Preamble is refused. -/
theorem decode_encode_flags :
    (⟨["K"], [], List.replicate (2 ^ 32 - 1) ⟨"f", "", false⟩⟩ : Preamble).Fits ∧
      decode (⟨["K"], [], List.replicate (2 ^ 32 - 1) ⟨"f", "", false⟩⟩ : Preamble).encode =
        .error ⟨"Envelope carries bytes past its last field"⟩ := by
  have flagged : ∀ flag ∈ List.replicate (2 ^ 32 - 1) (⟨"f", "", false⟩ : Flag),
      TextFits flag.name ∧ TextFits flag.value := by
    intro flag member
    rw [List.eq_of_mem_replicate member]
    exact ⟨(by decide : 1 < 2 ^ 32), (by decide : 0 < 2 ^ 32)⟩
  have length : (List.replicate (2 ^ 32 - 1) (⟨"f", "", false⟩ : Flag)).length = 2 ^ 32 - 1 :=
    List.length_replicate
  generalize List.replicate (2 ^ 32 - 1) (⟨"f", "", false⟩ : Flag) = flags at flagged length ⊢
  have records : (⟨["K"], [], flags⟩ : Preamble).records.length = 2 ^ 32 := by
    simp only [Preamble.records, List.length_append, List.length_map, length]
    rfl
  refine ⟨⟨⟨(by decide : 1 < 2 ^ 32), ?_⟩, ⟨(by decide : 0 < 2 ^ 32), nofun⟩, ?_, flagged⟩, ?_⟩
  · intro path member
    rw [List.mem_singleton.mp member]
    exact (by decide : 1 < 2 ^ 32)
  · show flags.length < 2 ^ 32
    rw [length]
    decide
  · apply decode_encode_wrapped
    · rw [records]
      rfl
    · apply List.ne_nil_of_length_pos
      rw [records]
      decide

end Preamble

/-! ## The Envelope as a whole -/

/-- Every message whose lengths and counts fit is read back, a Preamble's records among them, and
the bytes a request, a returned value, a block exit, a block's failure, an invocation's value or a
panic with a known attribution is read from are the ones it is written as. -/
theorem messages_biject :
    (∀ request : Downcall, request.Fits → Downcall.decode request.encode = .ok request) ∧
    (∀ request : Upcall, request.Fits → request.Addressed →
      Upcall.decode request.encode = .ok request) ∧
    (∀ reply : Reply, reply.Fits → Reply.decode reply.encode = .ok reply) ∧
    (∀ reply : YieldReply, reply.Fits → YieldReply.decode reply.encode = .ok reply) ∧
    (∀ reply : CompileReply, reply.Fits → CompileReply.decode reply.encode = .ok reply) ∧
    (∀ outcome : Outcome, outcome.Fits → Outcome.decode outcome.encode = .ok outcome) ∧
    (∀ preamble : Preamble, preamble.Fits → preamble.RecordsFit →
      Preamble.decode preamble.encode = .ok preamble) ∧
    (∀ bytes request, Downcall.decode bytes = .ok request → request.encode = bytes) ∧
    (∀ bytes request, Upcall.decode bytes = .ok request → request.encode = bytes) ∧
    (∀ bytes reply, Reply.decode bytes = .ok reply → reply.Settled → reply.encode = bytes) ∧
    (∀ bytes reply, YieldReply.decode bytes = .ok reply → reply.Settled →
      reply.encode = bytes) ∧
    (∀ bytes value, Outcome.decode bytes = .ok (.ok value) →
      (Outcome.ok value).encode = bytes) ∧
    (∀ bytes failure, Outcome.decode bytes = .ok (.panic failure) →
      Outcome.originText bytes = .ok "sandbox" ∨ Outcome.originText bytes = .ok "service" →
        (Outcome.panic failure).encode = bytes) :=
  ⟨fun _ => Downcall.decode_of_encode, fun _ => Upcall.decode_of_encode, fun _ => Reply.decode_of_encode,
    fun _ => YieldReply.decode_of_encode, fun _ => CompileReply.decode_of_encode,
    fun _ => Outcome.decode_of_encode, fun _ => Preamble.decode_of_encode,
    fun _ _ => Downcall.encode_decode, fun _ _ => Upcall.encode_decode,
    fun _ _ => Reply.encode_decode, fun _ _ => YieldReply.encode_decode,
    fun _ _ => Outcome.encode_decode_ok, fun _ _ => Outcome.encode_decode_panic⟩

/-- A Call with a block, addressed to a Handle, and back. -/
theorem messages_biject_call :
    Upcall.decode (Upcall.call ⟨.handle 7, "m", true, [0x90]⟩).encode =
        .ok (.call ⟨.handle 7, "m", true, [0x90]⟩) ∧
      (Upcall.call ⟨.handle 7, "m", true, [0x90]⟩).encode =
        [0x04, 1, 0, 0, 0, 7, 0, 0, 0, 1, 0x6d, 1, 0x90] := by
  have fits : (Upcall.call ⟨.handle 7, "m", true, [0x90]⟩).Fits :=
    ⟨nofun, (by decide : 1 < 2 ^ 32)⟩
  have addressed : (Upcall.call ⟨.handle 7, "m", true, [0x90]⟩).Addressed := by
    show Target.handle 7 ≠ .handle 0
    decide
  exact ⟨messages_biject.2.1 _ fits addressed, by decide⟩

end Kobako.Envelope
