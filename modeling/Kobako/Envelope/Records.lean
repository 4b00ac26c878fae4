import Kobako.Envelope.RoundTrip
import Mathlib.Data.List.Perm.Basic

/-!
# Records of a Preamble

What `Preamble::decode` makes of a list of records, told without their order: each record must be
readable on its own, the bindings and the snippets they carry are one list each at most, and the
flags are those they carry, in order. Later kinds joining the list, and records trading places,
are read off that.
-/

namespace Kobako.Envelope.Preamble

open Reader

/-! ## Records and their bytes -/

/-- A record a message can carry: a `u32` spells the length of its body. -/
structure FramedRecord extends Record where
  fits : FitsU32 body.length

/-- The bytes of a Preamble of these records: their number as a `u32`, then each in turn. -/
def frame (records : List FramedRecord) : List UInt8 :=
  Writer.u32 (UInt32.ofNat records.length) ++ records.flatMap fun record => writeRecord record.toRecord

namespace Record

/-- A record of kind `tag::FLAG`. -/
def isFlag (record : Record) : Bool := record.kind = Tag.FLAG

/-- An advisory record of a kind the registry has not assigned. -/
def Skippable (record : Record) : Prop :=
  record.critical = false ∧ Tag.isAssigned record.kind = false

/-- A critical record of a kind the registry has not assigned. -/
def Unknown (record : Record) : Prop :=
  record.critical = true ∧ Tag.isAssigned record.kind = false

/-- A record of a kind the registry assigns to another message. -/
def Foreign (record : Record) : Prop :=
  Tag.isAssigned record.kind = true ∧ record.kind ≠ Tag.BINDINGS ∧ record.kind ≠ Tag.SNIPPETS ∧
    record.kind ≠ Tag.FLAG

/-- The paths a record binds. -/
def bindings (record : Record) : Option (List String) :=
  if record.kind = Tag.BINDINGS then (run readBindings record.body).toOption else none

/-- The snippets a record preloads. -/
def snippets (record : Record) : Option (List Snippet) :=
  if record.kind = Tag.SNIPPETS then (run readSnippets record.body).toOption else none

/-- The flag a record sets. -/
def flag (record : Record) : Option Flag :=
  if record.kind = Tag.FLAG then (run (readFlag record.critical) record.body).toOption else none

end Record

/-! ## One record -/

/-- What taking a record can do to what was read before it. -/
inductive Taken : Read → Record → Read → Prop where
  | bindings {held : Read} {record : Record} {paths : List String} (empty : held.bindings = none)
      (carried : record.bindings = some paths) :
      Taken held record { held with bindings := some paths }
  | snippets {held : Read} {record : Record} {entries : List Snippet}
      (empty : held.snippets = none) (carried : record.snippets = some entries) :
      Taken held record { held with snippets := some entries }
  | flag {held : Read} {record : Record} {flag : Flag} (carried : record.flag = some flag) :
      Taken held record { held with flags := held.flags ++ [flag] }
  | skipped {held : Read} {record : Record} (skippable : record.Skippable) :
      Taken held record held

variable {input rest : List UInt8} {held next : Read} {record : Record}

/-- A sub-message that is read leaves the message around it where it was. -/
theorem liftDecode_answered {α : Type} {result : Except DecodeError α} {a : α}
    (answered : liftDecode result input = .ok a rest) :
    result = .ok a ∧ rest = input := by
  cases result with
  | error e => cases answered
  | ok found =>
    cases answered
    exact ⟨rfl, rfl⟩

theorem once_answered {α : Type} {slot next : Option α} {value : α}
    (answered : once slot value input = .ok next rest) :
    slot = none ∧ next = some value ∧ rest = input := by
  cases slot with
  | none =>
    cases answered
    exact ⟨rfl, rfl, rfl⟩
  | some _ => cases answered

/-- What `take` answers is one of the four things taking a record does. -/
theorem take_answered
    (answered : take held record.critical record.kind record.body input = .ok next rest) :
    Taken held record next ∧ rest = input := by
  unfold take at answered
  split at answered
  · rename_i kind
    obtain ⟨paths, middle, read, more⟩ := bind_answered answered
    obtain ⟨slot, last, kept, ended⟩ := bind_answered more
    obtain ⟨decoded, rfl⟩ := liftDecode_answered read
    obtain ⟨empty, rfl, rfl⟩ := once_answered kept
    cases ended
    have carried : record.bindings = some paths := by
      rw [Record.bindings, if_pos kind, decoded]
      rfl
    exact ⟨.bindings empty carried, rfl⟩
  · split at answered
    · rename_i kind
      obtain ⟨entries, middle, read, more⟩ := bind_answered answered
      obtain ⟨slot, last, kept, ended⟩ := bind_answered more
      obtain ⟨decoded, rfl⟩ := liftDecode_answered read
      obtain ⟨empty, rfl, rfl⟩ := once_answered kept
      cases ended
      have carried : record.snippets = some entries := by
        rw [Record.snippets, if_pos kind, decoded]
        rfl
      exact ⟨.snippets empty carried, rfl⟩
    · split at answered
      · rename_i kind
        obtain ⟨flag, middle, read, ended⟩ := bind_answered answered
        obtain ⟨decoded, rfl⟩ := liftDecode_answered read
        cases ended
        have carried : record.flag = some flag := by
          rw [Record.flag, if_pos kind, decoded]
          rfl
        exact ⟨.flag carried, rfl⟩
      · split at answered
        · cases answered
        · rename_i unassigned
          split at answered
          · cases answered
          · rename_i advisory
            cases answered
            exact ⟨.skipped ⟨Bool.not_eq_true _ ▸ advisory, Bool.not_eq_true _ ▸ unassigned⟩, rfl⟩

/-- An answer read off an `Except` was in it. -/
theorem eq_ok_of_toOption {ε α : Type} {result : Except ε α} {a : α}
    (read : result.toOption = some a) : result = .ok a := by
  cases result with
  | error e => cases read
  | ok found =>
    cases read
    rfl

theorem Record.bindings_some {paths : List String} (carried : record.bindings = some paths) :
    record.kind = Tag.BINDINGS ∧ run readBindings record.body = .ok paths := by
  unfold Record.bindings at carried
  split at carried
  · rename_i kind
    exact ⟨kind, eq_ok_of_toOption carried⟩
  · cases carried

theorem Record.snippets_some {entries : List Snippet} (carried : record.snippets = some entries) :
    record.kind = Tag.SNIPPETS ∧ run readSnippets record.body = .ok entries := by
  unfold Record.snippets at carried
  split at carried
  · rename_i kind
    exact ⟨kind, eq_ok_of_toOption carried⟩
  · cases carried

theorem Record.flag_some {flag : Flag} (carried : record.flag = some flag) :
    record.kind = Tag.FLAG ∧ run (readFlag record.critical) record.body = .ok flag := by
  unfold Record.flag at carried
  split at carried
  · rename_i kind
    exact ⟨kind, eq_ok_of_toOption carried⟩
  · cases carried

/-- A kind the registry has not assigned is none of the three a Preamble reads. -/
theorem unassigned_ne {kind : UInt8} (unassigned : Tag.isAssigned kind = false) :
    kind ≠ Tag.BINDINGS ∧ kind ≠ Tag.SNIPPETS ∧ kind ≠ Tag.FLAG := by
  refine ⟨?_, ?_, ?_⟩ <;>
  · rintro rfl
    exact absurd unassigned (by decide)

/-- `take` answers each of the four. -/
theorem Taken.take_eq (taken : Taken held record next) :
    take held record.critical record.kind record.body = pure next := by
  cases taken with
  | bindings empty carried =>
    obtain ⟨kind, decoded⟩ := Record.bindings_some carried
    unfold take
    rw [if_pos kind, decoded, empty]
    rfl
  | snippets empty carried =>
    obtain ⟨kind, decoded⟩ := Record.snippets_some carried
    unfold take
    rw [if_neg (by rw [kind]; decide), if_pos kind, decoded, empty]
    rfl
  | flag carried =>
    obtain ⟨kind, decoded⟩ := Record.flag_some carried
    unfold take
    rw [if_neg (by rw [kind]; decide), if_neg (by rw [kind]; decide), if_pos kind, decoded]
    rfl
  | skipped skippable =>
    obtain ⟨advisory, unassigned⟩ := skippable
    obtain ⟨notBindings, notSnippets, notFlag⟩ := unassigned_ne unassigned
    unfold take
    rw [if_neg notBindings, if_neg notSnippets, if_neg notFlag, unassigned, advisory]
    rfl

/-! ## Records in a row -/

/-- A record one of the four things can be done with. -/
def Record.Readable (record : Record) : Prop :=
  record.bindings.isSome ∨ record.snippets.isSome ∨ record.flag.isSome ∨ record.Skippable

/-- What records carry of one sort, in order. -/
def carried {α : Type} (of : Record → Option α) (records : List Record) : List α :=
  records.flatMap fun record => (of record).toList

/-- What records add to what was read before them: the bindings and the snippets they carry fill
slots of one value at most, the flags are added in order. -/
structure Adds (held : Read) (records : List Record) (last : Read) : Prop where
  readable : ∀ record ∈ records, record.Readable
  bindings : last.bindings.toList = held.bindings.toList ++ carried Record.bindings records
  snippets : last.snippets.toList = held.snippets.toList ++ carried Record.snippets records
  flags : last.flags = held.flags ++ carried Record.flag records

/-- A record of one kind carries nothing of another. -/
theorem Record.bindings_none (other : record.kind ≠ Tag.BINDINGS) :
    record.bindings = none := if_neg other

theorem Record.snippets_none (other : record.kind ≠ Tag.SNIPPETS) :
    record.snippets = none := if_neg other

theorem Record.flag_none (other : record.kind ≠ Tag.FLAG) :
    record.flag = none := if_neg other

/-- What one taken record adds, in each of the three places. -/
theorem Taken.adds (taken : Taken held record next) :
    record.Readable ∧
      next.bindings.toList = held.bindings.toList ++ record.bindings.toList ∧
      next.snippets.toList = held.snippets.toList ++ record.snippets.toList ∧
      next.flags = held.flags ++ record.flag.toList := by
  cases taken with
  | bindings empty carried =>
    obtain ⟨kind, -⟩ := Record.bindings_some carried
    have noSnippets : record.snippets = none := Record.snippets_none (by rw [kind]; decide)
    have noFlag : record.flag = none := Record.flag_none (by rw [kind]; decide)
    simp [Record.Readable, empty, carried, noSnippets, noFlag]
  | snippets empty carried =>
    obtain ⟨kind, -⟩ := Record.snippets_some carried
    have noBindings : record.bindings = none := Record.bindings_none (by rw [kind]; decide)
    have noFlag : record.flag = none := Record.flag_none (by rw [kind]; decide)
    simp [Record.Readable, empty, carried, noBindings, noFlag]
  | flag carried =>
    obtain ⟨kind, -⟩ := Record.flag_some carried
    have noBindings : record.bindings = none := Record.bindings_none (by rw [kind]; decide)
    have noSnippets : record.snippets = none := Record.snippets_none (by rw [kind]; decide)
    simp [Record.Readable, carried, noBindings, noSnippets]
  | skipped skippable =>
    obtain ⟨notBindings, notSnippets, notFlag⟩ := unassigned_ne skippable.2
    simp [Record.Readable, skippable, Record.bindings_none notBindings,
      Record.snippets_none notSnippets, Record.flag_none notFlag]

/-- Slots that hold the same are the same. -/
theorem slot_eq {α : Type} {one other : Option α} (same : one.toList = other.toList) :
    one = other := by
  cases one with
  | none =>
    cases other with
    | none => rfl
    | some b => cases same
  | some a =>
    cases other with
    | none => cases same
    | some b =>
      cases same
      rfl

/-- A slot of one value at most that is to hold one more was empty. -/
theorem slot_empty {α : Type} {slot last : Option α} {value : α} {more : List α}
    (filled : last.toList = slot.toList ++ value :: more) : slot = none := by
  have length := congrArg List.length filled
  cases slot with
  | none => rfl
  | some held =>
    cases last with
    | none => cases length
    | some found => simp at length

/-- Whatever is readable is taken, once the slot it fills is empty. -/
theorem Record.Readable.taken {held : Read} (readable : record.Readable)
    (oneBindings : ∀ paths, record.bindings = some paths → held.bindings = none)
    (oneSnippets : ∀ entries, record.snippets = some entries → held.snippets = none) :
    ∃ next, Taken held record next := by
  rcases readable with carried | carried | carried | skippable
  · obtain ⟨paths, same⟩ := Option.isSome_iff_exists.mp carried
    exact ⟨_, .bindings (oneBindings paths same) same⟩
  · obtain ⟨entries, same⟩ := Option.isSome_iff_exists.mp carried
    exact ⟨_, .snippets (oneSnippets entries same) same⟩
  · obtain ⟨flag, same⟩ := Option.isSome_iff_exists.mp carried
    exact ⟨_, .flag same⟩
  · exact ⟨held, .skipped skippable⟩

/-- Taking records in order adds what they carry, and records that add are taken. -/
theorem leads_iff {held last : Read} {records : List Record} :
    Leads held records last ↔ Adds held records last := by
  induction records generalizing held with
  | nil =>
    constructor
    · rintro rfl
      exact ⟨nofun, (List.append_nil _).symm, (List.append_nil _).symm, (List.append_nil _).symm⟩
    · rintro ⟨-, bindings, snippets, flags⟩
      simp only [carried, List.flatMap_nil, List.append_nil] at bindings snippets flags
      have sameBindings : last.bindings = held.bindings := slot_eq bindings
      have sameSnippets : last.snippets = held.snippets := slot_eq snippets
      cases last
      cases held
      simp_all [Leads]
  | cons record records ih =>
    simp only [Leads, ih]
    constructor
    · rintro ⟨next, answered, adds⟩
      have answers : take held record.critical record.kind record.body [] = .ok next [] := by
        rw [answered]
        rfl
      obtain ⟨taken, -⟩ := take_answered answers
      obtain ⟨readable, bindings, snippets, flags⟩ := taken.adds
      refine ⟨List.forall_mem_cons.mpr ⟨readable, adds.readable⟩, ?_, ?_, ?_⟩
      · rw [adds.bindings, bindings, carried, carried, List.flatMap_cons, List.append_assoc]
      · rw [adds.snippets, snippets, carried, carried, List.flatMap_cons, List.append_assoc]
      · rw [adds.flags, flags, carried, carried, List.flatMap_cons, List.append_assoc]
    · rintro ⟨readable, bindings, snippets, flags⟩
      simp only [carried, List.flatMap_cons] at bindings snippets flags
      obtain ⟨first, others⟩ := List.forall_mem_cons.mp readable
      have taking : ∃ next, Taken held record next := by
        apply first.taken
        · intro paths same
          rw [same] at bindings
          exact slot_empty bindings
        · intro entries same
          rw [same] at snippets
          exact slot_empty snippets
      obtain ⟨next, taken⟩ := taking
      obtain ⟨-, nextBindings, nextSnippets, nextFlags⟩ := taken.adds
      refine ⟨next, taken.take_eq, others, ?_, ?_, ?_⟩
      · rw [bindings, nextBindings, carried, List.append_assoc]
      · rw [snippets, nextSnippets, carried, List.append_assoc]
      · rw [flags, nextFlags, carried, List.append_assoc]

/-! ## The whole message -/

/-- Nothing read yet. -/
def Read.empty : Read := ⟨none, none, []⟩

/-- The Preamble made of what was read, an absent list read as empty. -/
def Read.preamble (held : Read) : Preamble :=
  ⟨held.bindings.getD [], held.snippets.getD [], held.flags⟩

/-- The records of a framed list. -/
def plain (records : List FramedRecord) : List Record := records.map FramedRecord.toRecord

/-- The records of a framed list, written in turn. -/
def spell (records : List FramedRecord) : List UInt8 :=
  records.flatMap fun record => writeRecord record.toRecord

theorem readCritical_answered {critical : Bool}
    (answered : readCritical input = .ok critical rest) :
    input = Writer.u8 (if critical then 1 else 0) ++ rest := by
  obtain ⟨byte, middle, read, more⟩ := bind_answered answered
  rw [readU8_exact _ _ _ read]
  split at more
  · rename_i advisory
    cases more
    rw [advisory]
    rfl
  · split at more
    · rename_i told
      cases more
      rw [told]
      rfl
    · cases more

/-- The records read were written in turn, and taken in turn. -/
theorem readRecords_answered {count : Nat} {held last : Read}
    (answered : readRecords count held input = .ok last rest) :
    ∃ records : List FramedRecord, records.length = count ∧ input = spell records ++ rest ∧
      Leads held (plain records) last := by
  induction count generalizing held input with
  | zero =>
    cases answered
    exact ⟨[], rfl, rfl, rfl⟩
  | succ count ih =>
    obtain ⟨critical, afterCritical, first, more⟩ := bind_answered answered
    obtain ⟨kind, afterKind, second, still⟩ := bind_answered more
    obtain ⟨body, afterBody, third, left⟩ := bind_answered still
    obtain ⟨next, afterTake, taken, onward⟩ := bind_answered left
    obtain ⟨records, length, spelled, leads⟩ := ih onward
    obtain ⟨does, same⟩ := take_answered (show take held (Record.mk critical kind body).critical
      (Record.mk critical kind body).kind (Record.mk critical kind body).body afterBody = _ from taken)
    have fits : FitsU32 body.length := by
      obtain ⟨len, middle, counted, read⟩ := bind_answered third
      rw [take_length read]
      exact len.toNat_lt
    refine ⟨⟨⟨critical, kind, body⟩, fits⟩ :: records, by rw [List.length_cons, length], ?_, next,
      does.take_eq, leads⟩
    rw [readCritical_answered first, readU8_exact _ _ _ second, readBytes_exact _ _ _ third, ← same,
      spelled, spell, spell, List.flatMap_cons, writeRecord]
    simp only [List.append_assoc]

/-- The fields of a Preamble, once its count is within the bytes left. -/
theorem read_answered {preamble : Preamble} {bytes rest : List UInt8}
    (answered : read bytes = .ok preamble rest) :
    ∃ count left last, readU32 bytes = .ok count left ∧
      readRecords count.toNat Read.empty left = .ok last [] ∧ preamble = last.preamble := by
  obtain ⟨count, left, counted, more⟩ := bind_answered answered
  change (if count.toNat > left.length then _ else _ : Reader Preamble) left = _ at more
  split at more
  · cases more
  · obtain ⟨last, after, records, still⟩ := bind_answered more
    obtain ⟨_, ended, finished, told⟩ := bind_answered still
    cases told
    rw [finish_answered finished] at records
    exact ⟨count, left, last, counted, records, rfl⟩

/-- Whatever is decoded was a frame of records. -/
theorem decode_answered {preamble : Preamble} {bytes : List UInt8}
    (decoded : decode bytes = .ok preamble) :
    ∃ records : List FramedRecord, FitsU32 records.length ∧ bytes = frame records := by
  obtain ⟨rest, answered⟩ := run_ok decoded
  obtain ⟨count, left, last, counted, records, -⟩ := read_answered answered
  obtain ⟨found, length, spelled, -⟩ := readRecords_answered records
  have fits : FitsU32 found.length := by
    rw [length]
    exact count.toNat_lt
  refine ⟨found, fits, ?_⟩
  rw [readU32_exact _ _ _ counted, spelled, frame, length, UInt32.ofNat_toNat, List.append_nil]
  rfl

/-- Framed records are read one after another, as many as are asked for. -/
theorem readRecords_spell {count : Nat} {records : List FramedRecord} {held last : Read}
    {rest : List UInt8} (within : count ≤ records.length)
    (answered : readRecords count held (spell records) = .ok last rest) :
    Leads held (plain (records.take count)) last ∧ rest = spell (records.drop count) := by
  induction count generalizing held records with
  | zero =>
    cases answered
    exact ⟨rfl, rfl⟩
  | succ count ih =>
    cases records with
    | nil => cases within
    | cons record records =>
      rw [spell, List.flatMap_cons, readRecords_cons record.fits] at answered
      obtain ⟨next, after, taken, more⟩ := bind_answered answered
      obtain ⟨does, rfl⟩ := take_answered taken
      obtain ⟨leads, left⟩ := ih (Nat.le_of_succ_le_succ within) more
      exact ⟨⟨next, does.take_eq, leads⟩, left⟩

/-- Nothing is spelled by no record only. -/
theorem spell_eq_nil {records : List FramedRecord} (nothing : spell records = []) :
    records = [] := by
  cases records with
  | nil => rfl
  | cons record records => cases nothing

/-- What `Preamble::decode` makes of a list of records. -/
theorem decode_frame {records : List FramedRecord} {preamble : Preamble} :
    decode (frame records) = .ok preamble ↔
      FitsU32 records.length ∧
        ∃ last, Adds Read.empty (plain records) last ∧ preamble = last.preamble := by
  constructor
  · intro decoded
    obtain ⟨rest, answered⟩ := run_ok decoded
    obtain ⟨count, left, last, counted, read, told⟩ := read_answered answered
    rw [frame, readU32_reads] at counted
    obtain ⟨rfl, rfl⟩ : UInt32.ofNat records.length = count ∧ spell records = left := by
      cases counted
      exact ⟨rfl, rfl⟩
    have within : (UInt32.ofNat records.length).toNat ≤ records.length := by
      rw [UInt32.toNat_ofNat']
      exact Nat.mod_le _ _
    obtain ⟨leads, nothing⟩ := readRecords_spell within read
    have all : records.length ≤ (UInt32.ofNat records.length).toNat :=
      List.drop_eq_nil_iff.mp (spell_eq_nil nothing.symm)
    rw [List.take_of_length_le all] at leads
    exact ⟨Nat.lt_of_le_of_lt all (UInt32.toNat_lt _), last, leads_iff.mp leads, told⟩
  · rintro ⟨fits, last, adds, rfl⟩
    have leads : Leads Read.empty (plain records) last := leads_iff.mpr adds
    have count : FitsU32 (plain records).length := by
      rw [plain, List.length_map]
      exact fits
    have bodies : ∀ record ∈ plain records, FitsU32 record.body.length := by
      intro record member
      obtain ⟨framed, -, rfl⟩ := List.mem_map.mp member
      exact framed.fits
    have decoded := decode_leads count bodies leads
    rw [plain, List.length_map, List.flatMap_map] at decoded
    exact decoded

/-! ## Records of kinds to come -/

/-- A slot holds one value at most, so there is one order to list what it holds. -/
theorem perm_slot {α : Type} {slot : Option α} {values : List α} (same : values.Perm slot.toList) :
    values = slot.toList := by
  cases slot with
  | none => exact List.perm_nil.mp same
  | some value => exact List.perm_singleton.mp same

/-- Records that carry nothing of a sort add nothing of it, in whatever order. -/
theorem carried_perm {α : Type} {of : Record → Option α} {records more extras : List Record}
    (nothing : ∀ record ∈ extras, of record = none) (same : more.Perm (records ++ extras)) :
    (carried of more).Perm (carried of records) := by
  have none_of : carried of extras = [] := by
    apply List.flatMap_eq_nil_iff.mpr
    intro record member
    rw [nothing record member]
    rfl
  have moved := List.Perm.flatMap_right (fun record => (of record).toList) same
  rw [List.flatMap_append] at moved
  change (carried of more).Perm (carried of records ++ carried of extras) at moved
  rw [none_of, List.append_nil] at moved
  exact moved

/-- The flags of records are those of the flag records among them. -/
theorem carried_flag_filter (records : List Record) :
    carried Record.flag (records.filter Record.isFlag) = carried Record.flag records := by
  induction records with
  | nil => rfl
  | cons record records ih =>
    by_cases flag : record.isFlag
    · rw [List.filter_cons_of_pos flag, carried, carried, List.flatMap_cons, List.flatMap_cons]
      exact congrArg _ ih
    · have other : record.kind ≠ Tag.FLAG := by
        intro same
        exact flag (decide_eq_true same)
      rw [List.filter_cons_of_neg flag, ih, carried, carried, List.flatMap_cons,
        Record.flag_none other]
      rfl

/-- Records in any order, with any that are skipped among them, add the same as long as the flags
keep their order. -/
theorem Adds.perm {records more extras : List Record} {last : Read}
    (adds : Adds Read.empty records last) (skipped : ∀ record ∈ extras, record.Skippable)
    (same : more.Perm (records ++ extras))
    (flags : more.filter Record.isFlag = records.filter Record.isFlag) :
    Adds Read.empty more last := by
  have readable : ∀ record ∈ more, record.Readable := by
    intro record member
    rcases List.mem_append.mp (same.mem_iff.mp member) with inRecords | inExtras
    · exact adds.readable record inRecords
    · exact .inr (.inr (.inr (skipped record inExtras)))
  have bindings : carried Record.bindings more = last.bindings.toList := by
    apply perm_slot
    rw [adds.bindings]
    apply carried_perm _ same
    intro record member
    exact Record.bindings_none (unassigned_ne (skipped record member).2).1
  have snippets : carried Record.snippets more = last.snippets.toList := by
    apply perm_slot
    rw [adds.snippets]
    apply carried_perm _ same
    intro record member
    exact Record.snippets_none (unassigned_ne (skipped record member).2).2.1
  have ordered : carried Record.flag more = last.flags := by
    rw [adds.flags, ← carried_flag_filter more, flags, carried_flag_filter]
    rfl
  exact ⟨readable, bindings.symm, snippets.symm, ordered.symm⟩

/-- A record no reader of this contract takes, or takes twice. -/
def Record.Intrudes (record : Record) (records : List Record) : Prop :=
  record.Unknown ∨ record.Foreign ∨
    (record.kind = Tag.BINDINGS ∧ ∃ other ∈ records, other.kind = Tag.BINDINGS) ∨
    (record.kind = Tag.SNIPPETS ∧ ∃ other ∈ records, other.kind = Tag.SNIPPETS)

/-- A readable record is skipped, or of a kind the Preamble reads. -/
theorem Record.Readable.known (readable : record.Readable) :
    (record.kind = Tag.BINDINGS ∧ ∃ paths, record.bindings = some paths) ∨
      (record.kind = Tag.SNIPPETS ∧ ∃ entries, record.snippets = some entries) ∨
      record.kind = Tag.FLAG ∨ record.Skippable := by
  rcases readable with carried | carried | carried | skippable
  · obtain ⟨paths, same⟩ := Option.isSome_iff_exists.mp carried
    exact .inl ⟨(Record.bindings_some same).1, paths, same⟩
  · obtain ⟨entries, same⟩ := Option.isSome_iff_exists.mp carried
    exact .inr (.inl ⟨(Record.snippets_some same).1, entries, same⟩)
  · obtain ⟨flag, same⟩ := Option.isSome_iff_exists.mp carried
    exact .inr (.inr (.inl (Record.flag_some same).1))
  · exact .inr (.inr (.inr skippable))

theorem Record.Readable.carries_bindings (readable : record.Readable)
    (kind : record.kind = Tag.BINDINGS) : ∃ paths, record.bindings = some paths := by
  rcases readable.known with ⟨-, carried⟩ | ⟨other, -⟩ | other | skippable
  · exact carried
  · exact absurd (kind.symm.trans other) (by decide)
  · exact absurd (kind.symm.trans other) (by decide)
  · exact absurd kind (unassigned_ne skippable.2).1

theorem Record.Readable.carries_snippets (readable : record.Readable)
    (kind : record.kind = Tag.SNIPPETS) : ∃ entries, record.snippets = some entries := by
  rcases readable.known with ⟨other, -⟩ | ⟨-, carried⟩ | other | skippable
  · exact absurd (kind.symm.trans other) (by decide)
  · exact carried
  · exact absurd (kind.symm.trans other) (by decide)
  · exact absurd kind (unassigned_ne skippable.2).2.1

/-- Two records that each carry one fill no slot together. -/
theorem carried_twice {α : Type} {of : Record → Option α} {front back : List Record}
    {intruder other : Record} {slot : Option α} {a b : α} (one : of intruder = some a)
    (two : of other = some b) (member : other ∈ front ++ back) :
    carried of (front ++ intruder :: back) ≠ slot.toList := by
  intro filled
  have among : b ∈ carried of (front ++ back) :=
    List.mem_flatMap.mpr ⟨other, member, by rw [two]; exact List.mem_singleton_self b⟩
  have moved : (carried of (front ++ intruder :: back)).Perm
      (carried of (intruder :: (front ++ back))) :=
    List.Perm.flatMap_right _ List.perm_middle
  have length := moved.length_eq
  have positive := List.length_pos_of_mem among
  have within : slot.toList.length ≤ 1 := by
    cases slot with
    | none => exact Nat.zero_le 1
    | some _ => exact Nat.le_refl 1
  rw [filled, carried, List.flatMap_cons, one, List.length_append, Option.toList_some,
    List.length_singleton] at length
  change 0 < (List.flatMap _ _).length at positive
  omega

/-- Nothing is read of a list of records one of which intrudes. -/
theorem not_adds_of_intrudes {front back : List Record} {intruder : Record} {last : Read}
    (intrudes : intruder.Intrudes (front ++ back)) :
    ¬Adds Read.empty (front ++ intruder :: back) last := by
  intro adds
  have readable : intruder.Readable :=
    adds.readable _ (List.mem_append_right _ List.mem_cons_self)
  have others : ∀ other ∈ front ++ back, other.Readable := by
    intro other member
    apply adds.readable
    rcases List.mem_append.mp member with inFront | inBack
    · exact List.mem_append_left _ inFront
    · exact List.mem_append_right _ (List.mem_cons_of_mem _ inBack)
  rcases intrudes with unknown | foreign | ⟨kind, other, member, same⟩ | ⟨kind, other, member, same⟩
  · obtain ⟨notBindings, notSnippets, notFlag⟩ := unassigned_ne unknown.2
    rcases readable.known with ⟨kind, -⟩ | ⟨kind, -⟩ | kind | skippable
    · exact notBindings kind
    · exact notSnippets kind
    · exact notFlag kind
    · exact absurd (unknown.1.symm.trans skippable.1) (by decide)
  · obtain ⟨assigned, notBindings, notSnippets, notFlag⟩ := foreign
    rcases readable.known with ⟨kind, -⟩ | ⟨kind, -⟩ | kind | skippable
    · exact notBindings kind
    · exact notSnippets kind
    · exact notFlag kind
    · exact absurd (assigned.symm.trans skippable.2) (by decide)
  · obtain ⟨paths, one⟩ := readable.carries_bindings kind
    obtain ⟨found, two⟩ := (others other member).carries_bindings same
    exact carried_twice one two member adds.bindings.symm
  · obtain ⟨entries, one⟩ := readable.carries_snippets kind
    obtain ⟨found, two⟩ := (others other member).carries_snippets same
    exact carried_twice one two member adds.snippets.symm

/-- A Preamble is read from a frame of records only, as the same one whatever advisory records of
unassigned kinds join it and whatever order its records stand in as long as its flags keep theirs;
a critical record of an unassigned kind, one of another message's kind, or a second one of a kind
that appears once, is refused wherever it stands. -/
theorem decode_frame_extended :
    (∀ bytes preamble, decode bytes = .ok preamble →
      ∃ records : List FramedRecord, FitsU32 records.length ∧ bytes = frame records) ∧
    (∀ (records more extras : List FramedRecord) preamble,
      decode (frame records) = .ok preamble →
      (∀ record ∈ extras, record.Skippable) → more.Perm (records ++ extras) →
      (plain more).filter Record.isFlag = (plain records).filter Record.isFlag →
      FitsU32 more.length → decode (frame more) = .ok preamble) ∧
    (∀ (front back : List FramedRecord) (intruder : FramedRecord) preamble,
      decode (frame (front ++ back)) = .ok preamble →
      intruder.Intrudes (plain (front ++ back)) →
      ∃ e, decode (frame (front ++ intruder :: back)) = .error e) := by
  refine ⟨fun bytes preamble => decode_answered, ?_, ?_⟩
  · intro records more extras preamble decoded skipped same flags fits
    obtain ⟨-, last, adds, told⟩ := decode_frame.mp decoded
    have plainly : (plain more).Perm (plain records ++ plain extras) := by
      rw [plain, plain, plain, ← List.map_append]
      exact same.map _
    have skips : ∀ record ∈ plain extras, record.Skippable := by
      intro record member
      obtain ⟨framed, among, rfl⟩ := List.mem_map.mp member
      exact skipped framed among
    exact decode_frame.mpr ⟨fits, last, adds.perm skips plainly flags, told⟩
  · intro front back intruder preamble _ intrudes
    cases decoded : decode (frame (front ++ intruder :: back)) with
    | error e => exact ⟨e, rfl⟩
    | ok found =>
      obtain ⟨-, last, adds, -⟩ := decode_frame.mp decoded
      rw [plain, List.map_append, List.map_cons] at adds
      rw [plain, List.map_append] at intrudes
      exact absurd adds (not_adds_of_intrudes intrudes)

/-- A record that binds one path. -/
def boundPath : FramedRecord :=
  ⟨⟨true, Tag.BINDINGS, [0, 0, 0, 1, 0, 0, 0, 1, 0x41]⟩, (by decide : 9 < 2 ^ 32)⟩

/-- An advisory record of a kind not assigned yet. -/
def laterKind : FramedRecord := ⟨⟨false, 0x7e, [0x61]⟩, (by decide : 1 < 2 ^ 32)⟩

/-- A bound path reads the same with the record of a later kind in front of it. -/
theorem decode_frame_extended_later :
    decode [0, 0, 0, 2, 0, 0x7e, 0, 0, 0, 1, 0x61, 1, 5, 0, 0, 0, 9, 0, 0, 0, 1, 0, 0, 0, 1, 0x41] =
      .ok ⟨["A"], [], []⟩ := by
  have decoded : decode (frame [boundPath]) = .ok ⟨["A"], [], []⟩ := by rfl
  have skipped : ∀ record ∈ [laterKind], record.Skippable := by
    intro record member
    rw [List.mem_singleton.mp member]
    exact ⟨rfl, by decide⟩
  exact decode_frame_extended.2.1 [boundPath] [laterKind, boundPath] [laterKind] _ decoded skipped
    (List.Perm.swap _ _ _) rfl (by decide : 2 < 2 ^ 32)

end Kobako.Envelope.Preamble
