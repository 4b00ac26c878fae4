import Kobako.Overlay.Handles
import Kobako.Overlay.Lower

/-!
# Contents

Where the bytes of the Layers' files are, and what a copy of one makes of another. A dentry records
one file and an open file is of one; what the Layers are asked changes the bytes of the file it is
about and of no other. A copy reads a file and writes another until nothing is left to read,
however little each read and each write takes.
-/

namespace Kobako.Overlay

open Vfs

variable {W D F V N : Type}

/-! ## Copying -/

/-- Two open files as a copy finds them, `bytes` what the first holds and `copied` the second: a
read answers from the first, a write writes some of what it is handed to the second, and either may
fail as `refused` allows where the first holds what it holds. -/
structure ShortFiles (layers : Layers W D F) (source target : Nat × F)
    (bytes copied : W → List UInt8) (refused : List UInt8 → FsError → Prop) : Prop where
  /-- A read answers what stands in the first file, and changes neither. -/
  reads : ∀ pos len world, Ends (layers.readIter source.1 source.2 pos len) world
    (fun data after => ReadsFrom (bytes world) pos len data ∧ bytes after = bytes world ∧
      copied after = copied world)
    fun error after => refused (bytes world) error ∧ bytes after = bytes world
  /-- A write within the length of the first changes the second file as far as it answers. -/
  writes : ∀ pos data world, pos + data.length ≤ (bytes world).length →
    Ends (layers.writeIter target.1 target.2 pos data) world
      (fun count after => count ≤ data.length ∧ bytes after = bytes world ∧
        copied after = overwrite (copied world) pos data count)
      fun error after => refused (bytes world) error ∧ bytes after = bytes world
  /-- A write that takes nothing of something is a refusal. -/
  stuck : ∀ pos data world, data ≠ [] → pos + data.length ≤ (bytes world).length →
    Ends (layers.writeIter target.1 target.2 pos data) world
      (fun count _ => count = 0 → refused (bytes world) (.other "a copy up's write wrote nothing"))
      fun _ _ => True

/-- A read answers no more than is left. -/
theorem ReadsFrom.length_le {array data : List UInt8} {pos len : Nat}
    (reads : ReadsFrom array pos len data) : data.length ≤ array.length - pos := by
  have stands := congrArg List.length reads.stands
  rw [List.length_take, List.length_drop] at stands
  omega

/-- Bytes written at the end of others follow them. -/
theorem overwrite_end (array data : List UInt8) {count : Nat} (some : 0 < count) :
    overwrite array array.length data count = array ++ data.take count := by
  unfold overwrite
  rw [if_neg (by omega)]
  simp [Tmpfs.written, Tmpfs.resized]

/-- Whether a copy may be given up once its rounds are over, or has a round for every byte left to
read and one more. -/
def Rounds (refused : FsError → Prop) (left rounds : Nat) : Prop :=
  refused (.other "a copy up followed no further") ∨ left < rounds

section Copy

variable {layers : Layers W D F} {source target : Nat × F} {bytes copied : W → List UInt8}
  {refused : List UInt8 → FsError → Prop}
  (files : ShortFiles layers source target bytes copied refused)

include files

/-- What was read is written after what was copied, however little each write takes. -/
theorem writeAll_copies (data : List UInt8) (s : Session W D F V)
    (fits : (copied s.world).length + data.length ≤ (bytes s.world).length) :
    Ends (writeAll layers target.1 target.2 (copied s.world).length data) s
      (fun pos after => OnlyWorld s after ∧ copied after.world = copied s.world ++ data ∧
        pos = (copied after.world).length ∧ bytes after.world = bytes s.world)
      fun error after => OnlyWorld s after ∧ refused (bytes s.world) error ∧
        bytes after.world = bytes s.world := by
  induction counted : data.length using Nat.strongRecOn generalizing data s with
  | ind length ih =>
    unfold writeAll
    by_cases done : data = []
    · subst done
      rw [dif_pos (by rfl)]
      exact Ends.pure ⟨.refl s, by simp, rfl, rfl⟩
    · rw [dif_neg (by simpa using done)]
      have written := ask_ends ((files.writes (copied s.world).length data s.world fits).and
        (files.stuck (copied s.world).length data s.world done fits))
      refine (written.mono (fun _ _ ended => ended) fun _ _ ended =>
        ⟨ended.1, ended.2.1⟩).bind fun wrote after ⟨same, ⟨most, kept, grown⟩, stuck⟩ => ?_
      cases wrote with
      | zero => exact Ends.throw ⟨same, stuck rfl, kept⟩
      | succ wrote =>
        have positive := List.length_pos_iff.mpr done
        have shorter : (data.drop (wrote + 1)).length < length := by
          rw [List.length_drop]
          omega
        rw [overwrite_end _ _ (by omega)] at grown
        have place : (copied s.world).length + (wrote + 1) = (copied after.world).length := by
          rw [grown, List.length_append, List.length_take]
          omega
        show Ends (writeAll layers target.1 target.2 ((copied s.world).length + (wrote + 1))
          (data.drop (wrote + 1))) after _ _
        have within : (copied after.world).length + (data.drop (wrote + 1)).length ≤
            (bytes after.world).length := by
          rw [← place, List.length_drop, kept]
          omega
        rw [place]
        apply (ih _ shorter (data.drop (wrote + 1)) after within rfl).mono
        · intro pos last ⟨world, all, ends, held⟩
          refine ⟨same.trans world, ?_, ends, held.trans kept⟩
          rw [all, grown, List.append_assoc, List.take_append_drop]
        · intro error last ⟨world, refusal, held⟩
          exact ⟨same.trans world, kept ▸ refusal, held.trans kept⟩

/-- What is left to read is copied after what was: the whole file is copied where no answer is a
refusal. -/
theorem copyWhole_from (rounds : Nat) (s : Session W D F V)
    (copying : copied s.world = (bytes s.world).take (copied s.world).length)
    (enough : Rounds (refused (bytes s.world))
      ((bytes s.world).length - (copied s.world).length) rounds) :
    Ends (copyWhole layers source target rounds (copied s.world).length (copied s.world).length) s
      (fun _ after => OnlyWorld s after ∧ copied after.world = bytes s.world ∧
        bytes after.world = bytes s.world)
      fun error after => OnlyWorld s after ∧ refused (bytes s.world) error ∧
        bytes after.world = bytes s.world := by
  induction rounds generalizing s with
  | zero =>
    cases enough with
    | inl refusal => exact Ends.throw ⟨.refl s, refusal, rfl⟩
    | inr left => omega
  | succ rounds ih =>
    refine (ask_ends (files.reads (copied s.world).length (64 * 1024) s.world)).bind
      fun read after ⟨same, reads, held, still⟩ => ?_
    by_cases ended : read = []
    · subst ended
      rw [if_pos (by rfl)]
      have all : (bytes s.world).length ≤ (copied s.world).length := by
        cases reads.left rfl with
        | inl nothing => simp at nothing
        | inr all => exact all
      refine Ends.pure ⟨same, ?_, held⟩
      rw [still, copying, List.take_of_length_le all]
    · rw [if_neg (by simpa using ended)]
      have start : (copied s.world).length = (copied after.world).length := by rw [still]
      have stands := reads.length_le
      have positive := List.length_pos_iff.mpr ended
      have fits : (copied after.world).length + read.length ≤ (bytes after.world).length := by
        rw [← start, held]
        omega
      rw [start]
      refine (writeAll_copies files read after fits).mono (fun _ _ ended => ended)
        (fun error last ⟨world, refusal, kept⟩ =>
          ⟨same.trans world, held ▸ refusal, kept.trans held⟩) |>.bind
        fun pos next ⟨world, grown, place, kept⟩ => ?_
      have length : (copied after.world).length + read.length = (copied next.world).length := by
        rw [grown, List.length_append]
      rw [length, place]
      have more : copied next.world = (bytes next.world).take (copied next.world).length := by
        rw [← length, List.take_add, kept, held, ← start, ← copying, ← reads.stands, grown, still]
      have same' : bytes next.world = bytes s.world := kept.trans held
      have fewer : Rounds (refused (bytes next.world))
          ((bytes next.world).length - (copied next.world).length) rounds := by
        rw [same']
        apply enough.imp_right
        intro left
        rw [← length]
        omega
      refine (ih next more fewer).mono ?_ ?_
      · intro _ last ⟨worldToo, whole, keptToo⟩
        exact ⟨(same.trans world).trans worldToo, by rw [whole, kept, held],
          by rw [keptToo, kept, held]⟩
      · intro error last ⟨worldToo, refusal, keptToo⟩
        exact ⟨(same.trans world).trans worldToo, same' ▸ refusal, by rw [keptToo, kept, held]⟩

/-- A whole copy of a file is equal to it. -/
theorem copyWhole_copies {rounds : Nat} {s : Session W D F V} (fresh : copied s.world = [])
    (enough : Rounds (refused (bytes s.world)) (bytes s.world).length rounds) :
    Ends (copyWhole layers source target rounds 0 0) s
      (fun _ after => OnlyWorld s after ∧ copied after.world = bytes s.world ∧
        bytes after.world = bytes s.world)
      fun error after => OnlyWorld s after ∧ refused (bytes s.world) error ∧
        bytes after.world = bytes s.world := by
  have none : (copied s.world).length = 0 := by rw [fresh, List.length_nil]
  have whole := copyWhole_from files rounds s (by rw [fresh, List.length_nil, List.take_zero])
    (by rw [none]; exact enough)
  rw [none] at whole
  exact whole

end Copy

/-! ## Where bytes are -/

/-- A question that leaves the bytes of every file. -/
def Quiet (bytes : W → N → List UInt8) {α : Type} (question : EStateM FsError W α)
    (answers : α → Prop) : Prop :=
  ∀ held, Keeps (fun world => bytes world = held) question answers

/-- The bytes of one file at most are changed. -/
def Only (bytes : W → N → List UInt8) (n : N) (world after : W) : Prop :=
  ∀ other, other ≠ n → bytes after other = bytes world other

/-- Layers whose files keep their bytes: what each dentry records and each open file is of, and that
a question changes only the file it is about. -/
structure Contents (layers : Layers W D F) (N : Type) where
  /-- The bytes each file holds. -/
  bytes : W → N → List UInt8
  /-- The file a dentry recorded. -/
  recorded : Nat → D → Option N
  /-- The file an open file is of. -/
  opened : Nat → F → Option N
  /-- A lookup changes no file. -/
  lookupReal : ∀ layer d name, Quiet bytes (layers.lookupReal layer d name) fun _ => True
  /-- Nor does a stat. -/
  getattr : ∀ layer d, Quiet bytes (layers.getattr layer d) fun _ => True
  /-- Nor does making a directory in the upper. -/
  doMkdir : ∀ d name, Quiet bytes (layers.doMkdir UPPER d name) fun _ => True
  /-- Nor does removing one. -/
  doRmdir : ∀ d name, Quiet bytes (layers.doRmdir UPPER d name) fun _ => True
  /-- Nor does moving an entry. -/
  doRename : ∀ d name d' name' flag,
    Quiet bytes (layers.doRename UPPER d name UPPER d' name' flag) fun _ => True
  /-- Nor does setting the times of what a dentry names. -/
  setTimes : ∀ d attr, attr.size = none → Quiet bytes (layers.notifyChange UPPER d attr) fun _ => True
  /-- Nor does setting those of an open file. -/
  setattrFile : ∀ file attr, attr.size = none →
    Quiet bytes (layers.setattrFile UPPER file attr) fun _ => True
  /-- Nor does an open, of what the dentry recorded; a lower Layer's is opened only to read. -/
  openRealfile : ∀ layer d how n, recorded layer d = some n →
    layer = UPPER ∨ how.write = false ∧ how.truncate = false →
    Quiet bytes (layers.openRealfile layer d how) fun file => opened layer file = some n
  /-- The upper opens every file it holds. -/
  opens : ∀ d how n world, recorded UPPER d = some n →
    Ends (layers.openRealfile UPPER d how) world (fun _ _ => True) fun _ _ => False
  /-- A read answers from the bytes of the file. -/
  readIter : ∀ layer file n pos len, opened layer file = some n → ∀ held,
    Keeps (fun world => bytes world = held) (layers.readIter layer file pos len)
      fun data => ReadsFrom (held n) pos len data
  /-- A file made with no name is empty, and none a lower Layer recorded. -/
  doTmpfile : ∀ d world, Ends (layers.doTmpfile UPPER d) world
    (fun file after => ∃ n, opened UPPER file = some n ∧ bytes after n = [] ∧
      Only bytes n world after ∧ ∀ layer d, layer ≠ UPPER → recorded layer d ≠ some n)
    fun _ after => bytes after = bytes world
  /-- A file named is what its name's dentry recorded. -/
  doLink : ∀ d file name n, opened UPPER file = some n →
    Quiet bytes (layers.doLink UPPER d file name) fun linked => recorded UPPER linked = some n
  /-- A write writes some of what it is handed. -/
  writeIter : ∀ file n pos data world, opened UPPER file = some n →
    Ends (layers.writeIter UPPER file pos data) world
      (fun count after => count ≤ data.length ∧ Only bytes n world after ∧
        bytes after n = overwrite (bytes world n) pos data count)
      fun _ after => bytes after = bytes world
  /-- A size set is what the file then has, and only a growth is refused. -/
  resize : ∀ d n attr len world, recorded UPPER d = some n → attr.size = some len →
    Ends (layers.notifyChange UPPER d attr) world
      (fun _ after => Only bytes n world after ∧
        bytes after n = Tmpfs.resized (bytes world n) len)
      fun _ after => bytes after = bytes world ∧ (bytes world n).length < len

end Kobako.Overlay
