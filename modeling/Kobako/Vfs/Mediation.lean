import Kobako.Vfs.Calls

/-!
# Mediation

What came before each operation a request asks of a Filesystem. A change is asked only through a
mount that takes a write, and only once the hook that judges it was asked by the same request and
allowed it; an open for writing likewise, but for a special file. A request made on a file opened
before may change what the file was opened to change, and looks back to the request that opened
it. Everything here is a statement about what one request adds to the log: each event is licensed
by those the request asked before it.
-/

namespace Kobako.Vfs

variable {M D F : Type}

/-- A mount that takes a write. -/
def System.Writable (sys : System M D F) (m : M) : Prop := sys.isReadonly m = false

/-- Whether a Filesystem said it made the file. -/
def Finish.made : Finish F → Bool
  | .open _ created => created
  | .noOpen created => created
  | .spelled _ _ | .lookup _ => false

/-- A hook asked, and allowed by every module. -/
def Asked (log : List (Event M D)) (hook : Hook M D) : Prop := ∃ now, .hook now hook ∈ log

/-- An entry opened for `mode`: the hook was asked, and where it said that the open made the file
the Filesystem had said so. -/
def OpenedFor (log : List (Event M D)) (m : M) (d : D) (kind : FileType) (mode : FMode)
    (how : OpenAsk) : Prop :=
  Asked log (.fileOpen (m, d) kind mode how) ∧ (mode.created = true → .made m d ∈ log)

/-- An entry opened to be changed. -/
def OpenedToChange (log : List (Event M D)) (m : M) (d : D) : Prop :=
  ∃ kind mode how, OpenedFor log m d kind mode how ∧ (mode.write = true ∨ how.truncate = true)

/-- What a request is made in. -/
structure Setting (M D F : Type) where
  /-- What is granted where every module allows it. -/
  granted : Nat → Hook M D → Prop
  /-- What the file it is made on was opened to change. -/
  held : M → D → Prop
  /-- The world it found. -/
  found : World M D F

section

variable (sys : System M D F) (setting : Setting M D F)

/-- What the events a request asked before an operation say of it, by the operation. -/
def LicensedOp (log : List (Event M D)) (now : Nat) (m : M) : Op D → Prop
  | .create _ child => sys.Writable m ∧ Asked log (.pathMknod (m, child))
  | .atomicOpen _ child how =>
    (how.create = true → sys.Writable m ∧ Asked log (.pathMknod (m, child))) ∧
      (how.truncate = true → sys.Writable m)
  | .open child how =>
    (∀ kind, sys.env.kind now child = some kind → kind = .regFile ∨ kind = .dir →
      (how.write = true → sys.Writable m) ∧
        (how.truncate = true → sys.Writable m ∨ .made m child ∈ log)) ∧
      (how.truncate = true → OpenedToChange log m child)
  | .mkdir _ child => sys.Writable m ∧ Asked log (.pathMkdir (m, child))
  | .symlink _ child _ => sys.Writable m ∧ Asked log (.pathSymlink (m, child))
  | .link old _ child => sys.Writable m ∧ Asked log (.pathLink (m, old) (m, child))
  | .unlink _ child => sys.Writable m ∧ Asked log (.pathUnlink (m, child))
  | .rmdir _ child => sys.Writable m ∧ Asked log (.pathRmdir (m, child))
  | .rename _ old _ new => sys.Writable m ∧ old ≠ new ∧
    ∃ then_, .hook then_ (.pathRename (m, old) (m, new)) ∈ log ∧
      (sys.env.kind then_ old).isSome = true
  | .setattr child _ => sys.Writable m ∧
    (Asked log (.pathUtimes (m, child)) ∨ OpenedToChange log m child ∨ setting.held m child)
  | .writeIter d kind | .fallocate d kind =>
    (specialFile kind = false → sys.Writable m) ∧ setting.held m d

/-- What the events a request asked before an event say of it. -/
def Licensed (log : List (Event M D)) : Event M D → Prop
  | .hook now hook => setting.granted now hook
  | .op now m op => LicensedOp sys setting log now m op
  | .made m child => ∃ now dir how, .op now m (.atomicOpen dir child how) ∈ log ∧
    (how.create = true ∨
      ∃ finish, sys.fs.atomicOpen now dir child how = some (.ok finish) ∧ finish.made = true)
  | .emptied m child => ∃ now dir how, .op now m (.atomicOpen dir child how) ∈ log ∧
    how.truncate = true ∧ sys.fs.empties now child = true

/-- Every event is licensed by those before it. -/
def AllLicensed : List (Event M D) → Prop
  | [] => True
  | event :: log => Licensed sys setting log event ∧ AllLicensed log

/-- What the request that opened a file asked says of it: it stands only for its path, or its hook
was asked for what it was opened for, and it writes only through a mount that takes a write, or to
a special file. -/
structure LicensedFile (log : List (Event M D)) (file : File M D F) : Prop where
  /-- A file opened to read or to write was opened through the hook. -/
  opened : file.mode.read = true ∨ file.mode.write = true →
    ∃ kind mode how, OpenedFor log file.mnt file.dentry kind mode how ∧
      mode.write = file.mode.write
  /-- A file opened to write that is not special is on a mount that takes a write. -/
  writable : file.mode.write = true → specialFile file.kind = false → sys.Writable file.mnt

end

/-- Something known of a log that more events do not undo. -/
structure Fact (M D : Type) where
  /-- What is known. -/
  holds : List (Event M D) → Prop
  /-- It is known of a longer log too. -/
  lasts : ∀ log event, holds log → holds (event :: log)

namespace Fact

/-- What is known of no log in particular. -/
def const (known : Prop) : Fact M D := ⟨fun _ => known, fun _ _ known => known⟩

/-- Nothing is known. -/
def any : Fact M D := const True

/-- An event was logged. -/
def logged (event : Event M D) : Fact M D :=
  ⟨fun log => event ∈ log, fun _ _ mem => List.mem_cons_of_mem _ mem⟩

/-- Two things are known. -/
def and (one two : Fact M D) : Fact M D :=
  ⟨fun log => one.holds log ∧ two.holds log,
    fun log event known => ⟨one.lasts log event known.1, two.lasts log event known.2⟩⟩

/-- The one of two things that a condition says is known. -/
def given (condition : Prop) (fact : Fact M D) : Fact M D :=
  ⟨fun log => condition → fact.holds log,
    fun log event known holds => fact.lasts log event (known holds)⟩

/-- A hook was asked, at some moment. -/
def asked (hook : Hook M D) : Fact M D :=
  ⟨fun log => Asked log hook, fun _ _ ⟨now, mem⟩ => ⟨now, List.mem_cons_of_mem _ mem⟩⟩

end Fact

/-- An entry opened for a mode was so opened by a longer log. -/
theorem OpenedFor.cons {log : List (Event M D)} {m : M} {d : D} {kind : FileType} {mode : FMode}
    {how : OpenAsk} (opened : OpenedFor log m d kind mode how) (event : Event M D) :
    OpenedFor (event :: log) m d kind mode how :=
  ⟨(Fact.asked _).lasts log event opened.1,
    fun created => List.mem_cons_of_mem _ (opened.2 created)⟩

/-- A licensed file is licensed by a longer log. -/
theorem LicensedFile.cons {sys : System M D F} {log : List (Event M D)} {file : File M D F}
    (licensed : LicensedFile sys log file) (event : Event M D) :
    LicensedFile sys (event :: log) file := by
  refine ⟨fun mode => ?_, licensed.writable⟩
  obtain ⟨kind, mode, how, opened, same⟩ := licensed.opened mode
  exact ⟨kind, mode, how, opened.cons event, same⟩

/-- A file is licensed. -/
def Fact.file (sys : System M D F) (file : File M D F) : Fact M D :=
  ⟨fun log => LicensedFile sys log file, fun _ event licensed => licensed.cons event⟩

/-- What is true of a request between two of its steps, with what is known of the events it
asked. -/
structure Sound (sys : System M D F) (setting : Setting M D F) (fact : Fact M D)
    (w : World M D F) : Prop where
  /-- It added to the log events licensed by those before them, of which this is known. -/
  asked : ∃ asked, w.log = asked ++ setting.found.log ∧ AllLicensed sys setting asked ∧
    fact.holds asked
  /-- It left the open files as it found them. -/
  files : w.files = setting.found.files

namespace Sound

variable {sys : System M D F} {setting : Setting M D F}
variable {fact fact' : Fact M D} {w : World M D F}

/-- Only the log and the files are read. -/
theorem same (sound : Sound sys setting fact w) {w' : World M D F} (log : w'.log = w.log)
    (files : w'.files = w.files) : Sound sys setting fact w' :=
  ⟨log ▸ sound.asked, files.trans sound.files⟩

/-- What is known of the events asked may be known less exactly. -/
theorem weaken (sound : Sound sys setting fact w)
    (weaker : ∀ log, fact.holds log → fact'.holds log) : Sound sys setting fact' w := by
  obtain ⟨asked, log, licensed, known⟩ := sound.asked
  exact ⟨⟨asked, log, licensed, weaker asked known⟩, sound.files⟩

/-- What no log is known of is not reached. -/
theorem never {known : Prop} (sound : Sound sys setting (fact.and (.const False)) w) : known := by
  obtain ⟨asked, -, -, holds⟩ := sound.asked
  exact holds.2.elim

/-- A licensed event keeps a request sound, and is known. -/
theorem push (sound : Sound sys setting fact w) {event : Event M D}
    (licensed : ∀ log, fact.holds log → Licensed sys setting log event) {w' : World M D F}
    (log : w'.log = event :: w.log) (files : w'.files = w.files) :
    Sound sys setting (fact.and (.logged event)) w' := by
  obtain ⟨asked, before, all, known⟩ := sound.asked
  refine ⟨⟨event :: asked, ?_, ⟨licensed asked known, all⟩, ?_⟩, files.trans sound.files⟩
  · rw [log, before]
    rfl
  · exact ⟨fact.lasts _ _ known, List.mem_cons_self⟩

end Sound

/-! ## Steps -/

/-- From where a request is sound and `fact` is known, a program ends where it is sound, and where
it answers `known` of its answer is known too. -/
def Yields (sys : System M D F) (setting : Setting M D F) {α : Type} (fact : Fact M D)
    (program : Call M D F α) (known : α → Fact M D) : Prop :=
  ∀ w, Sound sys setting fact w →
    Ends program w (fun a after => Sound sys setting (fact.and (known a)) after)
      fun _ after => Sound sys setting fact after

namespace Yields

variable {sys : System M D F} {setting : Setting M D F} {α β : Type} {fact : Fact M D}

variable {known : α → Fact M D} {first : Call M D F α} {known' : β → Fact M D}

/-- An answer given is known where its facts follow. -/
theorem pure {a : α} (holds : ∀ log, fact.holds log → (known a).holds log) :
    Yields sys setting fact (pure a) known :=
  fun _ sound => Ends.pure (sound.weaken fun log known => ⟨known, holds log known⟩)

/-- A refusal leaves what is known. -/
theorem throw {e : FsError} :
    Yields sys setting fact (throw e) known :=
  fun _ sound => Ends.throw sound

/-- One program, then another made of its answer. -/
theorem bind {next : α → Call M D F β} (start : Yields sys setting fact first known)
    (onward : ∀ a, Yields sys setting (fact.and (known a)) (next a) known') :
    Yields sys setting fact (first >>= next) known' := by
  intro w sound
  refine (start w sound).bind fun a after middle => (onward a after middle).mono ?_ ?_
  · exact fun b last sound => sound.weaken fun _ both => ⟨both.1.1, both.2⟩
  · exact fun e last sound => sound.weaken fun _ both => both.1

/-- A program followed by what is done whatever it answers. -/
theorem seq {next : α → Call M D F β} (start : Yields sys setting fact first known)
    (onward : ∀ a, Yields sys setting fact (next a) known') :
    Yields sys setting fact (first >>= next) known' := by
  intro w sound
  refine (start w sound).bind fun a after middle => ?_
  exact onward a after (middle.weaken fun _ both => both.1)

/-- A check that ends the program where it fails. -/
theorem check {e : FsError} {bad : Prop} [Decidable bad] {next : Unit → Call M D F β}
    {known : β → Fact M D} (onward : ¬bad → Yields sys setting fact (next ()) known) :
    Yields sys setting fact (if bad then MonadExcept.throw e >>= next else next ()) known := by
  split
  · have ended : Yields sys setting fact (MonadExcept.throw e : Call M D F Unit)
        fun _ => .const False := Yields.throw
    exact ended.bind fun _ w sound => sound.never
  · rename_i good
    exact onward good

/-- A step made only where it is asked for. -/
theorem optional {step : Call M D F Unit} {asks : Prop} [Decidable asks]
    {next : Unit → Call M D F β} {known : β → Fact M D} {gain : Fact M D}
    (made : asks → Yields sys setting fact step fun _ => gain)
    (onward : Yields sys setting (fact.and (.given asks gain)) (next ()) known) :
    Yields sys setting fact (if asks then step >>= next else next ()) known := by
  split
  · rename_i asked
    refine (made asked).bind fun a w sound => ?_
    exact (onward w (sound.weaken fun _ both => ⟨both.1, fun _ => both.2⟩)).mono
      (fun b last sound => sound.weaken fun _ both => ⟨⟨both.1.1, both.1.2 asked⟩, both.2⟩)
      fun e last sound => sound.weaken fun _ both => ⟨both.1, both.2 asked⟩
  · rename_i unasked
    intro w sound
    have start : Sound sys setting (fact.and (.given asks gain)) w :=
      sound.weaken fun _ known => ⟨known, fun asked => absurd asked unasked⟩
    exact (onward w start).mono
      (fun b last sound => sound.weaken fun _ both => ⟨both.1.1, both.2⟩)
      fun e last sound => sound.weaken fun _ both => both.1

/-- A step made or not, of which nothing is needed. -/
theorem maybe {step : Call M D F α} {asks : Prop} [Decidable asks] {next : Call M D F β}
    {gain : α → Fact M D} {known : β → Fact M D} (made : Yields sys setting fact step gain)
    (onward : Yields sys setting fact next known) :
    Yields sys setting fact (if asks then step >>= fun _ => next else next) known := by
  split
  · exact made.seq fun _ => onward
  · exact onward

/-- What is known of the answer may be known less exactly. -/
theorem mono {program : Call M D F α} {known known' : α → Fact M D}
    (yields : Yields sys setting fact program known)
    (weaker : ∀ a log, fact.holds log → (known a).holds log → (known' a).holds log) :
    Yields sys setting fact program known' :=
  fun w sound => (yields w sound).mono
    (fun a _ sound => sound.weaken fun log both => ⟨both.1, weaker a log both.1 both.2⟩)
    fun _ _ sound => sound

/-- A program tried: what is known where it answered is known of that answer. -/
theorem tried {program : Call M D F α} (yields : Yields sys setting fact program known) :
    Yields sys setting fact (attempt program) fun
      | .ok a => known a
      | .error _ => .any :=
  fun w sound => Ends.attempt ((yields w sound).mono (fun _ _ sound => sound)
    fun _ _ sound => sound.weaken fun _ holds => ⟨holds, trivial⟩)

/-- A program tried, and what is done about its answer or its failure. -/
theorem rescue {next : Except FsError α → Call M D F β}
    (start : Yields sys setting fact first known)
    (answered : ∀ a, Yields sys setting (fact.and (known a)) (next (.ok a)) known')
    (failed : ∀ e, Yields sys setting fact (next (.error e)) known') :
    Yields sys setting fact (attempt first >>= next) known' := by
  intro w sound
  refine (start.tried w sound).bind fun tried after middle => ?_
  cases tried with
  | ok a =>
    exact (answered a after middle).mono
      (fun _ _ sound => sound.weaken fun _ both => ⟨both.1.1, both.2⟩)
      fun _ _ sound => sound.weaken fun _ both => both.1
  | error e => exact failed e after (middle.weaken fun _ both => both.1)

open Call

/-- A question read tells what it answered at some moment. -/
theorem read (question : Nat → α) :
    Yields sys setting fact (read question) fun a => .const (∃ now, question now = a) :=
  fun w sound =>
    have after : Sound sys setting fact { w with clock := w.clock + 1 } := sound.same rfl rfl
    after.weaken fun _ known => ⟨known, w.clock, rfl⟩

/-- A question asked tells what it answered at some moment. -/
theorem ask (question : Nat → Except FsError α) :
    Yields sys setting fact (ask question) fun a => .const (∃ now, question now = .ok a) := by
  intro w sound
  have after : Sound sys setting fact { w with clock := w.clock + 1 } := sound.same rfl rfl
  unfold Ends Call.ask
  cases told : question w.clock with
  | ok a => exact after.weaken fun _ known => ⟨known, w.clock, told⟩
  | error e => exact after

/-- An answer given already tells itself. -/
theorem given (answer : Except FsError α) :
    Yields sys setting fact (given answer) fun a => .const (answer = .ok a) := by
  cases answer with
  | ok a => exact Yields.pure fun _ _ => rfl
  | error e => exact Yields.throw

/-- A mount that took a write takes writes. -/
theorem wantWrite (m : M) :
    Yields sys setting fact (Call.given (sys.mntWantWrite m)) fun _ => .const (sys.Writable m) :=
  (Yields.given _).mono fun _ _ _ taken => sys.isReadonly_of_mntWantWrite taken

/-- A walk asks nothing of a Filesystem that is logged. -/
theorem onWalk (walk : Nameidata D → Walked D α) (nd : Nameidata D) :
    Yields sys setting fact (onWalk walk nd) fun _ => .any := by
  intro w sound
  unfold Ends Call.onWalk
  cases walk { nd with clock := w.clock, totalLinkCount := w.links } with
  | ok a nd =>
    have after : Sound sys setting fact
        { w with clock := nd.clock, links := nd.totalLinkCount } := sound.same rfl rfl
    exact after.weaken fun _ known => ⟨known, trivial⟩
  | error e nd => exact sound.same rfl rfl

/-- The kind told is what stood there at some moment. -/
theorem kindOf (d : D) : Yields sys setting fact (sys.kindOf d)
    fun kind => .const (∃ now, sys.env.kind now d = some kind) := by
  refine (Yields.read _).bind fun kind => ?_
  cases kind with
  | none => exact Yields.throw
  | some kind => exact Yields.pure fun _ known => known.2

/-- An operation is asked where the log licenses it, and is then known. -/
theorem invoke {m : M} {op : Op D} (answer : Nat → Except FsError α)
    (licensed : ∀ log now, fact.holds log → LicensedOp sys setting log now m op) :
    Yields sys setting fact (invoke m op answer) fun a =>
      ⟨fun log => ∃ now, answer now = .ok a ∧ .op now m op ∈ log,
        fun _ _ ⟨now, told, mem⟩ => ⟨now, told, List.mem_cons_of_mem _ mem⟩⟩ := by
  intro w sound
  have before : ∀ log, fact.holds log → Licensed sys setting log (.op w.clock m op) :=
    fun log known => licensed log w.clock known
  have after : Sound sys setting (fact.and (.logged (.op w.clock m op)))
      { w with clock := w.clock + 1, log := .op w.clock m op :: w.log } :=
    sound.push before rfl rfl
  unfold Ends Call.invoke
  cases told : answer w.clock with
  | ok a => exact after.weaken fun _ both => ⟨both.1, w.clock, told, both.2⟩
  | error e => exact after.weaken fun _ both => both.1

/-- What a Filesystem says it did is noted where the log licenses it. -/
theorem note {event : Event M D}
    (licensed : ∀ log, fact.holds log → Licensed sys setting log event) :
    Yields sys setting fact (note event) fun _ => .logged event :=
  fun _ sound => sound.push licensed rfl rfl

/-- A hook that every module allowed was asked. -/
theorem security {cred : Cred M D} {hook : Hook M D}
    (judged : ∀ now kept, cred.callIntHook now hook = .ok kept → setting.granted now hook) :
    Yields sys setting fact (security cred hook) fun _ => .asked hook := by
  intro w sound
  unfold Ends Call.security
  cases told : cred.callIntHook w.clock hook with
  | error e => exact sound.same rfl rfl
  | ok kept =>
    have before : ∀ log, fact.holds log → Licensed sys setting log (.hook w.clock hook) :=
      fun _ _ => judged w.clock kept told
    have after : Sound sys setting (fact.and (.logged (.hook w.clock hook)))
        { w with clock := w.clock + 1, log := .hook w.clock hook :: w.log } :=
      sound.push before rfl rfl
    exact after.weaken fun _ both => ⟨both.1, w.clock, both.2⟩

end Yields

end Kobako.Vfs
