import Kobako.Run
import Mathlib.Logic.Function.Basic

/-!
# The compiled-artifact cache on disk

Processes that share a cache directory store artifacts, load them and prune what is stale, each
system call a step of its own. A store writes a temp file that it created for itself alone, syncs
it and renames it to the artifact's name. Any call may fail, a process may exit between any two,
and the machine may crash: a file not synced then holds anything, and every name may stand as at
any moment since the directory was last synced.

A deserialized Module maps the file it was loaded from and trusts its bytes, so a file opened under
an artifact's name must hold all that one store wrote, and never change.
-/

namespace Kobako.Artifacts

variable {κ τ : Type}

/-- A name in the cache directory: the one `artifact_path` gives the artifact of a key, or the one
`create_temp` makes of it with the extension `tmp<process>.<serial>`. -/
inductive Name (κ : Type)
  | entry (key : κ)
  | temp (key : κ) (process serial : Nat)
deriving DecidableEq

/-- A file's bytes, and whether a crash keeps them. -/
structure File where
  content : List UInt8
  synced : Bool

/-- The temp file of one store. -/
structure Temp (κ : Type) where
  key : κ
  /-- What the store is to write. -/
  bytes : List UInt8
  serial : Nat
  /-- The file its descriptor is open on. -/
  file : Nat

/-- Where a call of `store_artifact` stands, named after what it does next. -/
inductive Phase (κ : Type)
  | numbering (key : κ) (bytes : List UInt8)
  | creating (key : κ) (bytes : List UInt8) (serial : Nat)
  | writing (temp : Temp κ) (todo : List UInt8)
  | syncing (temp : Temp κ)
  | moving (temp : Temp κ)
  | fsyncing (key : κ)
  | pruning (key : κ)

/-- A call of `store_artifact` and the process it runs in. -/
structure Task (κ : Type) where
  process : Nat
  phase : Phase κ

/-- The directory, its files and the processes. -/
structure State (κ τ : Type) where
  names : Name κ → Option Nat
  /-- What each name stood for since the directory was last synced. -/
  past : Name κ → List (Option Nat)
  files : Nat → File
  /-- Every file from here on is free. -/
  made : Nat
  /-- `NEXT_TEMP` of each process that runs. -/
  serials : Nat → Option Nat
  tasks : τ → Option (Task κ)
  /-- Every artifact a store began with. -/
  stored : List (κ × List UInt8)
  /-- Every file opened under an artifact's name, with the bytes it held then. -/
  opened : List (κ × Nat × List UInt8)

/-- An empty directory and no process. -/
def State.new : State κ τ where
  names _ := none
  past _ := []
  files _ := ⟨[], true⟩
  made := 0
  serials _ := none
  tasks _ := none
  stored := []
  opened := []

variable [DecidableEq κ] [DecidableEq τ]

/-- A name is made to stand for another file, or for none. -/
def State.link (state : State κ τ) (name : Name κ) (file : Option Nat) : State κ τ :=
  { state with
    names := Function.update state.names name file
    past := Function.update state.past name (state.names name :: state.past name) }

/-- A file's bytes are written. -/
def State.setFile (state : State κ τ) (file : Nat) (contents : File) : State κ τ :=
  { state with files := Function.update state.files file contents }

/-- A call goes on, or ends. -/
def State.put (state : State κ τ) (task : τ) (value : Option (Task κ)) : State κ τ :=
  { state with tasks := Function.update state.tasks task value }

/-- What happens next. -/
inductive Event (κ τ : Type)
  /-- A process starts. -/
  | spawn (process : Nat)
  /-- A process ends, its calls with it. -/
  | exit (process : Nat)
  /-- A thread of a process calls `store_artifact`, the Module serialized and the directory open. -/
  | store (task : τ) (process : Nat) (key : κ) (bytes : List UInt8)
  /-- A call's next system call succeeds. -/
  | step (task : τ)
  /-- It fails. -/
  | fail (task : τ)
  /-- One `write` of the loop in `write_all` takes this many bytes. -/
  | write (task : τ) (count : Nat)
  /-- `prune_stale` finds a name stale. -/
  | unlink (task : τ) (name : Name κ)
  /-- `load_artifact` opens an artifact. -/
  | load (key : κ)
  /-- The machine crashes: what files not synced then hold, and which of its pasts each name has. -/
  | crash (garbled : Nat → List UInt8) (kept : Name κ → Nat)

/-- The system calls of `store_artifact` and `create_temp`, each taken where it succeeds. -/
def State.advance (state : State κ τ) (task : τ) (process : Nat) : Phase κ → Option (State κ τ)
  | .numbering key bytes =>
    match state.serials process with
    | none => none
    | some serial =>
      some ({ state with serials := Function.update state.serials process (some (serial + 1)) }.put
        task (some ⟨process, .creating key bytes serial⟩))
  | .creating key bytes serial =>
    match state.names (.temp key process serial) with
    -- `O_EXCL` refuses a name that stands.
    | some _ => some (state.put task none)
    | none =>
      some ((({ state with made := state.made + 1 }.setFile state.made ⟨[], false⟩).link
        (.temp key process serial) (some state.made)).put task
        (some ⟨process, .writing ⟨key, bytes, serial, state.made⟩ bytes⟩))
  | .writing temp todo =>
    if todo = [] then some (state.put task (some ⟨process, .syncing temp⟩)) else none
  | .syncing temp =>
    some ((state.setFile temp.file ⟨(state.files temp.file).content, true⟩).put task
      (some ⟨process, .moving temp⟩))
  | .moving temp =>
    match state.names (.temp temp.key process temp.serial) with
    -- Somebody pruned the temp file.
    | none => some (state.put task none)
    | some file =>
      some (((state.link (.entry temp.key) (some file)).link
        (.temp temp.key process temp.serial) none).put task (some ⟨process, .fsyncing temp.key⟩))
  | .fsyncing key =>
    some ({ state with past := fun _ => [] }.put task (some ⟨process, .pruning key⟩))
  | .pruning _ => some (state.put task none)

/-- A crash of the machine. -/
def State.crash (state : State κ τ) (garbled : Nat → List UInt8) (kept : Name κ → Nat) :
    State κ τ where
  names name := (state.names name :: state.past name).getD (kept name) (state.names name)
  past _ := []
  files file := if (state.files file).synced then state.files file else ⟨garbled file, true⟩
  made := state.made
  serials _ := none
  tasks _ := none
  stored := state.stored
  opened := []

/-- One step of one process, or of the machine. -/
def State.step (state : State κ τ) : Event κ τ → Option (State κ τ)
  | .spawn process =>
    if state.serials process = none then
      some { state with serials := Function.update state.serials process (some 0) }
    else none
  | .exit process =>
    some { state with
      serials := Function.update state.serials process none
      tasks := fun task => (state.tasks task).filter fun call => call.process ≠ process }
  | .store task process key bytes =>
    if state.tasks task = none ∧ state.serials process ≠ none then
      some ({ state with stored := (key, bytes) :: state.stored }.put task
        (some ⟨process, .numbering key bytes⟩))
    else none
  | .step task =>
    match state.tasks task with
    | none => none
    | some call => state.advance task call.process call.phase
  | .fail task =>
    match state.tasks task with
    | none => none
    | some ⟨process, .fsyncing key⟩ => some (state.put task (some ⟨process, .pruning key⟩))
    | some _ => some (state.put task none)
  | .write task count =>
    match state.tasks task with
    | some ⟨process, .writing temp todo⟩ =>
      if 0 < count ∧ count ≤ todo.length then
        some ((state.setFile temp.file
          ⟨(state.files temp.file).content ++ todo.take count, false⟩).put task
          (some ⟨process, .writing temp (todo.drop count)⟩))
      else none
    | _ => none
  | .unlink task name =>
    match state.tasks task with
    | some ⟨_, .pruning key⟩ => if name = .entry key then none else some (state.link name none)
    | _ => none
  | .load key =>
    match state.names (.entry key) with
    | none => none
    | some file =>
      some { state with opened := (key, file, (state.files file).content) :: state.opened }
  | .crash garbled kept => some (state.crash garbled kept)

/-! ## What every run keeps -/

/-- The number a call took for its temp file, until the file has its last name. -/
def Phase.serial : Phase κ → Option Nat
  | .creating _ _ serial => some serial
  | .writing temp _ | .syncing temp | .moving temp => some temp.serial
  | _ => none

/-- The temp file a call works on. -/
def Phase.temp : Phase κ → Option (Temp κ)
  | .writing temp _ | .syncing temp | .moving temp => some temp
  | _ => none

/-- The artifact a call has begun to store stands among those stored, and the file it works on has
the bytes written so far. -/
def Phase.Fits (state : State κ τ) : Phase κ → Prop
  | .numbering key bytes | .creating key bytes _ => (key, bytes) ∈ state.stored
  | .writing temp todo => (state.files temp.file).content ++ todo = temp.bytes
  | .syncing temp => (state.files temp.file).content = temp.bytes
  | .moving temp => state.files temp.file = ⟨temp.bytes, true⟩
  | .fsyncing _ | .pruning _ => True

/-- A temp file is a call's own: its name stands for nothing else. -/
structure State.Owns (state : State κ τ) (process : Nat) (temp : Temp κ) : Prop where
  made : temp.file < state.made
  stored : (temp.key, temp.bytes) ∈ state.stored
  named : ∀ file, state.names (.temp temp.key process temp.serial) = some file → file = temp.file

/-- A call's process runs and gave out its number, and its temp file is its own. -/
structure State.Admits (state : State κ τ) (call : Task κ) : Prop where
  running : ∃ next, state.serials call.process = some next ∧
    ∀ serial, call.phase.serial = some serial → serial < next
  owns : ∀ temp, call.phase.temp = some temp → state.Owns call.process temp
  fits : call.phase.Fits state

/-- Two calls have neither a temp file's name nor a file in common. -/
structure Task.Apart (one other : Task κ) : Prop where
  serials : one.process = other.process → ∀ serial, one.phase.serial = some serial →
    other.phase.serial ≠ some serial
  files : ∀ temp theirs, one.phase.temp = some temp → other.phase.temp = some theirs →
    temp.file ≠ theirs.file

/-- A file holds these bytes for good: they are synced and nobody writes to it. -/
structure State.Fixed (state : State κ τ) (file : Nat) (bytes : List UInt8) : Prop where
  made : file < state.made
  holds : state.files file = ⟨bytes, true⟩
  unwritten : ∀ task call temp todo, state.tasks task = some call →
    call.phase = .writing temp todo → temp.file ≠ file

/-- Every call is admitted and apart from the others, and what an artifact's name stands for, stood
for since the directory was synced, or was opened for, holds a whole artifact for good. -/
structure State.Sound (state : State κ τ) : Prop where
  admits : ∀ task call, state.tasks task = some call → state.Admits call
  apart : ∀ task other call theirs, state.tasks task = some call →
    state.tasks other = some theirs → task ≠ other → call.Apart theirs
  entries : ∀ key file, some file ∈ state.names (.entry key) :: state.past (.entry key) →
    ∃ bytes, (key, bytes) ∈ state.stored ∧ state.Fixed file bytes
  opened : ∀ key file bytes, (key, file, bytes) ∈ state.opened →
    (key, bytes) ∈ state.stored ∧ state.Fixed file bytes

variable {state next : State κ τ} {task : τ} {call : Task κ} {value : Option (Task κ)}

section

omit [DecidableEq κ] [DecidableEq τ]

theorem Task.Apart.symm {one other : Task κ} (apart : one.Apart other) : other.Apart one where
  serials same serial theirs ours := apart.serials same.symm serial ours theirs
  files temp theirs one two := (apart.files theirs temp two one).symm

/-- A call with neither a number nor a temp file is apart from every other. -/
theorem Task.apart_of_none {one other : Task κ} (serial : one.phase.serial = none)
    (temp : one.phase.temp = none) : one.Apart other where
  serials _ number taken := by simp [serial] at taken
  files mine _ works := by simp [temp] at works

/-- A call with neither a number nor a temp file needs its process, and what its phase says. -/
theorem State.admits_of_none (running : state.serials call.process ≠ none)
    (serial : call.phase.serial = none) (temp : call.phase.temp = none)
    (fits : call.phase.Fits state) : state.Admits call := by
  obtain ⟨next, runs⟩ := Option.ne_none_iff_exists'.mp running
  refine ⟨⟨next, runs, fun number taken => ?_⟩, fun mine works => ?_, fits⟩
  · simp [serial] at taken
  · simp [temp] at works

/-- An admitted call's process runs. -/
theorem State.Admits.runs (admits : state.Admits call) : state.serials call.process ≠ none := by
  obtain ⟨next, runs, _⟩ := admits.running
  simp [runs]

/-- A call that goes on with no other number and no other file stays apart. -/
theorem Task.Apart.goOn {one other after : Task κ} (apart : one.Apart other)
    (process : after.process = one.process)
    (serial : ∀ serial, after.phase.serial = some serial → one.phase.serial = some serial)
    (temp : ∀ temp, after.phase.temp = some temp → one.phase.temp = some temp) :
    after.Apart other where
  serials same number taken := apart.serials (process ▸ same) number (serial number taken)
  files mine theirs one two := apart.files mine theirs (temp mine one) two

/-- A call whose temp file and its name nobody touches is admitted as before. -/
theorem State.Admits.keep (admits : state.Admits call)
    (serials : ∀ serial, state.serials call.process = some serial →
      ∃ later, next.serials call.process = some later ∧ serial ≤ later)
    (stored : ∀ artifact ∈ state.stored, artifact ∈ next.stored) (made : state.made ≤ next.made)
    (files : ∀ temp, call.phase.temp = some temp →
      next.files temp.file = state.files temp.file)
    (names : ∀ temp file, call.phase.temp = some temp →
      next.names (.temp temp.key call.process temp.serial) = some file →
      state.names (.temp temp.key call.process temp.serial) = some file) :
    next.Admits call := by
  obtain ⟨number, running, below⟩ := admits.running
  obtain ⟨later, runs, grown⟩ := serials number running
  refine ⟨⟨later, runs, fun serial taken => ?_⟩, fun temp works => ?_, ?_⟩
  · exact Nat.lt_of_lt_of_le (below serial taken) grown
  · have owns := admits.owns temp works
    exact ⟨Nat.lt_of_lt_of_le owns.made made, stored _ owns.stored,
      fun file stands => owns.named file (names temp file works stands)⟩
  · have fits := admits.fits
    cases phase : call.phase with
    | numbering key bytes =>
      rw [phase] at fits
      exact stored _ fits
    | creating key bytes serial =>
      rw [phase] at fits
      exact stored _ fits
    | writing temp todo | syncing temp | moving temp =>
      have same := files temp (by rw [phase]; rfl)
      rw [phase] at fits
      simpa only [Phase.Fits, same] using fits
    | fsyncing key => trivial
    | pruning key => trivial

/-- A file is fixed as long as nobody else begins to write to it. -/
theorem State.Fixed.keep {file : Nat} {bytes : List UInt8} (fixed : state.Fixed file bytes)
    (made : state.made ≤ next.made) (holds : next.files file = state.files file)
    (writes : ∀ task call temp todo, next.tasks task = some call →
      call.phase = .writing temp todo → temp.file = file →
      ∃ call before todo, state.tasks task = some call ∧ call.phase = .writing before todo ∧
        before.file = file) : next.Fixed file bytes where
  made := Nat.lt_of_lt_of_le fixed.made made
  holds := holds.trans fixed.holds
  unwritten task call temp todo called phase same := by
    obtain ⟨earlier, before, rest, stood, wrote, here⟩ :=
      writes task call temp todo called phase same
    exact fixed.unwritten task earlier before rest stood wrote here

end

namespace State.Sound

omit [DecidableEq κ] [DecidableEq τ] in
/-- What a step leaves as it was is sound as it was. -/
theorem carry (sound : state.Sound)
    (stored : ∀ artifact ∈ state.stored, artifact ∈ next.stored) (made : state.made ≤ next.made)
    (holds : ∀ file bytes, state.Fixed file bytes → next.files file = state.files file)
    (writes : ∀ task call temp todo, next.tasks task = some call →
      call.phase = .writing temp todo →
      (∃ call before todo, state.tasks task = some call ∧ call.phase = .writing before todo ∧
        before.file = temp.file) ∨ state.made ≤ temp.file)
    (admits : ∀ task call, next.tasks task = some call → next.Admits call)
    (apart : ∀ task other call theirs, next.tasks task = some call →
      next.tasks other = some theirs → task ≠ other → call.Apart theirs)
    (entries : ∀ key file, some file ∈ next.names (.entry key) :: next.past (.entry key) →
      some file ∈ state.names (.entry key) :: state.past (.entry key) ∨
        ∃ bytes, (key, bytes) ∈ state.stored ∧ state.Fixed file bytes)
    (opened : ∀ key file bytes, (key, file, bytes) ∈ next.opened →
      (key, file, bytes) ∈ state.opened ∨
        ((key, bytes) ∈ state.stored ∧ state.Fixed file bytes)) : next.Sound := by
  have fixed : ∀ file bytes, state.Fixed file bytes → next.Fixed file bytes := by
    intro file bytes fixed
    refine fixed.keep made (holds file bytes fixed) fun task call temp todo called phase same => ?_
    obtain earlier | fresh := writes task call temp todo called phase
    · exact same ▸ earlier
    · have within := fixed.made
      omega
  refine ⟨admits, apart, fun key file stands => ?_, fun key file bytes out => ?_⟩
  · obtain stood | ⟨bytes, kept, still⟩ := entries key file stands
    · obtain ⟨bytes, kept, still⟩ := sound.entries key file stood
      exact ⟨bytes, stored _ kept, fixed file bytes still⟩
    · exact ⟨bytes, stored _ kept, fixed file bytes still⟩
  · obtain before | ⟨kept, still⟩ := opened key file bytes out
    · obtain ⟨kept, still⟩ := sound.opened key file bytes before
      exact ⟨stored _ kept, fixed file bytes still⟩
    · exact ⟨stored _ kept, fixed file bytes still⟩

omit [DecidableEq κ] in
/-- One call goes on or ends. -/
theorem turn (sound : state.Sound) (tasks : next.tasks = Function.update state.tasks task value)
    (stored : ∀ artifact ∈ state.stored, artifact ∈ next.stored) (made : state.made ≤ next.made)
    (holds : ∀ file bytes, state.Fixed file bytes → next.files file = state.files file)
    (writes : ∀ call temp todo, value = some call → call.phase = .writing temp todo →
      (∃ call before todo, state.tasks task = some call ∧ call.phase = .writing before todo ∧
        before.file = temp.file) ∨ state.made ≤ temp.file)
    (others : ∀ other call, other ≠ task → state.tasks other = some call → next.Admits call)
    (admits : ∀ call, value = some call → next.Admits call)
    (apart : ∀ call, value = some call → ∀ other theirs, other ≠ task →
      state.tasks other = some theirs → call.Apart theirs)
    (entries : ∀ key file, some file ∈ next.names (.entry key) :: next.past (.entry key) →
      some file ∈ state.names (.entry key) :: state.past (.entry key) ∨
        ∃ bytes, (key, bytes) ∈ state.stored ∧ state.Fixed file bytes)
    (opened : next.opened = state.opened) : next.Sound := by
  have own : next.tasks task = value := by rw [tasks, Function.update_self]
  have apiece : ∀ other, other ≠ task → next.tasks other = state.tasks other := by
    intro other elsewhere
    rw [tasks, Function.update_of_ne elsewhere]
  refine sound.carry stored made holds ?_ ?_ ?_ entries fun key file bytes out => .inl (opened ▸ out)
  · intro other call temp todo called phase
    by_cases same : other = task
    · subst same
      exact writes call temp todo (own ▸ called) phase
    · rw [apiece other same] at called
      exact .inl ⟨call, temp, todo, called, phase, rfl⟩
  · intro other call called
    by_cases same : other = task
    · subst same
      exact admits call (own ▸ called)
    · rw [apiece other same] at called
      exact others other call same called
  · intro one other call theirs first second distinct
    by_cases same : one = task
    · subst same
      rw [apiece other distinct.symm] at second
      exact apart call (own ▸ first) other theirs distinct.symm second
    · rw [apiece one same] at first
      by_cases last : other = task
      · subst last
        exact (apart theirs (own ▸ second) one call same first).symm
      · rw [apiece other last] at second
        exact sound.apart one other call theirs first second distinct

omit [DecidableEq κ] in
/-- A call goes on without touching the directory or a file, or ends. -/
theorem put (sound : state.Sound)
    (writes : ∀ call temp todo, value = some call → call.phase = .writing temp todo →
      (∃ call before todo, state.tasks task = some call ∧ call.phase = .writing before todo ∧
        before.file = temp.file) ∨ state.made ≤ temp.file)
    (admits : ∀ call, value = some call → state.Admits call)
    (apart : ∀ call, value = some call → ∀ other theirs, other ≠ task →
      state.tasks other = some theirs → call.Apart theirs) : (state.put task value).Sound := by
  have same : ∀ call, state.Admits call → (state.put task value).Admits call := by
    intro call admits
    exact admits.keep (fun serial runs => ⟨serial, runs, Nat.le_refl _⟩) (fun _ kept => kept)
      (Nat.le_refl _) (fun _ _ => rfl) fun _ _ _ stands => stands
  exact sound.turn rfl (fun _ kept => kept) (Nat.le_refl _) (fun _ _ _ => rfl) writes
    (fun other call _ called => same call (sound.admits other call called))
    (fun call called => same call (admits call called)) apart (fun _ _ stands => .inl stands) rfl

omit [DecidableEq κ] in
/-- A call ends. -/
theorem finish (sound : state.Sound) (task : τ) : (state.put task none).Sound :=
  sound.put (fun _ _ _ called => by cases called) (fun _ called => by cases called)
    fun _ called => by cases called

variable {bytes : List UInt8} {key : κ} {process : Nat} {temp : Temp κ}

section

variable (sound : state.Sound)

include sound

omit [DecidableEq κ] in
/-- A call takes the next number of its process. -/
theorem number {process serial : Nat}
    (stood : state.tasks task = some ⟨process, .numbering key bytes⟩)
    (runs : state.serials process = some serial) :
    ({ state with serials := Function.update state.serials process (some (serial + 1)) }.put task
      (some ⟨process, .creating key bytes serial⟩)).Sound := by
  refine sound.turn rfl (fun _ kept => kept) (Nat.le_refl _) (fun _ _ _ => rfl) ?_ ?_ ?_ ?_
    (fun _ _ stands => .inl stands) rfl
  · intro call temp todo called phase
    cases called
    cases phase
  · intro other call _ called
    refine (sound.admits other call called).keep ?_ (fun _ kept => kept) (Nat.le_refl _)
      (fun _ _ => rfl) fun _ _ _ stands => stands
    intro number running
    by_cases same : call.process = process
    · rw [same, runs] at running
      cases running
      exact ⟨serial + 1, by simp [State.put, same], by omega⟩
    · exact ⟨number, by simpa [State.put, same] using running, Nat.le_refl _⟩
  · intro call called
    cases called
    have fits := (sound.admits task _ stood).fits
    refine ⟨⟨serial + 1, by simp [State.put], ?_⟩, ?_, fits⟩
    · intro number taken
      cases taken
      omega
    · intro temp works
      cases works
  · intro call called other theirs elsewhere running
    cases called
    refine ⟨?_, fun temp _ works => by cases works⟩
    intro same number taken given
    cases taken
    -- The process has given out only the numbers before this one.
    obtain ⟨last, counts, below⟩ := (sound.admits other theirs running).running
    have within := below serial given
    rw [← same, runs] at counts
    cases counts
    omega

/-- A call creates its temp file. -/
theorem create {process serial : Nat}
    (stood : state.tasks task = some ⟨process, .creating key bytes serial⟩) :
    ((({ state with made := state.made + 1 }.setFile state.made ⟨[], false⟩).link
        (.temp key process serial) (some state.made)).put task
        (some ⟨process, .writing ⟨key, bytes, serial, state.made⟩ bytes⟩)).Sound := by
  have mine := sound.admits task _ stood
  refine sound.turn rfl (fun _ kept => kept) (Nat.le_succ _) ?_ ?_ ?_ ?_ ?_ ?_ rfl
  · intro file bytes fixed
    have apart : file ≠ state.made := Nat.ne_of_lt fixed.made
    simp [State.put, State.link, State.setFile, Function.update_of_ne apart]
  · intro call temp todo called phase
    cases called
    cases phase
    exact .inr (Nat.le_refl _)
  · intro other call elsewhere called
    have theirs := sound.admits other call called
    refine theirs.keep (fun number runs => ⟨number, runs, Nat.le_refl _⟩) (fun _ kept => kept)
      (Nat.le_succ _) ?_ ?_
    · intro temp works
      have apart : temp.file ≠ state.made := Nat.ne_of_lt (theirs.owns temp works).made
      simp [State.put, State.link, State.setFile, Function.update_of_ne apart]
    · intro temp file works stands
      -- The name is this call's: the other has another process or another number.
      have apart : Name.temp temp.key call.process temp.serial ≠ .temp key process serial := by
        intro same
        cases same
        have serials := (sound.apart task other _ call stood called elsewhere.symm).serials rfl
        refine serials temp.serial rfl ?_
        cases phase : call.phase <;> simp_all [Phase.temp, Phase.serial]
      simpa [State.put, State.link, State.setFile, Function.update_of_ne apart] using stands
  · intro call called
    cases called
    obtain ⟨next, runs, below⟩ := mine.running
    refine ⟨⟨next, runs, below⟩, ?_, ?_⟩
    · intro temp works
      cases works
      exact ⟨Nat.lt_succ_self _, mine.fits,
        fun file stands => by simpa [State.put, State.link, eq_comm] using stands⟩
    · simp [Phase.Fits, State.put, State.link, State.setFile]
  · intro call called other theirs elsewhere running
    cases called
    have before := sound.apart task other _ theirs stood running elsewhere.symm
    refine ⟨before.serials, ?_⟩
    intro temp held works holds
    cases works
    exact (Nat.ne_of_lt ((sound.admits other theirs running).owns held holds).made).symm
  · intro key file stands
    exact .inl (by simpa [State.put, State.link, State.setFile] using stands)

omit [DecidableEq κ] in
/-- A call changes its temp file, and nobody else's. -/
theorem touch {before after : Phase κ} {contents : File}
    (stood : state.tasks task = some ⟨process, before⟩) (worked : before.temp = some temp)
    (works : after.temp = some temp) (serial : after.serial = before.serial)
    (writes : ∀ todo, after = .writing temp todo → ∃ todo, before = .writing temp todo)
    (holds : ∀ bytes, state.Fixed temp.file bytes → contents = state.files temp.file)
    (fits : after.Fits (state.setFile temp.file contents)) :
    ((state.setFile temp.file contents).put task (some ⟨process, after⟩)).Sound := by
  have mine := sound.admits task _ stood
  have owns := mine.owns temp worked
  refine sound.turn rfl (fun _ kept => kept) (Nat.le_refl _) ?_ ?_ ?_ ?_ ?_
    (fun _ _ stands => .inl stands) rfl
  · intro file bytes fixed
    by_cases same : file = temp.file
    · subst same
      simp [State.put, State.setFile, holds bytes fixed]
    · simp [State.put, State.setFile, Function.update_of_ne same]
  · intro call held todo called phase
    cases called
    simp only at phase
    have same : held = temp := by
      rw [phase] at works
      exact Option.some.inj works
    subst same
    obtain ⟨rest, wrote⟩ := writes todo phase
    exact .inl ⟨_, held, rest, stood, wrote, rfl⟩
  · intro other call elsewhere called
    refine (sound.admits other call called).keep (fun number runs => ⟨number, runs, Nat.le_refl _⟩)
      (fun _ kept => kept) (Nat.le_refl _) ?_ fun _ _ _ stands => stands
    intro held theirs
    have apart : held.file ≠ temp.file :=
      ((sound.apart task other _ call stood called elsewhere.symm).files temp held worked theirs).symm
    simp [State.put, State.setFile, Function.update_of_ne apart]
  · intro call called
    cases called
    obtain ⟨next, runs, below⟩ := mine.running
    refine ⟨⟨next, runs, fun number taken => below number (serial ▸ taken)⟩, ?_, ?_⟩
    · intro held holds
      have same : temp = held := Option.some.inj (works.symm.trans holds)
      subst same
      exact ⟨owns.made, owns.stored, owns.named⟩
    · cases after <;> exact fits
  · intro call called other theirs elsewhere running
    cases called
    refine (sound.apart task other _ theirs stood running elsewhere.symm).goOn rfl ?_ ?_
    · intro number taken
      exact serial ▸ taken
    · intro held holds
      exact worked.trans (works.symm.trans holds)

omit [DecidableEq κ] [DecidableEq τ] in
/-- A call's temp file, written and synced, is fixed. -/
theorem fixed_of_moving (stood : state.tasks task = some ⟨process, .moving temp⟩) :
    state.Fixed temp.file temp.bytes := by
  have mine := sound.admits task _ stood
  refine ⟨(mine.owns temp rfl).made, mine.fits, ?_⟩
  intro other call held todo called phase
  have elsewhere : task ≠ other := by
    intro same
    subst same
    rw [stood] at called
    cases called
    cases phase
  have theirs : call.phase.temp = some held := by
    rw [phase]
    rfl
  exact ((sound.apart task other _ call stood called elsewhere).files temp held rfl theirs).symm

/-- A call renames its temp file to the artifact's name. -/
theorem move {process file : Nat} (stood : state.tasks task = some ⟨process, .moving temp⟩)
    (stands : state.names (.temp temp.key process temp.serial) = some file) :
    (((state.link (.entry temp.key) (some file)).link (.temp temp.key process temp.serial) none).put
      task (some ⟨process, .fsyncing temp.key⟩)).Sound := by
  have mine := sound.admits task _ stood
  have owns := mine.owns temp rfl
  have own : file = temp.file := owns.named file stands
  subst own
  refine sound.turn rfl (fun _ kept => kept) (Nat.le_refl _) (fun _ _ _ => rfl) ?_ ?_ ?_ ?_ ?_ rfl
  · intro call held todo called phase
    cases called
    cases phase
  · intro other call _ called
    refine (sound.admits other call called).keep (fun number runs => ⟨number, runs, Nat.le_refl _⟩)
      (fun _ kept => kept) (Nat.le_refl _) (fun _ _ => rfl) ?_
    intro held file works named
    by_cases same : Name.temp held.key call.process held.serial =
        .temp temp.key process temp.serial
    · simp [State.put, State.link, same] at named
    · simpa [State.put, State.link, Function.update_of_ne same] using named
  · intro call called
    cases called
    exact State.admits_of_none mine.runs rfl rfl trivial
  · intro call called other theirs _ _
    cases called
    exact Task.apart_of_none rfl rfl
  · intro key file named
    by_cases same : key = temp.key
    · subst same
      have past : file = temp.file ∨
          some file ∈ state.names (.entry temp.key) :: state.past (.entry temp.key) := by
        simpa [State.put, State.link] using named
      obtain here | before := past
      · subst here
        exact .inr ⟨temp.bytes, owns.stored, sound.fixed_of_moving stood⟩
      · exact .inl before
    · have elsewhere : Name.entry key ≠ .entry temp.key := by
        intro equal
        cases equal
        exact same rfl
      exact .inl (by simpa [State.put, State.link, Function.update_of_ne elsewhere] using named)

omit [DecidableEq κ] in
/-- A call goes on to a phase with neither a number nor a temp file. -/
theorem goOn {before after : Phase κ} (stood : state.tasks task = some ⟨process, before⟩)
    (serial : after.serial = none) (temp : after.temp = none) (fits : after.Fits state) :
    (state.put task (some ⟨process, after⟩)).Sound := by
  have runs := (sound.admits task _ stood).runs
  refine sound.put ?_ ?_ ?_
  · intro call held todo called phase
    cases called
    simp only at phase
    simp [phase, Phase.temp] at temp
  · intro call called
    cases called
    exact State.admits_of_none runs serial temp fits
  · intro call called other theirs _ _
    cases called
    exact Task.apart_of_none serial temp

omit [DecidableEq κ] [DecidableEq τ] in
/-- The directory is synced. -/
theorem fsync : ({ state with past := fun _ => [] } : State κ τ).Sound := by
  refine sound.carry (fun _ kept => kept) (Nat.le_refl _) (fun _ _ _ => rfl) ?_ ?_ sound.apart ?_
    fun _ _ _ out => .inl out
  · intro task call temp todo called phase
    exact .inl ⟨call, temp, todo, called, phase, rfl⟩
  · intro task call called
    exact (sound.admits task call called).keep (fun number runs => ⟨number, runs, Nat.le_refl _⟩)
      (fun _ kept => kept) (Nat.le_refl _) (fun _ _ => rfl) fun _ _ _ stands => stands
  · intro key file stands
    have now : some file = state.names (.entry key) := by simpa using stands
    exact .inl (by simp [now])

omit [DecidableEq τ] in
/-- A name is taken away. -/
theorem unlink (name : Name κ) : (state.link name none).Sound := by
  refine sound.carry (fun _ kept => kept) (Nat.le_refl _) (fun _ _ _ => rfl) ?_ ?_ sound.apart ?_
    fun _ _ _ out => .inl out
  · intro task call temp todo called phase
    exact .inl ⟨call, temp, todo, called, phase, rfl⟩
  · intro task call called
    refine (sound.admits task call called).keep (fun number runs => ⟨number, runs, Nat.le_refl _⟩)
      (fun _ kept => kept) (Nat.le_refl _) (fun _ _ => rfl) ?_
    intro temp file _ stands
    by_cases same : Name.temp temp.key call.process temp.serial = name
    · simp [State.link, same] at stands
    · simpa [State.link, Function.update_of_ne same] using stands
  · intro key file stands
    by_cases same : Name.entry key = name
    · subst same
      exact .inl (by simpa [State.link] using stands)
    · exact .inl (by simpa [State.link, Function.update_of_ne same] using stands)

omit [DecidableEq κ] in
/-- A call of `store_artifact` begins. -/
theorem store (runs : state.serials process ≠ none) :
    ({ state with stored := (key, bytes) :: state.stored }.put task
      (some ⟨process, .numbering key bytes⟩)).Sound := by
  refine sound.turn rfl (fun _ kept => List.mem_cons_of_mem _ kept) (Nat.le_refl _)
    (fun _ _ _ => rfl) ?_ ?_ ?_ ?_ (fun _ _ stands => .inl stands) rfl
  · intro call temp todo called phase
    cases called
    cases phase
  · intro other call _ called
    exact (sound.admits other call called).keep (fun number runs => ⟨number, runs, Nat.le_refl _⟩)
      (fun _ kept => List.mem_cons_of_mem _ kept) (Nat.le_refl _) (fun _ _ => rfl)
      fun _ _ _ stands => stands
  · intro call called
    cases called
    exact State.admits_of_none runs rfl rfl List.mem_cons_self
  · intro call called other theirs _ _
    cases called
    exact Task.apart_of_none rfl rfl

omit [DecidableEq κ] [DecidableEq τ]

/-- A process starts. -/
theorem spawn (fresh : state.serials process = none) :
    ({ state with serials := Function.update state.serials process (some 0) } :
      State κ τ).Sound := by
  refine sound.carry (fun _ kept => kept) (Nat.le_refl _) (fun _ _ _ => rfl) ?_ ?_ sound.apart
    (fun _ _ stands => .inl stands) fun _ _ _ out => .inl out
  · intro task call temp todo called phase
    exact .inl ⟨call, temp, todo, called, phase, rfl⟩
  · intro task call called
    have admits := sound.admits task call called
    have elsewhere : call.process ≠ process := by
      intro same
      exact admits.runs (same ▸ fresh)
    exact admits.keep (fun number runs => ⟨number, by simpa [elsewhere] using runs, Nat.le_refl _⟩)
      (fun _ kept => kept) (Nat.le_refl _) (fun _ _ => rfl) fun _ _ _ stands => stands

/-- A process ends, and its calls with it. -/
theorem exit (process : Nat) :
    ({ state with
        serials := Function.update state.serials process none
        tasks := fun task => (state.tasks task).filter fun call => call.process ≠ process } :
      State κ τ).Sound := by
  have left : ∀ task call,
      ((state.tasks task).filter fun call => call.process ≠ process) = some call →
        state.tasks task = some call ∧ call.process ≠ process := by
    intro task call called
    simpa [Option.filter_eq_some_iff] using called
  refine sound.carry (fun _ kept => kept) (Nat.le_refl _) (fun _ _ _ => rfl) ?_ ?_ ?_
    (fun _ _ stands => .inl stands) fun _ _ _ out => .inl out
  · intro task call temp todo called phase
    exact .inl ⟨call, temp, todo, (left task call called).1, phase, rfl⟩
  · intro task call called
    obtain ⟨stood, elsewhere⟩ := left task call called
    exact (sound.admits task call stood).keep
      (fun number runs => ⟨number, by simpa [elsewhere] using runs, Nat.le_refl _⟩)
      (fun _ kept => kept) (Nat.le_refl _) (fun _ _ => rfl) fun _ _ _ stands => stands
  · intro task other call theirs one two distinct
    exact sound.apart task other call theirs (left task call one).1 (left other theirs two).1 distinct

/-- An artifact is opened. -/
theorem load {file : Nat} (stands : state.names (.entry key) = some file) :
    ({ state with opened := (key, file, (state.files file).content) :: state.opened } :
      State κ τ).Sound := by
  refine sound.carry (fun _ kept => kept) (Nat.le_refl _) (fun _ _ _ => rfl) ?_ ?_ sound.apart
    (fun _ _ stands => .inl stands) ?_
  · intro task call temp todo called phase
    exact .inl ⟨call, temp, todo, called, phase, rfl⟩
  · intro task call called
    exact (sound.admits task call called).keep (fun number runs => ⟨number, runs, Nat.le_refl _⟩)
      (fun _ kept => kept) (Nat.le_refl _) (fun _ _ => rfl) fun _ _ _ stands => stands
  · intro named found bytes out
    obtain same | before := List.mem_cons.mp out
    · cases same
      obtain ⟨bytes, kept, fixed⟩ := sound.entries key file (by simp [stands])
      have content : (state.files file).content = bytes := by rw [fixed.holds]
      exact .inr (content.symm ▸ ⟨kept, fixed⟩)
    · exact .inl before

/-- The machine crashes. -/
theorem crash (garbled : Nat → List UInt8) (kept : Name κ → Nat) :
    (state.crash garbled kept).Sound := by
  refine ⟨fun _ _ called => ?_, fun _ _ _ _ called => ?_, ?_, fun _ _ _ out => ?_⟩
  case refine_1 => cases called
  case refine_2 => cases called
  case refine_4 => cases out
  intro key file stands
  -- The name stands as at some moment since the directory was synced, for a synced file.
  have past : some file ∈ state.names (.entry key) :: state.past (.entry key) := by
    have now : (state.names (.entry key) :: state.past (.entry key)).getD (kept (.entry key))
        (state.names (.entry key)) = some file := (List.mem_singleton.mp stands).symm
    rw [← now, List.getD_eq_getElem?_getD]
    cases found : (state.names (.entry key) :: state.past (.entry key))[kept (.entry key)]? with
    | none => exact List.mem_cons_self
    | some value => exact List.mem_of_getElem? found
  obtain ⟨bytes, stored, fixed⟩ := sound.entries key file past
  refine ⟨bytes, stored, fixed.made, ?_, fun _ _ _ _ called => by cases called⟩
  simp [State.crash, fixed.holds]

end

end State.Sound

namespace State

omit [DecidableEq κ] [DecidableEq τ] in
/-- An empty directory is sound. -/
theorem new_sound : (State.new : State κ τ).Sound := by
  refine ⟨fun _ _ called => ?_, fun _ _ _ _ called => ?_, fun _ _ stands => ?_, fun _ _ _ out => ?_⟩
  · cases called
  · cases called
  · simp [State.new] at stands
  · cases out

/-- Each system call of a store keeps the directory sound. -/
theorem advance_sound (sound : state.Sound) {process : Nat} {phase : Phase κ}
    (stood : state.tasks task = some ⟨process, phase⟩)
    (stepped : state.advance task process phase = some next) : next.Sound := by
  cases phase with
  | numbering key bytes =>
    simp only [advance] at stepped
    split at stepped
    · cases stepped
    · rename_i serial runs
      cases stepped
      exact sound.number stood runs
  | creating key bytes serial =>
    simp only [advance] at stepped
    split at stepped
    · cases stepped
      exact sound.finish task
    · cases stepped
      exact sound.create stood
  | writing temp todo =>
    simp only [advance] at stepped
    split at stepped
    · rename_i written
      cases stepped
      subst written
      -- The file is changed to what it already is.
      have same : state.setFile temp.file (state.files temp.file) = state := by
        simp [setFile]
      have fits : (state.files temp.file).content ++ [] = temp.bytes :=
        (sound.admits task _ stood).fits
      rw [List.append_nil] at fits
      have touched : ((state.setFile temp.file (state.files temp.file)).put task
          (some ⟨process, .syncing temp⟩)).Sound :=
        sound.touch stood rfl rfl rfl (fun _ wrote => by cases wrote) (fun _ _ => rfl)
          (by rw [same]; exact fits)
      rwa [same] at touched
    · cases stepped
  | syncing temp =>
    simp only [advance] at stepped
    cases stepped
    have fits : (state.files temp.file).content = temp.bytes := (sound.admits task _ stood).fits
    refine sound.touch stood rfl rfl rfl (fun _ wrote => by cases wrote) ?_ ?_
    · intro bytes fixed
      rw [fixed.holds]
    · simp [Phase.Fits, setFile, fits]
  | moving temp =>
    simp only [advance] at stepped
    split at stepped
    · cases stepped
      exact sound.finish task
    · rename_i file stands
      cases stepped
      exact sound.move stood stands
  | fsyncing key =>
    cases stepped
    exact sound.fsync.goOn stood rfl rfl trivial
  | pruning key =>
    cases stepped
    exact sound.finish task

/-- Every step keeps the directory sound. -/
theorem step_sound (state : State κ τ) (event : Event κ τ) (next : State κ τ)
    (sound : state.Sound) (stepped : state.step event = some next) : next.Sound := by
  cases event with
  | spawn process =>
    simp only [step] at stepped
    split at stepped
    · rename_i fresh
      cases stepped
      exact sound.spawn fresh
    · cases stepped
  | exit process =>
    cases stepped
    exact sound.exit process
  | store task process key bytes =>
    simp only [step] at stepped
    split at stepped
    · rename_i free
      cases stepped
      exact sound.store free.2
    · cases stepped
  | step task =>
    simp only [step] at stepped
    split at stepped
    · cases stepped
    · rename_i call stood
      exact advance_sound sound stood stepped
  | fail task =>
    simp only [step] at stepped
    split at stepped
    · cases stepped
    · rename_i process key stood
      cases stepped
      exact sound.goOn stood rfl rfl trivial
    · cases stepped
      exact sound.finish task
  | write task count =>
    simp only [step] at stepped
    split at stepped
    · rename_i process temp todo stood
      split at stepped
      · cases stepped
        have fits : (state.files temp.file).content ++ todo = temp.bytes :=
          (sound.admits task _ stood).fits
        refine sound.touch stood rfl rfl rfl (fun _ _ => ⟨todo, rfl⟩) ?_ ?_
        · intro bytes fixed
          exact absurd rfl (fixed.unwritten task _ temp todo stood rfl)
        · simpa [Phase.Fits, setFile, List.append_assoc] using fits
      · cases stepped
    · cases stepped
  | unlink task name =>
    simp only [step] at stepped
    split at stepped
    · split at stepped
      · cases stepped
      · cases stepped
        exact sound.unlink name
    · cases stepped
  | load key =>
    simp only [step] at stepped
    split at stepped
    · cases stepped
    · rename_i file stands
      cases stepped
      exact sound.load stands
  | crash garbled kept =>
    cases stepped
    exact sound.crash garbled kept

/-- Whatever processes share the directory, in whichever order their system calls fall, wherever
they fail or exit, and however often the machine crashes: every file opened under an artifact's name
holds, for as long as the machine runs, all the bytes some store of that artifact wrote; so does the
file each artifact's name stands for; and no two stores work on one file. -/
theorem opened_artifacts_are_whole (reached : Reachable step (.new : State κ τ) state) :
    (∀ key file bytes, (key, file, bytes) ∈ state.opened →
      (key, bytes) ∈ state.stored ∧ (state.files file).content = bytes) ∧
    (∀ key file, state.names (.entry key) = some file →
      ∃ bytes, (key, bytes) ∈ state.stored ∧ state.files file = ⟨bytes, true⟩) ∧
    (∀ task other call theirs temp held, state.tasks task = some call →
      state.tasks other = some theirs → call.phase.temp = some temp →
      theirs.phase.temp = some held → temp.file = held.file → task = other) := by
  have sound : state.Sound := reached.invariant step new_sound step_sound
  refine ⟨?_, ?_, ?_⟩
  · intro key file bytes out
    obtain ⟨stored, fixed⟩ := sound.opened key file bytes out
    exact ⟨stored, by rw [fixed.holds]⟩
  · intro key file stands
    obtain ⟨bytes, stored, fixed⟩ := sound.entries key file (by simp [stands])
    exact ⟨bytes, stored, fixed.holds⟩
  · intro task other call theirs temp held one two mine works same
    by_contra distinct
    exact (sound.apart task other call theirs one two distinct).files temp held mine works same

/-- The machine crashes in the middle of a store. The process that comes back has the same number
and finds its first temp file's name taken; its second store lands, and the artifact is opened. -/
def storedAgain : List (Event Unit Unit) :=
  [.spawn 7, .store () 7 () [1, 2], .step (), .step (), .write () 1,
    .crash (fun _ => [9]) (fun _ => 0),
    .spawn 7, .store () 7 () [1, 2], .step (), .step (), .store () 7 () [1, 2], .step (), .step (),
    .write () 1, .write () 1, .step (), .step (), .step (), .load ()]

theorem opened_artifacts_are_whole_again :
    ∃ state, run step .new storedAgain = some state ∧ ((), 1, [1, 2]) ∈ state.opened ∧
      ((), [1, 2]) ∈ state.stored ∧ (state.files 1).content = [1, 2] := by
  refine ⟨_, rfl, List.mem_cons_self, ?_⟩
  exact (opened_artifacts_are_whole ⟨storedAgain, rfl⟩).1 () 1 [1, 2] List.mem_cons_self

end State

end Kobako.Artifacts
