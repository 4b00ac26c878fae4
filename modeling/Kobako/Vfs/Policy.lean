import Kobako.Vfs.ReadOnly

/-!
# Policies

A Mount's Policy, a security module that answers only for that Mount: it judges the path an entry
stands at when its hook is asked. Wherever its module is registered, a file open beneath the Mount
was allowed, by a hook of the request that opened it, for what it was opened for; a name that a
change adds, removes or alters was allowed to be changed, by a hook the same request asked before
the change or, where the change goes through a file, by one of the request that opened the file;
and no directory is moved. The one change a Policy is not asked for first is the one a Filesystem
makes unasked: an `atomic_open` that empties the file it opens does so before the hook of the open
is asked.
-/

namespace Kobako.Vfs

variable {M D F : Type}

/-- `security::MountPolicy`, the Policy a function of the path and the access. -/
structure MountPolicy (M : Type) where
  /-- The mount it guards. -/
  mnt : M
  /-- The absolute guest path the Mount stands at. -/
  «at» : String
  /-- `Policy::allows`. -/
  allows : String → Access → Bool

namespace MountPolicy

/-- `MountPolicy::guest_path`. -/
def guestPath (policy : MountPolicy M) (path : String) : String :=
  if path = "/" then policy.at
  else if policy.at = "/" then path
  else policy.at ++ path

variable [DecidableEq M] (sys : System M D F) (policy : MountPolicy M)

/-- `MountPolicy::path_perm`. -/
def pathPerm (now : Nat) (path : M × D) (access : Access) : Except FsError Unit :=
  if path.1 ≠ policy.mnt then .ok ()
  else
    let guest := policy.guestPath (sys.pathRaw now path.2)
    if guest.utf8ByteSize ≥ pathMax then .error .invalidFilename
    else if policy.allows guest access then .ok ()
    else .error .permissionDenied

/-- The access an open is judged for, by `MountPolicy::file_open`. -/
def openAccess (mode : FMode) (how : OpenAsk) : Access :=
  if mode.created || mode.write || how.truncate then .readWrite else .read

variable [DecidableEq D]

/-- The hooks of `MountPolicy`. -/
def hooks : SecurityModule M D
  | _, .inodePermission _ _ => .ok none
  | now, .pathMknod path | now, .pathMkdir path | now, .pathRmdir path | now, .pathUnlink path
  | now, .pathSymlink path | now, .pathUtimes path => do
    policy.pathPerm sys now path .readWrite
    pure none
  | now, .pathLink old new => do
    policy.pathPerm sys now old .readWrite
    policy.pathPerm sys now new .readWrite
    pure none
  | now, .pathRename old new => do
    policy.pathPerm sys now old .readWrite
    policy.pathPerm sys now new .readWrite
    let movesDir := sys.env.kind now old.2 = some .dir ∧ old.2 ≠ new.2
    if movesDir ∧ old.1 = policy.mnt then throw .crossesDevices
    pure none
  | now, .fileOpen path _ mode how => do
    if path.1 ≠ policy.mnt then pure none
    else
      if !mode.created then policy.pathPerm sys now path (openAccess mode how)
      pure (some (.allowedAccess (openAccess mode how)))
  | _, .fileTruncate kept =>
    match kept with
    | some (.allowedAccess .read) => .error .permissionDenied
    | _ => .ok none

end MountPolicy

/-! ## What a run shows of a Policy -/

/-- The paths a hook is handed. -/
def Hook.paths : Hook M D → List (M × D)
  | .inodePermission _ _ | .fileTruncate _ => []
  | .pathMknod path | .pathMkdir path | .pathRmdir path | .pathUnlink path | .pathSymlink path
  | .pathUtimes path | .fileOpen path _ _ _ => [path]
  | .pathLink old new | .pathRename old new => [old, new]

/-- The names an event adds, removes or alters: an open that asks to truncate may empty the entry,
as an open of a Filesystem written in Ruby does. -/
def Event.changes : Event M D → List (M × D)
  | .hook _ _ => []
  | .made m child | .emptied m child => [(m, child)]
  | .op _ m asked => match asked with
    | .create _ child | .mkdir _ child | .symlink _ child _ | .unlink _ child | .rmdir _ child
    | .setattr child _ => [(m, child)]
    | .link old _ child => [(m, old), (m, child)]
    | .rename _ old _ new => [(m, old), (m, new)]
    | .writeIter d _ | .fallocate d _ => [(m, d)]
    | .open child how => if how.truncate then [(m, child)] else []
    | .atomicOpen .. => []

section

variable (sys : System M D F) (policy : MountPolicy M)

/-- The Policy allowed, by a hook asked among `asked`, the path at which an entry stood then. -/
def Allowed (asked : List (Event M D)) (d : D) (access : Access) : Prop :=
  ∃ now hook, .hook now hook ∈ asked ∧ (policy.mnt, d) ∈ hook.paths ∧
    policy.allows (policy.guestPath (sys.pathRaw now d)) access = true

variable [DecidableEq M] [DecidableEq D]

/-- The Policy allowed an entry, by a hook of the request that handed out the file at `fd`. -/
def AllowedAtOpen (requests : List (System.Request M D)) (fd : Nat) (d : D) (access : Access) :
    Prop :=
  ∃ earlier opening asked, sys.HandedOut requests fd earlier opening asked ∧
    Allowed sys policy asked d access

/-- A Policy mediates a run: each file it handed out, each change it made, and no directory
moved. -/
structure Mediates (requests : List (System.Request M D)) : Prop where
  /-- A file open to write was allowed to be changed, by the request that opened it. -/
  writes : ∀ fd file, (sys.after requests).files[fd]? = some file → file.mnt = policy.mnt →
    file.mode.write = true → AllowedAtOpen sys policy requests fd file.dentry .readWrite
  /-- A file open to read was allowed to be read, or changed, by the request that opened it. -/
  reads : ∀ fd file, (sys.after requests).files[fd]? = some file → file.mnt = policy.mnt →
    file.mode.read = true → ∃ access, AllowedAtOpen sys policy requests fd file.dentry access
  /-- A name was allowed to be changed before it was: by the request that changes it, or by the one
  that opened to write the file it is changed through. -/
  changes : ∀ newer event older, (sys.after requests).log = newer ++ event :: older →
    ∃ before request own, sys.AskedBy requests event older before request own ∧
      ∀ d, (policy.mnt, d) ∈ event.changes → Allowed sys policy own d .readWrite ∨
        ∃ fd, WritesThrough (sys.after before) request fd policy.mnt d ∧
          AllowedAtOpen sys policy before fd d .readWrite
  /-- No directory is moved. -/
  still : ∀ now oldDir old newDir new,
    .op now policy.mnt (.rename oldDir old newDir new) ∈ (sys.after requests).log →
      sys.env.kind now old ≠ some .dir

end

/-- What the trait says of a Filesystem's own `atomic_open`: it makes a file only where it is
asked to. -/
def Filesystem.MakesAsAsked (fs : Filesystem D F) : Prop :=
  ∀ now dir child how finish, fs.atomicOpen now dir child how = some (.ok finish) →
    finish.made = true → how.create = true

/-! ## Mediation -/

/-- A module among those registered allows what all of them allow. -/
theorem callIntHook_mem {cred : Cred M D} {answers : SecurityModule M D} (mem : answers ∈ cred)
    {now : Nat} {hook : Hook M D} {kept : List FileSecurity}
    (allowed : cred.callIntHook now hook = .ok kept) :
    ∃ own, answers now hook = .ok own := by
  induction cred generalizing kept with
  | nil => cases mem
  | cons first cred ih =>
    unfold Cred.callIntHook at allowed
    rw [List.mapM_cons] at allowed
    cases told : first now hook with
    | error e =>
      rw [told] at allowed
      cases allowed
    | ok own =>
      rw [told] at allowed
      cases rest : cred.mapM fun answers => answers now hook with
      | error e =>
        rw [rest] at allowed
        cases allowed
      | ok others =>
        rcases List.mem_cons.mp mem with rfl | there
        · exact ⟨own, told⟩
        · exact ih there rest

/-- The first of two answers an `Except` block needs. -/
theorem bind_ok {ε α β : Type} {first : Except ε α} {next : α → Except ε β} {b : β}
    (ok : (first >>= next) = .ok b) : ∃ a, first = .ok a ∧ next a = .ok b := by
  cases first with
  | ok a => exact ⟨a, rfl, ok⟩
  | error e => cases ok

/-- A hook judged as a change. -/
def Hook.JudgesChange : Hook M D → Prop
  | .inodePermission _ _ | .fileTruncate _ => False
  | .pathMknod _ | .pathMkdir _ | .pathRmdir _ | .pathUnlink _ | .pathSymlink _ | .pathUtimes _
  | .pathLink _ _ | .pathRename _ _ => True
  | .fileOpen _ _ mode how => mode.created = false ∧ (mode.write = true ∨ how.truncate = true)

section

variable [DecidableEq M] [DecidableEq D] {sys : System M D F} {policy : MountPolicy M}

/-- What the Policy grants: its module allows the hook. -/
def MountPolicy.Grants (sys : System M D F) (policy : MountPolicy M) (now : Nat)
    (hook : Hook M D) : Prop := ∃ kept, policy.hooks sys now hook = .ok kept

/-- A Policy whose module is registered grants what every module allows. -/
theorem judges_of_mem {cred : Cred M D} (mem : policy.hooks sys ∈ cred) :
    Judges (policy.Grants sys) cred :=
  fun _ _ _ allowed => callIntHook_mem mem allowed

variable {d : D} {now : Nat} {hook : Hook M D} {setting : Setting M D F} {log : List (Event M D)}

omit [DecidableEq D] in
/-- A path beneath the Mount that is let through was allowed. -/
theorem pathPerm_ok {access : Access}
    (ok : policy.pathPerm sys now (policy.mnt, d) access = .ok ()) :
    policy.allows (policy.guestPath (sys.pathRaw now d)) access = true := by
  unfold MountPolicy.pathPerm at ok
  rw [if_neg (not_not.mpr rfl)] at ok
  dsimp only at ok
  split at ok
  · cases ok
  · split at ok
    · rename_i allows
      exact allows
    · cases ok

/-- A Policy that grants an open of what stood allows the path for what the open asks. -/
theorem grants_open {path : M × D} {kind : FileType} {mode : FMode} {how : OpenAsk}
    (granted : policy.Grants sys now (.fileOpen path kind mode how)) (stood : mode.created = false)
    (handed : (policy.mnt, d) ∈ [path]) :
    policy.allows (policy.guestPath (sys.pathRaw now d)) (MountPolicy.openAccess mode how) = true := by
  obtain ⟨kept, ok⟩ := granted
  rw [← List.mem_singleton.mp handed] at ok
  simp only [MountPolicy.hooks, ne_eq, not_true_eq_false, if_false, stood, Bool.not_false,
    if_true] at ok
  obtain ⟨_, perm, -⟩ := bind_ok ok
  exact pathPerm_ok perm

/-- A Policy that grants a move moves no directory beneath its Mount. -/
theorem grants_rename {old new : D}
    (granted : policy.Grants sys now (.pathRename (policy.mnt, old) (policy.mnt, new)))
    (other : old ≠ new) : sys.env.kind now old ≠ some .dir := by
  intro dir
  obtain ⟨kept, ok⟩ := granted
  obtain ⟨_, -, rest⟩ := bind_ok ok
  obtain ⟨_, -, judged⟩ := bind_ok rest
  rw [if_pos ⟨⟨dir, other⟩, rfl⟩] at judged
  cases judged

/-- A Policy that grants a hook that judges a change allows every path it is handed to be
changed. -/
theorem grants_change (granted : policy.Grants sys now hook) (judges : hook.JudgesChange)
    (handed : (policy.mnt, d) ∈ hook.paths) :
    policy.allows (policy.guestPath (sys.pathRaw now d)) .readWrite = true := by
  obtain ⟨kept, ok⟩ := granted
  have one : ∀ {path : M × D}, (policy.mnt, d) ∈ [path] →
      (do policy.pathPerm sys now path .readWrite; pure none : Except FsError FileSecurity) =
        .ok kept →
      policy.allows (policy.guestPath (sys.pathRaw now d)) .readWrite = true := by
    intro path handed ok
    obtain ⟨_, perm, -⟩ := bind_ok ok
    rw [← List.mem_singleton.mp handed] at perm
    exact pathPerm_ok perm
  cases hook with
  | inodePermission dentry mask => cases judges
  | fileTruncate kept => cases judges
  | pathMknod path => exact one handed ok
  | pathMkdir path => exact one handed ok
  | pathRmdir path => exact one handed ok
  | pathUnlink path => exact one handed ok
  | pathSymlink path => exact one handed ok
  | pathUtimes path => exact one handed ok
  | pathLink old new | pathRename old new =>
    obtain ⟨_, first, rest⟩ := bind_ok ok
    obtain ⟨_, second, -⟩ := bind_ok rest
    rcases List.mem_cons.mp handed with same | there
    · rw [← same] at first
      exact pathPerm_ok first
    · rw [← List.mem_singleton.mp there] at second
      exact pathPerm_ok second
  | fileOpen path kind mode how =>
    have access := grants_open ⟨kept, ok⟩ judges.1 handed
    have change : MountPolicy.openAccess mode how = .readWrite := by
      unfold MountPolicy.openAccess
      rcases judges.2 with write | truncate
      · rw [write, Bool.or_true, Bool.true_or, if_pos rfl]
      · rw [truncate, Bool.or_true, if_pos rfl]
    rw [change] at access
    exact access

section

omit [DecidableEq M] [DecidableEq D]

/-- A hook asked was asked of a longer log. -/
theorem Asked.weaken {log log' : List (Event M D)} (asked : Asked log hook)
    (longer : ∀ event ∈ log, event ∈ log') : Asked log' hook := by
  obtain ⟨now, mem⟩ := asked
  exact ⟨now, longer _ mem⟩

/-- Each event of a licensed list is licensed by those before it. -/
theorem AllLicensed.event {newer older : List (Event M D)} {event : Event M D}
    (all : AllLicensed sys setting (newer ++ event :: older)) :
    Licensed sys setting older event := by
  have here : AllLicensed sys setting (event :: older) := all.drop
  exact here.1

/-- A hook of a licensed list was granted. -/
theorem AllLicensed.granted (all : AllLicensed sys setting log) (mem : .hook now hook ∈ log) :
    setting.granted now hook := by
  obtain ⟨newer, older, rfl⟩ := List.append_of_mem mem
  exact all.event

/-- What a Filesystem that makes as it is asked said it made was judged to be made. -/
theorem AllLicensed.mknod (asked : sys.fs.MakesAsAsked) (all : AllLicensed sys setting log) {m : M}
    {child : D} (made : Licensed sys setting log (.made m child)) :
    Asked log (.pathMknod (m, child)) := by
  obtain ⟨now, dir, how, opened, said⟩ := made
  have create : how.create = true := by
    rcases said with create | ⟨finish, answered, made⟩
    · exact create
    · exact asked now dir child how finish answered made
  obtain ⟨between, oldest, rfl⟩ := List.append_of_mem opened
  have licensed : LicensedOp sys setting oldest now m (.atomicOpen dir child how) := all.event
  obtain ⟨-, judged⟩ := licensed.1 create
  exact judged.weaken fun event mem => by simp [mem]

/-- What a Filesystem that makes as it is asked was noted to have made was judged to be made. -/
theorem AllLicensed.mknod_of_mem (asked : sys.fs.MakesAsAsked) (all : AllLicensed sys setting log)
    {m : M} {child : D} (mem : .made m child ∈ log) : Asked log (.pathMknod (m, child)) := by
  obtain ⟨newer, older, rfl⟩ := List.append_of_mem mem
  have before : AllLicensed sys setting (.made m child :: older) := all.drop
  exact (before.2.mknod asked before.1).weaken fun event mem => by simp [mem]

end

section Granted

variable {setting : Setting M D F} {log : List (Event M D)}

/-- A hook asked that judges a change allowed each path it was handed. -/
theorem Asked.allowed (grants : setting.granted = policy.Grants sys)
    (all : AllLicensed sys setting log) {hook : Hook M D} (asked : Asked log hook)
    (judges : hook.JudgesChange) {d : D} (handed : (policy.mnt, d) ∈ hook.paths) :
    Allowed sys policy log d .readWrite := by
  obtain ⟨now, mem⟩ := asked
  have granted := all.granted mem
  rw [grants] at granted
  exact ⟨now, hook, mem, handed, grants_change granted judges handed⟩

/-- An entry opened to be changed was allowed to be. -/
theorem OpenedToChange.allowed (making : sys.fs.MakesAsAsked)
    (grants : setting.granted = policy.Grants sys) (all : AllLicensed sys setting log) {d : D}
    (opened : OpenedToChange log policy.mnt d) : Allowed sys policy log d .readWrite := by
  obtain ⟨kind, mode, how, ⟨asked, made⟩, asks⟩ := opened
  cases created : mode.created with
  | true =>
    have judged := all.mknod_of_mem making (made created)
    exact judged.allowed grants all trivial (List.mem_singleton.mpr rfl)
  | false => exact asked.allowed grants all ⟨created, asks⟩ (List.mem_singleton.mpr rfl)

/-- A licensed event allowed each name it changes, or changes what the request's file was opened to
change, where the Filesystem empties no file in its own `atomic_open`. -/
theorem Licensed.changes_allowed (making : sys.fs.MakesAsAsked)
    (keeps : ∀ now d, sys.fs.empties now d = false)
    (grants : setting.granted = policy.Grants sys) (all : AllLicensed sys setting log)
    {event : Event M D} (licensed : Licensed sys setting log event) {d : D}
    (changed : (policy.mnt, d) ∈ event.changes) :
    Allowed sys policy log d .readWrite ∨ setting.held policy.mnt d := by
  have single : ∀ {m : M} {child : D}, (policy.mnt, d) ∈ [(m, child)] →
      m = policy.mnt ∧ child = d := by
    intro m child mem
    cases List.mem_singleton.mp mem
    exact ⟨rfl, rfl⟩
  have judged : ∀ {hook : Hook M D}, Asked log hook → hook.JudgesChange →
      (policy.mnt, d) ∈ hook.paths →
      Allowed sys policy log d .readWrite ∨ setting.held policy.mnt d :=
    fun asked judges handed => .inl (asked.allowed grants all judges handed)
  cases event with
  | hook now hook => cases changed
  | made m child =>
    obtain ⟨rfl, rfl⟩ := single changed
    exact judged (all.mknod making licensed) trivial (List.mem_singleton.mpr rfl)
  | emptied m child =>
    obtain ⟨now, dir, how, -, -, empties⟩ := licensed
    rw [keeps] at empties
    cases empties
  | op now m op =>
    have licensed : LicensedOp sys setting log now m op := licensed
    cases op with
    | create dir child => exact judged licensed.2 trivial changed
    | mkdir dir child => exact judged licensed.2 trivial changed
    | symlink dir child target => exact judged licensed.2 trivial changed
    | unlink dir child => exact judged licensed.2 trivial changed
    | rmdir dir child => exact judged licensed.2 trivial changed
    | link old dir child => exact judged licensed.2 trivial changed
    | rename oldDir old newDir new =>
      obtain ⟨-, -, then_, mem, -⟩ := licensed
      exact judged ⟨then_, mem⟩ trivial changed
    | setattr child attr =>
      rcases licensed.2 with timed | opened | held
      · exact judged timed trivial changed
      · obtain ⟨rfl, rfl⟩ := single changed
        exact .inl (opened.allowed making grants all)
      · obtain ⟨rfl, rfl⟩ := single changed
        exact .inr held
    | writeIter child kind =>
      obtain ⟨rfl, rfl⟩ := single changed
      exact .inr licensed.2
    | fallocate child kind =>
      obtain ⟨rfl, rfl⟩ := single changed
      exact .inr licensed.2
    | atomicOpen dir child how => cases changed
    | «open» child how =>
      have changed : (policy.mnt, d) ∈ if how.truncate then [(m, child)] else [] := changed
      cases truncate : how.truncate with
      | false =>
        rw [truncate] at changed
        cases changed
      | true =>
        rw [truncate] at changed
        obtain ⟨rfl, rfl⟩ := single changed
        exact .inl ((licensed.2 truncate).allowed making grants all)

/-- A file open to write was allowed to be changed, by the request that opened it. -/
theorem LicensedFile.writes_allowed (making : sys.fs.MakesAsAsked)
    (grants : setting.granted = policy.Grants sys) (all : AllLicensed sys setting log)
    {file : File M D F} (licensed : LicensedFile sys log file) (mounted : file.mnt = policy.mnt)
    (write : file.mode.write = true) : Allowed sys policy log file.dentry .readWrite := by
  obtain ⟨kind, mode, how, opened, same⟩ := licensed.opened (.inr write)
  rw [mounted] at opened
  exact OpenedToChange.allowed making grants all
    ⟨kind, mode, how, opened, .inl (same.trans write)⟩

/-- A file open for anything was allowed to be opened, by the request that opened it. -/
theorem LicensedFile.allowed (making : sys.fs.MakesAsAsked)
    (grants : setting.granted = policy.Grants sys) (all : AllLicensed sys setting log)
    {file : File M D F} (licensed : LicensedFile sys log file) (mounted : file.mnt = policy.mnt)
    (opened : file.mode.read = true ∨ file.mode.write = true) :
    ∃ access, Allowed sys policy log file.dentry access := by
  obtain ⟨kind, mode, how, ⟨⟨now, mem⟩, made⟩, -⟩ := licensed.opened opened
  rw [mounted] at mem made
  have handed : (policy.mnt, file.dentry) ∈ [(policy.mnt, file.dentry)] :=
    List.mem_singleton.mpr rfl
  cases created : mode.created with
  | true =>
    have judged := all.mknod_of_mem making (made created)
    exact ⟨.readWrite, judged.allowed grants all trivial handed⟩
  | false =>
    have granted := all.granted mem
    rw [grants] at granted
    exact ⟨_, now, _, mem, handed, grants_open granted created handed⟩

end Granted

section Run

variable {requests : List (System.Request M D)}

/-- A file of a run open to write was allowed to be changed, by the request that opened it. -/
theorem allowedAtOpen_of_write (making : sys.fs.MakesAsAsked)
    (judges : AllJudge (policy.Grants sys) requests) {fd : Nat} {file : File M D F}
    (found : (sys.after requests).files[fd]? = some file) (mounted : file.mnt = policy.mnt)
    (write : file.mode.write = true) :
    AllowedAtOpen sys policy requests fd file.dentry .readWrite := by
  obtain ⟨earlier, opening, asked, handed, all, licensed⟩ := files_licensed judges fd file found
  exact ⟨earlier, opening, asked, handed, licensed.writes_allowed making rfl all mounted write⟩

/-- Each change of a run was allowed, by the request that made it or by the one that opened the
file it goes through, where the Filesystem empties no file in its own `atomic_open`. -/
theorem changes_allowed (making : sys.fs.MakesAsAsked)
    (keeps : ∀ now d, sys.fs.empties now d = false)
    (judges : AllJudge (policy.Grants sys) requests) {newer older : List (Event M D)}
    {event : Event M D} (logged : (sys.after requests).log = newer ++ event :: older) :
    ∃ before request own, sys.AskedBy requests event older before request own ∧
      ∀ d, (policy.mnt, d) ∈ event.changes → Allowed sys policy own d .readWrite ∨
        ∃ fd, WritesThrough (sys.after before) request fd policy.mnt d ∧
          AllowedAtOpen sys policy before fd d .readWrite := by
  obtain ⟨before, request, own, askedBy, licensed, all⟩ := event_licensed judges logged
  refine ⟨before, request, own, askedBy, fun d changed => ?_⟩
  rcases licensed.changes_allowed making keeps rfl all changed with allowed | ⟨fd, writes, held⟩
  · exact .inl allowed
  · obtain ⟨rest, made⟩ := askedBy.made
    have earlier : AllJudge (policy.Grants sys) before := fun other mem =>
      judges other (made ▸ List.mem_append_left _ mem)
    obtain ⟨file, found, mounted, rfl, write⟩ := held
    exact .inr ⟨fd, ⟨writes, file, found, mounted, rfl, write⟩,
      allowedAtOpen_of_write making earlier found mounted write⟩

/-- No directory is moved in a run. -/
theorem rename_still (judges : AllJudge (policy.Grants sys) requests) {now : Nat}
    {oldDir old newDir new : D}
    (mem : .op now policy.mnt (.rename oldDir old newDir new) ∈ (sys.after requests).log) :
    sys.env.kind now old ≠ some .dir := by
  intro dir
  obtain ⟨newer, older, split⟩ := List.append_of_mem mem
  obtain ⟨before, request, own, -, licensed, all⟩ := event_licensed judges split
  have licensed : LicensedOp sys (Setting.of (policy.Grants sys) request (sys.after before)) own now
      policy.mnt (.rename oldDir old newDir new) := licensed
  obtain ⟨-, other, then_, judged, stood⟩ := licensed
  obtain ⟨kind, told⟩ := Option.isSome_iff_exists.mp stood
  cases sys.kind_once told dir
  exact grants_rename (all.granted judged) other told

end Run

/-- Beneath a Mount that carries a Policy every run of requests is mediated by it, where the
Filesystem empties no file in its own `atomic_open`. -/
theorem policy_mediates (sys : System M D F) (policy : MountPolicy M)
    (requests : List (System.Request M D)) (making : sys.fs.MakesAsAsked)
    (registered : ∀ request ∈ requests, ∀ cred ∈ request.creds, policy.hooks sys ∈ cred)
    (keeps : ∀ now d, sys.fs.empties now d = false) : Mediates sys policy requests := by
  have judges : AllJudge (policy.Grants sys) requests :=
    fun request asked cred mem => judges_of_mem (registered request asked cred mem)
  refine ⟨?_, ?_, fun newer event older => changes_allowed making keeps judges, ?_⟩
  · intro fd file found mounted write
    exact allowedAtOpen_of_write making judges found mounted write
  · intro fd file found mounted read
    obtain ⟨earlier, opening, asked, handed, all, licensed⟩ := files_licensed judges fd file found
    obtain ⟨access, allowed⟩ := licensed.allowed making rfl all mounted (.inl read)
    exact ⟨access, earlier, opening, asked, handed, allowed⟩
  · intro now oldDir old newDir new mem
    exact rename_still judges mem

end

/-! ## The open that empties first -/

/-- A Policy at `/` that allows every path the accesses `allows` does. -/
def anyPath (allows : Access → Bool) : MountPolicy Unit := ⟨(), "/", fun _ access => allows access⟩

/-- A file opened to be written beneath a Policy that allows it, and then written to, is mediated by
it. -/
theorem policy_mediates_oneFile :
    Mediates (oneFile false false none false) (anyPath fun _ => true)
      [openF [(anyPath fun _ => true).hooks (oneFile false false none false)] openReadWrite,
        .write 0 [65]] := by
  refine policy_mediates _ _ _ ?_ ?_ fun _ _ => rfl
  · intro now dir child how finish answered
    cases answered
  · intro request asked cred mem
    rcases List.mem_cons.mp asked with rfl | asked
    · cases List.mem_singleton.mp mem
      exact List.mem_singleton.mpr rfl
    · cases List.mem_singleton.mp asked
      cases mem

/-- What an open that the Policy refuses asks of a Filesystem that empties what it opens. -/
theorem oneFile_emptied_log :
    ((oneFile false false (some (.open () false)) true).after
      [openF [(anyPath fun _ => false).hooks (oneFile false false (some (.open () false)) true)]
        openEmptied]).log =
      [.emptied () true, .op 10 () (.atomicOpen false true openEmptied)] := by
  have built : buildOpenFlags openEmptied =
      .ok ⟨openEmptied, { write := true, read := true }, false, false⟩ := rfl
  refine oneFile_open_log rfl built rfl ?_
  exact ⟨rfl, by decide⟩

/-- A file is emptied beneath a Mount whose Policy allows nothing. -/
theorem policy_asked_late :
    ¬Mediates (oneFile false false (some (.open () false)) true) (anyPath fun _ => false)
      [openF [(anyPath fun _ => false).hooks (oneFile false false (some (.open () false)) true)]
        openEmptied] := by
  intro mediates
  have changed : ((), true) ∈ (Event.emptied () true : Event Unit Bool).changes :=
    List.mem_singleton.mpr rfl
  obtain ⟨before, request, own, askedBy, allowed⟩ :=
    mediates.changes [] (.emptied () true) _ oneFile_emptied_log
  rcases allowed true changed with ⟨now, hook, -, -, allows⟩ | ⟨fd, -, late⟩
  · cases allows
  · obtain ⟨earlier, opening, asked, -, now, hook, -, -, allows⟩ := late
    cases allows

end Kobako.Vfs
