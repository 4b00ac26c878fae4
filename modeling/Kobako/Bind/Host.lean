import Kobako.Vfs.Dentry

/-!
# The host beneath a Bind

A host keeps entries: directories that name others, files, links and the rest. Any process of the
host may make, change and let go of entries at any moment. An entry's kind and its identity never
change while it is kept, no two entries kept at one time have one identity, and one that a
descriptor holds open is kept. A call that takes a directory's descriptor and a name follows no
link: it answers for the entry the name stands for, whatever that is.

An entry is reached from a directory by names that each stood in the directory before it at one
moment after another, while the host may move any of them on.
-/

namespace Kobako.Bind

open Vfs

/-- `Identity`. -/
structure Identity where
  dev : Nat
  ino : Nat
deriving DecidableEq

/-- One entry of the host. -/
structure Node (ν : Type) where
  fileType : FileType
  /-- What `Identity::of` makes of the numbers the host reports, none where it reports none. -/
  identity : Option Identity
  /-- Whether the host still keeps it. -/
  live : Bool
  /-- The names a directory holds, with the entry each stands for. -/
  entries : List (ν × Nat)
  /-- What a file holds, or where a link points. -/
  bytes : List UInt8
  /-- When it was last read and written. -/
  times : Nat × Nat

/-- The entries of the host, each by its number. -/
structure Host (ν : Type) where
  nodes : List (Node ν)

/-- `Kstat`, as `to_kstat` reads one. -/
structure Kstat where
  fileType : FileType
  size : Nat
  identity : Option Identity
  times : Nat × Nat

variable {ν : Type}

/-- `to_kstat`. -/
def Node.kstat (node : Node ν) : Kstat :=
  ⟨node.fileType, node.bytes.length, node.identity, node.times⟩

/-- A directory or a file with nothing in it. -/
def Node.empty (fileType : FileType) (identity : Option Identity) : Node ν :=
  ⟨fileType, identity, true, [], [], (0, 0)⟩

/-- A name is taken away. -/
def Node.erase [DecidableEq ν] (node : Node ν) (name : ν) : Node ν :=
  { node with entries := node.entries.filter fun entry => entry.1 ≠ name }

/-- A name is made to stand for an entry. -/
def Node.insert [DecidableEq ν] (node : Node ν) (name : ν) (object : Nat) : Node ν :=
  { node with entries := (name, object) :: (node.erase name).entries }

/-- The times asked for are set. -/
def Node.setTimes (node : Node ν) (atime mtime : Option Nat) : Node ν :=
  { node with times := (atime.getD node.times.1, mtime.getD node.times.2) }

namespace Host

variable (host : Host ν)

/-- Whether the host keeps an entry. -/
def live (object : Nat) : Bool := host.nodes[object]?.any (·.live)

/-- What the host reports as an entry's identity. -/
def identity (object : Nat) : Option Identity :=
  host.nodes[object]?.bind (·.identity)

/-- The entry a name stands for in a directory, a link there not followed. -/
def lookup [DecidableEq ν] (dir : Nat) (name : ν) : Option Nat :=
  (host.nodes[dir]?.bind fun node =>
    if node.fileType = .dir then node.entries.lookup name else none).filter host.live

/-- One entry is changed. -/
def modify (object : Nat) (change : Node ν → Node ν) : Host ν :=
  ⟨host.nodes.modify object change⟩

/-- An entry is made. -/
def add (node : Node ν) : Host ν := ⟨host.nodes ++ [node]⟩

/-- Whether no entry the host keeps has an identity. -/
def free (identity : Option Identity) : Bool :=
  identity = none || host.nodes.all fun node => !node.live || node.identity ≠ identity

/-- No two entries kept have one identity. -/
def Distinct : Prop :=
  ∀ one other identity, host.live one → host.live other → host.identity one = some identity →
    host.identity other = some identity → one = other

/-- What a host was before: every entry is still the one it was, and kept if it was. -/
structure Keeps (before after : Host ν) : Prop where
  identity : ∀ object, object < before.nodes.length → after.identity object = before.identity object
  live : ∀ object, before.live object → after.live object
  grows : before.nodes.length ≤ after.nodes.length

/-! ## What a call does at a name -/

/-- What a call does with a directory and a name in it. -/
inductive NameAct
  /-- `symlink_metadata`, for `stat_at`. -/
  | stat
  /-- `symlink_metadata`, for `stands_as_recorded` of a dentry that recorded a kind and an
  identity, or that nothing stands there. -/
  | revalidate (recorded : Option (FileType × Option Identity))
  /-- `read_link_contents`. -/
  | readLink
  /-- `set_symlink_times`. -/
  | setTimes (atime mtime : Option Nat)
  /-- `create_dir`. -/
  | mkdir
  /-- `remove_dir`. -/
  | rmdir
  /-- `remove_file`. -/
  | unlink
deriving DecidableEq

/-- What a call answers. -/
inductive Answer (ν : Type)
  | done
  | stat (kstat : Kstat)
  | stands (same : Bool)
  | target (bytes : List UInt8)
  | listing (entries : List (ν × FileType × Option Identity))
  | opened (fid : Nat)

/-- The host after a call on it, the entries the call read or changed, and what it answers. -/
structure Outcome (ν : Type) (α : Type := Answer ν) where
  host : Host ν
  touched : List Nat
  answer : Except FsError α

variable [DecidableEq ν]

/-- Whether a directory holds no name. -/
def isEmpty (object : Nat) : Bool :=
  host.nodes[object]?.all fun node => node.entries.all fun entry => !host.live entry.2

/-- Whether an entry is a directory. -/
def isDir (object : Nat) : Bool := host.nodes[object]?.any (·.fileType = .dir)

/-- A call at a name in a directory, the identity that of an entry it makes. -/
def act (dir : Nat) (name : ν) (identity : Option Identity) :
    NameAct → Outcome ν
  | .mkdir =>
    match host.lookup dir name with
    | some object => ⟨host, [dir, object], .error .alreadyExists⟩
    | none =>
      if host.isDir dir then
        ⟨(host.add (.empty .dir identity)).modify dir (·.insert name host.nodes.length),
          [dir, host.nodes.length], .ok .done⟩
      else ⟨host, [dir], .error .notADirectory⟩
  | kind =>
    match host.lookup dir name with
    | none => ⟨host, [dir], .error .notFound⟩
    | some object =>
      let refuse (error : FsError) : Outcome ν := ⟨host, [dir, object], .error error⟩
      let answer (value : Answer ν) : Outcome ν := ⟨host, [dir, object], .ok value⟩
      match kind, host.nodes[object]? with
      | .stat, some node => answer (.stat node.kstat)
      | .revalidate recorded, some node =>
        answer (.stands (recorded = some (node.fileType, node.identity)))
      | .readLink, some node =>
        if node.fileType = .symlink then answer (.target node.bytes) else refuse .invalidInput
      | .setTimes atime mtime, some _ =>
        ⟨host.modify object (·.setTimes atime mtime), [dir, object], .ok .done⟩
      | .rmdir, some node =>
        if node.fileType ≠ .dir then refuse .notADirectory
        else if host.isEmpty object = false then refuse .directoryNotEmpty
        else ⟨host.modify dir (·.erase name), [dir, object], .ok .done⟩
      | .unlink, some node =>
        if node.fileType = .dir then refuse .isADirectory
        else ⟨host.modify dir (·.erase name), [dir, object], .ok .done⟩
      | _, _ => refuse .notFound

/-- `Dir::rename` from a name in one directory to a name in another. -/
def rename (dir : Nat) (name : ν) (toDir : Nat) (toName : ν) : Outcome ν :=
  match host.lookup dir name with
  | none => ⟨host, [dir, toDir], .error .notFound⟩
  | some object =>
    let moved : Host ν := (host.modify dir (·.erase name)).modify toDir (·.insert toName object)
    match host.lookup toDir toName with
    | none =>
      if host.isDir toDir then ⟨moved, [dir, toDir, object], .ok .done⟩
      else ⟨host, [dir, toDir, object], .error .notADirectory⟩
    | some replaced =>
      let touched := [dir, toDir, object, replaced]
      -- Two names of one entry are left as they are.
      if replaced = object then ⟨host, touched, .ok .done⟩
      else if host.isDir object && !host.isDir replaced then
        ⟨host, touched, .error .notADirectory⟩
      else if !host.isDir object && host.isDir replaced then
        ⟨host, touched, .error .isADirectory⟩
      else if host.isDir replaced && !host.isEmpty replaced then
        ⟨host, touched, .error .directoryNotEmpty⟩
      else ⟨moved, touched, .ok .done⟩

/-- What a descriptor open on an entry is asked. -/
inductive FidAct
  /-- `Metadata::from_file`, or `dir_metadata`. -/
  | stat
  /-- `set_times`. -/
  | setTimes (atime mtime : Option Nat)
  /-- `entries_of`. -/
  | list
  /-- `fsync`. -/
  | sync
  /-- `read_iter`. -/
  | read (pos count : Nat)
  /-- `write_iter` at an offset. -/
  | write (pos : Nat) (buf : List UInt8)
  /-- `append`. -/
  | append (buf : List UInt8)
  /-- `set_len`. -/
  | setLen (len : Nat)
  /-- `fallocate`. -/
  | fallocate (offset len : Nat)

/-- `bytes` with `buf` written over them at an offset, a gap before it filled with zeros. -/
def splice (bytes : List UInt8) (pos : Nat) (buf : List UInt8) : List UInt8 :=
  bytes.takeD pos 0 ++ buf ++ bytes.drop (pos + buf.length)

/-- A call on a descriptor. -/
def ask (object : Nat) (act : FidAct) : Outcome ν :=
  match host.nodes[object]? with
  | none => ⟨host, [object], .error .notFound⟩
  | some node =>
    let change (bytes : List UInt8) : Outcome ν :=
      if node.fileType = .regFile then
        ⟨host.modify object fun node => { node with bytes }, [object], .ok .done⟩
      else ⟨host, [object], .error .isADirectory⟩
    match act with
    | .stat => ⟨host, [object], .ok (.stat node.kstat)⟩
    | .setTimes atime mtime => ⟨host.modify object (·.setTimes atime mtime), [object], .ok .done⟩
    | .list =>
      if node.fileType ≠ .dir then ⟨host, [object], .error .notADirectory⟩
      else
        let found := node.entries.filterMap fun entry =>
          (host.lookup object entry.1).map fun found => (entry.1, found)
        ⟨host, object :: found.map (·.2), .ok (.listing (found.filterMap fun entry =>
          host.nodes[entry.2]?.map fun node => (entry.1, node.fileType, node.identity)))⟩
    | .sync => ⟨host, [object], .ok .done⟩
    | .read pos count =>
      if node.fileType = .regFile then
        ⟨host, [object], .ok (.target ((node.bytes.drop pos).take count))⟩
      else ⟨host, [object], .error .isADirectory⟩
    | .write pos buf => change (splice node.bytes pos buf)
    | .append buf => change (node.bytes ++ buf)
    | .setLen len => change (node.bytes.takeD len 0)
    | .fallocate offset len =>
      change (node.bytes ++ List.replicate (offset + len - node.bytes.length) 0)

/-- `open_with` of a name in a directory without following a link, answering the entry opened. -/
def openIn (dir : Nat) (name : ν) (how : OpenHow) (create : Bool) (identity : Option Identity) :
    Outcome ν Nat :=
  match host.lookup dir name with
  | some object =>
    let refuse (error : FsError) : Outcome ν Nat := ⟨host, [dir, object], .error error⟩
    if create then refuse .alreadyExists
    else if host.nodes[object]?.any (·.fileType = .symlink) then refuse .filesystemLoop
    else if host.isDir object && (how.write || how.truncate) then refuse .isADirectory
    else ⟨host, [dir, object], .ok object⟩
  | none =>
    if create && host.isDir dir then
      let made := host.nodes.length
      ⟨(host.add (.empty .regFile identity)).modify dir (·.insert name made), [dir, made], .ok made⟩
    else ⟨host, [dir], .error .notFound⟩

end Host

/-! ## What is reached from a directory -/

/-- An entry reached from the first by names that stood one after another, the hosts told from the
last. -/
inductive Reached [DecidableEq ν] : List (Host ν) → Nat → Prop
  | root (hosts : List (Host ν)) : Reached hosts 0
  | kept {hosts : List (Host ν)} {object : Nat} (host : Host ν) (earlier : Reached hosts object) :
    Reached (host :: hosts) object
  | entry {host : Host ν} {hosts : List (Host ν)} {dir object : Nat} (name : ν)
    (above : Reached (host :: hosts) dir) (stands : host.lookup dir name = some object) :
    Reached (host :: hosts) object

namespace Host

variable {host : Host ν} {hosts : List (Host ν)} {dir object : Nat}

/-! ## What a call leaves of the host -/

theorem nodes_modify (host : Host ν) (object other : Nat) (change : Node ν → Node ν) :
    (host.modify object change).nodes[other]? =
      (fun node => if object = other then change node else node) <$> host.nodes[other]? :=
  List.getElem?_modify change object host.nodes other

/-- An entry that another is changed beside is left as it is. -/
theorem nodes_modify_of_ne {other : Nat} (change : Node ν → Node ν) (apart : object ≠ other) :
    (host.modify object change).nodes[other]? = host.nodes[other]? := by
  rw [nodes_modify]
  simp [apart]

variable {change : Node ν → Node ν} {name : ν}

/-- A change that keeps every entry's identity keeps the host's. -/
theorem identity_modify (host : Host ν) (object other : Nat)
    (same : ∀ node, (change node).identity = node.identity) :
    (host.modify object change).identity other = host.identity other := by
  unfold identity
  rw [nodes_modify]
  cases host.nodes[other]? with
  | none => rfl
  | some node =>
    by_cases here : object = other
    · simp [here, same]
    · simp [here]

/-- A change that lets go of no entry. -/
theorem live_modify (host : Host ν) (object other : Nat)
    (same : ∀ node, (change node).live = node.live) :
    (host.modify object change).live other = host.live other := by
  unfold live
  rw [nodes_modify]
  cases host.nodes[other]? with
  | none => rfl
  | some node =>
    by_cases here : object = other
    · simp [here, same]
    · simp [here]

/-- A change of what an entry holds keeps the host's entries. -/
theorem keeps_modify (host : Host ν) (object : Nat) (change : Node ν → Node ν)
    (identity : ∀ node, (change node).identity = node.identity)
    (live : ∀ node, (change node).live = node.live) : host.Keeps (host.modify object change) where
  identity other _ := identity_modify host object other identity
  live other kept := by rwa [live_modify host object other live]
  grows := by simp [modify]

theorem distinct_modify (distinct : host.Distinct) (object : Nat) (change : Node ν → Node ν)
    (identity : ∀ node, (change node).identity = node.identity)
    (live : ∀ node, (change node).live → node.live) :
    (host.modify object change).Distinct := by
  have before : ∀ other, (host.modify object change).live other → host.live other := by
    intro other kept
    unfold Host.live at kept ⊢
    rw [nodes_modify] at kept
    cases found : host.nodes[other]? with
    | none => simp [found] at kept
    | some node =>
      rw [found] at kept
      by_cases here : object = other
      · simp only [here, if_true] at kept
        exact live node kept
      · simpa [here] using kept
  intro one other identity' first second same theirs
  rw [identity_modify host object _ identity] at same theirs
  exact distinct one other identity' (before one first) (before other second) same theirs

theorem nodes_add_of_lt (node : Node ν) (within : object < host.nodes.length) :
    (host.add node).nodes[object]? = host.nodes[object]? :=
  List.getElem?_append_left within

theorem nodes_add_self (host : Host ν) (node : Node ν) :
    (host.add node).nodes[host.nodes.length]? = some node := by
  simp [add]

/-- An entry the host keeps has a number it gave out. -/
theorem lt_of_live (kept : host.live object) : object < host.nodes.length := by
  by_contra past
  have none : host.nodes[object]? = none := List.getElem?_eq_none (by omega)
  simp [live, none] at kept

theorem keeps_add (host : Host ν) (node : Node ν) : host.Keeps (host.add node) where
  identity object within := by simp only [identity, nodes_add_of_lt node within]
  live object kept := by
    unfold live
    rw [nodes_add_of_lt node (lt_of_live kept)]
    exact kept
  grows := by simp [add]

/-- An entry made with an identity that is free is apart from every other. -/
theorem distinct_add (distinct : host.Distinct) {node : Node ν} (free : host.free node.identity) :
    (host.add node).Distinct := by
  -- An entry kept before has another identity than the one made.
  have apart : ∀ other identity, other < host.nodes.length → (host.add node).live other →
      (host.add node).identity other = some identity → node.identity ≠ some identity := by
    intro other identity within kept named same
    unfold live at kept
    unfold Host.identity at named
    rw [nodes_add_of_lt node within] at kept named
    obtain ⟨found, stands⟩ : ∃ found, host.nodes[other]? = some found :=
      ⟨_, List.getElem?_eq_getElem within⟩
    rw [stands] at kept named
    simp only [Option.any_some, Option.bind_some] at kept named
    simp only [Host.free, same, reduceCtorEq, decide_false, Bool.false_or, List.all_eq_true]
      at free
    have other := free found (List.mem_of_getElem? stands)
    simp [kept, named] at other
  have last : ∀ other, (host.add node).live other → ¬ other < host.nodes.length →
      other = host.nodes.length := by
    intro other kept past
    have within := lt_of_live kept
    simp only [add, List.length_append, List.length_singleton] at within
    omega
  have own : (host.add node).identity host.nodes.length = node.identity := by
    simp only [Host.identity, nodes_add_self, Option.bind_some]
  intro one other identity first second same theirs
  by_cases here : one < host.nodes.length
  · by_cases there : other < host.nodes.length
    · refine distinct one other identity ?_ ?_ ?_ ?_
      · simpa only [live, nodes_add_of_lt node here] using first
      · simpa only [live, nodes_add_of_lt node there] using second
      · simpa only [Host.identity, nodes_add_of_lt node here] using same
      · simpa only [Host.identity, nodes_add_of_lt node there] using theirs
    · rw [last other second there, own] at theirs
      exact absurd theirs (apart one identity here first same)
  · rw [last one first here, own] at same
    by_cases there : other < host.nodes.length
    · exact absurd same (apart other identity there second theirs)
    · rw [last one first here, last other second there]

theorem Keeps.refl (host : Host ν) : host.Keeps host where
  identity _ _ := rfl
  live _ kept := kept
  grows := Nat.le_refl _

theorem Keeps.trans {middle last : Host ν} (first : host.Keeps middle)
    (second : middle.Keeps last) : host.Keeps last where
  identity object within :=
    (second.identity object (Nat.lt_of_lt_of_le within first.grows)).trans
      (first.identity object within)
  live object kept := second.live object (first.live object kept)
  grows := Nat.le_trans first.grows second.grows

variable [DecidableEq ν] {α : Type}

/-- The entry a name stands for is kept. -/
theorem live_of_lookup (stands : host.lookup dir name = some object) :
    host.live object := by
  simp only [lookup, Option.filter_eq_some_iff] at stands
  exact stands.2

/-- A name made in a directory stands for what it was made for. -/
theorem lookup_insert (isDir : host.isDir dir) (kept : host.live object) :
    (host.modify dir (·.insert name object)).lookup dir name = some object := by
  unfold Host.isDir at isDir
  cases found : host.nodes[dir]? with
  | none => simp [found] at isDir
  | some node =>
    simp only [found, Option.any_some, decide_eq_true_eq] at isDir
    have still : (host.modify dir (·.insert name object)).live object :=
      (live_modify host dir object fun node : Node ν =>
        (rfl : (node.insert name object).live = node.live)).trans kept
    have first : (node.insert name object).entries.lookup name = some object := by
      simp [Node.insert]
    have kind : (node.insert name object).fileType = .dir := isDir
    unfold lookup
    rw [nodes_modify, found]
    simp only [Option.map_eq_map, Option.map_some, if_true, Option.bind_some, kind, first]
    simp [still]

/-- A call on the host leaves it as it should, and reads and changes only what it may. -/
structure Outcome.Sane (host : Host ν) (hosts : List (Host ν)) (outcome : Outcome ν α) : Prop where
  keeps : host.Keeps outcome.host
  distinct : outcome.host.Distinct
  touched : ∀ object ∈ outcome.touched, Reached (outcome.host :: host :: hosts) object
  changed : ∀ object, object ∉ outcome.touched →
    outcome.host.nodes[object]? = host.nodes[object]?

/-- A call that changes nothing. -/
theorem Outcome.sane_of_unchanged (distinct : host.Distinct) {touched : List Nat}
    (answer : Except FsError α)
    (reached : ∀ object ∈ touched, Reached (host :: hosts) object) :
    Outcome.Sane host hosts ⟨host, touched, answer⟩ where
  keeps := .refl host
  distinct := distinct
  touched object among := .kept host (reached object among)
  changed _ _ := rfl

/-- A call that changes what one entry holds. -/
theorem Outcome.sane_of_modify (distinct : host.Distinct) {touched : List Nat}
    (answer : Except FsError α) (identity : ∀ node, (change node).identity = node.identity)
    (live : ∀ node, (change node).live = node.live) (among : object ∈ touched)
    (reached : ∀ object ∈ touched, Reached (host :: hosts) object) :
    Outcome.Sane host hosts ⟨host.modify object change, touched, answer⟩ where
  keeps := keeps_modify host object change identity live
  distinct :=
    distinct_modify distinct object change identity fun node kept => (live node).symm ▸ kept
  touched other among := .kept _ (reached other among)
  changed other absent := by
    refine nodes_modify_of_ne change ?_
    intro same
    exact absent (same ▸ among)

/-- An entry made in a directory, under a name that then stands for it. -/
theorem Outcome.sane_of_add (distinct : host.Distinct) {node : Node ν}
    (answer : Except FsError α) (isDir : host.isDir dir) (live : node.live)
    (free : host.free node.identity) (reached : Reached (host :: hosts) dir) :
    Outcome.Sane host hosts
      ⟨(host.add node).modify dir (·.insert name host.nodes.length), [dir, host.nodes.length],
        answer⟩ := by
  have within : dir < host.nodes.length := by
    by_contra past
    have none : host.nodes[dir]? = none := List.getElem?_eq_none (by omega)
    simp [Host.isDir, none] at isDir
  have kept : (host.add node).live host.nodes.length := by
    simp only [Host.live, nodes_add_self, Option.any_some, live]
  have still : (host.add node).isDir dir := by
    unfold Host.isDir
    rwa [nodes_add_of_lt node within]
  refine ⟨?_, ?_, ?_, ?_⟩
  · exact (keeps_add host node).trans (keeps_modify _ dir _ (fun _ => rfl) fun _ => rfl)
  · exact distinct_modify (distinct_add distinct free) dir _ (fun _ => rfl) fun _ kept => kept
  · intro object among
    have above : Reached ((host.add node).modify dir (·.insert name host.nodes.length) ::
        host :: hosts) dir := .kept _ reached
    obtain same | same : object = dir ∨ object = host.nodes.length := by simpa using among
    · exact same ▸ above
    · rw [same]
      exact .entry name above (lookup_insert still kept)
  · intro object absent
    obtain ⟨elsewhere, old⟩ : object ≠ dir ∧ object ≠ host.nodes.length := by simpa using absent
    rw [nodes_modify_of_ne _ elsewhere.symm]
    by_cases before : object < host.nodes.length
    · exact nodes_add_of_lt node before
    · have past : host.nodes.length < object := by omega
      have longer : (host.add node).nodes.length ≤ object := by
        simp only [add, List.length_append, List.length_singleton]
        omega
      rw [List.getElem?_eq_none longer, List.getElem?_eq_none (Nat.le_of_lt past)]

/-- What stands at a name in a directory reached is reached. -/
theorem reached_pair (reached : Reached (host :: hosts) dir)
    (stands : host.lookup dir name = some object) :
    ∀ other ∈ [dir, object], Reached (host :: hosts) other := by
  intro other among
  obtain same | same : other = dir ∨ other = object := by simpa using among
  · exact same ▸ reached
  · exact same ▸ .entry name reached stands

/-- A call at a name in a directory reached. -/
theorem act_sane (distinct : host.Distinct) (name : ν) {identity : Option Identity}
    (free : host.free identity) (reached : Reached (host :: hosts) dir) (kind : NameAct) :
    Outcome.Sane host hosts (host.act dir name identity kind) := by
  have alone : ∀ other ∈ [dir], Reached (host :: hosts) other := by
    intro other among
    exact List.mem_singleton.mp among ▸ reached
  cases found : host.lookup dir name with
  | none =>
    cases kind with
    | mkdir =>
      simp only [act, found]
      split
      · rename_i isDir
        exact Outcome.sane_of_add distinct _ isDir rfl free reached
      · exact Outcome.sane_of_unchanged distinct _ alone
    | _ =>
      simp only [act, found]
      exact Outcome.sane_of_unchanged distinct _ alone
  | some object =>
    have both := reached_pair reached found
    have refused : ∀ answer : Except FsError (Answer ν), Outcome.Sane host hosts ⟨host, [dir, object], answer⟩ :=
      fun answer => Outcome.sane_of_unchanged distinct answer both
    have changed : ∀ other ∈ [dir, object], ∀ change : Node ν → Node ν,
        (∀ node, (change node).identity = node.identity) →
        (∀ node, (change node).live = node.live) → ∀ answer : Except FsError (Answer ν),
        Outcome.Sane host hosts ⟨host.modify other change, [dir, object], answer⟩ :=
      fun other among change identity live answer =>
        Outcome.sane_of_modify distinct answer identity live among both
    obtain ⟨node, stands⟩ : ∃ node, host.nodes[object]? = some node :=
      ⟨_, List.getElem?_eq_getElem (lt_of_live (live_of_lookup found))⟩
    cases kind with
    | mkdir => simpa only [act, found] using refused _
    | stat => simpa only [act, found, stands] using refused _
    | revalidate recorded => simpa only [act, found, stands] using refused _
    | readLink =>
      simp only [act, found, stands]
      split
      · exact refused _
      · exact refused _
    | setTimes atime mtime =>
      simp only [act, found, stands]
      exact changed object (by simp) (·.setTimes atime mtime) (fun _ => rfl) (fun _ => rfl) _
    | rmdir =>
      simp only [act, found, stands]
      split
      · exact refused _
      · split
        · exact refused _
        · exact changed dir (by simp) (·.erase name) (fun _ => rfl) (fun _ => rfl) _
    | unlink =>
      simp only [act, found, stands]
      split
      · exact refused _
      · exact changed dir (by simp) (·.erase name) (fun _ => rfl) (fun _ => rfl) _

/-- A name moved from one directory reached to another. -/
theorem rename_sane (distinct : host.Distinct) (name toName : ν) {toDir : Nat}
    (reached : Reached (host :: hosts) dir) (there : Reached (host :: hosts) toDir) :
    Outcome.Sane host hosts (host.rename dir name toDir toName) := by
  have two : ∀ other ∈ [dir, toDir], Reached (host :: hosts) other := by
    intro other among
    obtain same | same : other = dir ∨ other = toDir := by simpa using among
    · exact same ▸ reached
    · exact same ▸ there
  have moved : ∀ object touched (answer : Except FsError (Answer ν)), [dir, toDir] ⊆ touched →
      (∀ other ∈ touched, Reached (host :: hosts) other) → Outcome.Sane host hosts
        ⟨(host.modify dir (·.erase name)).modify toDir (·.insert toName object), touched,
          answer⟩ := by
    intro object touched answer among all
    refine ⟨?_, ?_, fun other here => .kept _ (all other here), ?_⟩
    · exact (keeps_modify host dir (·.erase name) (fun _ => rfl) fun _ => rfl).trans
        (keeps_modify _ toDir (·.insert toName object) (fun _ => rfl) fun _ => rfl)
    · have erased := distinct_modify distinct dir (·.erase name) (fun _ => rfl) fun _ kept => kept
      exact distinct_modify erased toDir (·.insert toName object) (fun _ => rfl) fun _ kept => kept
    · intro other absent
      have first : dir ≠ other := fun same => absent (same ▸ among (by simp))
      have second : toDir ≠ other := fun same => absent (same ▸ among (by simp))
      rw [nodes_modify_of_ne _ second, nodes_modify_of_ne _ first]
  unfold rename
  split
  · exact Outcome.sane_of_unchanged distinct _ two
  · rename_i object found
    have three : ∀ other ∈ [dir, toDir, object], Reached (host :: hosts) other := by
      intro other among
      obtain same | before : other = object ∨ other ∈ [dir, toDir] := by
        simp only [List.mem_cons, List.not_mem_nil, or_false] at among ⊢
        tauto
      · exact same ▸ .entry name reached found
      · exact two other before
    split
    · split
      · exact moved object _ _ (by simp) three
      · exact Outcome.sane_of_unchanged distinct _ three
    · rename_i replaced stands
      have four : ∀ other ∈ [dir, toDir, object, replaced], Reached (host :: hosts) other := by
        intro other among
        obtain same | before : other = replaced ∨ other ∈ [dir, toDir, object] := by
          simp only [List.mem_cons, List.not_mem_nil, or_false] at among ⊢
          tauto
        · exact same ▸ .entry toName there stands
        · exact three other before
      have refused : ∀ answer : Except FsError (Answer ν),
          Outcome.Sane host hosts ⟨host, [dir, toDir, object, replaced], answer⟩ :=
        fun answer => Outcome.sane_of_unchanged distinct answer four
      split
      · exact refused _
      · split
        · exact refused _
        · split
          · exact refused _
          · split
            · exact refused _
            · exact moved object _ _ (by simp) four

/-- A call on a descriptor open on an entry reached. -/
theorem ask_sane (distinct : host.Distinct) (reached : Reached (host :: hosts) object)
    (kind : FidAct) : Outcome.Sane host hosts (host.ask object kind) := by
  have alone : ∀ other ∈ [object], Reached (host :: hosts) other := by
    intro other among
    exact List.mem_singleton.mp among ▸ reached
  have still : ∀ answer : Except FsError (Answer ν), Outcome.Sane host hosts ⟨host, [object], answer⟩ :=
    fun answer => Outcome.sane_of_unchanged distinct answer alone
  have changed : ∀ bytes, Outcome.Sane host hosts
      (⟨host.modify object fun node => { node with bytes }, [object], .ok .done⟩ : Outcome ν) :=
    fun bytes => Outcome.sane_of_modify distinct _ (fun _ => rfl) (fun _ => rfl) (by simp) alone
  unfold ask
  split
  · exact still _
  · rename_i node found
    have written : ∀ bytes, Outcome.Sane host hosts (if node.fileType = .regFile then
        (⟨host.modify object fun node => { node with bytes }, [object], .ok .done⟩ : Outcome ν)
        else ⟨host, [object], .error .isADirectory⟩) := by
      intro bytes
      split
      · exact changed bytes
      · exact still _
    cases kind with
    | stat => exact still _
    | setTimes atime mtime =>
      exact Outcome.sane_of_modify distinct _ (fun _ => rfl) (fun _ => rfl) (by simp) alone
    | list =>
      simp only
      split
      · exact still _
      · refine Outcome.sane_of_unchanged distinct _ ?_
        intro other among
        obtain same | listed := List.mem_cons.mp among
        · exact same ▸ reached
        · obtain ⟨entry, within, same⟩ := List.mem_map.mp listed
          obtain ⟨stored, _, read⟩ := List.mem_filterMap.mp within
          obtain ⟨named, stands, pair⟩ := Option.map_eq_some_iff.mp read
          subst pair
          exact same ▸ .entry stored.1 reached stands
    | sync => exact still _
    | read pos count =>
      simp only
      split
      · exact still _
      · exact still _
    | write pos buf => exact written _
    | append buf => exact written _
    | setLen len => exact written _
    | fallocate offset len => exact written _

/-- A name opened in a directory reached, or made there. -/
theorem openIn_sane (distinct : host.Distinct) (name : ν) {identity : Option Identity}
    (free : host.free identity) (reached : Reached (host :: hosts) dir) (how : OpenHow)
    (create : Bool) :
    Outcome.Sane host hosts (host.openIn dir name how create identity) ∧
      ∀ object, (host.openIn dir name how create identity).answer = .ok object →
        object ∈ (host.openIn dir name how create identity).touched ∧
          (host.openIn dir name how create identity).host.live object := by
  unfold openIn
  split
  · rename_i object stands
    have both := reached_pair reached stands
    have refused : ∀ error : FsError,
        Outcome.Sane host hosts (⟨host, [dir, object], .error error⟩ : Outcome ν Nat) ∧
          ∀ other, (.error error : Except FsError Nat) = .ok other →
            other ∈ [dir, object] ∧ host.live other :=
      fun error => ⟨Outcome.sane_of_unchanged distinct _ both, fun _ opened => by cases opened⟩
    dsimp only
    split
    · exact refused _
    · split
      · exact refused _
      · split
        · exact refused _
        · refine ⟨Outcome.sane_of_unchanged distinct _ both, fun other opened => ?_⟩
          cases opened
          exact ⟨by simp, live_of_lookup stands⟩
  · split
    · rename_i made
      simp only [Bool.and_eq_true] at made
      refine ⟨Outcome.sane_of_add distinct _ made.2 rfl free reached, fun other opened => ?_⟩
      cases opened
      have kept : (host.add (Node.empty .regFile identity)).live host.nodes.length := by
        simp only [Host.live, nodes_add_self, Option.any_some, Node.empty]
      exact ⟨by simp, (keeps_modify _ dir (·.insert name host.nodes.length) (fun _ => rfl)
        fun _ => rfl).live _ kept⟩
    · refine ⟨Outcome.sane_of_unchanged distinct _ ?_, fun other opened => by cases opened⟩
      intro other among
      exact List.mem_singleton.mp among ▸ reached

end Host

/-! ## What a Bind takes from outside -/

open Host

/-- `MAX_CACHED_FIDS`. -/
def maxCachedFids : Nat := 64

/-- The file calls of `cap-std` and `rustix` and the map of `lru`, and what a Bind relies on: a call
reads and changes only what it is asked about or what stands at the name there, and the map holds
what was put into it, as many entries as it has room for. -/
structure Outside (ν : Type) [DecidableEq ν] where
  act : Host ν → Nat → ν → Option Identity → NameAct → Outcome ν
  rename : Host ν → Nat → ν → Nat → ν → Outcome ν
  ask : Host ν → Nat → FidAct → Outcome ν
  openIn : Host ν → Nat → ν → OpenHow → Bool → Option Identity → Outcome ν Nat
  /-- `LruCache::get` of an entry that is held. -/
  get : List (Nat × Nat) → Nat × Nat → List (Nat × Nat)
  /-- `LruCache::put`. -/
  put : List (Nat × Nat) → Nat × Nat → List (Nat × Nat)
  act_sane {host hosts dir identity} : host.Distinct → ∀ name, host.free identity →
    Reached (host :: hosts) dir → ∀ kind, Outcome.Sane host hosts (act host dir name identity kind)
  rename_sane {host hosts dir toDir} : host.Distinct → ∀ name toName, Reached (host :: hosts) dir →
    Reached (host :: hosts) toDir → Outcome.Sane host hosts (rename host dir name toDir toName)
  ask_sane {host hosts object} : host.Distinct → Reached (host :: hosts) object → ∀ kind,
    Outcome.Sane host hosts (ask host object kind)
  openIn_sane {host hosts dir identity} : host.Distinct → ∀ name, host.free identity →
    Reached (host :: hosts) dir → ∀ how create,
    Outcome.Sane host hosts (openIn host dir name how create identity) ∧
      ∀ object, (openIn host dir name how create identity).answer = .ok object →
        object ∈ (openIn host dir name how create identity).touched ∧
          (openIn host dir name how create identity).host.live object
  get_sane {cache entry} : entry ∈ cache → get cache entry ⊆ cache ∧
    (get cache entry).length ≤ cache.length
  put_sane {cache entry} : put cache entry ⊆ entry :: cache ∧
    (put cache entry).length ≤ maxCachedFids

/-- What is asked becomes the first. -/
def lruGet (cache : List (Nat × Nat)) (entry : Nat × Nat) : List (Nat × Nat) :=
  entry :: cache.filter fun other => other.1 ≠ entry.1

/-- An entry asked for is one of the map's. -/
theorem lruGet_sane {cache : List (Nat × Nat)} {entry : Nat × Nat} (among : entry ∈ cache) :
    lruGet cache entry ⊆ cache ∧ (lruGet cache entry).length ≤ cache.length := by
  have fewer : (cache.filter fun other => other.1 ≠ entry.1).length < cache.length :=
    List.length_filter_lt_length_iff_exists.mpr ⟨entry, among, by simp⟩
  exact ⟨List.cons_subset.mpr ⟨among, List.filter_subset_self _⟩, fewer⟩

/-- The calls and the map as they are documented, the map without the one asked longest ago once it
is full. -/
def Outside.documented [DecidableEq ν] : Outside ν where
  act host := host.act
  rename host := host.rename
  ask host := host.ask
  openIn host := host.openIn
  get := lruGet
  put cache entry := (lruGet cache entry).take maxCachedFids
  act_sane distinct name free reached kind := Host.act_sane distinct name free reached kind
  rename_sane distinct name toName reached there :=
    Host.rename_sane distinct name toName reached there
  ask_sane distinct reached kind := Host.ask_sane distinct reached kind
  openIn_sane distinct name free reached how create :=
    Host.openIn_sane distinct name free reached how create
  get_sane among := lruGet_sane among
  put_sane {cache entry} := by
    refine ⟨fun other held => ?_, List.length_take_le _ _⟩
    obtain same | before := List.mem_cons.mp (List.mem_of_mem_take held)
    · exact same ▸ List.mem_cons_self
    · exact List.mem_cons_of_mem _ (List.mem_filter.mp before).1

end Kobako.Bind
