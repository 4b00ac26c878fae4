import Mathlib.Data.List.TakeWhile
import Kobako.Vfs.Beneath

/-!
# Resolution

What a path means in a tree nothing changes, said by recursion on its names: a link followed is its
target spelled before the names left, and only how many were followed bounds the meaning of links
that lead to one another. A walk carries the same names with the empty ones between slashes, and
its flags from one target to the next; `filenameLookup` ends where the recursion does.
-/

namespace Kobako.Vfs

/-- The names of a path, any number of slashes between two of them, and whether one trails. -/
def splitPath (path : String) : List String × Bool :=
  ((parts path).filter (fun part => !part.isEmpty), decide (path.toList.getLast? = some '/'))

/-- The names a link's target spells, and whether a slash trails: one pointing nowhere stays. -/
def splitTarget (target : String) : List String × Bool :=
  if target.isEmpty then (["."], false) else splitPath target

namespace Tree

variable {D : Type} [DecidableEq D]

/-- The entry `names` lead to from `d`, `links` followed so far, none of them above `start`. A link
that is not last is always followed; the last is if `follow` is set or a slash trails it, and what
it leads to is followed from then on. `directory` asks for a directory at the end. -/
def resolve (tree : Tree D) (start : D) (links : Nat) (d : D) (names : List String)
    (slash follow directory : Bool) : Except FsError D :=
  match tree.refusal d with
  | some error => .error error
  | none =>
    match names with
    | [] => .error .notFound
    | name :: rest =>
      if name = "." then
        if rest = [] then .ok d else resolve tree start links d rest slash follow directory
      else if name = ".." then
        if d = start then .error .escape
        else if rest = [] then .ok (tree.parent d)
        else resolve tree start links (tree.parent d) rest slash follow directory
      else
        match tree.kind (tree.lookup d name) with
        | none => .error .notFound
        | some .dir =>
          if rest = [] then .ok (tree.lookup d name)
          else resolve tree start links (tree.lookup d name) rest slash follow directory
        | some .symlink =>
          if rest = [] ∧ follow = false ∧ slash = false then
            if directory then .error .notADirectory else .ok (tree.lookup d name)
          else if links ≥ maxSymlinks then .error .filesystemLoop
          else if isAbsolute (tree.target (tree.lookup d name)) then .error .escape
          else if rest = [] then
            resolve tree start (links + 1) d (splitTarget (tree.target (tree.lookup d name))).1
              (splitTarget (tree.target (tree.lookup d name))).2 true (directory || slash)
          else
            resolve tree start (links + 1) d
              ((splitTarget (tree.target (tree.lookup d name))).1 ++ rest) slash follow directory
        | some _ =>
          if rest = [] ∧ directory = false ∧ slash = false then .ok (tree.lookup d name)
          else .error .notADirectory
termination_by (maxSymlinks - links, names.length)
decreasing_by
  · apply Prod.Lex.right
    exact Nat.lt_succ_self _
  · apply Prod.Lex.right
    exact Nat.lt_succ_self _
  · apply Prod.Lex.right
    exact Nat.lt_succ_self _
  · apply Prod.Lex.left
    omega
  · apply Prod.Lex.left
    omega

end Tree

/-! ## Spelling -/

/-- The names left of a walk spell `names` and whether a slash trails the last of them, the first
not empty. -/
structure Spells (pending names : List String) (slash : Bool) : Prop where
  /-- The names are those left that are not empty. -/
  names : names = pending.filter (fun part => !part.isEmpty)
  /-- A slash trails where the last one left is empty. -/
  slash : slash = decide (pending.getLast? = some "")
  /-- The first is a name. -/
  head : ∃ part, pending.head? = some part ∧ part.isEmpty = false

variable {slash : Bool}

/-- What a walk does with the names left after the first. -/
theorem Spells.cons {pending names : List String} (spells : Spells pending names slash) :
    ∃ part rest, pending = part :: rest ∧ part.isEmpty = false ∧
      names = part :: rest.filter (fun part => !part.isEmpty) := by
  obtain ⟨part, first, nonempty⟩ := spells.head
  obtain ⟨rest, rfl⟩ := List.head?_eq_some_iff.mp first
  refine ⟨part, rest, rfl, nonempty, ?_⟩
  rw [spells.names, List.filter_cons_of_pos]
  simpa using nonempty

/-- The names left once the slashes after the first are skipped. -/
theorem drop_slashes (rest : List String) :
    rest.drop (rest.takeWhile String.isEmpty).length = rest.dropWhile String.isEmpty := by
  have split := List.takeWhile_append_dropWhile (p := String.isEmpty) (l := rest)
  calc rest.drop (rest.takeWhile String.isEmpty).length
      = (rest.takeWhile String.isEmpty ++ rest.dropWhile String.isEmpty).drop
          (rest.takeWhile String.isEmpty).length := by rw [split]
    _ = rest.dropWhile String.isEmpty := List.drop_left

/-- No name is left exactly where only slashes follow. -/
theorem dropWhile_isEmpty_eq_nil {rest : List String} :
    rest.dropWhile String.isEmpty = [] ↔ rest.filter (fun part => !part.isEmpty) = [] := by
  rw [List.dropWhile_eq_nil_iff, List.filter_eq_nil_iff]
  simp

/-- The last name is left with a trailing slash where one is spelled. -/
theorem Spells.last {part : String} {rest names : List String}
    (spells : Spells (part :: rest) names slash)
    (done : rest.filter (fun part => !part.isEmpty) = []) :
    decide ((rest.takeWhile String.isEmpty).length > 0) = slash := by
  have empty : ∀ name ∈ rest, name = "" := by
    intro name member
    have filtered := List.filter_eq_nil_iff.mp done name member
    simpa using filtered
  have taken : rest.takeWhile String.isEmpty = rest := by
    apply List.takeWhile_eq_self_iff.mpr
    intro name member
    simp [empty name member]
  obtain ⟨name, first, nonempty⟩ := spells.head
  cases first
  rw [taken, spells.slash, decide_eq_decide]
  cases rest with
  | nil =>
    simp only [List.length_nil, gt_iff_lt, Nat.lt_irrefl, List.getLast?_singleton,
      Option.some.injEq, false_iff]
    intro blank
    simp [blank] at nonempty
  | cons next rest =>
    simp only [List.length_cons, gt_iff_lt, Nat.succ_pos, List.getLast?_cons_cons, true_iff]
    rw [List.getLast?_eq_some_getLast (List.cons_ne_nil next rest)]
    exact congrArg some (empty _ (List.getLast_mem _))

/-- The names left after the first spell the names after the first. -/
theorem Spells.more {part : String} {rest names : List String}
    (spells : Spells (part :: rest) names slash)
    (left : rest.filter (fun part => !part.isEmpty) ≠ []) :
    Spells (rest.dropWhile String.isEmpty) (rest.filter (fun part => !part.isEmpty)) slash := by
  have split := List.takeWhile_append_dropWhile (p := String.isEmpty) (l := rest)
  have nonempty : rest.dropWhile String.isEmpty ≠ [] :=
    fun none => left (dropWhile_isEmpty_eq_nil.mp none)
  refine ⟨?_, ?_, ?_⟩
  · have skipped : (rest.takeWhile String.isEmpty).filter (fun part => !part.isEmpty) = [] := by
      rw [List.filter_eq_nil_iff]
      intro name member
      have blank := List.mem_takeWhile_imp member
      simpa using blank
    calc rest.filter (fun part => !part.isEmpty)
        = (rest.takeWhile String.isEmpty ++ rest.dropWhile String.isEmpty).filter
            (fun part => !part.isEmpty) := by rw [split]
      _ = (rest.dropWhile String.isEmpty).filter (fun part => !part.isEmpty) := by
          rw [List.filter_append, skipped, List.nil_append]
  · have same : (part :: rest).getLast? = (rest.dropWhile String.isEmpty).getLast? := by
      conv_lhs => rw [← split]
      rw [← List.cons_append, List.getLast?_append_of_ne_nil _ nonempty]
    rw [spells.slash, same]
  · have first := List.head_dropWhile_not String.isEmpty nonempty
    exact ⟨_, List.head?_eq_some_head nonempty, first⟩

/-- A target spelled before the names left. -/
theorem Spells.append {target names pending rest : List String} {slash trailing : Bool}
    (first : Spells target names slash) (second : Spells pending rest trailing) :
    Spells (target ++ pending) (names ++ rest) trailing := by
  obtain ⟨part, head, nonempty⟩ := first.head
  obtain ⟨next, left, -⟩ := second.head
  have some : pending ≠ [] := by
    intro none
    rw [none] at left
    cases left
  refine ⟨?_, ?_, part, ?_, nonempty⟩
  · rw [List.filter_append, ← first.names, ← second.names]
  · rw [List.getLast?_append_of_ne_nil _ some, second.slash]
  · rw [List.head?_append, head, Option.some_or]

/-- The last of the parts between slashes is empty exactly where a slash trails. -/
theorem splitOn_getLast? {chars : List Char} (nonempty : chars ≠ []) :
    (chars.splitOn '/').getLast? = some [] ↔ chars.getLast? = some '/' := by
  induction chars with
  | nil => exact absurd rfl nonempty
  | cons char rest ih =>
    rw [List.splitOn_cons_eq_if_modifyHead]
    by_cases none : rest = []
    · subst none
      by_cases slash : char = '/'
      · simp [slash]
      · simp [slash]
    · have onward := ih none
      have same : (char :: rest).getLast? = rest.getLast? := by
        rw [← List.singleton_append, List.getLast?_append_of_ne_nil _ none]
      rw [same, ← onward]
      have whole : List.intercalate ['/'] (rest.splitOn '/') = rest :=
        List.intercalate_splitOn '/'
      cases parts : rest.splitOn '/' with
      | nil => exact absurd parts (List.splitOn_ne_nil '/' rest)
      | cons first others =>
        cases others with
        | nil =>
          rw [parts] at whole
          have all : first = rest := by simpa using whole
          subst all
          by_cases slash : char = '/'
          · simp [slash]
          · simp [slash, none]
        | cons second others =>
          by_cases slash : char = '/'
          · simp [slash]
          · simp [slash]

/-- A path that does not start with a slash is spelled by its parts. -/
theorem spells_parts {path : String} (nonempty : path ≠ "") (relative : isAbsolute path = false) :
    Spells (parts path) (splitPath path).1 (splitPath path).2 := by
  have chars : path.toList ≠ [] := by
    intro none
    exact nonempty (String.toList_eq_nil_iff.mp none)
  refine ⟨rfl, ?_, ?_⟩
  · show decide (path.toList.getLast? = some '/') = _
    rw [decide_eq_decide, ← splitOn_getLast? chars, parts, List.getLast?_map]
    cases (path.toList.splitOn '/').getLast? with
    | none => simp
    | some last => simp
  · cases spelled : path.toList with
    | nil => exact absurd spelled chars
    | cons char rest =>
      have first : char ≠ '/' := by
        intro slash
        simp [isAbsolute, spelled, slash] at relative
      rw [parts, spelled, List.splitOn_cons_eq_if_modifyHead]
      cases parts : rest.splitOn '/' with
      | nil => exact absurd parts (List.splitOn_ne_nil '/' rest)
      | cons head others => simp [first]

namespace Nameidata

variable {D : Type}

/-- What a walk tells its caller: the entry it ended on, or why it failed. -/
def ended : Walked D Unit → Except FsError (Option D)
  | .ok () nd => .ok nd.path
  | .error error _ => .error error

section Equations

variable [DecidableEq D] (env : Env D) (nd : Nameidata D)

/-- The end of `namei::path_lookupat`, once the last name is looked up. -/
def settleLookup : Walked D Unit :=
  match nd.completeWalk env with
  | .error error nd => .error error nd
  | .ok () nd =>
    match nd.path.bind (env.kind nd.clock) with
    | none => .error .notFound nd.tick
    | some kind =>
      if nd.lookupDirectory = true ∧ kind ≠ .dir then .error .notADirectory nd.tick
      else .ok () nd.tick

variable (follow : Bool)

/-- The end of `namei::path_lookupat`, once the last name is left. -/
def finishLookup : Walked D Unit :=
  match nd.lookupLast env follow with
  | .error error nd => .error error nd
  | .ok () nd => nd.settleLookup env

/-- A lookup walks to the last name, then finishes. -/
theorem pathLookupat_eq :
    nd.pathLookupat env follow =
      match nd.linkPathWalk env with
      | .error error nd => .error error nd
      | .ok () nd => nd.finishLookup env follow := by
  unfold pathLookupat
  cases nd.linkPathWalk env with
  | error error after => rfl
  | ok _ after => rfl

variable {nd}

/-- A walk refused where it stands. -/
theorem pathLookupat_refused {error : FsError}
    (refused : env.permission nd.clock nd.dir = .error error) :
    nd.pathLookupat env follow = .error error nd.tick := by
  rw [pathLookupat_eq, linkPathWalk, refused]

/-- A walk with one name left. -/
theorem pathLookupat_last {part : String} {rest : List String}
    (allowed : env.permission nd.clock nd.dir = .ok ()) (pending : nd.pending = part :: rest)
    (last : rest.dropWhile String.isEmpty = []) :
    nd.pathLookupat env follow = ({ nd.tick with pending := [] }.setLast part
      (decide ((rest.takeWhile String.isEmpty).length > 0))).finishLookup env follow := by
  have spelled : nd.tick.pending = part :: rest := pending
  have walked : nd.linkPathWalk env = .ok () ({ nd.tick with pending := [] }.setLast part
      (decide ((rest.takeWhile String.isEmpty).length > 0))) := by
    rw [linkPathWalk, allowed]
    dsimp only
    split
    · rename_i none
      rw [spelled] at none
      cases none
    · rename_i first others split
      rw [spelled] at split
      cases split
      rw [drop_slashes, last, if_pos List.isEmpty_nil]
  rw [pathLookupat_eq, walked]

/-- A walk with names after the first. -/
theorem pathLookupat_more {part : String} {rest : List String}
    (allowed : env.permission nd.clock nd.dir = .ok ()) (pending : nd.pending = part :: rest)
    (more : rest.dropWhile String.isEmpty ≠ []) :
    nd.pathLookupat env follow =
      match { nd.tick with pending := rest.dropWhile String.isEmpty }.advance env part with
      | .error error after => .error error after
      | .ok () after => after.pathLookupat env follow := by
  have spelled : nd.tick.pending = part :: rest := pending
  have some : ¬(rest.dropWhile String.isEmpty).isEmpty = true := by
    rw [List.isEmpty_iff]
    exact more
  have walked : nd.linkPathWalk env =
      match { nd.tick with pending := rest.dropWhile String.isEmpty }.advance env part with
      | .error error after => .error error after
      | .ok () after => after.linkPathWalk env := by
    rw [linkPathWalk, allowed]
    dsimp only
    split
    · rename_i none
      rw [spelled] at none
      cases none
    · rename_i first others split
      rw [spelled] at split
      cases split
      simp only [drop_slashes]
      rw [if_neg some]
      split
      · rename_i advanced
        rw [drop_slashes] at advanced
        rw [advanced]
      · rename_i advanced
        rw [drop_slashes] at advanced
        rw [advanced]
  rw [pathLookupat_eq, walked]
  cases { nd.tick with pending := rest.dropWhile String.isEmpty }.advance env part with
  | error error after => rfl
  | ok _ after => exact (pathLookupat_eq env after follow).symm

/-- A last `.` or `..`. -/
theorem finishLookup_dots (dots : nd.lastType ≠ .norm) :
    nd.finishLookup env follow =
      match nd.handleDots env with
      | .error error nd => .error error nd
      | .ok () nd => nd.settleLookup env := by
  rw [finishLookup, lookupLast, if_pos dots]

/-- The walk once the last name is looked up and `child` found there. -/
def foundLast (child : D) (nd : Nameidata D) : Nameidata D :=
  { nd.tick.tick.tick with
    lookupDirectory := nd.lookupDirectory || nd.trailingSlash, path := some child }

variable {child : D}

/-- A last name that is no dot, in a tree that does not change: a link standing there is followed
to another last name. -/
theorem lookupLast_norm (norm : nd.lastType = .norm)
    (found : env.lookup nd.clock nd.dir nd.last = .ok child) {kind : FileType}
    (stands : ∀ now, env.kind now child = some kind) :
    nd.lookupLast env follow =
      if (follow || nd.trailingSlash) = false ∨ kind ≠ .symlink then .ok () (nd.foundLast child)
      else
        match (nd.foundLast child).followLast env child with
        | .error error after => .error error after
        | .ok () after => after.lookupLast env true := by
  rw [lookupLast, if_neg (by simp [norm])]
  dsimp only
  rw [found]
  simp only [stands]
  by_cases stop : (follow || nd.trailingSlash) = false ∨ kind ≠ .symlink
  · rw [if_pos stop, if_pos]
    · rfl
    · simpa using stop
  · have following : (follow || nd.trailingSlash) = true := by
      cases following : follow || nd.trailingSlash with
      | false => exact absurd (.inl following) stop
      | true => rfl
    rw [if_neg stop, if_neg]
    · rw [following]
      split
      · rename_i followed
        rw [show (nd.foundLast child).followLast env child = _ from followed]
      · rename_i followed
        rw [show (nd.foundLast child).followLast env child = _ from followed]
    · simpa using stop

/-- What is found at a last name ends the walk unless it is a link to follow. -/
theorem finishLookup_norm (norm : nd.lastType = .norm)
    (found : env.lookup nd.clock nd.dir nd.last = .ok child) {kind : FileType}
    (stands : ∀ now, env.kind now child = some kind) :
    nd.finishLookup env follow =
      if (follow || nd.trailingSlash) = false ∨ kind ≠ .symlink then
        (nd.foundLast child).settleLookup env
      else
        match (nd.foundLast child).pickLink env child with
        | .error error after => .error error after
        | .ok () after => after.pathLookupat env true := by
  rw [finishLookup, lookupLast_norm env follow norm found stands]
  by_cases stop : (follow || nd.trailingSlash) = false ∨ kind ≠ .symlink
  · rw [if_pos stop, if_pos stop]
  · rw [if_neg stop, if_neg stop, followLast]
    cases (nd.foundLast child).pickLink env child with
    | error error after => rfl
    | ok _ after =>
      dsimp only
      rw [pathLookupat_eq]
      cases after.linkPathWalk env with
      | error error after => rfl
      | ok _ after => rfl

/-- Nothing stands at a last name that is no dot. -/
theorem finishLookup_missing (norm : nd.lastType = .norm)
    (found : env.lookup nd.clock nd.dir nd.last = .ok child)
    (missing : ∀ now, env.kind now child = none) :
    ended (nd.finishLookup env follow) = .error .notFound := by
  rw [finishLookup, lookupLast, if_neg (by simp [norm])]
  dsimp only
  rw [found]
  simp only [missing]
  rfl

end Equations

section Static

variable [DecidableEq D] {tree : Tree D} {start : D} {nd : Nameidata D}

omit [DecidableEq D] in
/-- Every directory beneath a directory is one. -/
theorem beneath_dir (isDir : tree.kind start = some .dir) {d : D}
    (beneath : tree.env.Beneath start d) : tree.kind d = some .dir := by
  cases beneath with
  | here => exact isDir
  | child above isDir parent inner =>
    obtain ⟨_, dir⟩ := isDir
    exact dir

omit [DecidableEq D] in
/-- Only the start may be a root among the directories beneath it. -/
theorem beneath_root {d : D} (beneath : tree.env.Beneath start d) :
    (d = start ∨ tree.isRoot d = true) ↔ d = start := by
  constructor
  · rintro (same | root)
    · exact same
    · cases beneath with
      | here => rfl
      | child above isDir parent inner =>
        rw [show tree.isRoot d = false from inner] at root
        cases root
  · exact .inl

/-- `d_ancestor` climbs from any directory beneath the start up to it. -/
theorem dAncestor_beneath {d : D} (beneath : tree.env.Beneath start d) (other : d ≠ start)
    (now left : Nat) (far : tree.depth d ≤ left) :
    tree.env.dAncestor now start left d = true := by
  induction beneath generalizing left with
  | here => exact absurd rfl other
  | @child d c above isDir parent inner ih =>
    have deeper : tree.depth (tree.parent c) < tree.depth c := tree.deeper c inner
    have standing : tree.parent c = d := parent now
    rw [standing] at deeper
    cases left with
    | zero => omega
    | succ left =>
      rw [Env.dAncestor, inner, if_neg Bool.false_ne_true, parent now]
      by_cases reached : d = start
      · rw [if_pos reached]
      · rw [if_neg reached]
        exact ih reached left (by omega)

variable {e : D} {kind : FileType} {target : String}

/-- What stands in a directory beneath the start is not outside it. -/
theorem isSubdir_within (within : tree.env.Within start e) (now : Nat) :
    tree.env.isSubdir now e start = true := by
  unfold Env.isSubdir
  by_cases same : e = start
  · simp [same]
  · have climbs : tree.env.dAncestor now start (tree.depth e) e = true := by
      rcases within with beneath | ⟨d, _, above, parent, inner⟩
      · exact dAncestor_beneath beneath same now _ (Nat.le_refl _)
      · have deeper : tree.depth (tree.parent e) < tree.depth e := tree.deeper e inner
        have standing : tree.parent e = d := parent
        rw [standing] at deeper
        cases depth : tree.depth e with
        | zero => omega
        | succ left =>
          rw [Env.dAncestor, inner, if_neg Bool.false_ne_true]
          rw [show tree.env.parent now e = d from parent]
          by_cases reached : d = start
          · rw [if_pos reached]
          · rw [if_neg reached]
            exact dAncestor_beneath above reached now left (by omega)
    simp only [Bool.or_eq_true]
    exact .inr climbs

/-- A walk that ended within its start answers what it ended on, unless only a directory would
do. -/
theorem settleLookup_within (inside : Inside tree.env start nd) (path : nd.path = some e)
    (within : tree.env.Within start e) (stands : tree.kind e = some kind) :
    ended (nd.settleLookup tree.env) =
      if nd.lookupDirectory = true ∧ kind ≠ .dir then .error .notADirectory
      else .ok (some e) := by
  have complete : nd.completeWalk tree.env = .ok () nd.tick := by
    rw [completeWalk, path, Option.getD_some, inside.root, isSubdir_within within, if_pos rfl]
  have answered : nd.tick.path.bind (tree.env.kind nd.tick.clock) = some kind := by
    rw [show nd.tick.path = some e from path]
    exact stands
  rw [settleLookup, complete]
  dsimp only
  rw [answered]
  dsimp only
  by_cases refused : nd.lookupDirectory = true ∧ kind ≠ .dir
  · rw [if_pos refused, if_pos (show nd.tick.lookupDirectory = true ∧ kind ≠ .dir from refused)]
    rfl
  · rw [if_neg refused, if_neg (show ¬(nd.tick.lookupDirectory = true ∧ kind ≠ .dir) from refused)]
    exact congrArg Except.ok path

omit [DecidableEq D] in
/-- Following a link of a tree: refused past the most a call follows, and for a target that is
absolute; otherwise the target is spelled before the names left. -/
theorem pickLink_tree (walk : Nameidata D → Walked D Unit) :
    ended (match nd.pickLink tree.env e with
      | .error error after => .error error after
      | .ok () after => walk after) =
    if nd.totalLinkCount ≥ maxSymlinks then .error .filesystemLoop
    else if isAbsolute (tree.target e) then .error .escape
    else ended (walk { nd.tick with
      totalLinkCount := nd.totalLinkCount + 1
      pending := parts (if (tree.target e).isEmpty then "." else tree.target e) ++ nd.pending }) := by
  unfold pickLink
  dsimp only
  by_cases many : nd.totalLinkCount ≥ maxSymlinks
  · rw [if_pos many, if_pos (by omega)]
    rfl
  · rw [if_neg many, if_neg (by omega)]
    rw [show tree.env.getLink nd.clock e = .ok (tree.target e) from rfl]
    dsimp only
    by_cases absolute : isAbsolute (tree.target e) = true
    · rw [if_pos absolute, if_pos absolute]
      rfl
    · rw [if_neg absolute, if_neg absolute]
      rfl

/-- A walk standing where the recursion stands: in `d`, `links` followed, `names` left. -/
structure Stands (tree : Tree D) (start : D) (nd : Nameidata D) (links : Nat) (d : D)
    (names : List String) (slash directory : Bool) : Prop where
  /-- It has not left what is beneath the start. -/
  inside : Inside tree.env start nd
  /-- It followed as many links. -/
  links : nd.totalLinkCount = links
  /-- It is in the same directory. -/
  dir : nd.dir = d
  /-- The same names are left. -/
  spells : Spells nd.pending names slash
  /-- A directory is asked for at the end alike. -/
  directory : nd.lookupDirectory = directory

variable {links : Nat} {d : D} {names rest : List String} {name : String}
  {slash directory follow : Bool}

omit [DecidableEq D] in
/-- A directory that may be searched. -/
theorem permission_ok (allowed : tree.refusal d = none) (now : Nat) :
    tree.env.permission now d = .ok () := by
  show (match tree.refusal d with | some error => Except.error error | none => .ok ()) = .ok ()
  rw [allowed]

/-- With names after the first, a walk advances past the first. -/
theorem Stands.more (stands : Stands tree start nd links d (name :: rest) slash directory)
    (follow : Bool) (allowed : tree.refusal d = none) (more : rest ≠ []) :
    ∃ after, Stands tree start after links d rest slash directory ∧
      nd.pathLookupat tree.env follow =
        match after.advance tree.env name with
        | .error error after => .error error after
        | .ok () after => after.pathLookupat tree.env follow := by
  obtain ⟨part, others, pending, -, split⟩ := stands.spells.cons
  have spells := stands.spells
  rw [pending] at spells
  obtain ⟨rfl, rfl⟩ := List.cons.inj split
  have left : others.dropWhile String.isEmpty ≠ [] :=
    fun none => more (dropWhile_isEmpty_eq_nil.mp none)
  refine ⟨{ nd.tick with pending := others.dropWhile String.isEmpty }, ?_, ?_⟩
  · exact ⟨stands.inside.same _ rfl rfl rfl, stands.links, stands.dir, spells.more more,
      stands.directory⟩
  · apply pathLookupat_more tree.env follow _ pending left
    rw [stands.dir]
    exact permission_ok allowed _

/-- A walk left with the last name where the recursion has it left. -/
structure AtLast (tree : Tree D) (start : D) (nd : Nameidata D) (links : Nat) (d : D)
    (name : String) (slash directory : Bool) : Prop where
  /-- It has not left what is beneath the start. -/
  inside : Inside tree.env start nd
  /-- It followed as many links. -/
  links : nd.totalLinkCount = links
  /-- It is in the same directory. -/
  dir : nd.dir = d
  /-- No other name is left. -/
  pending : nd.pending = []
  /-- The last name is told apart from a dot. -/
  lastType : nd.lastType = if name = "." then .dot else if name = ".." then .dotDot else .norm
  /-- A name that is no dot is kept. -/
  last : nd.lastType = .norm → nd.last = name
  /-- A slash trails alike. -/
  trailingSlash : nd.trailingSlash = slash
  /-- A directory is asked for at the end alike. -/
  directory : nd.lookupDirectory = directory

/-- With one name left, a walk finishes with it. -/
theorem Stands.last (stands : Stands tree start nd links d [name] slash directory)
    (follow : Bool) (allowed : tree.refusal d = none) :
    ∃ after, AtLast tree start after links d name slash directory ∧
      nd.pathLookupat tree.env follow = after.finishLookup tree.env follow := by
  obtain ⟨part, others, pending, -, split⟩ := stands.spells.cons
  have spells := stands.spells
  rw [pending] at spells
  obtain ⟨rfl, none⟩ := List.cons.inj split
  have left : others.dropWhile String.isEmpty = [] := dropWhile_isEmpty_eq_nil.mpr none.symm
  refine ⟨{ nd.tick with pending := [] }.setLast name slash, ?_, ?_⟩
  · refine ⟨stands.inside.same _ rfl rfl rfl, stands.links, stands.dir, rfl, rfl, ?_, rfl,
      stands.directory⟩
    intro norm
    simp only [setLast] at norm ⊢
    rw [norm]
  · rw [← spells.last none.symm]
    apply pathLookupat_last tree.env follow _ pending left
    rw [stands.dir]
    exact permission_ok allowed _

/-- A `..` of a tree: refused at the start, and otherwise to the directory above. -/
theorem followDotdot_tree (inside : Inside tree.env start nd) :
    nd.followDotdot tree.env =
      if nd.dir = start then .error .escape nd
      else .ok () (nd.tick.stepInto (tree.parent nd.dir)).tick := by
  have refused : (nd.dir = nd.root ∨ tree.env.isRoot nd.dir = true) ↔ nd.dir = start := by
    rw [inside.root]
    exact beneath_root inside.dir
  unfold followDotdot
  by_cases here : nd.dir = start
  · rw [if_pos here, if_pos (refused.mpr here)]
  · rw [if_neg here, if_neg fun climbed => here (refused.mp climbed)]
    rfl

/-- The target of a link that is followed spells its names. -/
theorem spells_target (relative : isAbsolute target = false) :
    Spells (parts (if target.isEmpty then "." else target)) (splitTarget target).1
      (splitTarget target).2 := by
  by_cases empty : target.isEmpty = true
  · rw [splitTarget, if_pos empty, if_pos empty]
    exact spells_parts (by decide) (by decide)
  · rw [splitTarget, if_neg empty, if_neg empty]
    apply spells_parts _ relative
    intro blank
    exact empty (String.isEmpty_iff.mpr blank)

/-- A walk that ends where it stands answers the directory it stands in. -/
theorem settleLookup_dir (isDir : tree.kind start = some .dir)
    (inside : Inside tree.env start nd) :
    ended ({ nd with path := some nd.dir }.settleLookup tree.env) = .ok (some nd.dir) := by
  have same : Inside tree.env start { nd with path := some nd.dir } :=
    inside.same _ rfl rfl rfl
  rw [settleLookup_within same rfl (.inl inside.dir) (beneath_dir isDir inside.dir)]
  exact if_neg fun refused => refused.2 rfl

/-- A last `.` ends where the walk stands. -/
theorem AtLast.dot (isDir : tree.kind start = some .dir)
    (left : AtLast tree start nd links d "." slash directory) :
    ended (nd.finishLookup tree.env follow) = .ok (some d) := by
  have dot : nd.lastType = .dot := left.lastType
  rw [finishLookup_dots tree.env follow (by simp [dot]), handleDots, if_neg (by simp [dot])]
  dsimp only
  rw [settleLookup_dir isDir left.inside, left.dir]

/-- A last `..` ends on the directory above, and is refused at the start. -/
theorem AtLast.dotdot (isDir : tree.kind start = some .dir)
    (left : AtLast tree start nd links d ".." slash directory) :
    ended (nd.finishLookup tree.env follow) =
      if d = start then .error .escape else .ok (some (tree.parent d)) := by
  have dotdot : nd.lastType = .dotDot := left.lastType
  have climbed := followDotdot_inside left.inside
  rw [finishLookup_dots tree.env follow (by simp [dotdot]), handleDots, if_pos dotdot]
  rw [followDotdot_tree left.inside, left.dir] at climbed ⊢
  by_cases top : d = start
  · rw [if_pos top, if_pos top]
    rfl
  · rw [if_neg top, Walked.walk] at climbed
    rw [if_neg top, if_neg top]
    dsimp only
    rw [settleLookup_dir isDir climbed]
    rfl

/-- A last name that is no dot: a link to follow is spelled where it stood, and anything else is
what the walk ends on unless only a directory would do. -/
theorem AtLast.norm (left : AtLast tree start nd links d name slash directory) (dot : name ≠ ".")
    (dotdot : name ≠ "..") (stands : tree.kind (tree.lookup d name) = some kind) :
    ended (nd.finishLookup tree.env follow) =
      if (follow || slash) = false ∨ kind ≠ .symlink then
        if (directory || slash) = true ∧ kind ≠ .dir then .error .notADirectory
        else .ok (some (tree.lookup d name))
      else
        ended (match (nd.foundLast (tree.lookup d name)).pickLink tree.env (tree.lookup d name) with
          | .error error after => .error error after
          | .ok () after => after.pathLookupat tree.env true) := by
  have norm : nd.lastType = .norm := by rw [left.lastType, if_neg dot, if_neg dotdot]
  have found : tree.env.lookup nd.clock nd.dir nd.last = .ok (tree.lookup d name) := by
    rw [left.dir, left.last norm]
    rfl
  have inside : Inside tree.env start (nd.foundLast (tree.lookup d name)) :=
    left.inside.tick.tick.tick.same _ rfl rfl rfl
  have within : tree.env.Within start (tree.lookup d name) := by
    have beneath := left.inside.dir
    rw [left.dir] at beneath
    obtain ⟨parent, inner⟩ := tree.lookup_child d name
    exact .inr ⟨d, 0, beneath, parent, inner⟩
  rw [finishLookup_norm tree.env follow norm found fun _ => stands, left.trailingSlash]
  by_cases stop : (follow || slash) = false ∨ kind ≠ .symlink
  · rw [if_pos stop, if_pos stop, settleLookup_within inside rfl within stands]
    have asked : (nd.foundLast (tree.lookup d name)).lookupDirectory = (directory || slash) := by
      rw [← left.directory, ← left.trailingSlash]
      rfl
    rw [asked]
  · rw [if_neg stop, if_neg stop]

omit [DecidableEq D] in
/-- The walk on once a link that is last is followed. -/
theorem AtLast.followed (left : AtLast tree start nd links d name slash directory)
    (relative : isAbsolute target = false) (child : D) :
    Stands tree start { (nd.foundLast child).tick with
        totalLinkCount := (nd.foundLast child).totalLinkCount + 1
        pending := parts (if target.isEmpty then "." else target) ++ (nd.foundLast child).pending }
      (links + 1) d (splitTarget target).1 (splitTarget target).2 (directory || slash) := by
  have inside : Inside tree.env start (nd.foundLast child) :=
    left.inside.tick.tick.tick.same _ rfl rfl rfl
  have counted : (nd.foundLast child).totalLinkCount = links := left.links
  have stays : (nd.foundLast child).dir = d := left.dir
  have none : (nd.foundLast child).pending = [] := left.pending
  have asks : (nd.foundLast child).lookupDirectory = (directory || slash) := by
    show (nd.lookupDirectory || nd.trailingSlash) = (directory || slash)
    rw [left.directory, left.trailingSlash]
  generalize nd.foundLast child = found at inside counted stays none asks
  rw [counted, none, List.append_nil]
  exact ⟨inside.same _ rfl rfl rfl, rfl, stays, spells_target relative, asks⟩

section

variable (stands : Stands tree start nd links d names slash directory)

include stands

omit [DecidableEq D] in
/-- The walk on once a link that is not last is followed. -/
theorem Stands.followed (relative : isAbsolute target = false) :
    Stands tree start { nd.tick.tick.tick with
        totalLinkCount := nd.tick.tick.totalLinkCount + 1
        pending := parts (if target.isEmpty then "." else target) ++ nd.tick.tick.pending }
      (links + 1) d ((splitTarget target).1 ++ names) slash directory :=
  ⟨stands.inside.tick.tick.tick.same _ rfl rfl rfl, congrArg (· + 1) stands.links, stands.dir,
    (spells_target relative).append stands.spells, stands.directory⟩

/-- A `..` that is not last. -/
theorem Stands.climb (below : d ≠ start) :
    ∃ after, nd.followDotdot tree.env = .ok () after ∧
      Stands tree start after links (tree.parent d) names slash directory := by
  have climbed := followDotdot_inside stands.inside
  rw [followDotdot_tree stands.inside, stands.dir, if_neg below, Walked.walk] at climbed
  refine ⟨_, ?_, climbed, stands.links, rfl, stands.spells, stands.directory⟩
  rw [followDotdot_tree stands.inside, stands.dir, if_neg below]

omit [DecidableEq D] in
/-- A directory stepped into. -/
theorem Stands.descend (dir : tree.kind (tree.lookup d name) = some .dir) :
    Stands tree start (nd.tick.tick.stepInto (tree.lookup d name)) links (tree.lookup d name)
      names slash directory := by
  have beneath := stands.inside.dir
  rw [stands.dir] at beneath
  obtain ⟨parent, inner⟩ := tree.lookup_child d name
  have below : tree.env.Beneath start (tree.lookup d name) :=
    .child beneath ⟨0, dir⟩ (fun _ => parent) inner
  have asked : Inside tree.env start nd.tick.tick := stands.inside.tick.tick
  exact ⟨asked.stepInto below, stands.links, rfl, stands.spells, stands.directory⟩

/-- A name that is no dot and not last, by what stands there. -/
theorem Stands.advance_norm (dot : name ≠ ".") (dotdot : name ≠ "..") :
    nd.advance tree.env name =
      match tree.kind (tree.lookup d name) with
      | none => .error .notFound nd.tick.tick
      | some .symlink => nd.tick.tick.pickLink tree.env (tree.lookup d name)
      | some .dir => .ok () (nd.tick.tick.stepInto (tree.lookup d name))
      | some _ => .error .notADirectory nd.tick.tick := by
  rw [advance, if_neg dot, if_neg dotdot, ← stands.dir]
  rfl

end

/-- Following a link that is not last. -/
theorem Stands.link_more (stands : Stands tree start nd links d (name :: rest) slash directory)
    (follow : Bool) (allowed : tree.refusal d = none) (dot : name ≠ ".") (dotdot : name ≠ "..")
    (link : tree.kind (tree.lookup d name) = some .symlink) (more : rest ≠ []) :
    ∃ onward, (isAbsolute (tree.target (tree.lookup d name)) = false →
        Stands tree start onward (links + 1) d
          ((splitTarget (tree.target (tree.lookup d name))).1 ++ rest) slash directory) ∧
      ended (nd.pathLookupat tree.env follow) =
        if links ≥ maxSymlinks then .error .filesystemLoop
        else if isAbsolute (tree.target (tree.lookup d name)) then .error .escape
        else ended (onward.pathLookupat tree.env follow) := by
  obtain ⟨after, onward, walked⟩ := stands.more follow allowed more
  refine ⟨_, fun relative => onward.followed relative, ?_⟩
  rw [walked, onward.advance_norm dot dotdot, link]
  dsimp only
  rw [pickLink_tree fun after => after.pathLookupat tree.env follow, ← onward.links]
  rfl

/-- Following a link that is last. -/
theorem Stands.link_last (stands : Stands tree start nd links d [name] slash directory)
    (allowed : tree.refusal d = none) (dot : name ≠ ".") (dotdot : name ≠ "..")
    (link : tree.kind (tree.lookup d name) = some .symlink) (following : (follow || slash) = true) :
    ∃ onward, (isAbsolute (tree.target (tree.lookup d name)) = false →
        Stands tree start onward (links + 1) d (splitTarget (tree.target (tree.lookup d name))).1
          (splitTarget (tree.target (tree.lookup d name))).2 (directory || slash)) ∧
      ended (nd.pathLookupat tree.env follow) =
        if links ≥ maxSymlinks then .error .filesystemLoop
        else if isAbsolute (tree.target (tree.lookup d name)) then .error .escape
        else ended (onward.pathLookupat tree.env true) := by
  obtain ⟨after, left, walked⟩ := stands.last follow allowed
  refine ⟨_, fun relative => left.followed relative (tree.lookup d name), ?_⟩
  rw [walked, left.norm dot dotdot link, if_neg (by simp [following])]
  rw [pickLink_tree fun after => after.pathLookupat tree.env true, ← left.links]
  rfl

/-- What stands at a name that is no link to follow. -/
theorem Stands.found_last (stands : Stands tree start nd links d [name] slash directory)
    (allowed : tree.refusal d = none) (dot : name ≠ ".") (dotdot : name ≠ "..")
    (entry : tree.kind (tree.lookup d name) = some kind)
    (stop : (follow || slash) = false ∨ kind ≠ .symlink) :
    ended (nd.pathLookupat tree.env follow) =
      if (directory || slash) = true ∧ kind ≠ .dir then .error .notADirectory
      else .ok (some (tree.lookup d name)) := by
  obtain ⟨after, left, walked⟩ := stands.last follow allowed
  rw [walked, left.norm dot dotdot entry, if_pos stop]

/-- Nothing stands at a name. -/
theorem Stands.missing (stands : Stands tree start nd links d (name :: rest) slash directory)
    (allowed : tree.refusal d = none) (dot : name ≠ ".") (dotdot : name ≠ "..")
    (none : tree.kind (tree.lookup d name) = none) :
    ended (nd.pathLookupat tree.env follow) = .error .notFound := by
  by_cases last : rest = []
  · subst last
    obtain ⟨after, left, walked⟩ := stands.last follow allowed
    have norm : after.lastType = .norm := by rw [left.lastType, if_neg dot, if_neg dotdot]
    have found : tree.env.lookup after.clock after.dir after.last = .ok (tree.lookup d name) := by
      rw [left.dir, left.last norm]
      rfl
    rw [walked]
    exact finishLookup_missing tree.env follow norm found fun _ => none
  · obtain ⟨after, onward, walked⟩ := stands.more follow allowed last
    rw [walked, onward.advance_norm dot dotdot, none]
    rfl

/-- A last name asked more of is asked it by the call or by a slash. -/
theorem following_of_asked {asked : Bool}
    (some : ¬(([] : List String) = [] ∧ asked = false ∧ slash = false)) :
    (asked || slash) = true := by
  cases asked with
  | true => exact Bool.true_or slash
  | false =>
    cases slash with
    | true => rfl
    | false => exact absurd ⟨rfl, rfl, rfl⟩ some

/-- A walk makes of a path what the recursion does. -/
theorem pathLookupat_resolve (isDir : tree.kind start = some .dir)
    (stands : Stands tree start nd links d names slash directory) :
    ended (nd.pathLookupat tree.env follow) =
      (tree.resolve start links d names slash follow directory).map some := by
  fun_induction tree.resolve start links d names slash follow directory generalizing nd with
  | case1 links d names slash follow directory error refused =>
    have answer : tree.env.permission nd.clock nd.dir = .error error := by
      show (match tree.refusal nd.dir with | some error => Except.error error | none => .ok ()) = _
      rw [stands.dir, refused]
    rw [pathLookupat_refused tree.env follow answer]
    rfl
  | case2 =>
    obtain ⟨part, rest, -, -, split⟩ := stands.spells.cons
    cases split
  | case3 links d slash follow directory allowed =>
    obtain ⟨after, left, walked⟩ := stands.last follow allowed
    rw [walked, left.dot isDir]
    rfl
  | case4 links d slash follow directory allowed rest more ih =>
    obtain ⟨after, onward, walked⟩ := stands.more follow allowed more
    rw [walked, advance, if_pos rfl]
    exact ih onward
  | case5 links slash follow directory rest allowed =>
    by_cases last : rest = []
    · subst last
      obtain ⟨after, left, walked⟩ := stands.last follow allowed
      rw [walked, left.dotdot isDir, if_pos rfl]
      rfl
    · obtain ⟨after, onward, walked⟩ := stands.more follow allowed last
      rw [walked, advance, if_neg (by decide), if_pos rfl, followDotdot_tree onward.inside,
        if_pos onward.dir]
      rfl
  | case6 links d slash follow directory allowed below =>
    obtain ⟨after, left, walked⟩ := stands.last follow allowed
    rw [walked, left.dotdot isDir, if_neg below]
    rfl
  | case7 links d slash follow directory allowed rest below more dots ih =>
    obtain ⟨after, onward, walked⟩ := stands.more follow allowed more
    obtain ⟨above, climbed, standing⟩ := onward.climb below
    rw [walked, advance, if_neg (by decide), if_pos rfl, climbed]
    exact ih standing
  | case8 links d slash follow directory allowed name rest dot dotdot none =>
    exact stands.missing allowed dot dotdot none
  | case9 links d slash follow directory allowed name dot dotdot dir =>
    rw [stands.found_last allowed dot dotdot dir (.inr (by decide))]
    exact if_neg fun refused => refused.2 rfl
  | case10 links d slash follow directory allowed name rest dot dotdot dir more ih =>
    obtain ⟨after, onward, walked⟩ := stands.more follow allowed more
    have found : tree.kind (tree.lookup d name) = some .dir := dir
    rw [walked, onward.advance_norm dot dotdot, found]
    exact ih (onward.descend found)
  | case11 links d slash follow allowed name rest dot dotdot link stop =>
    obtain ⟨rfl, unasked, bare⟩ := stop
    rw [stands.found_last allowed dot dotdot link (.inl (by simp [unasked, bare]))]
    exact if_pos ⟨Bool.true_or slash, by decide⟩
  | case12 links d slash follow directory allowed name rest dot dotdot link stop any =>
    obtain ⟨rfl, unasked, bare⟩ := stop
    rw [stands.found_last allowed dot dotdot link (.inl (by simp [unasked, bare]))]
    exact if_neg fun refused => by simp [any, bare] at refused
  | case13 links d slash follow directory allowed name rest dot dotdot link asked many =>
    by_cases last : rest = []
    · subst last
      obtain ⟨onward, -, ends⟩ :=
        stands.link_last allowed dot dotdot link (following_of_asked asked)
      rw [ends, if_pos many]
      rfl
    · obtain ⟨onward, -, ends⟩ := stands.link_more follow allowed dot dotdot link last
      rw [ends, if_pos many]
      rfl
  | case14 links d slash follow directory allowed name rest dot dotdot link asked few absolute =>
    by_cases last : rest = []
    · subst last
      obtain ⟨onward, -, ends⟩ :=
        stands.link_last allowed dot dotdot link (following_of_asked asked)
      rw [ends, if_neg few, if_pos absolute]
      rfl
    · obtain ⟨onward, -, ends⟩ := stands.link_more follow allowed dot dotdot link last
      rw [ends, if_neg few, if_pos absolute]
      rfl
  | case15 links d slash follow directory allowed name dot dotdot link few relative asked ih =>
    obtain ⟨onward, standing, ends⟩ :=
      stands.link_last allowed dot dotdot link (following_of_asked asked)
    rw [ends, if_neg few, if_neg relative]
    exact ih (standing (Bool.eq_false_iff.mpr relative))
  | case16 links d slash follow directory allowed name rest dot dotdot link asked few relative more
      ih =>
    obtain ⟨onward, standing, ends⟩ :=
      stands.link_more follow allowed dot dotdot link more
    rw [ends, if_neg few, if_neg relative]
    exact ih (standing (Bool.eq_false_iff.mpr relative))
  | case17 links d slash follow directory allowed name rest dot dotdot kind noDir noLink entry any =>
    obtain ⟨rfl, unasked, bare⟩ := any
    rw [stands.found_last allowed dot dotdot entry (.inr noLink)]
    exact if_neg fun refused => by simp [unasked, bare] at refused
  | case18 links d slash follow directory allowed name rest dot dotdot kind noDir noLink entry any =>
    by_cases last : rest = []
    · subst last
      have asked : (directory || slash) = true := following_of_asked any
      rw [stands.found_last allowed dot dotdot entry (.inr noLink)]
      exact if_pos ⟨asked, noDir⟩
    · obtain ⟨after, onward, walked⟩ := stands.more follow allowed last
      have found : tree.kind (tree.lookup d name) = some kind := entry
      rw [walked, onward.advance_norm dot dotdot, found]
      cases kind with
      | dir => exact absurd rfl noDir
      | symlink => exact absurd rfl noLink
      | _ => rfl

/-- The recursion never answers that something moved, so no walk is made again. -/
theorem resolve_settled (tree : Tree D) (start : D) (links : Nat) (d : D) (names : List String)
    (slash follow directory : Bool) :
    tree.resolve start links d names slash follow directory ≠
      .error .staleNetworkFileHandle := by
  fun_induction tree.resolve start links d names slash follow directory with
  | case1 links d names slash follow directory error refused =>
    intro stale
    cases stale
    exact tree.settled d refused
  | case4 links d slash follow directory allowed rest more ih => exact ih
  | case7 links d slash follow directory allowed rest below more dots ih => exact ih
  | case10 links d slash follow directory allowed name rest dot dotdot dir more ih => exact ih
  | case15 links d slash follow directory allowed name dot dotdot link few relative asked ih =>
    exact ih
  | case16 links d slash follow directory allowed name rest dot dotdot link asked few relative more
      ih =>
    exact ih
  | _ =>
    intro stale
    cases stale

/-- In a tree nothing changes, a lookup of any relative path from any directory ends on the entry
the recursion resolves it to, or fails as it does. -/
theorem filenameLookup_resolve (tree : Tree D) (start : D) (path : String) (follow : Bool)
    (isDir : tree.kind start = some .dir) (named : getname path = .ok ())
    (relative : isAbsolute path = false) :
    ended (filenameLookup tree.env start path follow) =
      (tree.resolve start 0 start (splitPath path).1 (splitPath path).2 follow false).map some := by
  have nonempty : path ≠ "" := by
    intro empty
    subst empty
    cases named
  have begun : setNameidata tree.env start path ⟨0, 0, []⟩ =
      .ok () (fresh start path ⟨0, 0, []⟩).tick := by
    rw [setNameidata, named]
    dsimp only
    rw [relative, if_neg Bool.false_ne_true, show tree.env.kind _ start = some .dir from isDir]
  have inside : Inside tree.env start (fresh start path ⟨0, 0, []⟩).tick :=
    ⟨rfl, .here, by simp [fresh, tick]⟩
  have stands : Stands tree start (fresh start path ⟨0, 0, []⟩).tick 0 start (splitPath path).1
      (splitPath path).2 false :=
    ⟨inside, rfl, rfl, spells_parts nonempty relative, rfl⟩
  have ends : ended ((fresh start path ⟨0, 0, []⟩).tick.pathLookupat tree.env follow) = _ :=
    pathLookupat_resolve isDir stands
  have settled := resolve_settled tree start 0 start (splitPath path).1 (splitPath path).2 follow
    false
  rw [filenameLookup, walkWithReval, begun]
  dsimp only
  split
  · rename_i after stale
    rw [stale, ended] at ends
    cases resolved : tree.resolve start 0 start (splitPath path).1 (splitPath path).2 follow false with
    | ok entry =>
      rw [resolved] at ends
      cases ends
    | error error =>
      rw [resolved] at ends
      cases ends
      exact absurd resolved settled
  · exact ends

/-- A link up out of `sub` and one to a missing name with a slash, from `d`. -/
theorem filenameLookup_resolve_shared :
    ended (filenameLookup Tree.shared.env ["d"] "sub/up//./dangling" false) =
      (Tree.shared.resolve ["d"] 0 ["d"] (splitPath "sub/up//./dangling").1
        (splitPath "sub/up//./dangling").2 false false).map some :=
  filenameLookup_resolve Tree.shared ["d"] "sub/up//./dangling" false (by decide) (by decide)
    (by decide)

end Static

end Nameidata

end Kobako.Vfs
