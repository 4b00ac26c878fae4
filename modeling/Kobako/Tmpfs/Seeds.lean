import Kobako.Tmpfs.Moves

/-!
# Seeding

`Tmpfs::try_from_iter` finds each conflict against the tree built so far. The tree built so far
shows exactly the files seeded and the directories above them, so a file is refused just where its
path meets one of theirs, and what is accepted does not depend on the order of the list.
-/

namespace Kobako.Tmpfs

/-! ## What a path shows -/

/-- What stands at a path. -/
inductive Entry where
  | file (contents : List UInt8)
  | directory
  | whiteout
deriving Repr, DecidableEq

/-- What an object shows itself as. -/
def Body.entry : Body → Entry
  | .file content => .file content.bytes
  | .directory _ => .directory
  | .whiteout => .whiteout

namespace Heap

/-- The node a path from the root leads to. -/
def reached (h : Heap) (path : List String) : Option Node :=
  Edges.walk Node.inside h.standing (.directory 0) path

/-- What stands at a path from the root. -/
def entryAt (h : Heap) (path : List String) : Option Entry :=
  (h.reached path).bind fun node => (h.bodyOf node.id).map Body.entry

/-- The paths at which something stands. -/
def paths (h : Heap) : Set (List String) := {path | (h.entryAt path).isSome}

end Heap

/-- A directory's place is its own. -/
theorem Node.inside_id (node : Node) (dir : Nat) (is : node.inside = some dir) : dir = node.id := by
  cases node with
  | directory id =>
    cases is
    rfl
  | file id => cases is
  | whiteout id => cases is

/-- A Tmpfs while it is seeded. -/
structure Seeding (h : Heap) : Prop where
  /-- Its references are counted. -/
  balanced : Balanced h [] 0
  /-- It is a tree. -/
  tree : Tree h
  /-- Its root is held. -/
  root : .directory 0 ∈ h.holders
  /-- Finitely many paths lead somewhere. -/
  finite : h.paths.Finite
  /-- The inodes used are as many as the paths. -/
  inodes : h.inodes.used = h.paths.ncard

namespace Seeding

variable {h : Heap}

variable {path : List String} {dir : Nat} {state : State Node} {body : Body} {above : List String}
  {name : String}

/-- What a path leads to is alive, and is what the path says. -/
theorem alive (seeding : Seeding h) {node : Node} (leads : h.reached path = some node) :
    ∃ object, h.objects.get node.id = some object ∧ object.body.node node.id = node := by
  induction path using List.reverseRecOn with
  | nil =>
    cases leads
    exact seeding.balanced.object (Balanced.held_self seeding.root)
  | append_singleton before name _ =>
    obtain ⟨behind, dir, -, -, stands⟩ := Edges.walk_concat leads
    exact Tree.standing_alive seeding.balanced stands

/-- A path that leads to a directory shows one. -/
theorem entryAt_directory (seeding : Seeding h) (leads : h.reached path = some (.directory dir)) :
    h.entryAt path = some .directory := by
  obtain ⟨⟨strong, body⟩, found, kind⟩ := seeding.alive leads
  have lies : h.bodyOf (Node.directory dir).id = some body := by
    unfold Heap.bodyOf
    rw [found]
    rfl
  unfold Heap.entryAt
  rw [leads]
  show (h.bodyOf (Node.directory dir).id).map Body.entry = _
  rw [lies]
  cases body with
  | directory state => rfl
  | file content => cases kind
  | whiteout => cases kind

/-- A path that leads to no directory shows none. -/
theorem entryAt_leaf (seeding : Seeding h) {node : Node} (leads : h.reached path = some node)
    (leaf : node.inside = none) :
    h.entryAt path ≠ none ∧ h.entryAt path ≠ some .directory := by
  obtain ⟨⟨strong, body⟩, found, kind⟩ := seeding.alive leads
  have shows_ : h.entryAt path = some body.entry := by
    unfold Heap.entryAt Heap.bodyOf
    rw [leads]
    show ((h.objects.get node.id).map (·.body)).map Body.entry = _
    rw [found]
    rfl
  rw [shows_]
  refine ⟨nofun, ?_⟩
  cases body with
  | directory state =>
    rw [← kind] at leaf
    cases leaf
  | file content => nofun
  | whiteout => nofun

/-- Nothing stands where no path leads. -/
theorem entryAt_none (leads : h.reached path = none) :
    h.entryAt path = none := by
  unfold Heap.entryAt
  rw [leads]
  rfl

/-- Every path above a directory leads to one. -/
theorem entryAt_above (seeding : Seeding h) {path above : List String}
    (leads : h.reached above = some (.directory dir)) (before : path <+: above) :
    h.entryAt path = some .directory := by
  obtain ⟨rest, same⟩ := before
  cases rest with
  | nil =>
    rw [List.append_nil] at same
    rw [same]
    exact seeding.entryAt_directory leads
  | cons name rest =>
    rw [← same] at leads
    unfold Heap.reached at leads
    rw [Edges.walk_append] at leads
    obtain ⟨node, reaches, onward⟩ := Option.bind_eq_some_iff.mp leads
    cases is : node.inside with
    | none =>
      simp only [Edges.walk, is] at onward
      cases onward
    | some inner =>
      have directory : node = .directory inner := by
        cases node with
        | directory id =>
          cases is
          rfl
        | file id => cases is
        | whiteout id => cases is
      rw [directory] at reaches
      exact seeding.entryAt_directory reaches

/-! ## An object seeded -/

/-- The changes of an object seeded, exactly. -/
theorem seedAt_exactly {dir strong : Nat}
    (found : h.objects.get dir = some ⟨strong, .directory state⟩) (apart : dir ≠ h.next)
    (name : String) (body : Body) :
    Exactly ([(h.next, .make body)] ++ [(dir, .hold name (body.node h.next))]) h
      (h.seedAt dir name body).2 := by
  have counted : Exactly [] h (h.counted body.length) := .of_objects rfl
  have made := counted.trans (Exactly.alloc (h.counted body.length) body)
  have has : ((h.counted body.length).alloc body).2.stateOf dir = some state := by
    apply Heap.stateOf_of_bodyOf
    rw [made dir]
    show landed (h.bodyOf dir) (changesTo dir [(h.next, .make body)]) = _
    rw [changesTo_other (Ne.symm apart)]
    unfold Heap.bodyOf
    rw [found]
    rfl
  exact made.trans (Exactly.hold has name (body.node h.next))

/-- An object seeded takes its place among what stands. -/
theorem seedAt_standing (balanced : Balanced h [] 0) {dir strong : Nat}
    (found : h.objects.get dir = some ⟨strong, .directory state⟩) (name : String)
    (empty : body.nodes = []) :
    (h.seedAt dir name body).2.standing =
      Edges.place h.standing dir name (some (body.node h.next)) := by
  have apart : dir ≠ h.next := Nat.ne_of_lt (balanced.fresh dir _ found)
  have exactly := seedAt_exactly found apart name body
  have within := exactly.changed.within (by
    intro change member other makes
    cases List.mem_cons.mp member with
    | inl first =>
      rw [first] at makes
      cases makes
      exact empty
    | inr second =>
      rw [List.mem_singleton.mp second] at makes
      cases makes)
  funext other called
  cases has : h.stateOf other with
  | some before =>
    have lies := Heap.bodyOf_of_stateOf has
    have old : other ≠ h.next := by
      obtain ⟨object, lying, -⟩ := Option.map_eq_some_iff.mp lies
      exact Nat.ne_of_lt (balanced.fresh other object lying)
    have kept : ∀ change ∈ changesTo other ([(h.next, Change.make body)] ++
        [(dir, .hold name (body.node h.next))]), ¬ change.Remakes := by
      intro change member remakes
      have among := mem_changesTo.mp member
      cases List.mem_cons.mp among with
      | inl first => exact old (congrArg Prod.fst first)
      | inr second =>
        cases List.mem_singleton.mp second
        exact remakes
    exact exactly.standing_kept has kept called
  | none =>
    have nothing : h.standing other called = none := by
      unfold Heap.standing
      rw [has]
      rfl
    have alive : h.stateOf dir = some state := by rw [Heap.stateOf, found]
    have elsewhere : ¬ (other = dir ∧ called = name) := by
      intro both
      rw [both.1, alive] at has
      cases has
    rw [Edges.place_other _ _ elsewhere, nothing]
    cases stands : (h.seedAt dir name body).2.standing other called with
    | none => rfl
    | some node =>
      have placed := within other called node stands
      change Edges.place h.standing dir name (some (body.node h.next)) other called = some node
        at placed
      rw [Edges.place_other _ _ elsewhere, nothing] at placed
      cases placed

/-- What an object shows itself as stays, and the one seeded shows itself. -/
theorem seedAt_entry {dir strong : Nat}
    (found : h.objects.get dir = some ⟨strong, .directory state⟩) (apart : dir ≠ h.next)
    (name : String) (body : Body) (id : Nat) :
    ((h.seedAt dir name body).2.bodyOf id).map Body.entry =
      if id = h.next then some body.entry else (h.bodyOf id).map Body.entry := by
  rw [seedAt_exactly found apart name body id, List.singleton_append]
  by_cases new : id = h.next
  · rw [if_pos new, new, changesTo_self, changesTo_other apart]
    rfl
  · rw [if_neg new, changesTo_other (Ne.symm new)]
    by_cases here : dir = id
    · subst here
      rw [changesTo_self]
      unfold Heap.bodyOf
      rw [found]
      rfl
    · rw [changesTo_other here]
      rfl

/-- A directory a path leads to is alive. -/
theorem directory_alive (seeding : Seeding h) (leads : h.reached above = some (.directory dir)) :
    ∃ strong state, h.objects.get dir = some ⟨strong, .directory state⟩ := by
  obtain ⟨⟨strong, held⟩, found, kind⟩ := seeding.alive leads
  cases held with
  | file content => cases kind
  | whiteout => cases kind
  | directory state => exact ⟨strong, state, found⟩

/-- The path of an object seeded at a free name leads to it, and every other where it led. -/
theorem reached_seedAt (seeding : Seeding h) (leads : h.reached above = some (.directory dir))
    (free : h.standing dir name = none) (empty : body.nodes = []) (path : List String) :
    (h.seedAt dir name body).2.reached path =
      if path = above ++ [name] then some (body.node h.next) else h.reached path := by
  obtain ⟨strong, state, alive⟩ := seeding.directory_alive leads
  have apart : dir ≠ h.next := Nat.ne_of_lt (seeding.balanced.fresh dir _ alive)
  have unrooted : ∀ other called node, h.standing other called = some node →
      node.id ≠ (Node.directory 0).id := seeding.tree.unrooted
  unfold Heap.reached
  rw [seedAt_standing seeding.balanced alive name empty]
  apply Edges.walk_place_new Node.inside_id seeding.tree.once unrooted leads rfl free
  intro own called is
  have place : own = h.next := (Node.inside_id _ own is).trans (Body.node_id body h.next)
  refine ⟨fun same => apart (same.symm.trans place), ?_⟩
  rw [place]
  unfold Heap.standing Heap.stateOf
  rw [seeding.balanced.next_free]
  rfl

/-- An object seeded at a free name shows itself there, and every other path what it showed. -/
theorem entryAt_seedAt (seeding : Seeding h) (leads : h.reached above = some (.directory dir))
    (free : h.standing dir name = none) (empty : body.nodes = []) (path : List String) :
    (h.seedAt dir name body).2.entryAt path =
      if path = above ++ [name] then some body.entry else h.entryAt path := by
  obtain ⟨strong, state, alive⟩ := seeding.directory_alive leads
  have apart : dir ≠ h.next := Nat.ne_of_lt (seeding.balanced.fresh dir _ alive)
  unfold Heap.entryAt
  rw [seeding.reached_seedAt leads free empty]
  by_cases new : path = above ++ [name]
  · rw [if_pos new, if_pos new]
    show ((h.seedAt dir name body).2.bodyOf (body.node h.next).id).map Body.entry = _
    rw [seedAt_entry alive apart, Body.node_id, if_pos rfl]
  · rw [if_neg new, if_neg new]
    cases reaches : h.reached path with
    | none => rfl
    | some node =>
      obtain ⟨object, lies, -⟩ := seeding.alive reaches
      have old : node.id ≠ h.next := Nat.ne_of_lt (seeding.balanced.fresh _ _ lies)
      show ((h.seedAt dir name body).2.bodyOf node.id).map Body.entry = _
      rw [seedAt_entry alive apart, if_neg old]
      rfl

/-- What an object seeded counts. -/
theorem seedAt_counts (dir : Nat) (name : String) (body : Body) :
    (h.seedAt dir name body).2.bytes.used = h.bytes.used + body.length ∧
      (h.seedAt dir name body).2.inodes.used = h.inodes.used + 1 := by
  have same : ∀ (start : Heap) (node : Node), (start.hold dir name node).1.bytes = start.bytes ∧
      (start.hold dir name node).1.inodes = start.inodes := by
    intro start node
    unfold Heap.hold
    split
    · dsimp only
      unfold Heap.setBody
      split <;> exact ⟨rfl, rfl⟩
    · exact ⟨rfl, rfl⟩
  obtain ⟨bytes, inodes⟩ := same ((h.counted body.length).alloc body).2 (body.node h.next)
  constructor
  · exact congrArg Budget.used bytes
  · exact congrArg Budget.used inodes

/-- An object seeded at a free name keeps what seeding keeps. -/
theorem seedAt (seeding : Seeding h) (leads : h.reached above = some (.directory dir))
    (free : h.standing dir name = none) (bare : body.Bare) :
    Seeding (h.seedAt dir name body).2 := by
  obtain ⟨strong, state, alive⟩ := seeding.directory_alive leads
  have before := seeding.balanced.fresh dir _ alive
  obtain ⟨counted, holders, -⟩ := seeding.balanced.seedAt alive free body bare.empty
  have unreached : above ++ [name] ∉ h.paths := by
    intro member
    have absent : h.reached (above ++ [name]) = none := by
      unfold Heap.reached
      rw [Edges.walk_concat_eq leads rfl]
      exact free
    change (h.entryAt (above ++ [name])).isSome = true at member
    rw [entryAt_none absent] at member
    cases member
  have grown : (h.seedAt dir name body).2.paths = insert (above ++ [name]) h.paths := by
    ext path
    rw [Set.mem_insert_iff]
    change ((h.seedAt dir name body).2.entryAt path).isSome = true ↔
      path = above ++ [name] ∨ (h.entryAt path).isSome = true
    rw [seeding.entryAt_seedAt leads free bare.empty]
    by_cases new : path = above ++ [name]
    · simp only [new, if_true, Option.isSome_some, true_or]
    · simp only [new, if_false, false_or]
  refine ⟨counted, seeding.tree.seedAt seeding.balanced before name bare, ?_, ?_, ?_⟩
  · rw [holders]
    exact seeding.root
  · rw [grown]
    exact seeding.finite.insert _
  · rw [(seedAt_counts dir name body).2, grown,
      Set.ncard_insert_of_notMem unreached seeding.finite, seeding.inodes]

end Seeding

/-! ## A file seeded -/

/-- Whether a file may be seeded at a path: nothing stands there, and above it nothing but
directories. -/
def Clear (h : Heap) (path : List String) : Prop :=
  h.entryAt path = none ∧ ∀ before, before <+: path → before ≠ path →
    h.entryAt before = none ∨ h.entryAt before = some .directory

/-- A file seeded at a path, the directories above it made where they were not. -/
structure SeededAt (h : Heap) (path : List String) (contents : List UInt8) (after : Heap) : Prop where
  seeding : Seeding after
  file : after.entryAt path = some (.file contents)
  above : ∀ other, other <+: path → other ≠ path → after.entryAt other = some .directory
  others : ∀ other, ¬ other <+: path → after.entryAt other = h.entryAt other
  bytes : after.bytes.used = h.bytes.used + contents.length

/-- A path one name longer than another is not above it. -/
theorem prefix_concat {other above : List String} {name : String}
    (before : other <+: above ++ [name]) (apart : other ≠ above ++ [name]) : other <+: above :=
  (List.prefix_concat_iff.mp before).resolve_left apart

namespace Seeding

variable {h : Heap}

/-- The last name of a file's path: refused just where something stands. -/
theorem seedLast (seeding : Seeding h) {above : List String} {dir : Nat} (name : String)
    (leads : h.reached above = some (.directory dir)) (contents : List UInt8) :
    (Clear h (above ++ [name]) → ∃ after, h.seedFile dir above [name] contents = .ok after ∧
        SeededAt h (above ++ [name]) contents after) ∧
      (¬ Clear h (above ++ [name]) → ∃ error, h.seedFile dir above [name] contents = .error error) := by
  have reaches : h.reached (above ++ [name]) = h.standing dir name :=
    Edges.walk_concat_eq leads rfl name
  unfold Heap.seedFile
  cases stands : h.standing dir name with
  | some node =>
    rw [stands] at reaches
    constructor
    · intro clear
      cases is : node.inside with
      | none => exact absurd clear.1 (seeding.entryAt_leaf reaches is).1
      | some inner =>
        cases node with
        | directory id =>
          have absent := clear.1
          rw [seeding.entryAt_directory reaches] at absent
          cases absent
        | file id => cases is
        | whiteout id => cases is
    · intro _
      cases node <;> exact ⟨_, rfl⟩
  | none =>
    rw [stands] at reaches
    have above_ : ∀ other, other <+: above ++ [name] → other ≠ above ++ [name] →
        h.entryAt other = some .directory := by
      intro other before apart
      exact seeding.entryAt_above leads (prefix_concat before apart)
    have clear : Clear h (above ++ [name]) :=
      ⟨entryAt_none reaches, fun other before apart => .inr (above_ other before apart)⟩
    constructor
    · intro _
      have bare : (Body.file ⟨contents, 1⟩).Bare := ⟨trivial, rfl, rfl⟩
      have shows_ := seeding.entryAt_seedAt leads stands bare.empty
      refine ⟨_, rfl, seeding.seedAt leads stands bare, ?_, ?_, ?_, ?_⟩
      · rw [shows_, if_pos rfl]
        rfl
      · intro other before apart
        rw [shows_, if_neg apart]
        exact above_ other before apart
      · intro other beside
        have apart : other ≠ above ++ [name] := fun same => beside (same ▸ List.prefix_refl _)
        rw [shows_, if_neg apart]
      · exact (seedAt_counts dir name _).1
    · intro blocked
      exact absurd clear blocked

/-- A file seeded beneath a directory: refused just where its path is not clear. -/
theorem seedFile (seeding : Seeding h) {above : List String} {dir : Nat} (name : String)
    (rest : List String) (leads : h.reached above = some (.directory dir)) (contents : List UInt8) :
    (Clear h (above ++ name :: rest) → ∃ after,
        h.seedFile dir above (name :: rest) contents = .ok after ∧
        SeededAt h (above ++ name :: rest) contents after) ∧
      (¬ Clear h (above ++ name :: rest) → ∃ error,
        h.seedFile dir above (name :: rest) contents = .error error) := by
  induction rest generalizing h above dir name with
  | nil => exact seeding.seedLast name leads contents
  | cons next rest ih =>
    have path : above ++ name :: next :: rest = (above ++ [name]) ++ next :: rest := by simp
    have reaches : h.reached (above ++ [name]) = h.standing dir name :=
      Edges.walk_concat_eq leads rfl name
    have before : above ++ [name] <+: above ++ name :: next :: rest := path ▸ List.prefix_append _ _
    have shorter : above ++ [name] ≠ above ++ name :: next :: rest := by simp
    rw [Heap.seedFile]
    cases stands : h.standing dir name with
    | some node =>
      rw [stands] at reaches
      cases node with
      | directory inner =>
        dsimp only
        rw [path]
        exact ih seeding next reaches
      | file id | whiteout id =>
        refine ⟨fun clear => ?_, fun _ => ⟨_, rfl⟩⟩
        obtain ⟨some_, noDirectory⟩ := seeding.entryAt_leaf reaches rfl
        cases clear.2 _ before shorter with
        | inl none_ => exact absurd none_ some_
        | inr directory => exact absurd directory noDirectory
    | none =>
      rw [stands] at reaches
      have bare : (Body.directory .new).Bare := Body.Blank.bare (.inr (.inl rfl))
      have shows_ := seeding.entryAt_seedAt leads stands bare.empty
      have made := seeding.seedAt leads stands bare
      have arrives : (h.seedAt dir name (.directory .new)).2.reached (above ++ [name]) =
          some (.directory (h.seedAt dir name (.directory .new)).1) := by
        rw [seeding.reached_seedAt leads stands bare.empty, if_pos rfl]
        rfl
      obtain ⟨accepts, refuses⟩ := ih made next arrives
      rw [← path] at accepts refuses
      have same : Clear (h.seedAt dir name (.directory .new)).2 (above ++ name :: next :: rest) ↔
          Clear h (above ++ name :: next :: rest) := by
        unfold Clear
        rw [shows_, if_neg (Ne.symm shorter)]
        apply and_congr_right
        intro _
        apply forall_congr'
        intro other
        apply imp_congr_right
        intro _
        rw [shows_]
        by_cases new : other = above ++ [name]
        · rw [if_pos new, new, entryAt_none reaches]
          exact iff_of_true (fun _ => .inr rfl) fun _ => .inl rfl
        · rw [if_neg new]
      rw [same] at accepts refuses
      refine ⟨?_, refuses⟩
      intro clear
      obtain ⟨after, seeded, placed⟩ := accepts clear
      refine ⟨after, seeded, placed.seeding, placed.file, placed.above, ?_, ?_⟩
      · intro other beside
        have apart : other ≠ above ++ [name] := fun same => beside (same ▸ before)
        rw [placed.others other beside, shows_, if_neg apart]
      · rw [placed.bytes, (seedAt_counts dir name _).1]
        rfl

end Seeding

/-! ## A list seeded -/

/-- Whether a path is the root or above one of some paths. -/
def Above (paths : List (List String)) (path : List String) : Prop :=
  path = [] ∨ ∃ other ∈ paths, path <+: other ∧ path ≠ other

/-- Whether neither of two paths is the other or above it. -/
def Beside (first second : List String) : Prop := ¬ first <+: second ∧ ¬ second <+: first

/-- The files of a list by their names. -/
def named (files : List (String × List UInt8)) : List (List String × List UInt8) :=
  files.map fun file => (normalizeSeed file.1, file.2)

/-- A Tmpfs that shows files and the directories above them, and nothing else. -/
def Shows (h : Heap) (files : List (List String × List UInt8)) : Prop :=
  ∀ path entry, h.entryAt path = some entry ↔
    (∃ contents, entry = .file contents ∧ (path, contents) ∈ files) ∨
      entry = .directory ∧ Above (files.map (·.1)) path

variable {contents : List UInt8} {files : List (List String × List UInt8)} {h : Heap}

/-- A file's path is among the paths. -/
theorem mem_paths {path : List String} (among : (path, contents) ∈ files) :
    path ∈ files.map (·.1) :=
  List.mem_map.mpr ⟨(path, contents), among, rfl⟩

/-- A path is clear just where it is beside the path of every file shown. -/
theorem Shows.clear_iff (shows_ : Shows h files) {path : List String} (named : path ≠ []) :
    Clear h path ↔ ∀ other ∈ files.map (·.1), Beside other path := by
  have file : ∀ other ∈ files.map (·.1), ∃ contents, h.entryAt other = some (.file contents) := by
    intro other member
    obtain ⟨⟨_, contents⟩, among, rfl⟩ := List.mem_map.mp member
    exact ⟨contents, (shows_ _ _).mpr (.inl ⟨contents, rfl, among⟩)⟩
  constructor
  · intro clear other member
    obtain ⟨contents, stands⟩ := file other member
    have apart : other ≠ path := by
      intro same
      rw [same, clear.1] at stands
      cases stands
    constructor
    · intro before
      cases clear.2 other before apart with
      | inl none_ =>
        rw [none_] at stands
        cases stands
      | inr directory =>
        rw [directory] at stands
        cases stands
    · intro after
      have directory : h.entryAt path = some .directory :=
        (shows_ _ _).mpr (.inr ⟨rfl, .inr ⟨other, member, after, Ne.symm apart⟩⟩)
      rw [clear.1] at directory
      cases directory
  · intro beside
    constructor
    · cases stands : h.entryAt path with
      | none => rfl
      | some entry =>
        obtain ⟨contents, -, among⟩ | ⟨-, above⟩ := (shows_ _ _).mp stands
        · have member := mem_paths among
          exact absurd (List.prefix_refl path) (beside path member).1
        · cases above with
          | inl root => exact absurd root named
          | inr higher =>
            obtain ⟨other, member, before, -⟩ := higher
            exact absurd before (beside other member).2
    · intro before isBefore _
      cases stands : h.entryAt before with
      | none => exact .inl rfl
      | some entry =>
        obtain ⟨contents, -, among⟩ | ⟨directory, -⟩ := (shows_ _ _).mp stands
        · have member := mem_paths among
          exact absurd isBefore (beside before member).1
        · exact .inr (congrArg some directory)

/-- A file seeded is shown beside those shown before. -/
theorem Shows.seeded {h after : Heap} (shows_ : Shows h files) {path : List String}
    (named : path ≠ []) (beside : ∀ other ∈ files.map (·.1), Beside other path)
    (seeded : SeededAt h path contents after) : Shows after (files ++ [(path, contents)]) := by
  have unshown : ∀ content, (path, content) ∉ files := by
    intro content among
    have member := mem_paths among
    exact (beside path member).1 (List.prefix_refl path)
  intro other entry
  rw [List.map_append, List.map_singleton]
  by_cases here : other = path
  · subst here
    rw [seeded.file]
    constructor
    · intro same
      cases same
      exact .inl ⟨contents, rfl, List.mem_append_right _ List.mem_cons_self⟩
    · intro what
      obtain ⟨content, rfl, among⟩ | ⟨-, above⟩ := what
      · cases List.mem_append.mp among with
        | inl early => exact absurd early (unshown content)
        | inr last =>
          cases List.mem_singleton.mp last
          rfl
      · cases above with
        | inl root => exact absurd root named
        | inr higher =>
          obtain ⟨further, member, before, apart⟩ := higher
          cases List.mem_append.mp member with
          | inl early => exact absurd before (beside further early).2
          | inr last => exact absurd (List.mem_singleton.mp last).symm apart
  · by_cases before : other <+: path
    · rw [seeded.above other before here]
      constructor
      · intro same
        cases same
        exact .inr ⟨rfl, .inr ⟨path, List.mem_append_right _ List.mem_cons_self, before, here⟩⟩
      · intro what
        obtain ⟨content, -, among⟩ | ⟨rfl, -⟩ := what
        · cases List.mem_append.mp among with
          | inl early =>
            have member := mem_paths early
            exact absurd before (beside other member).1
          | inr last => exact absurd (congrArg Prod.fst (List.mem_singleton.mp last)) here
        · rfl
    · rw [seeded.others other before, shows_ other entry]
      have file : ∀ content, (other, content) ∈ files ++ [(path, contents)] ↔
          (other, content) ∈ files := by
        intro content
        rw [List.mem_append, List.mem_singleton]
        apply or_iff_left
        intro same
        exact here (congrArg Prod.fst same)
      have above : Above (files.map (·.1) ++ [path]) other ↔ Above (files.map (·.1)) other := by
        unfold Above
        apply or_congr_right
        constructor
        · rintro ⟨further, member, isBefore, apart⟩
          cases List.mem_append.mp member with
          | inl early => exact ⟨further, early, isBefore, apart⟩
          | inr last =>
            rw [List.mem_singleton.mp last] at isBefore
            exact absurd isBefore before
        · rintro ⟨further, member, isBefore, apart⟩
          exact ⟨further, List.mem_append_left _ member, isBefore, apart⟩
      simp only [file, above]

/-- Whether files may be seeded after others: each at a path of names, beside all others. -/
structure Fits (done files : List (List String × List UInt8)) : Prop where
  rooted : ∀ path ∈ files.map (·.1), path ≠ [] ∧ ".." ∉ path
  after : ∀ other ∈ done.map (·.1), ∀ path ∈ files.map (·.1), Beside other path
  beside : (files.map (·.1)).Pairwise Beside

/-- A file may be seeded first, and the rest after it. -/
theorem fits_cons {done files : List (List String × List UInt8)} {path : List String} :
    Fits done ((path, contents) :: files) ↔
      (path ≠ [] ∧ ".." ∉ path) ∧ (∀ other ∈ done.map (·.1), Beside other path) ∧
        Fits (done ++ [(path, contents)]) files := by
  constructor
  · intro fits
    have beside := List.pairwise_cons.mp fits.beside
    refine ⟨fits.rooted path List.mem_cons_self,
      fun other member => fits.after other member path List.mem_cons_self, ?_, ?_, beside.2⟩
    · intro other member
      exact fits.rooted other (List.mem_cons_of_mem _ member)
    · intro other member further among
      rw [List.map_append, List.mem_append] at member
      cases member with
      | inl early => exact fits.after other early further (List.mem_cons_of_mem _ among)
      | inr last =>
        rw [List.mem_singleton.mp last]
        exact beside.1 further among
  · rintro ⟨rooted, first, rest⟩
    refine ⟨?_, ?_, ?_⟩
    · intro other member
      cases List.mem_cons.mp member with
      | inl same =>
        rw [same]
        exact rooted
      | inr later => exact rest.rooted other later
    · intro other member further among
      cases List.mem_cons.mp among with
      | inl same =>
        rw [same]
        exact first other member
      | inr later =>
        apply rest.after other _ further later
        rw [List.map_append]
        exact List.mem_append_left _ member
    · apply List.pairwise_cons.mpr
      refine ⟨?_, rest.beside⟩
      intro further among
      apply rest.after path _ further among
      rw [List.map_append]
      exact List.mem_append_right _ List.mem_cons_self

/-- `Tmpfs::try_from_iter` from what was seeded so far: refused just where the rest does not fit. -/
theorem Seeding.seed (seeding : Seeding h) {done : List (List String × List UInt8)}
    (shows_ : Shows h done) (files : List (String × List UInt8)) :
    (Fits done (named files) → ∃ after, h.seed files = .ok after ∧ Seeding after ∧
        Shows after (done ++ named files) ∧
        after.bytes.used = h.bytes.used + (files.map (·.2.length)).sum) ∧
      (¬ Fits done (named files) → ∃ error, h.seed files = .error error) := by
  induction files generalizing h done with
  | nil =>
    constructor
    · intro _
      refine ⟨h, rfl, seeding, ?_, rfl⟩
      rw [show done ++ named [] = done from List.append_nil done]
      exact shows_
    · intro blocked
      exact absurd ⟨nofun, fun _ _ => nofun, .nil⟩ blocked
  | cons file files ih =>
    obtain ⟨path, contents⟩ := file
    rw [show named ((path, contents) :: files) = (normalizeSeed path, contents) :: named files
      from rfl, fits_cons, Heap.seed]
    by_cases empty : (normalizeSeed path).isEmpty = true
    · rw [if_pos empty]
      refine ⟨fun fits => absurd (List.isEmpty_iff.mp empty) fits.1.1, fun _ => ⟨_, rfl⟩⟩
    · rw [if_neg empty]
      by_cases dots : ".." ∈ normalizeSeed path
      · rw [if_pos dots]
        exact ⟨fun fits => absurd dots fits.1.2, fun _ => ⟨_, rfl⟩⟩
      · rw [if_neg dots]
        have rooted : normalizeSeed path ≠ [] := fun same => empty (List.isEmpty_iff.mpr same)
        obtain ⟨name, rest, names⟩ := List.exists_cons_of_ne_nil rooted
        have leads : h.reached [] = some (.directory 0) := rfl
        obtain ⟨accepts, refuses⟩ := seeding.seedFile name rest leads contents
        rw [List.nil_append, ← names] at accepts refuses
        by_cases clear : Clear h (normalizeSeed path)
        · obtain ⟨next, one, seeded⟩ := accepts clear
          have beside := (shows_.clear_iff rooted).mp clear
          obtain ⟨accepted, refused⟩ := ih seeded.seeding (shows_.seeded rooted beside seeded)
          rw [one]
          dsimp only
          constructor
          · rintro ⟨-, -, fits⟩
            obtain ⟨after, all, kept, shown, bytes⟩ := accepted fits
            refine ⟨after, all, kept, ?_, ?_⟩
            · rw [List.append_assoc] at shown
              exact shown
            · rw [bytes, seeded.bytes, List.map_cons, List.sum_cons]
              exact Nat.add_assoc _ _ _
          · intro blocked
            exact refused fun fits => blocked ⟨⟨rooted, dots⟩, beside, fits⟩
        · obtain ⟨error, one⟩ := refuses clear
          rw [one]
          dsimp only
          refine ⟨?_, fun _ => ⟨error, rfl⟩⟩
          rintro ⟨-, beside, -⟩
          exact absurd ((shows_.clear_iff rooted).mpr beside) clear

/-! ## Order -/

/-- Paths are beside each other just where they are distinct and none is above another. -/
theorem pairwise_beside_iff {paths : List (List String)} :
    paths.Pairwise Beside ↔
      paths.Nodup ∧ ∀ first ∈ paths, ∀ second ∈ paths, first <+: second → first = second := by
  constructor
  · intro beside
    have symmetric : Std.Symm Beside := ⟨fun _ _ both => ⟨both.2, both.1⟩⟩
    refine ⟨?_, ?_⟩
    · apply beside.imp
      intro first second both same
      exact both.1 (same ▸ List.prefix_refl first)
    · intro first one second two before
      by_contra apart
      exact (beside.forall one two apart).1 before
  · rintro ⟨distinct, free⟩
    apply distinct.imp_of_mem
    intro first second one two apart
    exact ⟨fun before => apart (free first one second two before),
      fun after => apart (free second two first one after).symm⟩

/-- A Tmpfs with nothing but its root shows nothing else. -/
theorem new_entryAt (path : List String) :
    Heap.new.entryAt path = if path = [] then some .directory else none := by
  cases path with
  | nil => rfl
  | cons name path => rfl

theorem new_seeding : Seeding Heap.new := by
  have only : Heap.new.paths = {[]} := by
    ext path
    change (Heap.new.entryAt path).isSome = true ↔ path = []
    rw [new_entryAt]
    by_cases root : path = []
    · rw [if_pos root]
      exact iff_of_true rfl root
    · rw [if_neg root]
      exact iff_of_false nofun root
  refine ⟨new_balanced, .new, List.mem_cons_self, ?_, ?_⟩
  · rw [only]
    exact Set.finite_singleton _
  · rw [only, Set.ncard_singleton]
    rfl

theorem new_shows : Shows Heap.new [] := by
  intro path entry
  rw [new_entryAt]
  by_cases root : path = []
  · rw [if_pos root]
    constructor
    · intro same
      cases same
      exact .inr ⟨rfl, .inl root⟩
    · intro what
      obtain ⟨contents, -, among⟩ | ⟨directory, -⟩ := what
      · cases among
      · rw [directory]
  · rw [if_neg root]
    constructor
    · intro same
      cases same
    · intro what
      obtain ⟨contents, -, among⟩ | ⟨-, above⟩ := what
      · cases among
      · cases above with
        | inl same => exact absurd same root
        | inr higher =>
          obtain ⟨other, member, -⟩ := higher
          cases member

/-- Whether a list may be seeded: every path has names and none of them is `..`, no two are the same
and none is above another. -/
structure Seedable (paths : List (List String)) : Prop where
  rooted : ∀ path ∈ paths, path ≠ [] ∧ ".." ∉ path
  distinct : paths.Nodup
  free : ∀ first ∈ paths, ∀ second ∈ paths, first <+: second → first = second

/-- Whether a list may be seeded does not depend on its order. -/
theorem Seedable.perm {paths other : List (List String)} (seedable : Seedable paths)
    (reordered : paths.Perm other) : Seedable other where
  rooted path member := seedable.rooted path (reordered.mem_iff.mpr member)
  distinct := reordered.nodup_iff.mp seedable.distinct
  free first one second two :=
    seedable.free first (reordered.mem_iff.mpr one) second (reordered.mem_iff.mpr two)

/-- A whole list fits just where it may be seeded. -/
theorem fits_iff :
    Fits [] files ↔ Seedable (files.map (·.1)) := by
  constructor
  · intro fits
    obtain ⟨distinct, free⟩ := pairwise_beside_iff.mp fits.beside
    exact ⟨fits.rooted, distinct, free⟩
  · intro seedable
    exact ⟨seedable.rooted, nofun, pairwise_beside_iff.mpr ⟨seedable.distinct, seedable.free⟩⟩

/-- The paths of the files of a list. -/
def pathsOf (files : List (String × List UInt8)) : List (List String) :=
  files.map fun file => normalizeSeed file.1

theorem map_named (files : List (String × List UInt8)) :
    (named files).map (·.1) = pathsOf files := by
  unfold named pathsOf
  rw [List.map_map]
  rfl

/-- A list is seeded just where it may be. -/
theorem tryFromIter_iff (files : List (String × List UInt8)) :
    (∃ seeded, Heap.tryFromIter files = .ok seeded) ↔ Seedable (pathsOf files) := by
  obtain ⟨accepts, refuses⟩ := new_seeding.seed new_shows files
  rw [fits_iff, map_named] at accepts refuses
  constructor
  · rintro ⟨seeded, accepted⟩
    by_contra blocked
    obtain ⟨error, refused⟩ := refuses blocked
    rw [show Heap.tryFromIter files = Heap.new.seed files from rfl, refused] at accepted
    cases accepted
  · intro seedable
    obtain ⟨after, accepted, -⟩ := accepts seedable
    exact ⟨after, accepted⟩

/-- The paths of a Tmpfs seeded are those of its files and those above them. -/
theorem paths_seeded (shows_ : Shows h files) :
    h.paths = {path | path ∈ files.map (·.1)} ∪ {path | Above (files.map (·.1)) path} := by
  ext path
  change (h.entryAt path).isSome = true ↔ path ∈ files.map (·.1) ∨ Above (files.map (·.1)) path
  rw [Option.isSome_iff_exists]
  constructor
  · rintro ⟨entry, stands⟩
    obtain ⟨contents, -, among⟩ | ⟨-, above⟩ := (shows_ _ _).mp stands
    · exact .inl (mem_paths among)
    · exact .inr above
  · intro what
    cases what with
    | inl member =>
      obtain ⟨⟨_, contents⟩, among, rfl⟩ := List.mem_map.mp member
      exact ⟨_, (shows_ _ _).mpr (.inl ⟨contents, rfl, among⟩)⟩
    | inr above => exact ⟨_, (shows_ _ _).mpr (.inr ⟨rfl, above⟩)⟩

/-- The inodes of a Tmpfs seeded are one for each file and one for each directory above them. -/
theorem inodes_seeded (seeding : Seeding h) (shows_ : Shows h files)
    (seedable : Seedable (files.map (·.1))) :
    h.inodes.used = files.length + {path | Above (files.map (·.1)) path}.ncard := by
  have all := paths_seeded shows_
  have finite := seeding.finite
  rw [all] at finite
  have finiteAbove := finite.subset Set.subset_union_right
  have finiteFiles := finite.subset Set.subset_union_left
  have disjoint : Disjoint {path | path ∈ files.map (·.1)}
      {path | Above (files.map (·.1)) path} := by
    apply Set.disjoint_left.mpr
    intro path member above
    cases above with
    | inl root => exact (seedable.rooted path member).1 root
    | inr higher =>
      obtain ⟨other, also, before, apart⟩ := higher
      exact apart (seedable.free path member other also before)
  have count : {path | path ∈ files.map (·.1)}.ncard = files.length := by
    have same : {path | path ∈ files.map (·.1)} = ↑(files.map (·.1)).toFinset := by
      ext path
      simp
    rw [same, Set.ncard_coe_finset, List.toFinset_card_of_nodup seedable.distinct, List.length_map]
  rw [seeding.inodes, all, Set.ncard_union_eq disjoint finiteFiles finiteAbove, count]

/-- Seeding is order independent: a list is accepted just where its normalised paths have names,
none of them `..`, are distinct and none is above another; so it is in any order; and what is seeded
then shows exactly the files and the directories above them, its bytes and inodes counted. -/
theorem seeding_order_independent (files : List (String × List UInt8)) :
    ((∃ seeded, Heap.tryFromIter files = .ok seeded) ↔ Seedable (pathsOf files)) ∧
      (∀ other, files.Perm other → ((∃ seeded, Heap.tryFromIter files = .ok seeded) ↔
        ∃ seeded, Heap.tryFromIter other = .ok seeded)) ∧
      ∀ seeded, Heap.tryFromIter files = .ok seeded →
        (∀ path contents, seeded.entryAt path = some (.file contents) ↔
          ∃ file ∈ files, normalizeSeed file.1 = path ∧ file.2 = contents) ∧
        (∀ path, seeded.entryAt path = some .directory ↔ Above (pathsOf files) path) ∧
        (∀ path, seeded.entryAt path ≠ some .whiteout) ∧
        seeded.bytes.used = (files.map (·.2.length)).sum ∧
        seeded.inodes.used = files.length + {path | Above (pathsOf files) path}.ncard := by
  refine ⟨tryFromIter_iff files, ?_, ?_⟩
  · intro other reordered
    rw [tryFromIter_iff, tryFromIter_iff]
    have paths : (pathsOf files).Perm (pathsOf other) := reordered.map _
    exact ⟨fun seedable => seedable.perm paths, fun seedable => seedable.perm paths.symm⟩
  · intro seeded accepted
    have seedable := (tryFromIter_iff files).mp ⟨seeded, accepted⟩
    obtain ⟨accepts, -⟩ := new_seeding.seed new_shows files
    rw [fits_iff, map_named] at accepts
    obtain ⟨after, same, seeding, shown, bytes⟩ := accepts seedable
    rw [show Heap.tryFromIter files = Heap.new.seed files from rfl, same] at accepted
    cases accepted
    rw [List.nil_append] at shown
    have inodes := inodes_seeded seeding shown (by rw [map_named]; exact seedable)
    rw [map_named] at inodes
    have length : (named files).length = files.length := List.length_map ..
    rw [length] at inodes
    refine ⟨?_, ?_, ?_, ?_, inodes⟩
    · intro path contents
      rw [shown path (.file contents)]
      constructor
      · intro what
        obtain ⟨held, same, among⟩ | ⟨directory, -⟩ := what
        · cases same
          obtain ⟨file, member, is⟩ := List.mem_map.mp among
          exact ⟨file, member, congrArg Prod.fst is, congrArg Prod.snd is⟩
        · cases directory
      · rintro ⟨file, member, rfl, rfl⟩
        exact .inl ⟨file.2, rfl, List.mem_map.mpr ⟨file, member, rfl⟩⟩
    · intro path
      rw [shown path .directory, map_named]
      constructor
      · intro what
        obtain ⟨held, same, -⟩ | ⟨-, above⟩ := what
        · cases same
        · exact above
      · intro above
        exact .inr ⟨rfl, above⟩
    · intro path stands
      obtain ⟨held, same, -⟩ | ⟨same, -⟩ := (shown path .whiteout).mp stands
      · cases same
      · cases same
    · rw [bytes]
      exact Nat.zero_add _

/-- Two files of one directory, the second path written with an empty name and a `.`. -/
theorem seeding_order_independent_twoFiles :
    ∃ seeded, Heap.tryFromIter [("a/b", [1]), ("./a//c", [2, 3])] = .ok seeded ∧
      seeded.entryAt ["a", "c"] = some (.file [2, 3]) ∧ seeded.bytes.used = 3 ∧
      ∃ other, Heap.tryFromIter [("./a//c", [2, 3]), ("a/b", [1])] = .ok other := by
  obtain ⟨-, reordered, seeded⟩ := seeding_order_independent [("a/b", [1]), ("./a//c", [2, 3])]
  obtain ⟨files, -, -, bytes, -⟩ := seeded _ rfl
  have second : normalizeSeed "./a//c" = ["a", "c"] := by decide
  refine ⟨_, rfl, (files _ _).mpr ⟨("./a//c", [2, 3]), by simp, second, rfl⟩, bytes, ?_⟩
  exact (reordered _ (List.Perm.swap _ _ _)).mp ⟨_, rfl⟩

end Kobako.Tmpfs
