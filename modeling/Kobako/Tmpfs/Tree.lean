import Kobako.Edges
import Kobako.Tmpfs.Sound

/-!
# A Tmpfs is a tree

What a Tmpfs's directories hold, as edges. Every call places something at a name or leaves one free,
so a Tmpfs stays a tree: nothing has two names, no directory lies beneath itself, nothing holds the
root, and whatever has a name reports that it has one. For that the VFS asks no move of a directory
into what it holds, and an Overlay names only a file it has just made.
-/

namespace Kobako.Tmpfs

open Overlay (RenameFlag)

/-- The directory a node is, if it is one. -/
def Node.inside : Node → Option Nat
  | .directory id => some id
  | _ => none

/-- What has a name reports it: a file one, and a directory that it was not removed. -/
def Body.Named : Body → Prop
  | .file content => content.names = 1
  | .directory state => state.removed = false
  | .whiteout => True

/-- What is made holds nothing, and reports the name it is made for. -/
structure Body.Bare (body : Body) : Prop where
  /-- What it reports of itself is right. -/
  sound : body.Sound
  /-- It reports a name. -/
  named : body.Named
  /-- It holds nothing. -/
  empty : body.nodes = []

theorem Body.Blank.bare {body : Body} (blank : body.Blank) : body.Bare := by
  refine ⟨blank.sound, ?_, ?_⟩
  · obtain rfl | rfl | rfl := blank
    · rfl
    · rfl
    · trivial
  · obtain rfl | rfl | rfl := blank <;> rfl

/-! ## Edges -/

/-- The edges after a change. -/
def Change.relink (edges : Edges Nat String Node) : Nat × Change → Edges Nat String Node
  | (dir, .hold name node) => edges.place dir name (some node)
  | (dir, .take name) => edges.place dir name none
  | _ => edges

/-- The edges after changes. -/
def relinked (edges : Edges Nat String Node) (changes : List (Nat × Change)) :
    Edges Nat String Node :=
  changes.foldl Change.relink edges

/-- A place whose directory, if one lies there, holds no more than edges say. -/
def Holding (edges : Edges Nat String Node) (dir : Nat) (lies : Option Body) : Prop :=
  ∀ state, lies = some (.directory state) → ∀ name node, state.entries.get name = some node →
    edges dir name = some node

variable {edges : Edges Nat String Node} {lies : Option Body} {changes : List (Nat × Change)}

/-- A change to another place leaves what a directory holds. -/
theorem relink_other {dir other : Nat} (apart : other ≠ dir) (change : Change) :
    Change.relink edges (other, change) dir = edges dir := by
  cases change with
  | hold name node =>
    funext called
    exact Edges.place_other edges _ fun same => apart same.1.symm
  | take name =>
    funext called
    exact Edges.place_other edges _ fun same => apart same.1.symm
  | make body => rfl
  | unname => rfl
  | fill bytes => rfl

/-- A change to a directory changes what it holds as edges say. -/
theorem Holding.apply {dir : Nat} (holding : Holding edges dir lies) {change : Change}
    (made : ∀ body, change = .make body → body.nodes = []) :
    Holding (Change.relink edges (dir, change)) dir (change.apply lies) := by
  intro state lands name node stands
  cases change with
  | make body =>
    cases lands
    have empty : state.entries.bindings = [] := List.map_eq_nil_iff.mp (made _ rfl)
    have member := OrderedMap.get_eq_some.mp stands
    rw [empty] at member
    cases member
  | hold called held =>
    rcases lies with _ | ⟨_ | before | _⟩ <;> cases lands
    rw [State.hold_entries] at stands
    by_cases here : name = called
    · rw [here] at stands ⊢
      rw [OrderedMap.get_insert_self] at stands
      exact (Edges.place_self edges dir called (some held)).trans stands
    · rw [OrderedMap.get_insert_of_ne _ _ here] at stands
      exact (Edges.place_other edges _ fun same => here same.2).trans
        (holding before rfl name node stands)
  | take called =>
    rcases lies with _ | ⟨_ | before | _⟩ <;> cases lands
    rw [State.take_entries] at stands
    by_cases here : name = called
    · rw [here, OrderedMap.get_remove_self] at stands
      cases stands
    · rw [OrderedMap.get_remove_of_ne _ here] at stands
      exact (Edges.place_other edges _ fun same => here same.2).trans
        (holding before rfl name node stands)
  | unname =>
    rcases lies with _ | ⟨_ | before | _⟩ <;> cases lands
    exact holding before rfl name node stands
  | fill bytes =>
    rcases lies with _ | ⟨_ | _ | _⟩ <;> cases lands
    exact holding state rfl name node stands

/-- Changes change what a directory holds as edges say. -/
theorem Holding.landed (made : ∀ change ∈ changes, ∀ body, change.2 = .make body → body.nodes = [])
    {dir : Nat} (holding : Holding edges dir lies) :
    Holding (relinked edges changes) dir (landed lies (changesTo dir changes)) := by
  induction changes generalizing edges lies with
  | nil => exact holding
  | cons change rest ih =>
    obtain ⟨id, change⟩ := change
    have later := fun other member => made other (List.mem_cons_of_mem _ member)
    by_cases here : id = dir
    · subst here
      rw [changesTo_self]
      exact ih later (holding.apply fun body same => made _ List.mem_cons_self body same)
    · rw [changesTo_other here]
      apply ih later
      intro state lands name node stands
      rw [relink_other here]
      exact holding state lands name node stands

/-- A directory holds what it is found to hold. -/
theorem holding_self (h : Heap) (dir : Nat) : Holding h.standing dir (h.bodyOf dir) := by
  intro state lies name node stands
  unfold Heap.standing
  rw [Heap.stateOf_of_bodyOf lies]
  exact stands

/-- What stands at a name is held by its directory. -/
theorem standing_body {h : Heap} {dir : Nat} {name : String} {node : Node}
    (stands : h.standing dir name = some node) :
    ∃ state, h.bodyOf dir = some (.directory state) ∧ state.entries.get name = some node := by
  unfold Heap.standing at stands
  obtain ⟨state, has, found⟩ := Option.bind_eq_some_iff.mp stands
  exact ⟨state, Heap.bodyOf_of_stateOf has, found⟩

/-- Whatever stands after changes stands as the edges they make say. -/
theorem Changed.within {h after : Heap} (changed : Changed changes h after)
    (made : ∀ change ∈ changes, ∀ body, change.2 = .make body → body.nodes = []) :
    Edges.Within after.standing (relinked h.standing changes) := by
  intro dir name node stands
  obtain ⟨state, lies, found⟩ := standing_body stands
  exact (holding_self h dir).landed made state (changed dir _ lies) name node found

/-! ## Names reported -/

/-- What is not unnamed still reports its name. -/
theorem landed_named {changes : List Change} (kept : Change.unname ∉ changes)
    (made : ∀ body, Change.make body ∈ changes → body.Named)
    (named : ∀ body, lies = some body → body.Named) :
    ∀ body, landed lies changes = some body → body.Named := by
  induction changes generalizing lies with
  | nil => exact named
  | cons change rest ih =>
    apply ih (fun member => kept (List.mem_cons_of_mem _ member))
      fun body member => made body (List.mem_cons_of_mem _ member)
    intro body lands
    cases change with
    | make other =>
      cases lands
      exact made _ List.mem_cons_self
    | unname => exact absurd List.mem_cons_self kept
    | hold name node =>
      rcases lies with _ | ⟨_ | state | _⟩ <;> cases lands
      · exact named _ rfl
      · have same : (state.hold Node.isDirectory name node).1.removed = state.removed := by
          unfold State.hold State.forgetOffset
          dsimp only
          split <;> rfl
        exact same.trans (named _ rfl)
      · trivial
    | take name =>
      rcases lies with _ | ⟨_ | state | _⟩ <;> cases lands
      · exact named _ rfl
      · have same : (state.take Node.isDirectory name).removed = state.removed := by
          unfold State.take State.forgetOffset
          dsimp only
          split <;> rfl
        exact same.trans (named _ rfl)
      · trivial
    | fill bytes =>
      rcases lies with _ | ⟨_ | state | _⟩ <;> cases lands
      · have before : Body.Named (.file _) := named _ rfl
        exact before
      · exact named _ rfl
      · trivial

/-- A change among those to a place. -/
theorem mem_changesTo {id : Nat} {change : Change} :
    change ∈ changesTo id changes ↔ (id, change) ∈ changes := by
  unfold changesTo
  simp [List.mem_map, List.mem_filter]

/-! ## Trees -/

/-- A Tmpfs that is a tree. -/
structure Tree (h : Heap) : Prop where
  /-- What its directories report is right. -/
  sound : h.Sound
  /-- Nothing has two names. -/
  once : Edges.Once Node.id h.standing
  /-- No directory lies beneath itself. -/
  acyclic : Edges.Acyclic Node.inside h.standing
  /-- Nothing holds the root. -/
  unrooted : ∀ dir name node, h.standing dir name = some node → node.id ≠ 0
  /-- Whatever has a name reports it. -/
  named : ∀ dir name node body, h.standing dir name = some node → h.bodyOf node.id = some body →
    body.Named
  /-- So does the root. -/
  root : ∀ body, h.bodyOf 0 = some body → body.Named

namespace Tree

variable {h after : Heap}

/-- Changes whose edges are a tree's, and that unname nothing of it, keep a tree. -/
theorem changed {changes : List (Nat × Change)} (tree : Tree h) (changed : Changed changes h after)
    (made : ∀ change ∈ changes, ∀ body, change.2 = .make body → body.Bare)
    (once : Edges.Once Node.id (relinked h.standing changes))
    (acyclic : Edges.Acyclic Node.inside (relinked h.standing changes))
    (named : ∀ dir name node, relinked h.standing changes dir name = some node →
      node.id ≠ 0 ∧ (node.id, .unname) ∉ changes ∧
        ∀ body, h.bodyOf node.id = some body → body.Named)
    (root : (0, .unname) ∉ changes) : Tree after := by
  have within := changed.within fun change member body makes =>
    (made change member body makes).empty
  have reports : ∀ id, (id, .unname) ∉ changes →
      (∀ body, h.bodyOf id = some body → body.Named) →
      ∀ body, after.bodyOf id = some body → body.Named := by
    intro id kept before body lies
    apply landed_named _ _ before body (changed id body lies)
    · exact fun member => kept (mem_changesTo.mp member)
    · intro other member
      exact (made _ (mem_changesTo.mp member) other rfl).named
  refine ⟨?_, once.within within, acyclic.within within, ?_, ?_, ?_⟩
  · exact tree.sound.changed changed fun change member body makes =>
      (made change member body makes).sound
  · intro dir name node stands
    exact (named dir name node (within _ _ _ stands)).1
  · intro dir name node body stands lies
    obtain ⟨-, kept, before⟩ := named dir name node (within _ _ _ stands)
    exact reports node.id kept before body lies
  · exact reports 0 root tree.root

/-- Changes to nothing but files, and objects made without a name. -/
theorem unlinked {changes : List (Nat × Change)} (tree : Tree h) (changed : Changed changes h after)
    (only : ∀ change ∈ changes, (∃ body, change.2 = .make body ∧ body.Bare) ∨
      ∃ bytes, change.2 = .fill bytes) : Tree after := by
  have same : relinked h.standing changes = h.standing := by
    clear changed
    induction changes with
    | nil => rfl
    | cons change rest ih =>
      have later := ih fun other member => only other (List.mem_cons_of_mem _ member)
      obtain ⟨id, change⟩ := change
      obtain ⟨body, makes, -⟩ | ⟨bytes, fills⟩ := only _ List.mem_cons_self
      · dsimp only at makes
        subst makes
        exact later
      · dsimp only at fills
        subst fills
        exact later
  have kept : ∀ id, (id, Change.unname) ∉ changes := by
    intro id member
    obtain ⟨body, makes, -⟩ | ⟨bytes, fills⟩ := only _ member
    · cases makes
    · cases fills
  apply tree.changed changed
  · intro change member body makes
    obtain ⟨other, also, bare⟩ | ⟨bytes, fills⟩ := only _ member
    · rw [makes] at also
      cases also
      exact bare
    · rw [makes] at fills
      cases fills
  · rw [same]
    exact tree.once
  · rw [same]
    exact tree.acyclic
  · intro dir name node stands
    rw [same] at stands
    exact ⟨tree.unrooted dir name node stands, kept _, fun body => tree.named dir name node body stands⟩
  · exact kept 0

/-- Objects made place nothing. -/
theorem relinked_made {made : List (Nat × Change)}
    (makes : ∀ change ∈ made, ∃ body, change.2 = .make body ∧ body.Bare)
    (edges : Edges Nat String Node) : relinked edges made = edges := by
  induction made with
  | nil => rfl
  | cons change rest ih =>
    have later := ih fun other member => makes other (List.mem_cons_of_mem _ member)
    obtain ⟨id, change⟩ := change
    obtain ⟨body, same, -⟩ := makes _ List.mem_cons_self
    dsimp only at same
    subst same
    exact later

/-- What a move leaves behind is made. -/
theorem leftBehind_makes (h : Heap) (flag : Option RenameFlag) :
    ∀ change ∈ leftBehind h flag, ∃ body, change.2 = .make body ∧ body.Bare := by
  intro change member
  unfold leftBehind at member
  split at member
  · rw [List.mem_singleton.mp member]
    exact ⟨.whiteout, rfl, Body.Blank.bare (.inr (.inr rfl))⟩
  · cases member

/-- Nothing is unnamed by what is made. -/
theorem not_unnamed_made {made : List (Nat × Change)}
    (makes : ∀ change ∈ made, ∃ body, change.2 = .make body ∧ body.Bare) (id : Nat) :
    (id, Change.unname) ∉ made := by
  intro member
  obtain ⟨body, same, -⟩ := makes _ member
  cases same

/-- What is unnamed is what `drop_name` is called on. -/
theorem mem_unnaming {id : Nat} {change : Change} {stood : Option Node}
    (member : (id, change) ∈ unnaming stood) :
    change = .unname ∧ ∃ node, stood = some node ∧ id = node.id := by
  cases stood with
  | none => cases member
  | some node =>
    have same := List.mem_singleton.mp member
    exact ⟨congrArg Prod.snd same, node, rfl, congrArg Prod.fst same⟩

/-- `drop_name` places nothing. -/
theorem relinked_unnaming (stood : Option Node) (edges : Edges Nat String Node) :
    relinked edges (unnaming stood) = edges := by
  cases stood <;> rfl

variable {node : Node} {moving : Node} {fromDir toDir : Nat} {source target : String}

/-- A node that has no name yet placed at one, whatever stood there unnamed. -/
theorem placed {made : List (Nat × Change)} {dir : Nat} {name : String} {stood : Option Node}
    (tree : Tree h) (changed : Changed (made ++ (dir, .hold name node) :: unnaming stood) h after)
    (makes : ∀ change ∈ made, ∃ body, change.2 = .make body ∧ body.Bare)
    (standing : ∀ replaced, stood = some replaced → h.standing dir name = some replaced)
    (nonroot : node.id ≠ 0)
    (nowhere : ∀ other called held, h.standing other called = some held → held.id ≠ node.id)
    (outside : ¬ Edges.Beneath Node.inside h.standing node dir)
    (reports : ∀ body, h.bodyOf node.id = some body → body.Named) : Tree after := by
  have edges : relinked h.standing (made ++ (dir, .hold name node) :: unnaming stood) =
      Edges.place h.standing dir name (some node) := by
    unfold relinked
    rw [List.foldl_append]
    show relinked _ (unnaming stood) = _
    rw [relinked_unnaming]
    exact congrArg (fun edges => Edges.place edges dir name (some node))
      (relinked_made makes h.standing)
  -- only what stood at the name is unnamed
  have unnamed : ∀ id, (id, Change.unname) ∈ made ++ (dir, .hold name node) :: unnaming stood →
      ∃ replaced, h.standing dir name = some replaced ∧ id = replaced.id := by
    intro id member
    cases List.mem_append.mp member with
    | inl early => exact absurd early (not_unnamed_made makes id)
    | inr late =>
      cases List.mem_cons.mp late with
      | inl same => cases same
      | inr last =>
        obtain ⟨-, replaced, stands, same⟩ := mem_unnaming last
        exact ⟨replaced, standing replaced stands, same⟩
  apply tree.changed changed
  · intro change member body makesBody
    cases List.mem_append.mp member with
    | inl early =>
      obtain ⟨other, also, bare⟩ := makes change early
      rw [makesBody] at also
      cases also
      exact bare
    | inr late =>
      cases List.mem_cons.mp late with
      | inl same =>
        rw [same] at makesBody
        cases makesBody
      | inr last =>
        obtain ⟨id, change⟩ := change
        obtain ⟨unnames, -⟩ := mem_unnaming last
        dsimp only at makesBody
        rw [makesBody] at unnames
        cases unnames
  · rw [edges]
    exact tree.once.place fun other called held stands same =>
      absurd same (nowhere other called held stands)
  · rw [edges]
    exact tree.acyclic.place outside
  · intro other called held stands
    rw [edges] at stands
    by_cases here : other = dir ∧ called = name
    · rw [here.1, here.2, Edges.place_self] at stands
      cases stands
      refine ⟨nonroot, ?_, reports⟩
      intro member
      obtain ⟨replaced, stood, same⟩ := unnamed _ member
      exact nowhere dir name replaced stood same.symm
    · rw [Edges.place_other _ _ here] at stands
      refine ⟨tree.unrooted _ _ _ stands, ?_, fun body => tree.named _ _ _ body stands⟩
      intro member
      obtain ⟨replaced, stood, same⟩ := unnamed _ member
      exact here (tree.once _ _ _ _ _ _ stood stands same.symm)
  · intro member
    obtain ⟨replaced, stood, same⟩ := unnamed _ member
    exact tree.unrooted _ _ _ stood same.symm

/-- What stands at a name unnamed and taken away. -/
theorem removed {dir : Nat} {name : String} (tree : Tree h)
    (changed : Changed (removing h dir name) h after) : Tree after := by
  have edges : relinked h.standing (removing h dir name) = Edges.place h.standing dir name none := by
    unfold relinked removing
    rw [List.foldl_append]
    exact congrArg (fun edges => Edges.place edges dir name none) (relinked_unnaming _ _)
  have within := Edges.place_none_within h.standing dir name
  have unnamed : ∀ id, (id, Change.unname) ∈ removing h dir name →
      ∃ replaced, h.standing dir name = some replaced ∧ id = replaced.id := by
    intro id member
    cases List.mem_append.mp member with
    | inl early => exact (mem_unnaming early).2
    | inr late => cases List.mem_singleton.mp late
  apply tree.changed changed
  · intro change member body makes
    have fresh : Fresh h.next (removing h dir name) := Fresh.removing h dir name
    exact (fresh change member body makes).2.bare
  · rw [edges]
    exact tree.once.within within
  · rw [edges]
    exact tree.acyclic.within within
  · intro other called held stands
    rw [edges] at stands
    have before := within _ _ _ stands
    refine ⟨tree.unrooted _ _ _ before, ?_, fun body => tree.named _ _ _ body before⟩
    intro member
    obtain ⟨replaced, stood, same⟩ := unnamed _ member
    obtain ⟨sameDir, sameName⟩ := tree.once _ _ _ _ _ _ stood before same.symm
    rw [sameDir, sameName, Edges.place_self] at stands
    cases stands
  · intro member
    obtain ⟨replaced, stood, same⟩ := unnamed _ member
    exact tree.unrooted _ _ _ stood same.symm

/-- What a move leaves is placed at its source. -/
theorem relinked_leavingAt (edges : Edges Nat String Node) (dir : Nat) (name : String)
    (left : Option Node) : relinked edges (leavingAt dir name left) = edges.place dir name left := by
  cases left <;> rfl

/-- Giving up the source of a move neither makes nor unnames anything. -/
theorem mem_leavingAt {id dir : Nat} {name : String} {left : Option Node} {change : Change}
    (member : (id, change) ∈ leavingAt dir name left) :
    change ≠ .unname ∧ ∀ body, change ≠ .make body := by
  cases left with
  | none =>
    cases List.mem_singleton.mp member
    exact ⟨nofun, nofun⟩
  | some node =>
    cases List.mem_singleton.mp member
    exact ⟨nofun, nofun⟩

/-- The changes of a move move an edge. -/
theorem relinked_move {made : List (Nat × Change)}
    (makes : ∀ change ∈ made, ∃ body, change.2 = .make body ∧ body.Bare)
    {edges : Edges Nat String Node} {fromDir : Nat} {source : String}
    (stands : edges fromDir source = some moving) (toDir : Nat) (target : String)
    (left stood : Option Node) :
    relinked edges (made ++ (leavingAt fromDir source left ++
      (toDir, .hold target moving) :: unnaming stood)) =
      edges.move fromDir source toDir target left := by
  unfold relinked
  rw [List.foldl_append, List.foldl_append]
  show relinked (Edges.place (relinked (relinked _ made) (leavingAt fromDir source left)) toDir
    target (some moving)) (unnaming stood) = _
  rw [relinked_unnaming, relinked_made makes, relinked_leavingAt]
  unfold Edges.move
  rw [stands]

/-- What a move leaves in place of what moved: nothing beneath which the source lies, standing
nowhere but at the target, and not what is unnamed there. -/
structure Leaves (h : Heap) (fromDir toDir : Nat) (target : String) (moving : Node)
    (stood : Option Node) (node : Node) : Prop where
  apart : node.id ≠ moving.id
  only : ∀ dir name held, h.standing dir name = some held → held.id = node.id →
    dir = toDir ∧ name = target
  outside : ¬ Edges.Beneath Node.inside h.standing node fromDir
  nonroot : node.id ≠ 0
  kept : ∀ replaced, stood = some replaced → replaced.id ≠ node.id
  reports : ∀ body, h.bodyOf node.id = some body → body.Named

/-- A move, whatever it leaves, and whatever stood at its target unnamed. -/
theorem moved {made : List (Nat × Change)} {left stood : Option Node} (tree : Tree h)
    (changed : Changed (made ++ (leavingAt fromDir source left ++
      (toDir, .hold target moving) :: unnaming stood)) h after)
    (makes : ∀ change ∈ made, ∃ body, change.2 = .make body ∧ body.Bare)
    (stands : h.standing fromDir source = some moving)
    (apart : ¬ (toDir = fromDir ∧ target = source))
    (standing : ∀ replaced, stood = some replaced → h.standing toDir target = some replaced)
    (outside : ¬ Edges.Beneath Node.inside h.standing moving toDir)
    (leaves : ∀ node, left = some node → Leaves h fromDir toDir target moving stood node) :
    Tree after := by
  have edges := relinked_move makes stands toDir target left stood
  have unnamed : ∀ id, (id, Change.unname) ∈ made ++ (leavingAt fromDir source left ++
      (toDir, .hold target moving) :: unnaming stood) →
      ∃ replaced, stood = some replaced ∧ id = replaced.id := by
    intro id member
    cases List.mem_append.mp member with
    | inl early => exact absurd early (not_unnamed_made makes id)
    | inr late =>
      cases List.mem_append.mp late with
      | inl gives => exact absurd rfl (mem_leavingAt gives).1
      | inr last =>
        cases List.mem_cons.mp last with
        | inl same => cases same
        | inr final => exact (mem_unnaming final).2
  apply tree.changed changed
  · intro change member body makesBody
    obtain ⟨id, change⟩ := change
    dsimp only at makesBody
    subst makesBody
    cases List.mem_append.mp member with
    | inl early =>
      obtain ⟨other, also, bare⟩ := makes _ early
      cases also
      exact bare
    | inr late =>
      cases List.mem_append.mp late with
      | inl gives => exact absurd rfl ((mem_leavingAt gives).2 body)
      | inr last =>
        cases List.mem_cons.mp last with
        | inl same => cases same
        | inr final => cases (mem_unnaming final).1
  · rw [edges]
    exact tree.once.move stands fun node lies => ⟨(leaves node lies).apart, (leaves node lies).only⟩
  · rw [edges]
    exact tree.acyclic.move stands outside fun node lies => (leaves node lies).outside
  · intro dir name node here
    rw [edges] at here
    obtain ⟨-, same⟩ | ⟨-, -, lies⟩ | ⟨aside, -, stood'⟩ := Edges.move_cases here
    · rw [stands] at same
      cases same
      refine ⟨tree.unrooted _ _ _ stands, ?_, fun body => tree.named _ _ _ body stands⟩
      intro member
      obtain ⟨replaced, unnames, same⟩ := unnamed _ member
      exact apart (tree.once _ _ _ _ _ _ stands (standing replaced unnames) same)
    · refine ⟨(leaves node lies).nonroot, ?_, (leaves node lies).reports⟩
      intro member
      obtain ⟨replaced, unnames, same⟩ := unnamed _ member
      exact (leaves node lies).kept replaced unnames same.symm
    · refine ⟨tree.unrooted _ _ _ stood', ?_, fun body => tree.named _ _ _ body stood'⟩
      intro member
      obtain ⟨replaced, unnames, same⟩ := unnamed _ member
      exact aside (tree.once _ _ _ _ _ _ (standing replaced unnames) stood' same.symm)
  · intro member
    obtain ⟨replaced, unnames, same⟩ := unnamed _ member
    exact tree.unrooted _ _ _ (standing replaced unnames) same.symm

/-! ## Calls -/

/-- What stands at a name is alive. -/
theorem standing_alive (balanced : Balanced h [] 0) {dir : Nat} {name : String}
    (stands : h.standing dir name = some node) :
    ∃ object, h.objects.get node.id = some object ∧ object.body.node node.id = node :=
  balanced.object (Balanced.standing_self stands)

theorem standing_before (balanced : Balanced h [] 0) {dir : Nat} {name : String}
    (stands : h.standing dir name = some node) : node.id < h.next := by
  obtain ⟨object, found, -⟩ := standing_alive balanced stands
  exact balanced.fresh _ object found

/-- Nothing is beneath what is still to be made. -/
theorem not_beneath_next (balanced : Balanced h [] 0) (here : node.id = h.next) {dir : Nat}
    (alive : dir < h.next) : ¬ Edges.Beneath Node.inside h.standing node dir := by
  cases node with
  | directory id =>
    have own : (Node.directory id).inside = some h.next := congrArg some here
    apply Edges.not_beneath_empty own
    · intro name
      cases stands : h.standing h.next name with
      | none => rfl
      | some held =>
        obtain ⟨state, lies, -⟩ := standing_body stands
        unfold Heap.bodyOf at lies
        rw [balanced.next_free] at lies
        cases lies
    · exact Nat.ne_of_lt alive
  | file id => exact Edges.not_beneath_leaf rfl dir
  | whiteout id => exact Edges.not_beneath_leaf rfl dir

/-- An object made at a name. -/
theorem made {dir : Nat} {name : String} {body : Body} {stood : Option Node} (tree : Tree h)
    (balanced : Balanced h [] 0) (alive : dir < h.next) (bare : body.Bare)
    (changed : Changed ((h.next, .make body) :: (dir, .hold name (body.node h.next)) ::
      unnaming stood) h after)
    (standing : ∀ replaced, stood = some replaced → h.standing dir name = some replaced) :
    Tree after := by
  have place : (body.node h.next).id = h.next := Body.node_id body h.next
  have one : ∀ change ∈ [(h.next, Change.make body)], ∃ body, change.2 = .make body ∧ body.Bare := by
    intro change member
    rw [List.mem_singleton.mp member]
    exact ⟨body, rfl, bare⟩
  apply tree.placed changed one standing
  · omega
  · intro other called held stands
    have before := standing_before balanced stands
    omega
  · exact not_beneath_next balanced place alive
  · intro other lies
    unfold Heap.bodyOf at lies
    rw [place, balanced.next_free] at lies
    cases lies

/-- What stands once an object is made stood before. -/
theorem standing_made {middle : Heap} {id : Nat} {body : Body} (bare : body.Bare)
    (changed : Changed [(id, .make body)] h middle) {dir : Nat} {name : String}
    (stands : middle.standing dir name = some node) : h.standing dir name = some node := by
  apply changed.within _ dir name node stands
  intro change member other makes
  rw [List.mem_singleton.mp member] at makes
  cases makes
  exact bare.empty

/-- `Tmpfs::make`. -/
theorem makeAt (tree : Tree h) (balanced : Balanced h [] 0) {dir : Nat} (alive : dir < h.next)
    (name : String) {body : Body} (blank : body.Blank) : Tree (h.makeAt dir name body).2 := by
  have changed := Changed.makeAt h dir name body
  unfold making at changed
  cases allocates : h.make body with
  | error error =>
    rw [allocates] at changed
    exact tree.unlinked changed nofun
  | ok pair =>
    obtain ⟨id, middle⟩ := pair
    rw [allocates] at changed
    obtain ⟨rfl, allocated⟩ := Changed.make allocates
    apply tree.made balanced alive blank.bare changed
    intro replaced stands
    exact standing_made blank.bare (allocated.then_survives (.clone _ _)) stands

/-- `Tmpfs::whiteout`. -/
theorem whiteout (tree : Tree h) (balanced : Balanced h [] 0) {dir : Nat} (alive : dir < h.next)
    (name : String) : Tree (h.whiteout dir name).2 := by
  have bare : Body.whiteout.Bare := Body.Blank.bare (.inr (.inr rfl))
  have changed := Changed.perform h (.whiteout dir name)
  unfold Op.changes at changed
  dsimp only at changed
  cases allocates : h.make .whiteout with
  | error error =>
    rw [allocates] at changed
    exact tree.unlinked changed nofun
  | ok pair =>
    obtain ⟨id, middle⟩ := pair
    rw [allocates] at changed
    obtain ⟨rfl, allocated⟩ := Changed.make allocates
    apply tree.made balanced alive bare changed
    intro replaced stands
    exact standing_made bare allocated stands

/-- `Tmpfs::link`, of a file that has no name yet. -/
theorem link (tree : Tree h) (balanced : Balanced h [] 0) {file dir : Nat} (name : String)
    (referred : .file file ∈ h.holders)
    (nowhere : ∀ other called, h.standing other called ≠ some (.file file))
    (reports : ∀ content, h.contentOf file = some content → content.names = 1)
    (nonroot : file ≠ 0) :
    Tree (h.perform (.link file dir name)).2 := by
  have changed : Changed ([] ++ inserting (h.clone (.file file)) dir name (.file file)) h
      (h.perform (.link file dir name)).2 := Changed.perform h (.link file dir name)
  obtain ⟨⟨strong, body⟩, found, kind⟩ := balanced.object (Balanced.held_self referred)
  apply tree.placed changed nofun
  · intro replaced stands
    have same : relinked h.standing [] = h.standing := rfl
    rw [← same]
    exact (Survives.clone h (.file file)).changed.within nofun dir name replaced stands
  · exact nonroot
  · intro other called held stands same
    obtain ⟨object, alive, is⟩ := standing_alive balanced stands
    rw [same] at alive is
    rw [found] at alive
    cases alive
    rw [show (Node.file file).id = file from rfl] at is kind
    exact nowhere other called (stands.trans (congrArg some (is.symm.trans kind)))
  · exact Edges.not_beneath_leaf rfl dir
  · intro other lies
    unfold Heap.bodyOf at lies
    rw [show (Node.file file).id = file from rfl] at lies found kind
    rw [found] at lies
    cases lies
    cases body with
    | file content =>
      apply reports content
      unfold Heap.contentOf
      rw [found]
    | directory state => cases kind
    | whiteout => cases kind

/-- What stands at one name of a tree is not what stands at another. -/
theorem apart_of (tree : Tree h) {dir other : Nat} {name called : String} {first second : Node}
    (one : h.standing dir name = some first) (two : h.standing other called = some second)
    (apart : ¬ (other = dir ∧ called = name)) : second.id ≠ first.id := by
  intro same
  exact apart (tree.once _ _ _ _ _ _ one two same.symm)

/-- A whiteout left where something moved. -/
theorem leaves_whiteout (balanced : Balanced h [] 0) {stood : Option Node}
    (alive : fromDir < h.next) (stands : h.standing fromDir source = some moving)
    (standing : ∀ replaced, stood = some replaced → h.standing toDir target = some replaced) :
    Leaves h fromDir toDir target moving stood (.whiteout h.next) where
  apart := by
    have before := standing_before balanced stands
    exact (Nat.ne_of_lt before).symm
  only _ _ _ has same := by
    have before := standing_before balanced has
    exact absurd same (Nat.ne_of_lt before)
  outside := not_beneath_next balanced rfl alive
  nonroot := by
    show h.next ≠ 0
    omega
  kept replaced unnames := by
    have before := standing_before balanced (standing replaced unnames)
    exact Nat.ne_of_lt before
  reports body lies := by
    rw [show (Node.whiteout h.next).id = h.next from rfl] at lies
    unfold Heap.bodyOf at lies
    rw [balanced.next_free] at lies
    cases lies

/-- What two names exchanged leave each other. -/
theorem leaves_exchanged (tree : Tree h) {moving replaced : Node}
    (stands : h.standing fromDir source = some moving)
    (standsTo : h.standing toDir target = some replaced)
    (apart : ¬ (toDir = fromDir ∧ target = source))
    (outside : ¬ Edges.Beneath Node.inside h.standing replaced fromDir) :
    Leaves h fromDir toDir target moving none replaced where
  apart := tree.apart_of stands standsTo apart
  only _ _ _ has same := tree.once _ _ _ _ _ _ standsTo has same.symm
  outside := outside
  nonroot := tree.unrooted _ _ _ standsTo
  kept := nofun
  reports body := tree.named _ _ _ body standsTo

/-- `Tmpfs::rename_at`, of two names neither of which is beneath what moves to it. -/
theorem renameAt (tree : Tree h) (balanced : Balanced h [] 0) {flag : Option RenameFlag}
    (alive : fromDir < h.next) (apart : ¬ (toDir = fromDir ∧ target = source))
    (outside : ∀ moving, h.standing fromDir source = some moving →
      ¬ Edges.Beneath Node.inside h.standing moving toDir)
   
    (back : flag = some .exchange → ∀ replaced, h.standing toDir target = some replaced →
      ¬ Edges.Beneath Node.inside h.standing replaced fromDir) :
    Tree (h.renameAt fromDir source toDir target flag).2 := by
  have changed := Changed.renameAt h fromDir source toDir target flag
  unfold Tmpfs.moving at changed
  cases stands : h.standing fromDir source with
  | none =>
    rw [stands] at changed
    exact tree.unlinked changed nofun
  | some moving =>
    rw [stands] at changed
    dsimp only at changed
    by_cases exchanges : flag = some .exchange
    · rw [if_pos exchanges] at changed
      cases standsTo : h.standing toDir target with
      | none =>
        rw [standsTo] at changed
        exact tree.unlinked changed nofun
      | some replaced =>
        rw [standsTo] at changed
        have exchanged : Changed ([] ++ (leavingAt fromDir source (some replaced) ++
          (toDir, .hold target moving) :: unnaming none)) h _ := changed
        apply tree.moved exchanged nofun stands apart nofun (outside moving stands)
        intro node same
        cases same
        exact tree.leaves_exchanged stands standsTo apart (back exchanges replaced standsTo)
    · rw [if_neg exchanges] at changed
      by_cases filled : (h.standing toDir target).any h.holdsAny = true
      · rw [if_pos filled] at changed
        exact tree.unlinked changed nofun
      · rw [if_neg filled] at changed
        cases leaves : h.leaving flag with
        | error error =>
          rw [leaves] at changed
          exact tree.unlinked changed nofun
        | ok pair =>
          obtain ⟨left, made⟩ := pair
          rw [leaves] at changed
          dsimp only at changed
          have makes := leftBehind_makes h flag
          -- what stands at the target once the source is given up stood there before
          have standing : ∀ replaced, (((made.clone moving).cloneOption
              (h.standing toDir target)).leave fromDir source left).standing toDir target =
                some replaced → h.standing toDir target = some replaced := by
            intro replaced stood
            have given := ((Changed.leaving leaves).then_survives
              ((Survives.clone made moving).trans (.cloneOption _ (h.standing toDir target)))).trans
              (Changed.leave _ fromDir source left)
            have fresh : Fresh h.next (leftBehind h flag ++ leavingAt fromDir source left) :=
              (Fresh.leftBehind h flag).append (Fresh.leavingAt fromDir source left)
            have within := given.within (fun change member body makesBody =>
              (fresh change member body makesBody).2.bare.empty) toDir target replaced stood
            unfold relinked at within
            rw [List.foldl_append] at within
            change relinked (relinked _ (leftBehind h flag)) (leavingAt fromDir source left) _ _ = _
              at within
            rw [relinked_made makes, relinked_leavingAt, Edges.place_other _ _ apart] at within
            exact within
          apply tree.moved changed makes stands apart standing (outside moving stands)
          intro node same
          have whiteout : node = .whiteout h.next := by
            unfold Heap.leaving at leaves
            split at leaves
            · split at leaves
              · rename_i id after allocated
                obtain ⟨place, -⟩ := Changed.make allocated
                cases leaves
                cases same
                rw [place]
              · cases leaves
            · cases leaves
              cases same
          rw [whiteout]
          exact leaves_whiteout balanced alive stands standing

end Tree

/-- What a move may be asked for: two names apart, and no directory moved into itself. -/
structure Movable (h : Heap) (fromDir : Nat) (source : String) (toDir : Nat) (target : String)
    (flag : Option RenameFlag) : Prop where
  /-- The two names are apart. -/
  apart : ¬ (toDir = fromDir ∧ target = source)
  /-- The target is not inside what moves. -/
  outside : ∀ moving, h.standing fromDir source = some moving →
    ¬ Edges.Beneath Node.inside h.standing moving toDir
  /-- Nor the source inside what comes back for it. -/
  back : flag = some .exchange → ∀ replaced, h.standing toDir target = some replaced →
    ¬ Edges.Beneath Node.inside h.standing replaced fromDir

/-- What calls are made: moves the VFS lets through, and an Overlay's links of files that have no
name yet. -/
def Op.Allowed (h : Heap) : Op → Prop
  | .rename fromDir source toDir target flag => Movable h fromDir source toDir target flag
  | .link file _ _ => file ≠ 0 ∧ (∀ dir name, h.standing dir name ≠ some (.file file)) ∧
      ∀ content, h.contentOf file = some content → content.names = 1
  | _ => True

namespace Tree

variable {h after : Heap}

/-- A file's bytes changed, or not. -/
theorem filled (tree : Tree h) (file : Nat) (content : Option Content)
    (changed : Changed (match content with
      | some content => [(file, .fill content.bytes)]
      | none => []) h after) : Tree after := by
  apply tree.unlinked changed
  intro change member
  cases content with
  | none => cases member
  | some content =>
    rw [List.mem_singleton.mp member]
    exact .inr ⟨content.bytes, rfl⟩

/-- A call that may be made keeps a tree. -/
theorem perform (tree : Tree h) (balanced : Balanced h [] 0) (op : Op)
    (held : ∀ node ∈ op.needs, node ∈ h.holders) (allowed : op.Allowed h) :
    Tree (h.perform op).2 := by
  have alive : ∀ dir, .directory dir ∈ h.holders → dir < h.next := by
    intro dir holder
    obtain ⟨strong, state, found, -⟩ := balanced.stateOf holder
    exact balanced.fresh dir _ found
  have changed := Changed.perform h op
  cases op with
  | lookup dir name => exact tree.unlinked changed nofun
  | opened node => exact tree.unlinked changed nofun
  | closed node => exact tree.unlinked changed nofun
  | create dir name =>
    exact tree.makeAt balanced (alive dir (held _ List.mem_cons_self)) name (.inl rfl)
  | mkdir dir name =>
    exact tree.makeAt balanced (alive dir (held _ List.mem_cons_self)) name (.inr (.inl rfl))
  | unlink dir name => exact tree.removed changed
  | rmdir dir name =>
    unfold Op.changes at changed
    dsimp only at changed
    split at changed
    · exact tree.unlinked changed nofun
    · exact tree.removed changed
  | whiteout dir name =>
    exact tree.whiteout balanced (alive dir (held _ List.mem_cons_self)) name
  | rename fromDir source toDir target flag =>
    exact tree.renameAt balanced (alive fromDir (held _ List.mem_cons_self)) allowed.apart
      allowed.outside allowed.back
  | tmpfile dir =>
    apply tree.unlinked changed
    intro change member
    unfold Op.changes at member
    dsimp only at member
    split at member
    · rw [List.mem_singleton.mp member]
      exact .inl ⟨_, rfl, Body.Blank.bare (.inl rfl)⟩
    · cases member
  | link file dir name =>
    exact tree.link balanced name (held _ List.mem_cons_self) allowed.2.1 allowed.2.2 allowed.1
  | write file start buf reserves => exact tree.filled file _ changed
  | truncate file length reserves => exact tree.filled file _ changed
  | fallocate file offset length reserves => exact tree.filled file _ changed

/-! ## Seeding -/

/-- An object seeded at a free name keeps a tree. -/
theorem seedAt (tree : Tree h) (balanced : Balanced h [] 0) {dir : Nat} (alive : dir < h.next)
    (name : String) {body : Body} (bare : body.Bare) : Tree (h.seedAt dir name body).2 := by
  have counted : Survives h (h.counted body.length) := .of_objects rfl
  have held := Changed.hold ((h.counted body.length).alloc body).2 dir name (body.node h.next)
  have both := (Changed.after_survives counted (.alloc _ body)).trans held
  have changed : Changed ((h.next, .make body) :: (dir, .hold name (body.node h.next)) ::
      unnaming none) h (h.seedAt dir name body).2 := both
  exact tree.made balanced alive bare changed nofun

/-- Files seeded keep a tree. -/
theorem sown {start : Heap} (tree : Tree start) (balanced : Balanced start [] 0)
    (sown : Balanced.Sown start h) : Tree h := by
  induction sown with
  | none => exact tree
  | @one h dir strong state name body sown found free blank ih =>
    have counted := (sown.counted balanced).1
    apply ih.seedAt counted (counted.fresh dir _ found) name
    obtain rfl | ⟨contents, rfl⟩ := blank
    · exact Body.Blank.bare (.inr (.inl rfl))
    · exact ⟨trivial, rfl, rfl⟩

/-- Limits set keep a tree. -/
theorem configure (tree : Tree h) (follow : Bool) (settings : List Heap.Setting) :
    Tree (h.configure follow settings) := by
  induction settings generalizing h follow with
  | nil => exact tree
  | cons setting settings ih =>
    cases setting with
    | withSize size =>
      apply ih
      exact { tree with }
    | withNrInodes nrInodes =>
      apply ih
      exact { tree with }

/-- A Tmpfs with nothing but its root is a tree. -/
theorem new : Tree Heap.new := by
  have nothing : ∀ dir name node, Heap.new.standing dir name ≠ some node := by
    intro dir name node stands
    obtain ⟨state, lies, found⟩ := standing_body stands
    obtain ⟨object, has, same⟩ := Option.map_eq_some_iff.mp lies
    obtain ⟨-, rfl⟩ := new_only has
    cases same
    cases found
  refine ⟨.new, ?_, ?_, ?_, ?_, ?_⟩
  · intro dir name other called first second stands
    exact absurd stands (nothing dir name first)
  · intro dir name node stands
    exact absurd stands (nothing dir name node)
  · intro dir name node stands
    exact absurd stands (nothing dir name node)
  · intro dir name node body stands
    exact absurd stands (nothing dir name node)
  · intro body lies
    cases lies
    rfl

end Tree

/-- A Tmpfs as any calls that may be made leave it is a tree. -/
theorem reached_tree {files : List (String × List UInt8)} {seeded : Heap}
    (accepted : Heap.tryFromIter files = .ok seeded) {settings : List Heap.Setting} {ops : List Op}
    {h : Heap} (allowed : Along Heap.step (fun h op => op.Allowed h)
      (seeded.configure true settings) ops)
    (ran : run Heap.step (seeded.configure true settings) ops = some h) :
    Balanced h [] 0 ∧ Tree h := by
  have kept : ∀ (state : Heap) (op : Op) (next : Heap), Balanced state [] 0 ∧ Tree state →
      op.Allowed state → state.step op = some next → Balanced next [] 0 ∧ Tree next := by
    intro state op next both may taken
    rw [Heap.step] at taken
    split at taken
    · rename_i held
      cases taken
      exact ⟨(both.1.perform op held).balanced, both.2.perform both.1 op held may⟩
    · cases taken
  have start : Balanced (seeded.configure true settings) [] 0 ∧
      Tree (seeded.configure true settings) :=
    ⟨(tryFromIter_balanced accepted).configure true settings,
      (Tree.new.sown new_balanced (tryFromIter_sown accepted)).configure true settings⟩
  exact run_preserves_along Heap.step kept ops _ h start allowed ran

end Kobako.Tmpfs
