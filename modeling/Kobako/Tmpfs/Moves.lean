import Kobako.Tmpfs.Tree
import Mathlib.Data.Set.Card

/-!
# A move is a move of a tree

`rename_at` gives up its source and puts what moves at its target in separate steps, each keeping
the objects it does not drop for the last time. What it drops last is what stood at the target, and
that holds nothing. So the edges of the Tmpfs after it are exactly those of the move, and what
`getattr` reports of the directories and of what moved follows from the edges alone.
-/

namespace Kobako.Tmpfs

open Vfs
open Overlay (RenameFlag)

/-! ## Exactly the changes -/

/-- A directory's state is what lies in its place. -/
theorem Heap.stateOf_eq {h after : Heap} {id other : Nat}
    (same : after.bodyOf id = h.bodyOf other) :
    after.stateOf id = h.stateOf other := by
  cases has : h.stateOf other with
  | some state => exact stateOf_of_bodyOf (same.trans (bodyOf_of_stateOf has))
  | none =>
    cases left : after.stateOf id with
    | none => rfl
    | some state =>
      rw [stateOf_of_bodyOf (same.symm.trans (bodyOf_of_stateOf left))] at has
      cases has

/-- Every place after is what the changes make of it. -/
def Exactly (changes : List (Nat × Change)) (h after : Heap) : Prop :=
  ∀ id, after.bodyOf id = landed (h.bodyOf id) (changesTo id changes)

namespace Exactly

variable {h middle after : Heap} {extra : List Node} {owed : Nat}

theorem refl (h : Heap) : Exactly [] h h := fun _ => rfl

/-- Changes one after the other. -/
theorem trans {first second : List (Nat × Change)} (one : Exactly first h middle)
    (two : Exactly second middle after) : Exactly (first ++ second) h after := by
  intro id
  rw [two id, one id, changesTo_append, landed_append]

/-- Nothing changed along the way. -/
theorem then_same {changes : List (Nat × Change)} (one : Exactly changes h middle)
    (two : Exactly [] middle after) : Exactly changes h after := by
  have both := one.trans two
  rw [List.append_nil] at both
  exact both

theorem changed {changes : List (Nat × Change)} (exactly : Exactly changes h after) :
    Changed changes h after := by
  intro id body lies
  rw [← exactly id]
  exact lies

/-- Objects that are the same. -/
theorem of_objects (same : after.objects = h.objects) : Exactly [] h after := by
  intro id
  unfold Heap.bodyOf
  rw [same]
  rfl

variable {id : Nat} {node : Node}

/-- An object counted otherwise is the same. -/
theorem setStrong {object : Object} (found : h.objects.get id = some object) (strong : Nat) :
    Exactly [] h (h.setObject id { object with strong := strong }) := by
  intro other
  show ((h.objects.insert id { object with strong := strong }).get other).map (·.body) =
    (h.objects.get other).map (·.body)
  by_cases same : other = id
  · rw [same, OrderedMap.get_insert_self, found]
    rfl
  · rw [OrderedMap.get_insert_of_ne _ _ same]

theorem clone (h : Heap) (node : Node) : Exactly [] h (h.clone node) := by
  unfold Heap.clone
  cases found : h.objects.get node.id with
  | none => exact refl h
  | some object => exact setStrong found _

theorem cloneOption (h : Heap) (node : Option Node) : Exactly [] h (h.cloneOption node) := by
  cases node with
  | none => exact refl h
  | some node => exact clone h node

/-- Another body in the place of an object's. -/
theorem setBody {body after : Body} {change : Change} (lies : h.bodyOf id = some body)
    (applies : change.apply (some body) = some after) :
    Exactly [(id, change)] h (h.setBody id after) := by
  intro other
  obtain ⟨object, found, rfl⟩ := Option.map_eq_some_iff.mp lies
  unfold Heap.setBody
  rw [found]
  show ((h.objects.insert id { object with body := after }).get other).map (·.body) = _
  by_cases same : other = id
  · rw [same, OrderedMap.get_insert_self, changesTo_self, lies]
    exact applies.symm
  · rw [OrderedMap.get_insert_of_ne _ _ same, changesTo_other (Ne.symm same)]
    rfl

/-- A change that is not the object's to make. -/
theorem unconcerned {change : Change} (leaves : change.apply (h.bodyOf id) = h.bodyOf id) :
    Exactly [(id, change)] h h := by
  intro other
  by_cases same : other = id
  · rw [same, changesTo_self]
    exact leaves.symm
  · rw [changesTo_other (Ne.symm same)]
    rfl

/-- `drop_name`. -/
theorem dropName (h : Heap) (node : Node) : Exactly [(node.id, .unname)] h (h.dropName node) := by
  unfold Heap.dropName
  cases found : h.objects.get node.id with
  | none =>
    apply unconcerned
    unfold Heap.bodyOf
    rw [found]
    rfl
  | some object =>
    obtain ⟨strong, body⟩ := object
    have lies : h.bodyOf node.id = some body := by
      unfold Heap.bodyOf
      rw [found]
      rfl
    cases body with
    | file content => exact setBody lies rfl
    | directory state => exact setBody lies rfl
    | whiteout =>
      apply unconcerned
      rw [lies]
      rfl

/-- `State::hold`, of a directory alive. -/
theorem hold {dir : Nat} {state : State Node} (has : h.stateOf dir = some state) (name : String)
    (node : Node) : Exactly [(dir, .hold name node)] h (h.hold dir name node).1 := by
  unfold Heap.hold
  rw [has]
  exact setBody (Heap.bodyOf_of_stateOf has) rfl

/-- An object allocated. -/
theorem alloc (h : Heap) (body : Body) : Exactly [(h.next, .make body)] h (h.alloc body).2 := by
  intro other
  show ((h.objects.insert h.next ⟨1, body⟩).get other).map (·.body) = _
  by_cases same : other = h.next
  · rw [same, OrderedMap.get_insert_self, changesTo_self]
    rfl
  · rw [OrderedMap.get_insert_of_ne _ _ same, changesTo_other (Ne.symm same)]
    rfl

/-- An object made. -/
theorem make {body : Body} (made : h.make body = .ok (id, after)) :
    Exactly [(h.next, .make body)] h after := by
  unfold Heap.make at made
  split at made
  · rename_i inodes taken
    cases made
    exact (of_objects rfl).trans (alloc { h with inodes := inodes } body)
  · cases made

/-! ## References dropped -/

/-- A reference dropped where the call has another, or a name does. -/
theorem drop (balanced : Balanced h (node :: extra) owed)
    (more : node ∈ extra ∨ ∃ dir name, h.standing dir name = some node) :
    Exactly [] h (h.drop node) := by
  have counted := balanced.strong node
  obtain ⟨object, found, named⟩ := balanced.object Balanced.taken_self
  have twice : 1 < object.strong := by
    rw [OrderedMap.weightAt_some found, strongFor, if_pos named, List.count_cons_self] at counted
    cases more with
    | inl taken =>
      have again := List.count_pos_iff.mpr taken
      omega
    | inr stands =>
      obtain ⟨dir, name, stands⟩ := stands
      have again : 0 < h.objects.total (naming node) + 0 + 0 := Balanced.standing_self stands
      omega
  have notLast : object.strong ≠ 1 := by omega
  have leaf : Exactly [] h (h.dropLeaf node) := by
    unfold Heap.dropLeaf
    rw [found]
    dsimp only
    rw [if_neg notLast]
    exact setStrong found _
  cases node with
  | file id => exact leaf
  | whiteout id => exact leaf
  | directory id =>
    show Exactly [] h (h.dropDirectory id)
    have here : h.objects.get id = some object := found
    unfold Heap.dropDirectory
    rw [here]
    split
    · rename_i state same
      cases same
      exact absurd rfl notLast
    · rename_i other _ same
      cases same
      exact setStrong found _
    · exact refl h

/-- What came out of a directory, dropped where other references to it are left. -/
theorem dropOption {node : Option Node} (balanced : Balanced h (node.toList ++ extra) owed)
    (more : ∀ some, node = Option.some some →
      some ∈ extra ∨ ∃ dir name, h.standing dir name = Option.some some) :
    Exactly [] h (h.dropOption node) := by
  cases node with
  | none => exact refl h
  | some node => exact drop balanced (more node rfl)

/-- `State::take`, of something referred to elsewhere. -/
theorem take (balanced : Balanced h extra owed) {dir : Nat} (held : .directory dir ∈ h.holders)
    (name : String) (more : ∀ node, h.standing dir name = some node → node ∈ extra) :
    Exactly [(dir, .take name)] h (h.take dir name) := by
  obtain ⟨strong, state, found, has⟩ := balanced.stateOf held
  have taken : Balanced (h.setBody dir (.directory (state.take Node.isDirectory name)))
      ((state.entries.get name).toList ++ extra) owed := by
    apply balanced.setState found
    intro other
    have moved := count_take state name other
    rw [List.count_append]
    omega
  have standing : h.standing dir name = state.entries.get name := by
    unfold Heap.standing
    rw [has]
    rfl
  rw [standing] at more
  have put : Exactly [(dir, .take name)] h
      (h.setBody dir (.directory (state.take Node.isDirectory name))) :=
    setBody (Heap.bodyOf_of_stateOf has) rfl
  unfold Heap.take
  rw [has]
  exact put.then_same (dropOption taken fun node stands => .inl (more node stands))

/-- Something held at a name leaves what stands at all others. -/
theorem hold_other {dir other : Nat} {name called : String} (node : Node) {state : State Node}
    (has : h.stateOf dir = some state) (apart : ¬ (other = dir ∧ called = name)) :
    (h.hold dir name node).1.standing other called = h.standing other called := by
  have put := hold has name node other
  unfold Heap.standing
  by_cases same : other = dir
  · rw [same] at put ⊢
    rw [changesTo_self, Heap.bodyOf_of_stateOf has] at put
    rw [Heap.stateOf_of_bodyOf put, has]
    have elsewhere : called ≠ name := fun here => apart ⟨same, here⟩
    show (state.hold Node.isDirectory name node).1.entries.get called = state.entries.get called
    rw [State.hold_entries, OrderedMap.get_insert_of_ne _ _ elsewhere]
  · rw [changesTo_other (Ne.symm same)] at put
    rw [Heap.stateOf_eq put]

/-- `State::exchange`, of something referred to elsewhere. -/
theorem exchange (balanced : Balanced h (node :: extra) owed) {dir : Nat}
    (held : .directory dir ∈ h.holders) (name : String)
    (more : ∀ old, h.standing dir name = some old → old ∈ extra ∨
      ∃ other called, ¬ (other = dir ∧ called = name) ∧ h.standing other called = some old) :
    Exactly [(dir, .hold name node)] h (h.exchange dir name node) := by
  obtain ⟨-, state, -, has⟩ := balanced.stateOf held
  obtain ⟨after, -⟩ := balanced.hold held name
  have put := hold has name node
  have stood := Changed.hold_standing h dir name node
  unfold Heap.exchange
  cases puts : h.hold dir name node with
  | mk next replaced =>
    have elsewhere : ∀ other called, ¬ (other = dir ∧ called = name) →
        next.standing other called = h.standing other called := by
      intro other called apart
      have kept := hold_other node has apart
      rw [puts] at kept
      exact kept
    rw [puts] at after put stood
    dsimp only at after put stood
    rw [← stood] at more
    apply put.then_same (dropOption after _)
    intro old came
    cases more old came with
    | inl taken => exact .inl taken
    | inr stands =>
      obtain ⟨other, called, apart, stands⟩ := stands
      exact .inr ⟨other, called, (elsewhere other called apart).trans stands⟩

/-- `State::insert`, of something referred to elsewhere. -/
theorem insert (balanced : Balanced h (node :: extra) owed) {dir : Nat}
    (held : .directory dir ∈ h.holders) (name : String)
    (more : ∀ old, h.standing dir name = some old → old ∈ extra) :
    Exactly (inserting h dir name node) h (h.insert dir name node) := by
  obtain ⟨-, state, -, has⟩ := balanced.stateOf held
  obtain ⟨after, -⟩ := balanced.hold held name
  have put := hold has name node
  have stood := Changed.hold_standing h dir name node
  unfold Heap.insert inserting
  cases puts : h.hold dir name node with
  | mk next replaced =>
    rw [puts] at after put stood
    dsimp only at after put stood
    rw [← stood] at more ⊢
    cases replaced with
    | none => exact put
    | some replaced =>
      obtain ⟨unnamed, -⟩ := after.dropName replaced
      exact put.trans ((dropName next replaced).then_same (drop unnamed (.inl (more replaced rfl))))

end Exactly

/-! ## The last reference -/

/-- All places but one are as they were, and that one too, unless what lay there is gone. -/
def Loses (id : Nat) (h after : Heap) : Prop :=
  (∀ other, other ≠ id → after.bodyOf other = h.bodyOf other) ∧
    (after.bodyOf id = none ∨ after.bodyOf id = h.bodyOf id)

theorem Exactly.loses {h after : Heap} (same : Exactly [] h after) (id : Nat) : Loses id h after :=
  ⟨fun other _ => same other, .inr (same id)⟩

theorem loses_free (h : Heap) (id : Nat) (body : Body) : Loses id h (h.free id body) := by
  constructor
  · intro other apart
    show ((h.objects.remove id).get other).map (·.body) = _
    rw [OrderedMap.get_remove_of_ne _ apart]
    rfl
  · left
    show ((h.objects.remove id).get id).map (·.body) = none
    rw [OrderedMap.get_remove_self]
    rfl

/-- A reference dropped to what holds nothing. -/
theorem loses_drop (h : Heap) {node : Node}
    (empty : ∀ id state, node = .directory id → h.stateOf id = some state → state.nodes = []) :
    Loses node.id h (h.drop node) := by
  have leaf : Loses node.id h (h.dropLeaf node) := by
    unfold Heap.dropLeaf
    cases found : h.objects.get node.id with
    | none => exact (Exactly.refl h).loses _
    | some object =>
      dsimp only
      split
      · exact loses_free h node.id object.body
      · exact (Exactly.setStrong found _).loses _
  cases node with
  | file id => exact leaf
  | whiteout id => exact leaf
  | directory id =>
    show Loses id h (h.dropDirectory id)
    unfold Heap.dropDirectory
    split
    · rename_i state found
      have has : h.stateOf id = some state := by rw [Heap.stateOf, found]
      rw [empty id state rfl has]
      dsimp only [Heap.takeDirectories]
      rw [Heap.dropNested]
      exact loses_free h id (.directory state)
    · rename_i object _ found
      exact (Exactly.setStrong found _).loses _
    · exact (Exactly.refl h).loses _

/-! ## Edges after a move -/

variable {extra : List Node} {owed : Nat}

variable {changes : List (Nat × Change)} {dir : Nat} {state : State Node} {fromDir toDir : Nat}
  {left : Option Node} {source target : String} {flag : Option RenameFlag} {h : Heap}

/-- A directory alive holds what the edges after changes say. -/
theorem relinked_entries (kept : ∀ change ∈ changesTo dir changes, ¬ change.Remakes)
    {edges : Edges Nat String Node} (same : ∀ name, edges dir name = state.entries.get name)
    (name : String) :
    relinked edges changes dir name =
      ((changesTo dir changes).foldl (fun state change => change.on state) state).entries.get
        name := by
  induction changes generalizing edges state with
  | nil => exact same name
  | cons change rest ih =>
    obtain ⟨id, change⟩ := change
    by_cases here : id = dir
    · subst here
      rw [changesTo_self] at kept ⊢
      apply ih fun other member => kept other (List.mem_cons_of_mem _ member)
      intro called
      cases change with
      | make body => exact absurd trivial (kept _ List.mem_cons_self)
      | hold placed node =>
        show Edges.place edges id placed (some node) id called =
          (state.hold Node.isDirectory placed node).1.entries.get called
        rw [State.hold_entries]
        by_cases at_name : called = placed
        · rw [at_name, OrderedMap.get_insert_self, Edges.place_self]
        · rw [OrderedMap.get_insert_of_ne _ _ at_name,
            Edges.place_other _ _ fun both => at_name both.2]
          exact same called
      | take placed =>
        show Edges.place edges id placed none id called =
          (state.take Node.isDirectory placed).entries.get called
        rw [State.take_entries]
        by_cases at_name : called = placed
        · rw [at_name, OrderedMap.get_remove_self, Edges.place_self]
        · rw [OrderedMap.get_remove_of_ne _ at_name,
            Edges.place_other _ _ fun both => at_name both.2]
          exact same called
      | unname => exact same called
      | fill bytes => exact same called
    · rw [changesTo_other here] at kept ⊢
      apply ih kept
      intro called
      rw [relink_other here]
      exact same called

/-- A directory not made again holds what the edges after exactly the changes say. -/
theorem Exactly.standing_kept {h after : Heap} (exactly : Exactly changes h after)
    (has : h.stateOf dir = some state) (kept : ∀ change ∈ changesTo dir changes, ¬ change.Remakes)
    (name : String) : after.standing dir name = relinked h.standing changes dir name := by
  have lands := exactly dir
  rw [Heap.bodyOf_of_stateOf has, landed_directory kept] at lands
  have same : ∀ called, h.standing dir called = state.entries.get called := by
    intro called
    unfold Heap.standing
    rw [has]
    rfl
  rw [relinked_entries kept same name]
  unfold Heap.standing
  rw [Heap.stateOf_of_bodyOf lands]
  rfl

/-- A directory alive holds what the edges after exactly a call's changes say. -/
theorem Exactly.standing_alive {h after : Heap} (balanced : Balanced h extra owed)
    (exactly : Exactly changes h after) (fresh : Fresh h.next changes)
    (has : h.stateOf dir = some state) (name : String) :
    after.standing dir name = relinked h.standing changes dir name := by
  have apart : dir ≠ h.next := by
    obtain ⟨object, found, -⟩ := Option.map_eq_some_iff.mp (Heap.bodyOf_of_stateOf has)
    exact Nat.ne_of_lt (balanced.fresh dir object found)
  exact exactly.standing_kept has (fresh.kept apart) name

/-- The edges after exactly the changes of a move are those of the move. -/
theorem Exactly.standing {h after : Heap} (balanced : Balanced h [] 0)
    (exactly : Exactly changes h after) (fresh : Fresh h.next changes)
    (edges : relinked h.standing changes = Edges.move h.standing fromDir source toDir target left)
    (heldFrom : .directory fromDir ∈ h.holders) (heldTo : .directory toDir ∈ h.holders) :
    after.standing = Edges.move h.standing fromDir source toDir target left := by
  funext dir name
  have within := exactly.changed.within fun change member body makes =>
    (fresh change member body makes).2.bare.empty
  rw [edges] at within
  cases has : h.stateOf dir with
  | some state => rw [← edges, exactly.standing_alive balanced fresh has name]
  | none =>
    have nothing : ∀ called, h.standing dir called = none := by
      intro called
      unfold Heap.standing
      rw [has]
      rfl
    have alive : ∀ other, .directory other ∈ h.holders → dir ≠ other := by
      intro other held same
      obtain ⟨-, state, -, found⟩ := balanced.stateOf held
      rw [same, found] at has
      cases has
    have unmoved : Edges.move h.standing fromDir source toDir target left dir name = none := by
      unfold Edges.move
      rw [Edges.place_other _ _ fun both => alive toDir heldTo both.1,
        Edges.place_other _ _ fun both => alive fromDir heldFrom both.1]
      exact nothing name
    rw [unmoved]
    cases stands : after.standing dir name with
    | none => rfl
    | some node =>
      have moved := within dir name node stands
      rw [unmoved] at moved
      cases moved

/-! ## What `rename_at` does -/

/-- What `RENAME_WHITEOUT` leaves. -/
def leftAt (h : Heap) : Option RenameFlag → Option Node
  | some .whiteout => some (.whiteout h.next)
  | _ => none

/-- A move that leaves no whiteout leaves nothing. -/
theorem leftAt_other (other : flag ≠ some .whiteout) :
    leftAt h flag = none := by
  match flag with
  | none | some .noReplace | some .exchange => rfl
  | some .whiteout => exact absurd rfl other

/-- `rename_at` where it answers: two names exchanged, or one moved over what stood at the other,
which then goes. -/
inductive Renamed (h : Heap) (fromDir : Nat) (source : String) (toDir : Nat) (target : String)
    (flag : Option RenameFlag) (after : Heap) : Prop where
  | exchanged {moving replaced : Node} (asks : flag = some .exchange)
      (stands : h.standing fromDir source = some moving)
      (standsTo : h.standing toDir target = some replaced)
      (exactly : Exactly ([] ++ (leavingAt fromDir source (some replaced) ++
        (toDir, .hold target moving) :: unnaming none)) h after)
  | moved {moving : Node} {last : Heap} (asks : flag ≠ some .exchange)
      (stands : h.standing fromDir source = some moving)
      (empty : ∀ replaced, h.standing toDir target = some replaced → h.holdsAny replaced = false)
      (exactly : Exactly (leftBehind h flag ++ (leavingAt fromDir source (leftAt h flag) ++
        (toDir, .hold target moving) :: unnaming (h.standing toDir target))) h last)
      (dropped : after = last.dropOption (h.standing toDir target))

/-- Two names exchanged, exactly. -/
theorem exchanged_exactly (balanced : Balanced h [] 0) (heldFrom : .directory fromDir ∈ h.holders)
    (heldTo : .directory toDir ∈ h.holders) (apart : ¬ (toDir = fromDir ∧ target = source))
    {moving replaced : Node} (stands : h.standing fromDir source = some moving)
    (standsTo : h.standing toDir target = some replaced) :
    Exactly [(fromDir, .hold source replaced), (toDir, .hold target moving)] h
      ((((h.clone moving).clone replaced).exchange fromDir source replaced).exchange toDir target
        moving) := by
  have first := balanced.clone (Balanced.standing_self stands)
  have referred : 0 < (h.clone moving).objects.total (naming replaced) +
      (h.clone moving).holders.count replaced + [moving].count replaced := by
    rw [Balanced.total_clone]
    exact Balanced.standing_self standsTo
  have second := first.clone referred
  have less := (Balanced.less_clone h moving).trans (Balanced.less_clone (h.clone moving) replaced)
  have same : Exactly [] h ((h.clone moving).clone replaced) :=
    (Exactly.clone h moving).then_same (Exactly.clone _ replaced)
  have stood : ∀ dir name, ((h.clone moving).clone replaced).standing dir name =
      h.standing dir name := by
    intro dir name
    unfold Heap.standing
    rw [Heap.stateOf_eq (same dir)]
  obtain ⟨exchanged, onward⟩ := second.exchange (less.holders ▸ heldFrom) source
  have gone := Exactly.exchange second (less.holders ▸ heldFrom) source (by
    intro old came
    rw [stood, stands] at came
    cases came
    exact .inl List.mem_cons_self)
  -- what comes back to the source is named there when the target lets go of it
  obtain ⟨-, state, -, has⟩ := second.stateOf (less.holders ▸ heldFrom)
  have fresh : Fresh ((h.clone moving).clone replaced).next [(fromDir, .hold source replaced)] :=
    Fresh.cons_of_kept (by exact id) Fresh.nil
  have back : (((h.clone moving).clone replaced).exchange fromDir source replaced).standing fromDir
      source = some replaced := by
    rw [gone.standing_alive second fresh has source]
    exact Edges.place_self _ fromDir source (some replaced)
  have further := less.trans onward
  obtain ⟨-, targetState, -, targetHas⟩ := second.stateOf (less.holders ▸ heldTo)
  have kept : (((h.clone moving).clone replaced).exchange fromDir source replaced).standing toDir
      target = some replaced := by
    rw [gone.standing_alive second fresh targetHas target]
    refine (Edges.place_other _ _ apart).trans ?_
    rw [stood]
    exact standsTo
  have come := Exactly.exchange exchanged (further.holders ▸ heldTo) target (by
    intro old came
    rw [kept] at came
    cases came
    exact .inr ⟨fromDir, source, fun both => apart ⟨both.1.symm, both.2.symm⟩, back⟩)
  exact same.trans (gone.trans come)

/-- What a move leaves behind is made, exactly. -/
theorem leaving_exactly {h made : Heap} (leaves : h.leaving flag = .ok (left, made)) :
    left = leftAt h flag ∧ Exactly (leftBehind h flag) h made := by
  obtain ⟨asked, id, leftId, allocated⟩ | ⟨other, leftNone, stays⟩ := Heap.leaving_cases leaves
  · have fresh : id = h.next := (Changed.make allocated).1
    rw [asked, leftId, fresh]
    exact ⟨rfl, .make allocated⟩
  · rw [leftBehind_other other, leftAt_other other, leftNone, stays]
    exact ⟨rfl, .refl h⟩

/-- The source of a move given up, exactly, where what moves is referred to elsewhere. -/
theorem leave_exactly (balanced : Balanced h (left.toList ++ extra) owed)
    (held : .directory dir ∈ h.holders) (name : String)
    (more : ∀ node, h.standing dir name = some node → node ∈ extra) :
    Exactly (leavingAt dir name left) h (h.leave dir name left) := by
  cases left with
  | none => exact .take balanced held name more
  | some left => exact .exchange balanced held name fun old stands => .inl (more old stands)

/-- `rename_at` refuses and changes nothing, or does what it is asked for, exactly. -/
theorem renameAt_renamed (balanced : Balanced h [] 0) (heldFrom : .directory fromDir ∈ h.holders)
    (heldTo : .directory toDir ∈ h.holders) (apart : ¬ (toDir = fromDir ∧ target = source)) :
    (∃ error, h.renameAt fromDir source toDir target flag = (.error error, h)) ∨
      ∃ after, h.renameAt fromDir source toDir target flag = (.ok (), after) ∧
        Renamed h fromDir source toDir target flag after := by
  unfold Heap.renameAt
  cases stands : h.standing fromDir source with
  | none => exact .inl ⟨_, rfl⟩
  | some moving =>
    dsimp only
    by_cases exchanges : flag = some .exchange
    · rw [if_pos exchanges]
      cases standsTo : h.standing toDir target with
      | none => exact .inl ⟨_, rfl⟩
      | some replaced =>
        exact .inr ⟨_, rfl, .exchanged exchanges stands standsTo
          (exchanged_exactly balanced heldFrom heldTo apart stands standsTo)⟩
    · rw [if_neg exchanges]
      by_cases filled : (h.standing toDir target).any h.holdsAny = true
      · rw [if_pos filled]
        exact .inl ⟨_, rfl⟩
      · rw [if_neg filled]
        have empty : ∀ replaced, h.standing toDir target = some replaced →
            h.holdsAny replaced = false := by
          intro replaced standsTo
          rw [standsTo, Option.any_some] at filled
          exact Bool.not_eq_true _ ▸ filled
        rcases balanced.leaving flag with full | ⟨left, made, leaves, counted, -, same, names⟩
        · rw [full]
          exact .inl ⟨_, rfl⟩
        · rw [leaves]
          dsimp only
          obtain ⟨isLeft, behind⟩ := leaving_exactly leaves
          have first : Balanced (made.clone moving) (moving :: left.toList) 0 :=
            counted.clone (by rw [names]; exact Balanced.standing_self stands)
          have referred : ∀ node, h.standing toDir target = some node →
              0 < (made.clone moving).objects.total (naming node) +
                (made.clone moving).holders.count node + (moving :: left.toList).count node := by
            intro node standsTo
            rw [Balanced.total_clone, names]
            exact Balanced.standing_self standsTo
          obtain ⟨second, onward⟩ := first.cloneOption referred
          have holders := ((Balanced.less_clone made moving).trans onward).holders.trans same
          have sorted : Balanced ((made.clone moving).cloneOption (h.standing toDir target))
              (left.toList ++ (moving :: (h.standing toDir target).toList)) 0 := by
            apply second.congr
            intro node
            simp only [List.count_append, List.count_cons]
            omega
          have cloned : Exactly (leftBehind h flag) h
              ((made.clone moving).cloneOption (h.standing toDir target)) :=
            (behind.then_same (.clone made moving)).then_same (.cloneOption _ _)
          have fresh := Fresh.leftBehind h flag
          obtain ⟨-, fromState, -, hasFrom⟩ := balanced.stateOf heldFrom
          obtain ⟨-, toState, -, hasTo⟩ := balanced.stateOf heldTo
          have makes := Tree.leftBehind_makes h flag
          have gone := leave_exactly sorted (holders ▸ heldFrom) source (by
            intro node stood
            rw [cloned.standing_alive balanced fresh hasFrom, Tree.relinked_made makes, stands]
              at stood
            cases stood
            exact List.mem_cons_self)
          have given := cloned.trans gone
          have freshGiven : Fresh h.next (leftBehind h flag ++ leavingAt fromDir source left) :=
            fresh.append (Fresh.leavingAt fromDir source left)
          have kept : (((made.clone moving).cloneOption (h.standing toDir target)).leave fromDir
              source left).standing toDir target = h.standing toDir target := by
            rw [given.standing_alive balanced freshGiven hasTo]
            unfold relinked
            rw [List.foldl_append]
            show relinked (relinked _ (leftBehind h flag)) (leavingAt fromDir source left) _ _ = _
            rw [Tree.relinked_made makes, Tree.relinked_leavingAt, Edges.place_other _ _ apart]
          obtain ⟨taken, less⟩ := sorted.leave (holders ▸ heldFrom) source
          have put := Exactly.insert taken ((less.holders.trans holders) ▸ heldTo) target (by
            intro old stood
            rw [kept] at stood
            rw [stood]
            exact List.mem_cons_self)
          unfold inserting at put
          rw [kept] at put
          have all := given.trans put
          rw [List.append_assoc, isLeft] at all
          rw [isLeft]
          exact .inr ⟨_, rfl, .moved exchanges stands empty all rfl⟩

/-! ## What is reported -/

/-- `BOGO_DIRENT_SIZE`. -/
def bogoDirentSize : Nat := 20

/-- What `getattr` reports of an entry's size and names. -/
structure Stat where
  /-- Its length, a directory's as a Tmpfs sizes one. -/
  size : Nat
  /-- How many names it has. -/
  nlink : Nat
deriving Repr, DecidableEq

/-- `Dir::getattr`. -/
def State.getattr (state : State Node) : Stat where
  size := (2 + state.entries.bindings.length) * bogoDirentSize
  nlink := if state.removed then 0 else 2 + state.subdirectories

/-- `Content::getattr`. -/
def Content.getattr (content : Content) : Stat := ⟨content.bytes.length, content.names⟩

/-- `Tmpfs::node_getattr`. -/
def Body.getattr : Body → Stat
  | .file content => content.getattr
  | .directory state => state.getattr
  | .whiteout => ⟨0, 1⟩

/-- The names of a directory that hold something of a kind. -/
def namesOf (edges : Edges Nat String Node) (dir : Nat) (kind : Node → Bool) : Set String :=
  {name | ∃ node, edges dir name = some node ∧ kind node = true}

/-- The names bound to something of a kind are as many as the bindings of that kind. -/
theorem ncard_bound (entries : OrderedMap String Node) (kind : Node → Bool) :
    {name | ∃ node, entries.get name = some node ∧ kind node = true}.ncard =
      (entries.bindings.filter fun binding => kind binding.2).length := by
  have apart : ((entries.bindings.filter fun binding => kind binding.2).map (·.1)).Nodup := by
    apply List.Nodup.of_map id
    rw [List.map_id]
    apply List.Pairwise.map
    · intro first second less
      exact ne_of_lt less
    · exact entries.ascending.filter _
  have same : {name | ∃ node, entries.get name = some node ∧ kind node = true} =
      ↑((entries.bindings.filter fun binding => kind binding.2).map (·.1)).toFinset := by
    ext name
    simp only [Set.mem_ofPred_eq, List.coe_toFinset, List.mem_map, List.mem_filter, Prod.exists,
      exists_and_right, exists_eq_right]
    constructor
    · rintro ⟨node, found, is⟩
      exact ⟨node, OrderedMap.get_eq_some.mp found, is⟩
    · rintro ⟨node, bound, is⟩
      exact ⟨node, OrderedMap.get_eq_some.mpr bound, is⟩
  rw [same, Set.ncard_coe_finset, List.toFinset_card_of_nodup apart, List.length_map]

/-- A directory's names that hold something of a kind are as many as its entries of that kind. -/
theorem ncard_namesOf {id : Nat} (has : h.stateOf id = some state) (kind : Node → Bool) :
    (namesOf h.standing id kind).ncard =
      (state.entries.bindings.filter fun binding => kind binding.2).length := by
  have standing : h.standing id = fun name => state.entries.get name := by
    funext name
    unfold Heap.standing
    rw [has]
    rfl
  unfold namesOf
  rw [standing]
  exact ncard_bound state.entries kind

/-- What every entry of a tree reports: a directory its entries and the directories among them, and
whatever has a name that it has one. -/
structure Reported (h : Heap) : Prop where
  directories : ∀ id state, (id = 0 ∨ ∃ dir name, h.standing dir name = some (.directory id)) →
    h.stateOf id = some state →
    state.getattr = ⟨(2 + (namesOf h.standing id fun _ => true).ncard) * bogoDirentSize,
      2 + (namesOf h.standing id Node.isDirectory).ncard⟩
  files : ∀ dir name id content, h.standing dir name = some (.file id) →
    h.contentOf id = some content → content.getattr = ⟨content.bytes.length, 1⟩

/-- A tree reports what its edges say. -/
theorem Tree.reported (tree : Tree h) : Reported h := by
  constructor
  · intro id state rooted has
    have lies := Heap.bodyOf_of_stateOf has
    have kept : state.removed = false := by
      cases rooted with
      | inl root =>
        rw [root] at lies
        exact tree.root _ lies
      | inr named =>
        obtain ⟨dir, name, stands⟩ := named
        exact tree.named dir name _ _ stands lies
    have all : (namesOf h.standing id fun _ => true).ncard = state.entries.bindings.length := by
      rw [ncard_namesOf has, List.filter_true]
    have directories : (namesOf h.standing id Node.isDirectory).ncard = state.subdirectories := by
      rw [ncard_namesOf has, (tree.sound id _ lies).2]
      unfold OrderedMap.total
      induction state.entries.bindings with
      | nil => rfl
      | cons binding rest ih =>
        rw [List.filter_cons, List.map_cons, List.sum_cons, ← ih]
        cases is : binding.2.isDirectory with
        | true =>
          simp only [State.directories, is, if_true, List.length_cons, Bool.toNat_true]
          omega
        | false =>
          simp only [State.directories, is, Bool.toNat_false]
          simp
    unfold State.getattr
    rw [kept, all, directories]
    rfl
  · intro dir name id content stands has
    have lies : h.bodyOf id = some (.file content) := by
      unfold Heap.contentOf at has
      unfold Heap.bodyOf
      split at has
      · rename_i found
        cases has
        rw [found]
        rfl
      · cases has
    have named : content.names = 1 := tree.named dir name (.file id) _ stands lies
    unfold Content.getattr
    rw [named]

/-! ## The move refined -/

/-- The move of a tree that each flag asks for: the source is left free, given what stood at the
target, or given a whiteout that stood nowhere. -/
inductive Moves (edges : Edges Nat String Node) (fromDir : Nat) (source : String) (toDir : Nat)
    (target : String) : Option RenameFlag → Edges Nat String Node → Prop where
  | plain {moving : Node} {flag : Option RenameFlag} (asks : flag = none ∨ flag = some .noReplace)
      (stands : edges fromDir source = some moving) :
      Moves edges fromDir source toDir target flag (edges.move fromDir source toDir target none)
  | exchanged {moving replaced : Node} (stands : edges fromDir source = some moving)
      (standsTo : edges toDir target = some replaced) :
      Moves edges fromDir source toDir target (some .exchange)
        (edges.move fromDir source toDir target (some replaced))
  | whiteout {moving : Node} {id : Nat} (stands : edges fromDir source = some moving)
      (fresh : ∀ dir name node, edges dir name = some node → node.id ≠ id) :
      Moves edges fromDir source toDir target (some .whiteout)
        (edges.move fromDir source toDir target (some (.whiteout id)))

/-- What is no directory holds nothing. -/
theorem stateOf_of_leaf (balanced : Balanced h [] 0) {name : String} {node : Node}
    (stands : h.standing dir name = some node) (leaf : node.inside = none) :
    h.stateOf node.id = none := by
  obtain ⟨⟨strong, body⟩, found, kind⟩ := Tree.standing_alive balanced stands
  unfold Heap.stateOf
  rw [found]
  cases body with
  | directory state =>
    rw [← kind] at leaf
    cases leaf
  | file content => rfl
  | whiteout => rfl

/-- What holds nothing has no edges. -/
theorem standing_of_holdsNone (balanced : Balanced h [] 0) {name : String} {node : Node}
    (stands : h.standing dir name = some node) (empty : h.holdsAny node = false) (called : String) :
    h.standing node.id called = none := by
  unfold Heap.standing
  cases has : h.stateOf node.id with
  | none => rfl
  | some state =>
    cases node with
    | directory id =>
      have here : h.stateOf id = some state := has
      unfold Heap.holdsAny at empty
      dsimp only at empty
      rw [here] at empty
      have nothing : state.entries.bindings = [] := by
        simpa using empty
      show state.entries.get called = none
      unfold OrderedMap.get
      rw [nothing]
      rfl
    | file id =>
      rw [stateOf_of_leaf balanced stands rfl] at has
      cases has
    | whiteout id =>
      rw [stateOf_of_leaf balanced stands rfl] at has
      cases has

/-- Losing what holds nothing changes no edge. -/
theorem Loses.standing {id : Nat} {h after : Heap} (loses : Loses id h after)
    (nothing : ∀ name, h.standing id name = none) : after.standing = h.standing := by
  funext dir name
  by_cases here : dir = id
  · rw [here, nothing name]
    cases loses.2 with
    | inl gone =>
      cases stands : after.standing id name with
      | none => rfl
      | some node =>
        obtain ⟨state, lies, -⟩ := standing_body stands
        rw [gone] at lies
        cases lies
    | inr kept =>
      have same := Heap.stateOf_eq kept
      have before := nothing name
      unfold Heap.standing at before ⊢
      rw [same]
      exact before
  · unfold Heap.standing
    rw [Heap.stateOf_eq (loses.1 dir here)]

/-- What stood at a target that holds nothing, dropped. -/
theorem loses_dropOption {node : Option Node}
    (nothing : ∀ some, node = Option.some some → ∀ name, h.standing some.id name = none) (id : Nat)
    (is : ∀ some, node = Option.some some → id = some.id) :
    Loses id h (h.dropOption node) := by
  cases node with
  | none => exact (Exactly.refl h).loses id
  | some node =>
    rw [is node rfl]
    apply loses_drop
    intro inner state same has
    have none_ := nothing node rfl
    rw [same] at none_
    unfold State.nodes
    rw [List.map_eq_nil_iff]
    apply List.eq_nil_iff_forall_not_mem.mpr
    intro binding member
    obtain ⟨name, held⟩ := binding
    have stands : h.standing inner name = some held := by
      unfold Heap.standing
      rw [has]
      exact OrderedMap.get_eq_some.mpr member
    rw [show (Node.directory inner).id = inner from rfl] at none_
    rw [none_ name] at stands
    cases stands

/-- Names held and taken are none of a file's. -/
theorem landed_file {changes : List Change} (placing : ∀ change ∈ changes,
    (∃ name node, change = .hold name node) ∨ ∃ name, change = .take name) (content : Content) :
    landed (some (.file content)) changes = some (.file content) := by
  induction changes with
  | nil => rfl
  | cons change rest ih =>
    have later := ih fun other member => placing other (List.mem_cons_of_mem _ member)
    obtain ⟨name, node, rfl⟩ | ⟨name, rfl⟩ := placing change List.mem_cons_self
    · exact later
    · exact later

/-- What was unnamed last reports no name. -/
theorem unnamed_nlink {lies : Option Body} {changes : List Change} {body : Body}
    (lands : landed lies (changes ++ [.unname]) = some body) (visible : body ≠ .whiteout) :
    body.getattr.nlink = 0 := by
  rw [landed_append] at lands
  change Change.unname.apply (landed lies changes) = some body at lands
  generalize landed lies changes = before at lands
  rcases before with _ | ⟨_ | _ | _⟩ <;> cases lands
  · rfl
  · rfl
  · exact absurd rfl visible

/-- What a move that answers has done. -/
structure Refines (h : Heap) (fromDir : Nat) (source : String) (toDir : Nat) (target : String)
    (flag : Option RenameFlag) (after : Heap) : Prop where
  /-- The Tmpfs is still a tree. -/
  tree : Tree after
  /-- Its edges are those of the move. -/
  moves : Moves h.standing fromDir source toDir target flag after.standing
  /-- A directory replaced held nothing. -/
  empty : flag ≠ some .exchange → ∀ replaced, h.standing toDir target = some replaced →
    ∀ name, h.standing replaced.id name = none
  /-- Everything beneath what moved is as it was. -/
  beneath : ∀ node, h.standing fromDir source = some node ∨
      flag = some .exchange ∧ h.standing toDir target = some node →
    ∀ path, Edges.walk Node.inside after.standing node path =
      Edges.walk Node.inside h.standing node path
  /-- So is every file but one replaced. -/
  contents : ∀ id content, h.contentOf id = some content →
    (flag ≠ some .exchange → ∀ node, h.standing toDir target = some node → node.id ≠ id) →
    after.contentOf id = some content
  /-- What `getattr` reports is what the tree says. -/
  reported : Reported after
  /-- What was replaced and is still open reports no name. -/
  gone : flag ≠ some .exchange → ∀ replaced body, h.standing toDir target = some replaced →
    after.bodyOf replaced.id = some body → body ≠ .whiteout → body.getattr.nlink = 0

/-- A file's content is what lies in its place. -/
theorem Heap.bodyOf_of_contentOf {id : Nat} {content : Content}
    (has : h.contentOf id = some content) : h.bodyOf id = some (.file content) := by
  unfold contentOf at has
  unfold bodyOf
  split at has
  · rename_i found
    cases has
    rw [found]
    rfl
  · cases has

theorem Heap.contentOf_of_bodyOf {id : Nat} {content : Content}
    (lies : h.bodyOf id = some (.file content)) : h.contentOf id = some content := by
  rw [contentOf_eq, lies]
  rfl

/-- Two names exchanged refine the exchange of the tree. -/
theorem refines_exchanged {h after : Heap} (tree : Tree h) (balanced : Balanced h [] 0)
    (heldFrom : .directory fromDir ∈ h.holders) (heldTo : .directory toDir ∈ h.holders)
    (movable : Movable h fromDir source toDir target flag) (kept : Tree after)
    {moving replaced : Node} (asks : flag = some .exchange)
    (stands : h.standing fromDir source = some moving)
    (standsTo : h.standing toDir target = some replaced)
    (exactly : Exactly ([] ++ (leavingAt fromDir source (some replaced) ++
      (toDir, .hold target moving) :: unnaming none)) h after) :
    Refines h fromDir source toDir target flag after := by
  have unmade : ∀ change ∈ ([] : List (Nat × Change)), ∃ body, change.2 = .make body ∧ body.Bare :=
    nofun
  have edges := Tree.relinked_move unmade stands toDir target (some replaced) none
  have fresh : Fresh h.next ([] ++ (leavingAt fromDir source (some replaced) ++
      (toDir, .hold target moving) :: unnaming none)) :=
    Fresh.nil.append ((Fresh.leavingAt fromDir source _).append
      (Fresh.cons_of_kept (by exact id) Fresh.nil))
  have standing := exactly.standing balanced fresh edges heldFrom heldTo
  have outside := movable.outside moving stands
  have back := movable.back asks replaced standsTo
  refine ⟨kept, ?_, fun other => absurd asks other, ?_, ?_, kept.reported,
    fun other => absurd asks other⟩
  · rw [standing, asks]
    exact .exchanged stands standsTo
  · intro node moves path
    rw [standing]
    cases moves with
    | inl moved =>
      rw [stands] at moved
      cases moved
      apply Edges.walk_move tree.acyclic stands outside
      intro other same
      cases same
      exact back
    | inr came =>
      have came := came.2
      rw [standsTo] at came
      cases came
      have swap := Edges.move_swap h.standing movable.apart
      rw [standsTo, stands] at swap
      rw [swap]
      apply Edges.walk_move tree.acyclic standsTo back
      intro other same
      cases same
      exact outside
  · intro id content has _
    apply Heap.contentOf_of_bodyOf
    rw [exactly id, Heap.bodyOf_of_contentOf has]
    apply landed_file
    intro change member
    have among := mem_changesTo.mp member
    cases List.mem_cons.mp among with
    | inl first =>
      cases first
      exact .inl ⟨source, replaced, rfl⟩
    | inr second =>
      cases List.mem_singleton.mp second
      exact .inl ⟨target, moving, rfl⟩

/-- A change a move makes makes an entry, puts or takes one, or is to what it replaces. -/
theorem mem_moved {h : Heap} {id : Nat} {change : Change} {moving : Node}
    (among : (id, change) ∈ leftBehind h flag ++ (leavingAt fromDir source (leftAt h flag) ++
      (toDir, .hold target moving) :: unnaming (h.standing toDir target))) :
    (∃ body, change = .make body) ∨
      ((∃ name node, change = .hold name node) ∨ ∃ name, change = .take name) ∨
      ∃ node, h.standing toDir target = some node ∧ id = node.id := by
  cases List.mem_append.mp among with
  | inl early =>
    obtain ⟨body, makes, -⟩ := Tree.leftBehind_makes h flag _ early
    exact .inl ⟨body, makes⟩
  | inr late =>
    right
    cases List.mem_append.mp late with
    | inl gives =>
      left
      cases left : leftAt h flag with
      | none =>
        rw [left] at gives
        cases List.mem_singleton.mp gives
        exact .inr ⟨source, rfl⟩
      | some node =>
        rw [left] at gives
        cases List.mem_singleton.mp gives
        exact .inl ⟨source, node, rfl⟩
    | inr end_ =>
      cases List.mem_cons.mp end_ with
      | inl put =>
        cases put
        exact .inl (.inl ⟨target, moving, rfl⟩)
      | inr unnames => exact .inr (Tree.mem_unnaming unnames).2

/-- What is moved over leaves every name as it stands as it is dropped. -/
theorem standing_dropOption {h : Heap} {node : Option Node}
    (nothing : ∀ some, node = Option.some some → ∀ name, h.standing some.id name = none) :
    (h.dropOption node).standing = h.standing := by
  cases node with
  | none => rfl
  | some dropped =>
    have lost := loses_dropOption nothing dropped.id fun _ same => by cases same; rfl
    exact lost.standing (nothing dropped rfl)

/-- A name moved over what holds nothing refines the move of the tree. -/
theorem refines_moved {h last : Heap} (tree : Tree h) (balanced : Balanced h [] 0)
    (heldFrom : .directory fromDir ∈ h.holders) (heldTo : .directory toDir ∈ h.holders)
    (movable : Movable h fromDir source toDir target flag)
    (kept : Tree (last.dropOption (h.standing toDir target))) {moving : Node}
    (asks : flag ≠ some .exchange) (stands : h.standing fromDir source = some moving)
    (empty : ∀ replaced, h.standing toDir target = some replaced → h.holdsAny replaced = false)
    (exactly : Exactly (leftBehind h flag ++ (leavingAt fromDir source (leftAt h flag) ++
      (toDir, .hold target moving) :: unnaming (h.standing toDir target))) h last) :
    Refines h fromDir source toDir target flag (last.dropOption (h.standing toDir target)) := by
  have makes := Tree.leftBehind_makes h flag
  have edges := Tree.relinked_move makes stands toDir target (leftAt h flag)
    (h.standing toDir target)
  have fresh : Fresh h.next (leftBehind h flag ++ (leavingAt fromDir source (leftAt h flag) ++
      (toDir, .hold target moving) :: unnaming (h.standing toDir target))) :=
    (Fresh.leftBehind h flag).append ((Fresh.leavingAt fromDir source _).append
      (Fresh.cons_of_kept (by exact id) (Fresh.unnaming _)))
  have standing := exactly.standing balanced fresh edges heldFrom heldTo
  have holdsNone : ∀ replaced, h.standing toDir target = some replaced →
      ∀ name, h.standing replaced.id name = none := by
    intro replaced standsTo
    exact standing_of_holdsNone balanced standsTo (empty replaced standsTo)
  have nothing : ∀ replaced, h.standing toDir target = some replaced →
      ∀ name, last.standing replaced.id name = none := by
    intro replaced standsTo name
    rw [standing]
    exact Edges.move_nothing (holdsNone replaced standsTo) (by simp [stands]) (by simp [standsTo])
      _ name
  have loses : ∀ replaced, h.standing toDir target = some replaced →
      Loses replaced.id last (last.dropOption (h.standing toDir target)) := by
    intro replaced standsTo
    apply loses_dropOption nothing
    intro other same
    rw [standsTo] at same
    cases same
    rfl
  have after := standing_dropOption nothing
  obtain ⟨strong, fromState, found, -⟩ := balanced.stateOf heldFrom
  have alive := balanced.fresh fromDir _ found
  refine ⟨kept, ?_, fun _ => holdsNone, ?_, ?_, kept.reported, ?_⟩
  · rw [after, standing]
    cases flag with
    | none => exact .plain (.inl rfl) stands
    | some flag =>
      cases flag with
      | noReplace => exact .plain (.inr rfl) stands
      | exchange => exact absurd rfl asks
      | whiteout =>
        apply Moves.whiteout stands
        intro dir name node has
        exact Nat.ne_of_lt (Tree.standing_before balanced has)
  · intro node moves path
    have moved : h.standing fromDir source = some node := by
      cases moves with
      | inl moved => exact moved
      | inr exchanges => exact absurd exchanges.1 asks
    rw [stands] at moved
    cases moved
    rw [after, standing]
    apply Edges.walk_move tree.acyclic stands (movable.outside moving stands)
    intro left same
    have whiteout : left = .whiteout h.next := by
      unfold leftAt at same
      split at same
      · cases same
        rfl
      · cases same
    rw [whiteout]
    exact Tree.not_beneath_next balanced rfl alive
  · intro id content has other
    have lies := Heap.bodyOf_of_contentOf has
    have apart : id ≠ h.next := by
      obtain ⟨object, lying, -⟩ := Option.map_eq_some_iff.mp lies
      exact Nat.ne_of_lt (balanced.fresh id object lying)
    have same : last.bodyOf id = some (.file content) := by
      rw [exactly id, lies]
      apply landed_file
      intro change member
      obtain ⟨body, makesBody⟩ | placed | ⟨node, standsTo, here⟩ :=
        mem_moved (mem_changesTo.mp member)
      · have unmade := fresh.kept apart change member
        rw [makesBody] at unmade
        exact absurd trivial unmade
      · exact placed
      · exact absurd here.symm (other asks node standsTo)
    apply Heap.contentOf_of_bodyOf
    cases standsTo : h.standing toDir target with
    | none => exact same
    | some replaced =>
      have lost := loses replaced standsTo
      rw [standsTo] at lost
      rw [lost.1 id (other asks replaced standsTo).symm]
      exact same
  · intro _ replaced body standsTo lies visible
    have lost := loses replaced standsTo
    cases lost.2 with
    | inl gone =>
      rw [gone] at lies
      cases lies
    | inr same =>
      rw [same, exactly replaced.id, standsTo] at lies
      have split : leftBehind h flag ++ (leavingAt fromDir source (leftAt h flag) ++
          (toDir, .hold target moving) :: unnaming (some replaced)) =
          (leftBehind h flag ++ (leavingAt fromDir source (leftAt h flag) ++
            [(toDir, .hold target moving)])) ++ [(replaced.id, .unname)] := by
        simp only [unnaming, List.append_assoc, List.cons_append, List.nil_append]
      rw [split, changesTo_append, changesTo_self] at lies
      exact unnamed_nlink lies visible

/-- `rename_at` refines the move of a tree: in any Tmpfs as calls leave it, of two names apart whose
target is not inside what moves, it refuses and changes nothing, or moves, exchanges or leaves a
whiteout as the flag asks, and what is reported then is what the tree says. -/
theorem renameAt_refines (files : List (String × List UInt8)) (seeded : Heap)
    (accepted : Heap.tryFromIter files = .ok seeded) (settings : List Heap.Setting) (ops : List Op)
    (allowed : Along Heap.step (fun h op => op.Allowed h) (seeded.configure true settings) ops)
    (h : Heap) (ran : run Heap.step (seeded.configure true settings) ops = some h)
    (fromDir toDir : Nat) (source target : String) (flag : Option RenameFlag)
    (heldFrom : .directory fromDir ∈ h.holders) (heldTo : .directory toDir ∈ h.holders)
    (movable : Movable h fromDir source toDir target flag) :
    (∃ error, h.renameAt fromDir source toDir target flag = (.error error, h)) ∨
      ∃ after, h.renameAt fromDir source toDir target flag = (.ok (), after) ∧
        Refines h fromDir source toDir target flag after := by
  obtain ⟨balanced, tree⟩ := reached_tree accepted allowed ran
  obtain ⟨strong, state, found, -⟩ := balanced.stateOf heldFrom
  have kept := tree.renameAt balanced (balanced.fresh fromDir _ found) movable.apart movable.outside
    movable.back
  cases renameAt_renamed balanced heldFrom heldTo movable.apart with
  | inl refused => exact .inl refused
  | inr answered =>
    obtain ⟨after, same, renamed⟩ := answered
    rw [same] at kept
    refine .inr ⟨after, same, ?_⟩
    cases renamed with
    | exchanged asks stands standsTo exactly =>
      exact refines_exchanged tree balanced heldFrom heldTo movable kept asks stands standsTo exactly
    | moved asks stands empty exactly dropped =>
      subst dropped
      exact refines_moved tree balanced heldFrom heldTo movable kept asks stands empty exactly

/-- A directory made beside one that holds a file. -/
def beside : List Op := [.lookup 0 "b", .mkdir 0 "d"]

/-- The directory moved into the other refines the move. -/
theorem renameAt_refines_beside :
    ∃ seeded h after, Heap.tryFromIter [("b/g", [2])] = .ok seeded ∧
      run Heap.step (seeded.configure true []) beside = some h ∧
      h.renameAt 0 "d" 1 "e" none = (.ok (), after) ∧ Refines h 0 "d" 1 "e" none after := by
  have movable : ∀ seeded h, Heap.tryFromIter [("b/g", [2])] = .ok seeded →
      run Heap.step (seeded.configure true []) beside = some h →
      Movable h 0 "d" 1 "e" none := by
    intro seeded h accepted ran
    cases accepted
    cases ran
    refine ⟨by decide, ?_, nofun⟩
    intro moving stands
    have is : moving = .directory 3 := (Option.some.inj stands).symm
    rw [is]
    have own : (Node.directory 3).inside = some 3 := rfl
    apply Edges.not_beneath_empty own
    · intro name
      rfl
    · decide
  have refined := renameAt_refines [("b/g", [2])] _ rfl [] beside
    ⟨trivial, fun _ _ => ⟨trivial, fun _ _ => trivial⟩⟩ _ rfl 0 1 "d" "e" none
    (by decide) (by decide) (movable _ _ rfl rfl)
  cases refined with
  | inl refused =>
    obtain ⟨error, same⟩ := refused
    cases congrArg Prod.fst same
  | inr answered =>
    obtain ⟨after, same, refines⟩ := answered
    exact ⟨_, _, after, rfl, rfl, same, refines⟩

end Kobako.Tmpfs
