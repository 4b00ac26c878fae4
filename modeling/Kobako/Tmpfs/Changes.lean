import Kobako.Tmpfs.Limits

/-!
# What a call changes

Each call's changes to the objects of a Tmpfs, in the order the source makes them: an object made, a
name held or taken in a directory, an object's name dropped, a file's bytes replaced. References
taken and dropped change no object that is still alive.
-/

namespace Kobako.Tmpfs

open Vfs
open Overlay (RenameFlag)

/-- One change to an object. -/
inductive Change where
  /-- `Arc::new`. -/
  | make (body : Body)
  /-- `State::hold`. -/
  | hold (name : String) (node : Node)
  /-- `State::take`. -/
  | take (name : String)
  /-- `Node::drop_name`. -/
  | unname
  /-- Other bytes in a file. -/
  | fill (bytes : List UInt8)

/-- What lies in a place after a change. One that does not concern what lies there leaves it. -/
def Change.apply : Change → Option Body → Option Body
  | .make body, _ => some body
  | .hold name node, some (.directory state) =>
    some (.directory (state.hold Node.isDirectory name node).1)
  | .take name, some (.directory state) => some (.directory (state.take Node.isDirectory name))
  | .unname, some (.directory state) => some (.directory { state with removed := true })
  | .unname, some (.file content) => some (.file { content with names := 0 })
  | .fill bytes, some (.file content) => some (.file { content with bytes := bytes })
  | _, lies => lies

/-- What lies in a place after changes. -/
def landed (lies : Option Body) (changes : List Change) : Option Body :=
  changes.foldl (fun lies change => change.apply lies) lies

/-- The changes to one place among those to all. -/
def changesTo (id : Nat) (changes : List (Nat × Change)) : List Change :=
  (changes.filter fun change => change.1 = id).map (·.2)

/-- The changes of two stretches are those of the one, then those of the other. -/
theorem changesTo_append (id : Nat) (first second : List (Nat × Change)) :
    changesTo id (first ++ second) = changesTo id first ++ changesTo id second := by
  unfold changesTo
  rw [List.filter_append, List.map_append]

/-- A change is to its place. -/
theorem changesTo_self (id : Nat) (change : Change) (rest : List (Nat × Change)) :
    changesTo id ((id, change) :: rest) = change :: changesTo id rest := by
  unfold changesTo
  rw [List.filter_cons_of_pos (by simp), List.map_cons]

/-- A change to another place is none to this one. -/
theorem changesTo_other {id other : Nat} (apart : other ≠ id) (change : Change)
    (rest : List (Nat × Change)) :
    changesTo id ((other, change) :: rest) = changesTo id rest := by
  unfold changesTo
  rw [List.filter_cons_of_neg (by simpa using apart)]

/-- What lies in a place after two stretches of changes. -/
theorem landed_append (lies : Option Body) (first second : List Change) :
    landed lies (first ++ second) = landed (landed lies first) second := List.foldl_append

/-- What comes of nothing was made on the way, whatever lay there before. -/
theorem landed_of_none {changes : List Change} {body : Body}
    (made : landed none changes = some body) (lies : Option Body) :
    landed lies changes = some body := by
  induction changes generalizing lies with
  | nil => cases made
  | cons change rest ih =>
    cases change with
    | make other => exact made
    | hold name node => exact ih made _
    | take name => exact ih made _
    | unname => exact ih made _
    | fill bytes => exact ih made _

namespace Heap

/-- What lies in a place. -/
def bodyOf (h : Heap) (id : Nat) : Option Body := (h.objects.get id).map (·.body)

/-- A directory's state, by what lies in its place. -/
theorem bodyOf_of_stateOf {h : Heap} {id : Nat} {state : State Node}
    (has : h.stateOf id = some state) : h.bodyOf id = some (.directory state) := by
  unfold stateOf at has
  unfold bodyOf
  split at has
  · rename_i found
    rw [found]
    cases has
    rfl
  · cases has

/-- A directory lies where its state is found. -/
theorem stateOf_of_bodyOf {h : Heap} {id : Nat} {state : State Node}
    (has : h.bodyOf id = some (.directory state)) : h.stateOf id = some state := by
  unfold bodyOf at has
  obtain ⟨⟨strong, body⟩, found, same⟩ := Option.map_eq_some_iff.mp has
  cases same
  unfold stateOf
  rw [found]

/-- A file's content, by what lies in its place. -/
theorem contentOf_eq (h : Heap) (id : Nat) :
    h.contentOf id = (h.bodyOf id).bind fun body => match body with
      | .file content => some content
      | _ => none := by
  unfold contentOf bodyOf
  cases h.objects.get id with
  | none => rfl
  | some object =>
    obtain ⟨strong, body⟩ := object
    cases body <;> rfl

end Heap

/-- Whatever is alive after is what the changes make of what lay there before. -/
def Changed (changes : List (Nat × Change)) (h after : Heap) : Prop :=
  ∀ id body, after.bodyOf id = some body →
    landed (h.bodyOf id) (changesTo id changes) = some body

namespace Changed

variable {h middle after : Heap}

theorem refl (h : Heap) : Changed [] h h := fun _ _ lies => lies

/-- Changes one after the other. -/
theorem trans {first second : List (Nat × Change)} (one : Changed first h middle)
    (two : Changed second middle after) : Changed (first ++ second) h after := by
  intro id body lies
  have later := two id body lies
  rw [changesTo_append, landed_append]
  cases between : middle.bodyOf id with
  | none =>
    rw [between] at later
    exact landed_of_none later _
  | some other =>
    rw [between] at later
    rw [one id other between]
    exact later

end Changed

/-! ## References -/

/-- References taken and dropped, and whatever is given back: objects go, and those left are as they
were. -/
def Survives (h after : Heap) : Prop :=
  ∀ id object, after.objects.get id = some object → h.bodyOf id = some object.body

namespace Survives

variable {h middle after : Heap}

theorem refl (h : Heap) : Survives h h := by
  intro id object found
  unfold Heap.bodyOf
  rw [found]
  rfl

theorem trans (one : Survives h middle) (two : Survives middle after) : Survives h after := by
  intro id object found
  obtain ⟨⟨strong, body⟩, alive, same⟩ := Option.map_eq_some_iff.mp (two id object found)
  have earlier := one id _ alive
  dsimp only at same earlier
  rw [earlier, same]

/-- Nothing alive has changed. -/
theorem changed (survives : Survives h after) : Changed [] h after := by
  intro id body lies
  obtain ⟨object, found, rfl⟩ := Option.map_eq_some_iff.mp lies
  exact survives id object found

/-- Objects that are the same survive. -/
theorem of_objects (same : after.objects = h.objects) : Survives h after := by
  intro id object found
  unfold Heap.bodyOf
  rw [← same, found]
  rfl

/-- An object counted otherwise. -/
theorem setStrong {id : Nat} {object : Object} (found : h.objects.get id = some object)
    (strong : Nat) : Survives h (h.setObject id { object with strong := strong }) := by
  intro other held has
  unfold Heap.bodyOf
  by_cases same : other = id
  · subst same
    have put := OrderedMap.get_insert_self h.objects other { object with strong := strong }
    rw [show (h.setObject other _).objects.get other = _ from put] at has
    cases has
    rw [found]
    rfl
  · have kept := OrderedMap.get_insert_of_ne h.objects { object with strong := strong } same
    rw [show (h.setObject id _).objects.get other = _ from kept] at has
    rw [has]
    rfl

theorem clone (h : Heap) (node : Node) : Survives h (h.clone node) := by
  unfold Heap.clone
  cases found : h.objects.get node.id with
  | none => exact .refl h
  | some object => exact setStrong found _

theorem free (h : Heap) (id : Nat) (body : Body) : Survives h (h.free id body) := by
  intro other object has
  by_cases same : other = id
  · subst same
    have gone := OrderedMap.get_remove_self h.objects other
    rw [show (h.free other body).objects.get other = _ from gone] at has
    cases has
  · have kept := OrderedMap.get_remove_of_ne h.objects same
    rw [show (h.free id body).objects.get other = _ from kept] at has
    unfold Heap.bodyOf
    rw [has]
    rfl

theorem dropLeaf (h : Heap) (node : Node) : Survives h (h.dropLeaf node) := by
  unfold Heap.dropLeaf
  cases found : h.objects.get node.id with
  | none => exact .refl h
  | some object =>
    dsimp only
    split
    · exact (free h node.id object.body).trans (of_objects rfl)
    · exact setStrong found _

theorem takeDirectories (nodes : List Node) (h : Heap) (nested : List Nat) :
    Survives h (Heap.takeDirectories nodes h nested).1 := by
  induction nodes generalizing h nested with
  | nil => exact .refl h
  | cons node rest ih =>
    cases node with
    | directory id => exact ih h (id :: nested)
    | file id => exact (dropLeaf h (.file id)).trans (ih _ nested)
    | whiteout id => exact (dropLeaf h (.whiteout id)).trans (ih _ nested)

theorem dropNested (h : Heap) (nested : List Nat) : Survives h (h.dropNested nested) := by
  fun_induction Heap.dropNested h nested with
  | case1 h => exact .refl h
  | case2 h id nested state held taken ih =>
    have freed := free h id (.directory state)
    have took := takeDirectories state.nodes (h.free id (.directory state)) nested
    exact ((freed.trans took).trans (of_objects rfl)).trans ih
  | case3 h id nested object notLast held ih => exact (setStrong held _).trans ih
  | case4 h id nested absent ih => exact ih

theorem dropDirectory (h : Heap) (id : Nat) : Survives h (h.dropDirectory id) := by
  unfold Heap.dropDirectory
  split
  · rename_i state held
    have freed := free h id (.directory state)
    have took := takeDirectories state.nodes (h.free id (.directory state)) []
    exact ((freed.trans took).trans (dropNested _ _)).trans (of_objects rfl)
  · rename_i object held
    exact setStrong held _
  · exact .refl h

theorem drop (h : Heap) (node : Node) : Survives h (h.drop node) := by
  cases node with
  | directory id => exact dropDirectory h id
  | file id => exact dropLeaf h (.file id)
  | whiteout id => exact dropLeaf h (.whiteout id)

theorem dropOption (h : Heap) (node : Option Node) : Survives h (h.dropOption node) := by
  cases node with
  | none => exact .refl h
  | some node => exact drop h node

theorem cloneOption (h : Heap) (node : Option Node) : Survives h (h.cloneOption node) := by
  cases node with
  | none => exact .refl h
  | some node => exact clone h node

end Survives

/-! ## Directories and files -/

namespace Changed

variable {h after : Heap}

/-- Nothing alive changed along the way. -/
theorem then_survives {changes : List (Nat × Change)} {middle : Heap}
    (one : Changed changes h middle) (two : Survives middle after) : Changed changes h after := by
  have both := one.trans two.changed
  rw [List.append_nil] at both
  exact both

/-- Nothing alive changed before. -/
theorem after_survives {changes : List (Nat × Change)} {middle : Heap}
    (one : Survives h middle) (two : Changed changes middle after) : Changed changes h after :=
  one.changed.trans two

variable {change : Change}

/-- Another body put in the place of an object's is the one change made. -/
theorem setBody {id : Nat} {body : Body} (applies : ∀ object, h.objects.get id = some object →
      change.apply (some object.body) = some body) :
    Changed [(id, change)] h (h.setBody id body) := by
  intro other left lies
  unfold Heap.setBody at lies
  cases found : h.objects.get id with
  | none =>
    rw [found] at lies
    by_cases same : other = id
    · subst same
      unfold Heap.bodyOf at lies
      rw [found] at lies
      cases lies
    · rw [changesTo_other (Ne.symm same)]
      exact lies
  | some object =>
    rw [found] at lies
    dsimp only at lies
    obtain ⟨held, has, rfl⟩ := Option.map_eq_some_iff.mp lies
    by_cases same : other = id
    · subst same
      have put := OrderedMap.get_insert_self h.objects other { object with body := body }
      rw [show (h.setObject other _).objects.get other = _ from put] at has
      cases has
      rw [changesTo_self]
      unfold Heap.bodyOf
      rw [found]
      exact applies object found
    · have kept := OrderedMap.get_insert_of_ne h.objects { object with body := body } same
      rw [show (h.setObject id _).objects.get other = _ from kept] at has
      rw [changesTo_other (Ne.symm same)]
      unfold Heap.bodyOf
      rw [has]
      rfl

/-- A change that is not the object's to make leaves it. -/
theorem unconcerned {id : Nat} (leaves : change.apply (h.bodyOf id) = h.bodyOf id) :
    Changed [(id, change)] h h := by
  intro other body lies
  by_cases same : other = id
  · subst same
    rw [changesTo_self]
    show change.apply (h.bodyOf other) = some body
    rw [leaves]
    exact lies
  · rw [changesTo_other (Ne.symm same)]
    exact lies

/-- `drop_name`. -/
theorem dropName (h : Heap) (node : Node) : Changed [(node.id, .unname)] h (h.dropName node) := by
  unfold Heap.dropName
  split
  · rename_i strong content found
    apply setBody
    intro object has
    rw [found] at has
    cases has
    rfl
  · rename_i strong state found
    apply setBody
    intro object has
    rw [found] at has
    cases has
    rfl
  · rename_i notFile notDirectory
    apply unconcerned
    unfold Heap.bodyOf
    cases found : h.objects.get node.id with
    | none => rfl
    | some object =>
      obtain ⟨strong, body⟩ := object
      cases body with
      | file content => exact absurd found (notFile _ _)
      | directory state => exact absurd found (notDirectory _ _)
      | whiteout => rfl

/-- A directory's state changed. -/
theorem setState {dir : Nat} {state after : State Node} (has : h.stateOf dir = some state)
    (applies : change.apply (some (.directory state)) = some (.directory after)) :
    Changed [(dir, change)] h (h.setBody dir (.directory after)) := by
  apply setBody
  intro object found
  have lies := Heap.bodyOf_of_stateOf has
  unfold Heap.bodyOf at lies
  rw [found] at lies
  have same : object.body = .directory state := Option.some.inj lies
  rw [same]
  exact applies

/-- What is no directory has no state to change. -/
theorem stateless {dir : Nat} (none_ : h.stateOf dir = none) (nothing : change.apply none = none)
    (file : ∀ content, change.apply (some (.file content)) = some (.file content))
    (whiteout : change.apply (some .whiteout) = some .whiteout) :
    Changed [(dir, change)] h h := by
  apply unconcerned
  cases lies : h.bodyOf dir with
  | none => exact nothing
  | some body =>
    cases body with
    | directory state =>
      rw [Heap.stateOf_of_bodyOf lies] at none_
      cases none_
    | file content => exact file content
    | whiteout => exact whiteout

/-- `State::hold`. -/
theorem hold (h : Heap) (dir : Nat) (name : String) (node : Node) :
    Changed [(dir, .hold name node)] h (h.hold dir name node).1 := by
  unfold Heap.hold
  cases has : h.stateOf dir with
  | none => exact stateless has rfl (fun _ => rfl) rfl
  | some state => exact setState has rfl

/-- `State::take`. -/
theorem take (h : Heap) (dir : Nat) (name : String) :
    Changed [(dir, .take name)] h (h.take dir name) := by
  unfold Heap.take
  cases has : h.stateOf dir with
  | none => exact stateless has rfl (fun _ => rfl) rfl
  | some state =>
    have taken : Changed [(dir, .take name)] h
        (h.setBody dir (.directory (state.take Node.isDirectory name))) := setState has rfl
    exact taken.then_survives (.dropOption _ _)

end Changed

/-- What `drop_name` is called on, if anything. -/
def unnaming : Option Node → List (Nat × Change)
  | some node => [(node.id, .unname)]
  | none => []

/-- The changes of `State::insert`. -/
def inserting (h : Heap) (dir : Nat) (name : String) (node : Node) : List (Nat × Change) :=
  (dir, .hold name node) :: unnaming (h.standing dir name)

/-- The changes of `State::remove`. -/
def removing (h : Heap) (dir : Nat) (name : String) : List (Nat × Change) :=
  unnaming (h.standing dir name) ++ [(dir, .take name)]

namespace Changed

/-- What stood at a name comes out of `State::hold`. -/
theorem hold_standing (h : Heap) (dir : Nat) (name : String) (node : Node) :
    (h.hold dir name node).2 = h.standing dir name := by
  unfold Heap.hold Heap.standing
  cases h.stateOf dir with
  | none => rfl
  | some state => rfl

/-- `State::insert`. -/
theorem insert (h : Heap) (dir : Nat) (name : String) (node : Node) :
    Changed (inserting h dir name node) h (h.insert dir name node) := by
  have held := hold h dir name node
  have stood := hold_standing h dir name node
  unfold Heap.insert inserting
  rw [← stood]
  split
  · rename_i after replaced same
    rw [same] at held ⊢
    exact held.trans ((dropName after replaced).then_survives (.drop _ _))
  · rename_i after same
    rw [same] at held ⊢
    exact held

/-- `State::exchange`. -/
theorem exchange (h : Heap) (dir : Nat) (name : String) (node : Node) :
    Changed [(dir, .hold name node)] h (h.exchange dir name node) := by
  have held := hold h dir name node
  unfold Heap.exchange
  split
  rename_i after replaced same
  rw [same] at held
  exact held.then_survives (.dropOption _ _)

/-- `State::remove`. -/
theorem remove (h : Heap) (dir : Nat) (name : String) :
    Changed (removing h dir name) h (h.remove dir name) := by
  unfold Heap.remove removing
  cases h.standing dir name with
  | none => exact take h dir name
  | some removed => exact (dropName h removed).trans (take _ dir name)

/-- An object allocated. -/
theorem alloc (h : Heap) (body : Body) : Changed [(h.next, .make body)] h (h.alloc body).2 := by
  intro other left lies
  obtain ⟨held, has, rfl⟩ := Option.map_eq_some_iff.mp lies
  change (h.objects.insert h.next ⟨1, body⟩).get other = some held at has
  by_cases same : other = h.next
  · subst same
    rw [OrderedMap.get_insert_self] at has
    cases has
    rw [changesTo_self]
    rfl
  · rw [OrderedMap.get_insert_of_ne _ _ same] at has
    rw [changesTo_other (Ne.symm same)]
    unfold Heap.bodyOf
    rw [has]
    rfl

/-- An object made. -/
theorem make {h after : Heap} {body : Body} {id : Nat} (made : h.make body = .ok (id, after)) :
    id = h.next ∧ Changed [(h.next, .make body)] h after := by
  unfold Heap.make at made
  split at made
  · rename_i inodes taken
    have same := Except.ok.inj made
    have counted : Survives h { h with inodes := inodes } := .of_objects rfl
    refine ⟨(congrArg Prod.fst same).symm, ?_⟩
    have last : ({ h with inodes := inodes }.alloc body).2 = after := congrArg Prod.snd same
    rw [← last]
    exact counted.changed.trans (alloc { h with inodes := inodes } body)
  · cases made

end Changed

/-! ## Calls -/

/-- The changes of an object made at a name. -/
def making (h : Heap) (dir : Nat) (name : String) (body : Body) : List (Nat × Change) :=
  match h.make body with
  | .ok (id, after) =>
    (h.next, .make body) :: inserting (after.clone (body.node id)) dir name (body.node id)
  | .error _ => []

/-- The changes that give up the source of a move. -/
def leavingAt (dir : Nat) (name : String) : Option Node → List (Nat × Change)
  | some left => [(dir, .hold name left)]
  | none => [(dir, .take name)]

/-- The changes of what a move leaves behind. -/
def leftBehind (h : Heap) : Option RenameFlag → List (Nat × Change)
  | some .whiteout => [(h.next, .make .whiteout)]
  | _ => []

/-- A move that leaves no whiteout makes nothing. -/
theorem leftBehind_other {h : Heap} {flag : Option RenameFlag} (other : flag ≠ some .whiteout) :
    leftBehind h flag = [] := by
  match flag with
  | none | some .noReplace | some .exchange => rfl
  | some .whiteout => exact absurd rfl other

/-- The changes of `Tmpfs::rename_at`. -/
def moving (h : Heap) (fromDir : Nat) (source : String) (toDir : Nat) (target : String)
    (flag : Option RenameFlag) : List (Nat × Change) :=
  match h.standing fromDir source with
  | none => []
  | some moving =>
    if flag = some .exchange then
      match h.standing toDir target with
      | none => []
      | some replaced => [(fromDir, .hold source replaced), (toDir, .hold target moving)]
    else if (h.standing toDir target).any h.holdsAny then []
    else
      match h.leaving flag with
      | .error _ => []
      | .ok (left, made) =>
        let cloned := (made.clone moving).cloneOption (h.standing toDir target)
        leftBehind h flag ++ (leavingAt fromDir source left ++
          inserting (cloned.leave fromDir source left) toDir target moving)

/-- The changes of a call. A file's are told by the bytes it is left with. -/
def Op.changes (h : Heap) (op : Op) : List (Nat × Change) :=
  match op with
  | .create dir name => making h dir name Heap.emptyFile
  | .mkdir dir name => making h dir name (.directory .new)
  | .unlink dir name => removing h dir name
  | .rmdir dir name =>
    if (h.standing dir name).any h.holdsAny then [] else removing h dir name
  | .whiteout dir name =>
    match h.make .whiteout with
    | .ok (id, after) => (h.next, .make .whiteout) :: inserting after dir name (.whiteout id)
    | .error _ => []
  | .rename fromDir source toDir target flag => moving h fromDir source toDir target flag
  | .tmpfile _ =>
    match h.make Heap.emptyFile with
    | .ok _ => [(h.next, .make Heap.emptyFile)]
    | .error _ => []
  | .link file dir name => inserting (h.clone (.file file)) dir name (.file file)
  | .write file _ _ _ | .truncate file _ _ | .fallocate file _ _ _ =>
    match (h.perform op).2.contentOf file with
    | some content => [(file, .fill content.bytes)]
    | none => []
  | _ => []

namespace Changed

variable {h after : Heap}

/-- `Tmpfs::make`. -/
theorem makeAt (h : Heap) (dir : Nat) (name : String) (body : Body) :
    Changed (making h dir name body) h (h.makeAt dir name body).2 := by
  unfold Heap.makeAt making
  cases made : h.make body with
  | error error => exact .refl h
  | ok pair =>
    obtain ⟨id, after⟩ := pair
    obtain ⟨-, allocated⟩ := make made
    have cloned := Survives.clone after (body.node id)
    have inserted := insert (after.clone (body.node id)) dir name (body.node id)
    exact ((allocated.then_survives cloned).trans inserted).then_survives (.of_objects rfl)

/-- What a move leaves behind is made. -/
theorem leaving {flag : Option RenameFlag} {left : Option Node} {made : Heap}
    (leaves : h.leaving flag = .ok (left, made)) : Changed (leftBehind h flag) h made := by
  obtain ⟨asked, id, -, allocated⟩ | ⟨other, -, stays⟩ := Heap.leaving_cases leaves
  · rw [asked]
    exact (make allocated).2
  · rw [leftBehind_other other, stays]
    exact .refl h

/-- The source of a move given up. -/
theorem leave (h : Heap) (dir : Nat) (name : String) (left : Option Node) :
    Changed (leavingAt dir name left) h (h.leave dir name left) := by
  cases left with
  | none => exact take h dir name
  | some left => exact exchange h dir name left

/-- `Tmpfs::rename_at`. -/
theorem renameAt (h : Heap) (fromDir : Nat) (source : String) (toDir : Nat) (target : String)
    (flag : Option RenameFlag) :
    Changed (moving h fromDir source toDir target flag) h
      (h.renameAt fromDir source toDir target flag).2 := by
  unfold Heap.renameAt moving
  cases h.standing fromDir source with
  | none => exact .refl h
  | some node =>
    dsimp only
    by_cases exchanges : flag = some .exchange
    · rw [if_pos exchanges, if_pos exchanges]
      cases h.standing toDir target with
      | none => exact .refl h
      | some replaced =>
        have cloned := (Survives.clone h node).trans (.clone _ replaced)
        exact cloned.changed.trans ((exchange _ fromDir source replaced).trans
          (exchange _ toDir target node))
    · rw [if_neg exchanges, if_neg exchanges]
      by_cases filled : (h.standing toDir target).any h.holdsAny = true
      · rw [if_pos filled, if_pos filled]
        exact .refl h
      · rw [if_neg filled, if_neg filled]
        cases leaves : h.leaving flag with
        | error error => exact .refl h
        | ok pair =>
          obtain ⟨left, made⟩ := pair
          dsimp only
          have cloned := (Survives.clone made node).trans
            (.cloneOption _ (h.standing toDir target))
          have gone := leave ((made.clone node).cloneOption (h.standing toDir target)) fromDir
            source left
          exact (((leaving leaves).then_survives cloned).trans
            (gone.trans (insert _ toDir target node))).then_survives (.dropOption _ _)

/-- A file's bytes replaced, or nothing changed. -/
def Rewrites (file : Nat) (h after : Heap) : Prop :=
  (∃ bytes, Changed [(file, .fill bytes)] h after) ∨ Survives h after

variable {file : Nat} {content : Content} {reserves : Bool}

/-- Bytes replaced twice are replaced. -/
theorem Rewrites.trans {middle : Heap} (one : Rewrites file h middle)
    (two : Rewrites file middle after) : Rewrites file h after := by
  cases two with
  | inr same =>
    cases one with
    | inl filled =>
      obtain ⟨bytes, changed⟩ := filled
      exact .inl ⟨bytes, changed.then_survives same⟩
    | inr before => exact .inr (before.trans same)
  | inl filled =>
    obtain ⟨bytes, changed⟩ := filled
    left
    refine ⟨bytes, ?_⟩
    cases one with
    | inr before => exact after_survives before changed
    | inl first =>
      obtain ⟨earlier, began⟩ := first
      intro id body lies
      have both := began.trans changed id body lies
      by_cases same : id = file
      · subst same
        rw [List.singleton_append, changesTo_self, changesTo_self] at both
        rw [changesTo_self]
        cases before : h.bodyOf id with
        | none =>
          rw [before] at both
          exact both
        | some old =>
          rw [before] at both
          cases old <;> exact both
      · rw [List.singleton_append, changesTo_other (Ne.symm same),
          changesTo_other (Ne.symm same)] at both
        rw [changesTo_other (Ne.symm same)]
        exact both

/-- The bytes a file is left with say how they were replaced. -/
theorem Rewrites.changed (rewrites : Rewrites file h after) :
    Changed (match after.contentOf file with
      | some content => [(file, .fill content.bytes)]
      | none => []) h after := by
  intro id body lies
  have lands : ∃ bytes, landed (h.bodyOf id) (changesTo id [(file, .fill bytes)]) = some body ∨
      h.bodyOf id = some body := by
    cases rewrites with
    | inl filled =>
      obtain ⟨bytes, changed⟩ := filled
      exact ⟨bytes, .inl (changed id body lies)⟩
    | inr same => exact ⟨[], .inr (same.changed id body lies)⟩
  obtain ⟨bytes, lands⟩ := lands
  by_cases same : id = file
  · subst same
    rw [changesTo_self] at lands
    have left := Heap.contentOf_eq after id
    rw [lies] at left
    rw [left]
    cases before : h.bodyOf id with
    | none =>
      rw [before] at lands
      cases lands with
      | inl filled => cases filled
      | inr same => cases same
    | some old =>
      rw [before] at lands
      cases old with
      | file content =>
        cases lands with
        | inl filled =>
          cases filled
          dsimp only [Option.bind]
          rw [changesTo_self]
          rfl
        | inr same =>
          cases same
          dsimp only [Option.bind]
          rw [changesTo_self]
          rfl
      | directory state | whiteout =>
        cases lands with
        | inl filled =>
          cases filled
          rfl
        | inr same =>
          cases same
          rfl
  · rw [changesTo_other (Ne.symm same)] at lands
    have kept : h.bodyOf id = some body := lands.elim (fun same => same) fun same => same
    split
    · rw [changesTo_other (Ne.symm same)]
      exact kept
    · exact kept

/-- Other bytes put into a file. -/
theorem Rewrites.setBody (has : h.contentOf file = some content) (bytes : List UInt8) :
    Rewrites file h (h.setBody file (.file { content with bytes := bytes })) := by
  refine .inl ⟨bytes, Changed.setBody ?_⟩
  intro object found
  unfold Heap.contentOf at has
  rw [found] at has
  obtain ⟨strong, body⟩ := object
  cases body with
  | file held =>
    cases has
    rfl
  | directory state => cases has
  | whiteout => cases has

/-- `Content::resize`. -/
theorem Rewrites.resize (has : h.contentOf file = some content) {length : Nat}
    (resized : h.resize file content length reserves = .ok after) :
    Rewrites file h after := by
  unfold Heap.resize at resized
  dsimp only at resized
  split at resized
  · cases resized
  · rename_i bytes grown
    cases resized
    let spent : Heap := { h with bytes := bytes.give (content.bytes.length - length) }
    have counted : Rewrites file h spent := .inr (.of_objects rfl)
    have here : spent.contentOf file = some content := has
    exact counted.trans (Rewrites.setBody here _)

/-- `write`. -/
theorem Rewrites.write (has : h.contentOf file = some content) {start : Option Nat}
    {buf : List UInt8} (wrote : h.write file content start buf reserves = .ok after) :
    Rewrites file h after := by
  unfold Heap.write at wrote
  dsimp only at wrote
  split at wrote
  · cases wrote
    exact .inr (.refl h)
  · split at wrote
    · cases wrote
    · split at wrote
      · cases wrote
      · rename_i middle grown
        have begun : Rewrites file h middle := by
          split at grown
          · exact Rewrites.resize has grown
          · cases grown
            exact .inr (.refl h)
        split at wrote
        · rename_i held found
          cases wrote
          exact begun.trans (Rewrites.setBody found _)
        · cases wrote
          exact begun

/-- `TmpfsFile::fallocate`. -/
theorem Rewrites.fallocate (has : h.contentOf file = some content) {offset length : Nat}
    (grown : h.fallocate file content offset length reserves = .ok after) :
    Rewrites file h after := by
  unfold Heap.fallocate at grown
  split at grown
  · cases grown
  · split at grown
    · exact Rewrites.resize has grown
    · cases grown
      exact .inr (.refl h)

/-- A change to a file's content. -/
theorem Rewrites.made {change : Content → Except FsError Heap}
    (rewrites : ∀ content after, h.contentOf file = some content → change content = .ok after →
      Rewrites file h after) : Rewrites file h (h.changed file change).2 := by
  unfold Heap.changed
  cases has : h.contentOf file with
  | none => exact .inr (.refl h)
  | some content =>
    dsimp only
    cases changed : change content with
    | error error => exact .inr (.refl h)
    | ok after => exact rewrites content after has changed

/-- A call changes what its changes say. -/
theorem perform (h : Heap) (op : Op) : Changed (op.changes h) h (h.perform op).2 := by
  cases op with
  | lookup dir name =>
    show Changed [] h (h.lookup dir name).2
    unfold Heap.lookup
    split
    · exact .refl h
    · split
      · exact .refl h
      · exact .refl h
      · exact ((Survives.clone h _).trans (.of_objects rfl)).changed
  | opened node => exact ((Survives.clone h node).trans (.of_objects rfl)).changed
  | closed node =>
    have let_go : Survives h { h with holders := h.holders.erase node } := .of_objects rfl
    exact (let_go.trans (.drop _ node)).changed
  | create dir name => exact makeAt h dir name _
  | mkdir dir name => exact makeAt h dir name _
  | unlink dir name => exact remove h dir name
  | rmdir dir name =>
    show Changed (if (h.standing dir name).any h.holdsAny then [] else removing h dir name) h
      (h.rmdir dir name).2
    unfold Heap.rmdir
    have removed := remove h dir name
    cases stands : h.standing dir name with
    | none => exact removed
    | some node =>
      rw [Option.any_some]
      dsimp only
      split
      · exact .refl h
      · exact removed
  | whiteout dir name =>
    show Changed (match h.make .whiteout with
      | .ok (id, after) => (h.next, .make .whiteout) :: inserting after dir name (.whiteout id)
      | .error _ => []) h (h.whiteout dir name).2
    unfold Heap.whiteout
    cases made : h.make .whiteout with
    | error error => exact .refl h
    | ok pair =>
      obtain ⟨id, after⟩ := pair
      exact (make made).2.trans (insert after dir name (.whiteout id))
  | rename fromDir source toDir target flag => exact renameAt h fromDir source toDir target flag
  | tmpfile dir =>
    show Changed (match h.make Heap.emptyFile with
      | .ok _ => [(h.next, .make Heap.emptyFile)]
      | .error _ => []) h h.tmpfile.2
    unfold Heap.tmpfile
    cases made : h.make Heap.emptyFile with
    | error error => exact .refl h
    | ok pair =>
      obtain ⟨id, after⟩ := pair
      exact (make made).2.then_survives (.of_objects rfl)
  | link file dir name => exact (Survives.clone h _).changed.trans (insert _ dir name _)
  | write file start buf reserves =>
    exact (Rewrites.made fun _ _ has wrote => Rewrites.write has wrote).changed
  | truncate file length reserves =>
    exact (Rewrites.made fun _ _ has resized => Rewrites.resize has resized).changed
  | fallocate file offset length reserves =>
    exact (Rewrites.made fun _ _ has grown => Rewrites.fallocate has grown).changed

end Changed

end Kobako.Tmpfs
