import Kobako.Tmpfs.Operations

/-!
# The balance of references and space

`Balanced` says that the references counted to each object are those its directories, its holders
and a call under way have to it, and that the space used is what the objects alive count for. Each
step of a call keeps it, told with the references the call has taken so far and the inodes it still
owes; so a call that ends with none of either leaves every count as it should be.
-/

namespace Kobako.Tmpfs

open Vfs
open Overlay (RenameFlag)

/-! ## Counting -/

/-- The references counted to what `node` names. -/
def strongFor (node : Node) (id : Nat) (object : Object) : Nat :=
  if object.body.node id = node then object.strong else 0

/-- How often an object names `node`. -/
def naming (node : Node) (_ : Nat) (object : Object) : Nat := object.body.nodes.count node

/-- The bytes an object counts for. -/
def lengthOf (_ : Nat) (object : Object) : Nat := object.body.length

/-- Every reference is counted and every count has its references, `extra` being those a call has
taken and `owed` the inodes it has still to give back. -/
structure Balanced (h : Heap) (extra : List Node) (owed : Nat) : Prop where
  /-- An object's count is the references to it. -/
  strong : ∀ node, h.objects.weightAt (strongFor node) node.id =
    h.objects.total (naming node) + h.holders.count node + extra.count node
  /-- An object alive has a reference. -/
  alive : ∀ id object, h.objects.get id = some object → 0 < object.strong
  /-- The bytes used are those of the files alive. -/
  bytes : h.bytes.used = h.objects.total lengthOf
  /-- The inodes used are those of the objects alive. -/
  inodes : h.inodes.used = h.size + owed
  /-- No object lies where the next one will. -/
  fresh : ∀ id object, h.objects.get id = some object → id < h.next
  /-- No count ever fell below zero. -/
  sound : h.bytes.wrapped = false ∧ h.inodes.wrapped = false

theorem Body.node_id (body : Body) (id : Nat) : (body.node id).id = id := by
  cases body <;> rfl

namespace Balanced

variable {h : Heap} {extra : List Node} {owed : Nat}

/-- Only how often each reference is taken matters. -/
theorem congr (balanced : Balanced h extra owed) {other : List Node}
    (same : ∀ node, other.count node = extra.count node) : Balanced h other owed :=
  { balanced with strong := fun node => by rw [same]; exact balanced.strong node }

/-- What is referred to is alive, and what the reference says it is. -/
theorem object (balanced : Balanced h extra owed) {node : Node}
    (referred : 0 < h.objects.total (naming node) + h.holders.count node + extra.count node) :
    ∃ object, h.objects.get node.id = some object ∧ object.body.node node.id = node := by
  have counted := balanced.strong node
  rw [OrderedMap.weightAt] at counted
  cases found : h.objects.get node.id with
  | none =>
    rw [found] at counted
    dsimp only at counted
    omega
  | some object =>
    rw [found] at counted
    refine ⟨object, rfl, ?_⟩
    by_contra other
    dsimp only at counted
    rw [strongFor, if_neg other] at counted
    omega

/-- A directory referred to is alive. -/
theorem directory (balanced : Balanced h extra owed) {id : Nat}
    (referred : 0 < h.objects.total (naming (.directory id)) + h.holders.count (.directory id) +
      extra.count (.directory id)) :
    ∃ strong state, h.objects.get id = some ⟨strong, .directory state⟩ := by
  obtain ⟨⟨strong, body⟩, held, named⟩ := balanced.object referred
  cases body with
  | directory state => exact ⟨strong, state, held⟩
  | file content => cases named
  | whiteout => cases named

/-- A reference a call has taken is counted. -/
theorem taken_self {node : Node} {count : Nat} : 0 < count + (node :: extra).count node := by
  rw [List.count_cons_self]
  omega

/-- A reference held outside is counted. -/
theorem held_self {node : Node} {named taken : Nat} (held : node ∈ h.holders) :
    0 < named + h.holders.count node + taken := by
  have counted := List.count_pos_iff.mpr held
  omega

/-- A reference a directory alive has is counted. -/
theorem named_self {node : Node} {id strong count taken : Nat} {state : State Node}
    (found : h.objects.get id = some ⟨strong, .directory state⟩) (named : node ∈ state.nodes) :
    0 < h.objects.total (naming node) + count + taken := by
  have counted : 0 < state.nodes.count node := List.count_pos_iff.mpr named
  have part := OrderedMap.weightAt_le_total (naming node) h.objects id
  rw [OrderedMap.weightAt_some found] at part
  have same : naming node id ⟨strong, .directory state⟩ = state.nodes.count node := rfl
  omega

/-- What a reference names does not depend on how often it is counted. -/
theorem totals_setObject {id : Nat} {old new : Object} (held : h.objects.get id = some old)
    (weight : Nat → Object → Nat) (same : weight id new = weight id old) :
    (h.setObject id new).objects.total weight = h.objects.total weight := by
  have sum := OrderedMap.total_insert weight h.objects id new
  rw [OrderedMap.weightAt_some held, same] at sum
  exact Nat.add_right_cancel sum

/-- One object's count changed, with the references that account for it. -/
theorem setStrong (balanced : Balanced h extra owed) {id : Nat} {old : Object}
    (held : h.objects.get id = some old) {strong : Nat} (positive : 0 < strong)
    {other : List Node} (here : strong + extra.count (old.body.node id) =
      old.strong + other.count (old.body.node id))
    (apart : ∀ node, node ≠ old.body.node id → other.count node = extra.count node) :
    Balanced (h.setObject id { old with strong := strong }) other owed where
  strong node := by
    have counted := balanced.strong node
    have named : (h.setObject id { old with strong := strong }).objects.total (naming node) =
        h.objects.total (naming node) := totals_setObject held (naming node) rfl
    rw [named]
    show (h.objects.insert id { old with strong := strong }).weightAt (strongFor node) node.id =
      h.objects.total (naming node) + h.holders.count node + other.count node
    by_cases place : node.id = id
    · subst place
      rw [OrderedMap.weightAt_some held] at counted
      rw [OrderedMap.weightAt_some (OrderedMap.get_insert_self _ _ _)]
      by_cases same : old.body.node node.id = node
      · rw [same] at here
        rw [strongFor, if_pos same] at counted ⊢
        dsimp only
        omega
      · rw [apart node (Ne.symm same)]
        rw [strongFor, if_neg same] at counted ⊢
        exact counted
    · have elsewhere : node ≠ old.body.node id := fun same => place (by rw [same, Body.node_id])
      rw [apart node elsewhere, OrderedMap.weightAt, OrderedMap.get_insert_of_ne _ _ place]
      exact counted
  alive other object found := by
    by_cases place : other = id
    · subst place
      rw [Heap.setObject, OrderedMap.get_insert_self] at found
      cases found
      exact positive
    · rw [Heap.setObject, OrderedMap.get_insert_of_ne _ _ place] at found
      exact balanced.alive other object found
  bytes := by
    have same : (h.setObject id { old with strong := strong }).objects.total lengthOf =
        h.objects.total lengthOf := totals_setObject held lengthOf rfl
    rw [same]
    exact balanced.bytes
  inodes := by
    rw [Heap.size_setObject held]
    exact balanced.inodes
  fresh other object found := by
    by_cases place : other = id
    · subst place
      exact balanced.fresh other old held
    · rw [Heap.setObject, OrderedMap.get_insert_of_ne _ _ place] at found
      exact balanced.fresh other object found
  sound := balanced.sound

/-- A reference more. -/
theorem clone (balanced : Balanced h extra owed) {node : Node}
    (referred : 0 < h.objects.total (naming node) + h.holders.count node + extra.count node) :
    Balanced (h.clone node) (node :: extra) owed := by
  obtain ⟨object, held, named⟩ := balanced.object referred
  rw [Heap.clone, held]
  apply balanced.setStrong held (Nat.succ_pos _)
  · rw [named, List.count_cons_self]
    omega
  · intro other apart
    rw [named] at apart
    exact List.count_cons_of_ne (Ne.symm apart)

variable {object : Object}

/-- A reference less, others being left. -/
theorem release {node : Node} (balanced : Balanced h (node :: extra) owed)
    (held : h.objects.get node.id = some object) (named : object.body.node node.id = node)
    (more : object.strong ≠ 1) : Balanced (h.release node.id object) extra owed := by
  have positive := balanced.alive node.id object held
  apply balanced.setStrong held (by omega)
  · rw [named, List.count_cons_self]
    omega
  · intro other apart
    rw [named] at apart
    exact (List.count_cons_of_ne (Ne.symm apart)).symm

/-- An inode given back. -/
theorem giveInode (balanced : Balanced h extra (owed + 1)) : Balanced h.giveInode extra owed := by
  have enough : 1 ≤ h.inodes.used := by
    rw [balanced.inodes]
    omega
  have given : h.inodes.give 1 = { h.inodes with used := h.inodes.used - 1 } := by
    rw [Budget.give, if_pos enough]
  refine { balanced with inodes := ?_, sound := ?_ }
  · rw [Heap.giveInode, given]
    show h.inodes.used - 1 = h.size + owed
    rw [balanced.inodes]
    omega
  · rw [Heap.giveInode, given]
    exact balanced.sound

/-- What a file counted is given back with its last reference. -/
theorem bytes_free (balanced : Balanced h extra owed) {id : Nat}
    (held : h.objects.get id = some object) :
    (h.free id object.body).bytes = { h.bytes with used := h.bytes.used - object.body.length } := by
  have counted := OrderedMap.weightAt_le_total lengthOf h.objects id
  rw [OrderedMap.weightAt_some held, ← balanced.bytes] at counted
  obtain ⟨strong, body⟩ := object
  cases body with
  | file content =>
    have enough : content.bytes.length ≤ h.bytes.used := counted
    show h.bytes.give content.bytes.length = _
    rw [Budget.give, if_pos enough]
    rfl
  | directory state => rfl
  | whiteout => rfl

/-- The last reference gone: what the object held is let go of, and its inode is owed. -/
theorem free {node : Node} (balanced : Balanced h (node :: extra) owed)
    (held : h.objects.get node.id = some object) (named : object.body.node node.id = node)
    (last : object.strong = 1) :
    Balanced (h.free node.id object.body) (object.body.nodes ++ extra) (owed + 1) where
  strong other := by
    have counted := balanced.strong other
    have names := OrderedMap.total_remove (naming other) h.objects node.id
    rw [OrderedMap.weightAt_some held, naming] at names
    rw [List.count_append]
    show (h.objects.remove node.id).weightAt (strongFor other) other.id =
      (h.objects.remove node.id).total (naming other) + h.holders.count other +
        (object.body.nodes.count other + extra.count other)
    by_cases place : other.id = node.id
    · rw [OrderedMap.weightAt, place, OrderedMap.get_remove_self]
      rw [place, OrderedMap.weightAt_some held, strongFor, named] at counted
      by_cases same : node = other
      · rw [if_pos same, last, same, List.count_cons_self] at counted
        dsimp only
        omega
      · rw [if_neg same, List.count_cons_of_ne same] at counted
        dsimp only
        omega
    · have apart : node ≠ other := fun same => place (by rw [same])
      rw [List.count_cons_of_ne apart] at counted
      rw [OrderedMap.weightAt, OrderedMap.get_remove_of_ne _ place]
      rw [OrderedMap.weightAt] at counted
      omega
  alive id other found := by
    change (h.objects.remove node.id).get id = some other at found
    by_cases place : id = node.id
    · rw [place, OrderedMap.get_remove_self] at found
      cases found
    · rw [OrderedMap.get_remove_of_ne _ place] at found
      exact balanced.alive id other found
  bytes := by
    have lengths := OrderedMap.total_remove lengthOf h.objects node.id
    rw [OrderedMap.weightAt_some held, lengthOf] at lengths
    rw [balanced.bytes_free held]
    show h.bytes.used - object.body.length = (h.objects.remove node.id).total lengthOf
    rw [balanced.bytes]
    omega
  inodes := by
    have sizes := OrderedMap.total_remove (fun _ _ => 1) h.objects node.id
    rw [OrderedMap.weightAt_some held] at sizes
    have counted := balanced.inodes
    rw [Heap.size] at counted
    show h.inodes.used = (h.objects.remove node.id).total (fun _ _ => 1) + (owed + 1)
    omega
  fresh id other found := by
    change (h.objects.remove node.id).get id = some other at found
    by_cases place : id = node.id
    · rw [place, OrderedMap.get_remove_self] at found
      cases found
    · rw [OrderedMap.get_remove_of_ne _ place] at found
      exact balanced.fresh id other found
  sound := by
    rw [balanced.bytes_free held]
    exact balanced.sound

end Balanced

/-! ## Letting go -/

/-- A Tmpfs after references were dropped: the same holders and limits, and no more used. -/
structure Less (h after : Heap) : Prop where
  holders : after.holders = h.holders
  bytesLimit : after.bytes.limit = h.bytes.limit
  inodesLimit : after.inodes.limit = h.inodes.limit
  bytes : after.bytes.used ≤ h.bytes.used
  inodes : after.inodes.used ≤ h.inodes.used

theorem Less.refl (h : Heap) : Less h h := ⟨rfl, rfl, rfl, Nat.le_refl _, Nat.le_refl _⟩

theorem Less.trans {first second third : Heap} (one : Less first second) (two : Less second third) :
    Less first third :=
  ⟨two.holders.trans one.holders, two.bytesLimit.trans one.bytesLimit,
    two.inodesLimit.trans one.inodesLimit, Nat.le_trans two.bytes one.bytes,
    Nat.le_trans two.inodes one.inodes⟩

namespace Balanced

variable {h : Heap} {extra : List Node} {owed : Nat}

theorem less_free (balanced : Balanced h extra owed) {id : Nat} {object : Object}
    (held : h.objects.get id = some object) : Less h (h.free id object.body) := by
  have given := balanced.bytes_free held
  refine ⟨rfl, ?_, rfl, ?_, Nat.le_refl _⟩
  · rw [given]
  · rw [given]
    exact Nat.sub_le _ _

theorem less_giveInode (balanced : Balanced h extra (owed + 1)) : Less h h.giveInode := by
  have enough : 1 ≤ h.inodes.used := by
    rw [balanced.inodes]
    omega
  have given : h.inodes.give 1 = { h.inodes with used := h.inodes.used - 1 } := by
    rw [Budget.give, if_pos enough]
  refine ⟨rfl, rfl, ?_, Nat.le_refl _, ?_⟩
  · rw [Heap.giveInode, given]
  · rw [Heap.giveInode, given]
    exact Nat.sub_le _ _

theorem less_release (h : Heap) (id : Nat) (object : Object) : Less h (h.release id object) :=
  ⟨rfl, rfl, rfl, Nat.le_refl _, Nat.le_refl _⟩

/-- A reference to a file or a whiteout dropped. -/
theorem dropLeaf {node : Node} (balanced : Balanced h (node :: extra) owed)
    (leaf : node.isDirectory = false) :
    Balanced (h.dropLeaf node) extra owed ∧ Less h (h.dropLeaf node) := by
  obtain ⟨object, held, named⟩ := balanced.object taken_self
  rw [Heap.dropLeaf, held]
  by_cases last : object.strong = 1
  · simp only [if_pos last]
    have nothing : object.body.nodes = [] := by
      cases is : object.body with
      | directory state =>
        rw [is] at named
        rw [← named] at leaf
        cases leaf
      | file content => rfl
      | whiteout => rfl
    have freed := balanced.free held named last
    rw [nothing, List.nil_append] at freed
    exact ⟨freed.giveInode, (balanced.less_free held).trans freed.less_giveInode⟩
  · simp only [if_neg last]
    exact ⟨balanced.release held named last, less_release h _ _⟩

/-- What a directory held taken out: its directories go to the loop, the rest is dropped. -/
theorem takeDirectories (nodes : List Node) (nested : List Nat)
    (balanced : Balanced h (nodes ++ (nested.map Node.directory ++ extra)) owed) :
    Balanced (Heap.takeDirectories nodes h nested).1
        ((Heap.takeDirectories nodes h nested).2.map Node.directory ++ extra) owed ∧
      Less h (Heap.takeDirectories nodes h nested).1 := by
  induction nodes generalizing h nested with
  | nil => exact ⟨balanced, .refl h⟩
  | cons node rest ih =>
    cases node with
    | directory id =>
      apply ih (id :: nested)
      apply balanced.congr
      intro other
      simp only [List.count_append, List.count_cons, List.map_cons]
      omega
    | file id | whiteout id =>
      obtain ⟨dropped, less⟩ := balanced.dropLeaf rfl
      obtain ⟨after, onward⟩ := ih nested dropped
      exact ⟨after, less.trans onward⟩

/-- The loop of `Drop for Dir` lets go of every directory it is handed and of all beneath it. -/
theorem dropNested (nested : List Nat)
    (balanced : Balanced h (nested.map Node.directory ++ extra) owed) :
    Balanced (h.dropNested nested) extra owed ∧ Less h (h.dropNested nested) := by
  fun_induction Heap.dropNested h nested with
  | case1 h => exact ⟨balanced, .refl h⟩
  | case2 h id nested state held taken ih =>
    have freed := balanced.free held rfl rfl
    obtain ⟨after, less⟩ := takeDirectories state.nodes nested freed
    obtain ⟨final, onward⟩ := ih after.giveInode
    exact ⟨final, ((balanced.less_free held).trans less).trans
      (after.less_giveInode.trans onward)⟩
  | case3 h id nested object notLast held ih =>
    obtain ⟨strong, state, found⟩ := balanced.directory taken_self
    have is : object = ⟨strong, .directory state⟩ := Option.some.inj (held.symm.trans found)
    have more : object.strong ≠ 1 := by
      intro last
      rw [is] at last
      exact notLast state (by rw [is, ← last])
    have named : object.body.node (Node.directory id).id = .directory id := by
      rw [is]
      rfl
    obtain ⟨final, onward⟩ := ih (balanced.release held named more)
    exact ⟨final, (less_release h id object).trans onward⟩
  | case4 h id nested absent ih =>
    obtain ⟨strong, state, found⟩ := balanced.directory taken_self
    rw [absent] at found
    cases found

/-- A reference to a directory dropped, with everything beneath it where it was the last. -/
theorem dropDirectory {id : Nat} (balanced : Balanced h (.directory id :: extra) owed) :
    Balanced (h.dropDirectory id) extra owed ∧ Less h (h.dropDirectory id) := by
  obtain ⟨strong, state, found⟩ := balanced.directory taken_self
  by_cases last : strong = 1
  · subst last
    have freed := balanced.free found rfl rfl
    obtain ⟨taken, less⟩ := takeDirectories state.nodes [] freed
    obtain ⟨looped, onward⟩ := dropNested _ taken
    rw [Heap.dropDirectory, found]
    exact ⟨looped.giveInode,
      ((balanced.less_free found).trans less).trans (onward.trans looped.less_giveInode)⟩
  · have left : h.dropDirectory id = h.release id ⟨strong, .directory state⟩ := by
      rw [Heap.dropDirectory, found]
      split
      · rename_i same
        cases same
        exact absurd rfl last
      · rename_i same
        cases same
        rfl
      · rename_i absent
        cases absent
    rw [left]
    exact ⟨balanced.release found rfl last, less_release h id _⟩

/-- A reference dropped. -/
theorem drop {node : Node} (balanced : Balanced h (node :: extra) owed) :
    Balanced (h.drop node) extra owed ∧ Less h (h.drop node) := by
  cases node with
  | directory id => exact balanced.dropDirectory
  | file id => exact balanced.dropLeaf rfl
  | whiteout id => exact balanced.dropLeaf rfl

/-- What came out of a directory dropped. -/
theorem dropOption {node : Option Node} (balanced : Balanced h (node.toList ++ extra) owed) :
    Balanced (h.dropOption node) extra owed ∧ Less h (h.dropOption node) := by
  cases node with
  | none => exact ⟨balanced, .refl h⟩
  | some node => exact balanced.drop

end Balanced

/-! ## Changing an object -/

/-- How often a directory's state names a reference. -/
theorem count_nodes (state : State Node) (node : Node) :
    state.nodes.count node =
      state.entries.total fun _ held => if held = node then 1 else 0 := by
  rw [State.nodes, OrderedMap.total]
  induction state.entries.bindings with
  | nil => rfl
  | cons binding rest ih =>
    rw [List.map_cons, List.map_cons, List.sum_cons, List.count_cons, ih, Nat.add_comm]
    by_cases same : binding.2 = node
    · simp only [same, beq_self_eq_true, if_true]
    · simp only [beq_iff_eq, if_neg same]

/-- How often what stands at a name is a reference. -/
theorem count_get (entries : OrderedMap String Node) (name : String) (node : Node) :
    (entries.get name).toList.count node =
      entries.weightAt (fun _ held => if held = node then 1 else 0) name := by
  rw [OrderedMap.weightAt]
  cases entries.get name with
  | none => rfl
  | some held =>
    show List.count node [held] = if held = node then 1 else 0
    rw [List.count_singleton]
    simp only [beq_iff_eq]

/-- Holding a reference at a name puts it in the place of what stood there. -/
theorem count_hold (state : State Node) (name : String) (node other : Node) :
    (state.hold Node.isDirectory name node).1.nodes.count other +
        (state.entries.get name).toList.count other =
      state.nodes.count other + [node].count other := by
  rw [count_nodes, count_nodes, count_get, State.hold_entries, OrderedMap.total_insert,
    List.count_singleton]
  simp only [beq_iff_eq]

/-- Taking a name away takes what stood there. -/
theorem count_take (state : State Node) (name : String) (other : Node) :
    (state.take Node.isDirectory name).nodes.count other +
        (state.entries.get name).toList.count other = state.nodes.count other := by
  rw [count_nodes, count_nodes, count_get, State.take_entries, OrderedMap.total_remove]

namespace Balanced

variable {h : Heap} {extra : List Node} {owed : Nat}

/-- Another body of the same kind, with the references and the bytes that account for it. -/
theorem setBody (balanced : Balanced h extra owed) (body : Body) (bytes : Budget) {id : Nat}
    {object : Object} (held : h.objects.get id = some object)
    (kind : body.node id = object.body.node id)
    (counted : bytes.used + object.body.length = h.bytes.used + body.length)
    (unwrapped : bytes.wrapped = false) {other : List Node}
    (nodes : ∀ node, body.nodes.count node + other.count node =
      object.body.nodes.count node + extra.count node) :
    Balanced ({ h with bytes := bytes }.setBody id body) other owed := by
  have set : { h with bytes := bytes }.setBody id body =
      { h with bytes := bytes }.setObject id { object with body := body } := by
    unfold Heap.setBody
    rw [show ({ h with bytes := bytes } : Heap).objects.get id = some object from held]
  have found : ∀ place other, ({ h with bytes := bytes }.setObject id
      { object with body := body }).objects.get place = some other →
      ∃ before, h.objects.get place = some before ∧ other.strong = before.strong := by
    intro place other got
    change (h.objects.insert id { object with body := body }).get place = some other at got
    by_cases same : place = id
    · subst same
      rw [OrderedMap.get_insert_self] at got
      cases got
      exact ⟨object, held, rfl⟩
    · rw [OrderedMap.get_insert_of_ne _ _ same] at got
      exact ⟨other, got, rfl⟩
  rw [set]
  refine ⟨?_, ?_, ?_, ?_, ?_, ⟨unwrapped, balanced.sound.2⟩⟩
  · intro node
    have counted := balanced.strong node
    have names := OrderedMap.total_insert (naming node) h.objects id { object with body := body }
    rw [OrderedMap.weightAt_some held, naming, naming] at names
    have moved := nodes node
    show (h.objects.insert id { object with body := body }).weightAt (strongFor node) node.id =
      (h.objects.insert id { object with body := body }).total (naming node) +
        h.holders.count node + other.count node
    have kept : (h.objects.insert id { object with body := body }).weightAt (strongFor node)
        node.id = h.objects.weightAt (strongFor node) node.id := by
      by_cases place : node.id = id
      · subst place
        rw [OrderedMap.weightAt_some held,
          OrderedMap.weightAt_some (OrderedMap.get_insert_self _ _ _), strongFor, strongFor, kind]
      · rw [OrderedMap.weightAt, OrderedMap.weightAt, OrderedMap.get_insert_of_ne _ _ place]
    rw [kept]
    dsimp only at names
    omega
  · intro place other got
    obtain ⟨before, stood, same⟩ := found place other got
    rw [same]
    exact balanced.alive place before stood
  · have lengths := OrderedMap.total_insert lengthOf h.objects id { object with body := body }
    rw [OrderedMap.weightAt_some held, lengthOf, lengthOf] at lengths
    show bytes.used = (h.objects.insert id { object with body := body }).total lengthOf
    have before := balanced.bytes
    dsimp only at lengths
    omega
  · rw [Heap.size_setObject (h := { h with bytes := bytes }) held]
    exact balanced.inodes
  · intro place other got
    obtain ⟨before, stood, -⟩ := found place other got
    exact balanced.fresh place before stood

/-- A directory's state changed, with the references that account for it. -/
theorem setState (balanced : Balanced h extra owed) {id strong : Nat} {state after : State Node}
    (held : h.objects.get id = some ⟨strong, .directory state⟩) {other : List Node}
    (nodes : ∀ node, after.nodes.count node + other.count node =
      state.nodes.count node + extra.count node) :
    Balanced (h.setBody id (.directory after)) other owed :=
  balanced.setBody (.directory after) h.bytes held rfl rfl balanced.sound.1 nodes

theorem less_setBody (h : Heap) (id : Nat) (body : Body) : Less h (h.setBody id body) := by
  rw [Heap.setBody]
  split
  · exact ⟨rfl, rfl, rfl, Nat.le_refl _, Nat.le_refl _⟩
  · exact .refl h

/-- `drop_name` changes no count. -/
theorem dropName (balanced : Balanced h extra owed) (node : Node) :
    Balanced (h.dropName node) extra owed ∧ Less h (h.dropName node) := by
  rw [Heap.dropName]
  split
  · rename_i strong content held
    have kept := balanced.setBody (.file { content with names := 0 }) h.bytes held rfl rfl
      balanced.sound.1 fun _ => rfl
    exact ⟨kept, less_setBody h _ _⟩
  · rename_i strong state held
    exact ⟨balanced.setState held fun _ => rfl, less_setBody h _ _⟩
  · exact ⟨balanced, .refl h⟩

variable {dir : Nat} {node : Node}

/-- A directory held outside is alive. -/
theorem stateOf (balanced : Balanced h extra owed) (held : .directory dir ∈ h.holders) :
    ∃ strong state, h.objects.get dir = some ⟨strong, .directory state⟩ ∧
      h.stateOf dir = some state := by
  obtain ⟨strong, state, found⟩ := balanced.directory (held_self held)
  refine ⟨strong, state, found, ?_⟩
  rw [Heap.stateOf, found]

section

variable (balanced : Balanced h (node :: extra) owed)

include balanced

/-- A reference put at a name of a directory alive, what stood there coming out. -/
theorem holdAt {dir strong : Nat} {state : State Node}
    (found : h.objects.get dir = some ⟨strong, .directory state⟩) (name : String) :
    Balanced (h.hold dir name node).1 ((h.hold dir name node).2.toList ++ extra) owed ∧
      Less h (h.hold dir name node).1 := by
  have has : h.stateOf dir = some state := by rw [Heap.stateOf, found]
  rw [Heap.hold, has]
  refine ⟨balanced.setState found ?_, less_setBody h _ _⟩
  intro other
  have moved := count_hold state name node other
  rw [List.count_append, List.count_cons, ← List.count_singleton]
  show _ + ((state.entries.get name).toList.count other + _) = _
  omega

/-- A reference put at a name of a directory held outside. -/
theorem hold (held : .directory dir ∈ h.holders) (name : String) :
    Balanced (h.hold dir name node).1 ((h.hold dir name node).2.toList ++ extra) owed ∧
      Less h (h.hold dir name node).1 := by
  obtain ⟨strong, state, found, -⟩ := balanced.stateOf held
  exact balanced.holdAt found name

/-- `State::insert`. -/
theorem insert (held : .directory dir ∈ h.holders) (name : String) :
    Balanced (h.insert dir name node) extra owed ∧ Less h (h.insert dir name node) := by
  obtain ⟨after, less⟩ := balanced.hold held name
  rw [Heap.insert]
  cases stood : h.hold dir name node with
  | mk next replaced =>
    rw [stood] at after less
    cases replaced with
    | none => exact ⟨after, less⟩
    | some replaced =>
      obtain ⟨unnamed, same⟩ := after.dropName replaced
      obtain ⟨dropped, onward⟩ := unnamed.drop
      exact ⟨dropped, less.trans (same.trans onward)⟩

/-- `State::exchange`. -/
theorem exchange (held : .directory dir ∈ h.holders) (name : String) :
    Balanced (h.exchange dir name node) extra owed ∧ Less h (h.exchange dir name node) := by
  obtain ⟨after, less⟩ := balanced.hold held name
  rw [Heap.exchange]
  cases stood : h.hold dir name node with
  | mk next replaced =>
    rw [stood] at after less
    obtain ⟨dropped, onward⟩ := after.dropOption
    exact ⟨dropped, less.trans onward⟩

omit balanced in
/-- `State::take`. -/
theorem take (balanced : Balanced h extra owed) (held : .directory dir ∈ h.holders)
    (name : String) : Balanced (h.take dir name) extra owed ∧ Less h (h.take dir name) := by
  obtain ⟨strong, state, found, has⟩ := balanced.stateOf held
  rw [Heap.take, has]
  have taken : Balanced (h.setBody dir (.directory (state.take Node.isDirectory name)))
      ((state.entries.get name).toList ++ extra) owed := by
    apply balanced.setState found
    intro other
    have moved := count_take state name other
    rw [List.count_append]
    omega
  obtain ⟨dropped, onward⟩ := taken.dropOption
  exact ⟨dropped, (less_setBody h _ _).trans onward⟩

omit balanced in
/-- `State::remove`. -/
theorem remove (balanced : Balanced h extra owed) (held : .directory dir ∈ h.holders)
    (name : String) : Balanced (h.remove dir name) extra owed ∧ Less h (h.remove dir name) := by
  rw [Heap.remove]
  split
  · rename_i removed _
    obtain ⟨unnamed, same⟩ := balanced.dropName removed
    obtain ⟨taken, onward⟩ := unnamed.take (same.holders ▸ held) name
    exact ⟨taken, same.trans onward⟩
  · exact balanced.take held name

/-- A reference held outside from now on, the call's own. -/
theorem toHolder :
    Balanced (h.held node) extra owed :=
  { balanced with
    strong := fun other => by
      have counted := balanced.strong other
      show h.objects.weightAt _ _ =
        h.objects.total (naming other) + (node :: h.holders).count other + extra.count other
      rw [List.count_cons] at counted ⊢
      omega }

end

/-- A holder lets go of its reference, for the call to drop. -/
theorem fromHolder (balanced : Balanced h extra owed) (held : node ∈ h.holders) :
    Balanced { h with holders := h.holders.erase node } (node :: extra) owed :=
  { balanced with
    strong := fun other => by
      have counted := balanced.strong other
      show h.objects.weightAt _ _ = h.objects.total (naming other) +
        (h.holders.erase node).count other + (node :: extra).count other
      have whole : h.holders.count other = (node :: h.holders.erase node).count other :=
        (List.perm_cons_erase held).count_eq other
      rw [List.count_cons] at whole ⊢
      omega }

/-- Nothing lies where the next object will. -/
theorem next_free (balanced : Balanced h extra owed) : h.objects.get h.next = none := by
  cases found : h.objects.get h.next with
  | none => rfl
  | some object => exact absurd (balanced.fresh _ object found) (Nat.lt_irrefl _)

/-- An object made and counted: the call has the reference to it. -/
theorem alloc (balanced : Balanced h extra owed) (body : Body) (bytes inodes : Budget)
    (empty : body.nodes = []) (bytesUsed : bytes.used = h.bytes.used + body.length)
    (inodesUsed : inodes.used = h.inodes.used + 1)
    (sound : bytes.wrapped = false ∧ inodes.wrapped = false) :
    Balanced ({ h with bytes := bytes, inodes := inodes }.alloc body).2
      (body.node h.next :: extra) owed := by
  have absent := balanced.next_free
  have total : ∀ weight : Nat → Object → Nat,
      (h.objects.insert h.next ⟨1, body⟩).total weight =
        h.objects.total weight + weight h.next ⟨1, body⟩ := by
    intro weight
    have sum := OrderedMap.total_insert weight h.objects h.next ⟨1, body⟩
    rw [OrderedMap.weightAt_none absent] at sum
    exact sum
  have found : ∀ place object, (h.objects.insert h.next ⟨1, body⟩).get place = some object →
      place = h.next ∧ object = ⟨1, body⟩ ∨ h.objects.get place = some object := by
    intro place object got
    by_cases same : place = h.next
    · rw [same, OrderedMap.get_insert_self] at got
      exact .inl ⟨same, (Option.some.inj got).symm⟩
    · rw [OrderedMap.get_insert_of_ne _ _ same] at got
      exact .inr got
  refine ⟨?_, ?_, ?_, ?_, ?_, sound⟩
  · intro node
    have counted := balanced.strong node
    have names := total (naming node)
    rw [naming, empty, List.count_nil] at names
    show (h.objects.insert h.next ⟨1, body⟩).weightAt (strongFor node) node.id =
      (h.objects.insert h.next ⟨1, body⟩).total (naming node) + h.holders.count node +
        (body.node h.next :: extra).count node
    rw [names, List.count_cons]
    by_cases place : node.id = h.next
    · rw [place, OrderedMap.weightAt_none absent] at counted
      rw [place, OrderedMap.weightAt_some (OrderedMap.get_insert_self _ _ _), strongFor]
      dsimp only
      by_cases same : body.node h.next = node
      · simp only [same, beq_self_eq_true, if_true]
        omega
      · simp only [if_neg same, beq_iff_eq]
        omega
    · have apart : ¬body.node h.next = node := fun same => place (by rw [← same, Body.node_id])
      rw [OrderedMap.weightAt, OrderedMap.get_insert_of_ne _ _ place, ← OrderedMap.weightAt]
      simp only [beq_iff_eq, if_neg apart]
      exact counted
  · intro place object got
    rcases found place object got with ⟨-, rfl⟩ | stood
    · exact Nat.one_pos
    · exact balanced.alive place object stood
  · show bytes.used = (h.objects.insert h.next ⟨1, body⟩).total lengthOf
    rw [total, bytesUsed, balanced.bytes]
    rfl
  · show inodes.used = (h.objects.insert h.next ⟨1, body⟩).total (fun _ _ => 1) + owed
    have before := balanced.inodes
    rw [Heap.size] at before
    rw [total, inodesUsed]
    omega
  · intro place object got
    show place < h.next + 1
    rcases found place object got with ⟨rfl, -⟩ | stood
    · exact Nat.lt_succ_self _
    · exact Nat.lt_succ_of_lt (balanced.fresh place object stood)

end Balanced

end Kobako.Tmpfs
