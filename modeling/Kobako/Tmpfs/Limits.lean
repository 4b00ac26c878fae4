import Kobako.Tmpfs.Balance

/-!
# No guest passes a Tmpfs's limits

Each call keeps the balance, takes no more of the space than its limits leave, and changes nothing
where it answers that the storage is full. So after seeding and any calls the counters say what the
objects alive count for, however their removals and the handles on them were interleaved.
-/

namespace Kobako.Tmpfs

open Vfs
open Overlay (RenameFlag)

/-! ## What a call may take -/

/-- A Tmpfs after a call: under the same limits, and where more is used than before, within them. -/
structure Within (h after : Heap) : Prop where
  bytesLimit : after.bytes.limit = h.bytes.limit
  inodesLimit : after.inodes.limit = h.inodes.limit
  bytes : after.bytes.used ≤ h.bytes.used ∨ after.bytes.used ≤ h.bytes.limit
  inodes : after.inodes.used ≤ h.inodes.used ∨ after.inodes.used ≤ h.inodes.limit

theorem Less.within {h after : Heap} (less : Less h after) : Within h after :=
  ⟨less.bytesLimit, less.inodesLimit, .inl less.bytes, .inl less.inodes⟩

/-- What is given back later takes nothing. -/
theorem Within.less {h after last : Heap} (within : Within h after) (less : Less after last) :
    Within h last := by
  obtain ⟨bytesLimit, inodesLimit, bytes, inodes⟩ := within
  refine ⟨less.bytesLimit.trans bytesLimit, less.inodesLimit.trans inodesLimit, ?_, ?_⟩
  · have shrunk := less.bytes
    omega
  · have shrunk := less.inodes
    omega

/-- How a call ends: balanced, within the limits, and as it was where the storage is full. -/
structure Settled (h : Heap) (result : Except FsError Unit × Heap) : Prop where
  balanced : Balanced result.2 [] 0
  within : Within h result.2
  refused : result.1 = .error .storageFull → result.2 = h

/-- A call that answered. -/
theorem Settled.answered {h after : Heap} (balanced : Balanced after [] 0)
    (within : Within h after) :
    Settled h (.ok (), after) := ⟨balanced, within, nofun⟩

/-- A call that changed nothing. -/
theorem Settled.unchanged {h : Heap} (balanced : Balanced h [] 0) (answer : Except FsError Unit) :
    Settled h (answer, h) := ⟨balanced, (Less.refl h).within, fun _ => rfl⟩

namespace Balanced

variable {h : Heap} {extra : List Node} {owed : Nat}

/-! ## What is made -/

/-- An object made is counted and the call's, or the storage is full. -/
theorem make (balanced : Balanced h extra owed) (body : Body) (empty : body.nodes = [])
    (weightless : body.length = 0) :
    h.make body = .error .storageFull ∨
      ∃ id after, h.make body = .ok (id, after) ∧ Balanced after (body.node id :: extra) owed ∧
        Within h after ∧ after.holders = h.holders ∧
        ∀ node, after.objects.total (naming node) = h.objects.total (naming node) := by
  by_cases room : h.inodes.used + 1 ≤ usizeMax ∧ h.inodes.used + 1 ≤ h.inodes.limit
  · have taken : h.inodes.take 1 = .ok { h.inodes with used := h.inodes.used + 1 } := by
      rw [Budget.take, if_pos room]
    refine .inr ⟨h.next,
      ({ h with inodes := { h.inodes with used := h.inodes.used + 1 } }.alloc body).2, ?_, ?_, ?_,
      rfl, ?_⟩
    · rw [Heap.make, taken]
      rfl
    · exact balanced.alloc body h.bytes _ empty (by rw [weightless, Nat.add_zero]) rfl balanced.sound
    · exact ⟨rfl, rfl, .inl (Nat.le_refl _), .inr room.2⟩
    · intro node
      have sum := OrderedMap.total_insert (naming node) h.objects h.next ⟨1, body⟩
      rw [OrderedMap.weightAt_none balanced.next_free, naming, empty] at sum
      exact sum
  · refine .inl ?_
    rw [Heap.make, Budget.take, if_neg room]

theorem less_clone (h : Heap) (node : Node) : Less h (h.clone node) := by
  rw [Heap.clone]
  split
  · exact ⟨rfl, rfl, rfl, Nat.le_refl _, Nat.le_refl _⟩
  · exact .refl h

/-- Taking a reference changes no name. -/
theorem total_clone (h : Heap) (node other : Node) :
    (h.clone node).objects.total (naming other) = h.objects.total (naming other) := by
  rw [Heap.clone]
  split
  · rename_i object held
    exact totals_setObject held (naming other) rfl
  · rfl

/-- `Tmpfs::make`, of a file or a directory. -/
theorem makeAt (balanced : Balanced h [] 0) {dir : Nat} (held : .directory dir ∈ h.holders)
    (name : String) (body : Body) (empty : body.nodes = []) (weightless : body.length = 0) :
    Settled h (h.makeAt dir name body) := by
  rw [Heap.makeAt]
  rcases balanced.make body empty weightless with full | ⟨id, after, made, counted, within, same, -⟩
  · rw [full]
    exact .unchanged balanced _
  · rw [made]
    have cloned := counted.clone taken_self
    have less := less_clone after (body.node id)
    have held' : .directory dir ∈ (after.clone (body.node id)).holders := by
      rw [less.holders, same]
      exact held
    obtain ⟨inserted, onward⟩ := cloned.insert held' name
    obtain ⟨-, bytesLimit, inodesLimit, bytes, inodes⟩ := less.trans onward
    have all := within.less (less.trans onward)
    exact .answered inserted.toHolder ⟨all.bytesLimit, all.inodesLimit, all.bytes, all.inodes⟩

/-- `Tmpfs::whiteout`. -/
theorem whiteout (balanced : Balanced h [] 0) {dir : Nat} (held : .directory dir ∈ h.holders)
    (name : String) : Settled h (h.whiteout dir name) := by
  rw [Heap.whiteout]
  rcases balanced.make .whiteout rfl rfl with full | ⟨id, after, made, counted, within, same, -⟩
  · rw [full]
    exact .unchanged balanced _
  · rw [made]
    obtain ⟨inserted, less⟩ := counted.insert (same ▸ held) name
    exact .answered inserted (within.less less)

/-- `Tmpfs::tmpfile`. -/
theorem tmpfile (balanced : Balanced h [] 0) : Settled h h.tmpfile := by
  rw [Heap.tmpfile]
  rcases balanced.make Heap.emptyFile rfl rfl with full | ⟨id, after, made, counted, within, -, -⟩
  · rw [full]
    exact .unchanged balanced _
  · rw [made]
    exact .answered counted.toHolder ⟨within.bytesLimit, within.inodesLimit, within.bytes,
      within.inodes⟩

/-! ## Names -/

variable {name : String} {content : Content} {id : Nat} {dir strong : Nat} {state : State Node}

/-- What stands at a name is referred to. -/
theorem standing_self {dir count taken : Nat} {node : Node}
    (stands : h.standing dir name = some node) :
    0 < h.objects.total (naming node) + count + taken := by
  rw [Heap.standing, Heap.stateOf] at stands
  cases found : h.objects.get dir with
  | none =>
    rw [found] at stands
    cases stands
  | some object =>
    obtain ⟨strong, body⟩ := object
    rw [found] at stands
    cases body with
    | file content => cases stands
    | whiteout => cases stands
    | directory state =>
      have bound : (name, node) ∈ state.entries.bindings := OrderedMap.get_eq_some.mp stands
      exact named_self found (List.mem_map.mpr ⟨(name, node), bound, rfl⟩)

/-- `Tmpfs::lookup`. -/
theorem lookup (balanced : Balanced h [] 0) (dir : Nat) (name : String) :
    Settled h (h.lookup dir name) := by
  have found : ∀ node, h.standing dir name = some node →
      Settled h (.ok (), (h.clone node).held node) := by
    intro node stands
    have within := (less_clone h node).within
    exact .answered (balanced.clone (standing_self stands)).toHolder
      ⟨within.bytesLimit, within.inodesLimit, within.bytes, within.inodes⟩
  rw [Heap.lookup]
  split
  · exact .unchanged balanced _
  · split
    · exact .unchanged balanced _
    · exact .unchanged balanced _
    · rename_i node _ stands
      exact found node stands

/-- `Tmpfs::rmdir`. -/
theorem rmdir (balanced : Balanced h [] 0) {dir : Nat} (held : .directory dir ∈ h.holders)
    (name : String) : Settled h (h.rmdir dir name) := by
  obtain ⟨removed, less⟩ := balanced.remove held name
  rw [Heap.rmdir]
  split
  · split
    · exact .unchanged balanced _
    · exact .answered removed less.within
  · exact .answered removed less.within

/-- Two names exchanged. -/
theorem renameExchange (balanced : Balanced h [] 0) {fromDir toDir : Nat}
    (heldFrom : .directory fromDir ∈ h.holders) (heldTo : .directory toDir ∈ h.holders)
    {source target : String} {moving replaced : Node}
    (stands : h.standing fromDir source = some moving)
    (standsTo : h.standing toDir target = some replaced) :
    Settled h (.ok (), (((h.clone moving).clone replaced).exchange fromDir source replaced).exchange
      toDir target moving) := by
  have first := balanced.clone (standing_self stands)
  have referred : 0 < (h.clone moving).objects.total (naming replaced) +
      (h.clone moving).holders.count replaced + [moving].count replaced := by
    rw [total_clone]
    exact standing_self standsTo
  have second := first.clone referred
  have less := (less_clone h moving).trans (less_clone (h.clone moving) replaced)
  obtain ⟨exchanged, onward⟩ := second.exchange (less.holders ▸ heldFrom) source
  have further := less.trans onward
  obtain ⟨done, last⟩ := exchanged.exchange (further.holders ▸ heldTo) target
  exact .answered done (further.trans last).within

/-- A reference taken to what stands somewhere, if anything does. -/
theorem cloneOption (balanced : Balanced h extra owed) {node : Option Node}
    (referred : ∀ some, node = Option.some some →
      0 < h.objects.total (naming some) + h.holders.count some + extra.count some) :
    Balanced (h.cloneOption node) (node.toList ++ extra) owed ∧ Less h (h.cloneOption node) := by
  cases node with
  | none => exact ⟨balanced, .refl h⟩
  | some node => exact ⟨balanced.clone (referred node rfl), less_clone h node⟩

/-- What a move leaves is made and the call's, or the storage is full. -/
theorem leaving (balanced : Balanced h [] 0) (flag : Option RenameFlag) :
    h.leaving flag = .error .storageFull ∨
      ∃ left after, h.leaving flag = .ok (left, after) ∧ Balanced after left.toList 0 ∧
        Within h after ∧ after.holders = h.holders ∧
        ∀ node, after.objects.total (naming node) = h.objects.total (naming node) := by
  unfold Heap.leaving
  split
  · rcases balanced.make .whiteout rfl rfl with full | ⟨id, after, made, counted, within, rest⟩
    · rw [full]
      exact .inl rfl
    · rw [made]
      exact .inr ⟨some (.whiteout id), after, rfl, counted, within, rest⟩
  · exact .inr ⟨none, h, rfl, balanced, (Less.refl h).within, rfl, fun _ => rfl⟩

/-- The source of a move given up, for what it leaves or for nothing. -/
theorem leave {left : Option Node} (balanced : Balanced h (left.toList ++ extra) owed) {dir : Nat}
    (held : .directory dir ∈ h.holders) (name : String) :
    Balanced (h.leave dir name left) extra owed ∧ Less h (h.leave dir name left) := by
  cases left with
  | none => exact balanced.take held name
  | some left => exact balanced.exchange held name

/-- `Tmpfs::rename_at`. -/
theorem renameAt (balanced : Balanced h [] 0) {fromDir toDir : Nat}
    (heldFrom : .directory fromDir ∈ h.holders) (heldTo : .directory toDir ∈ h.holders)
    (source target : String) (flag : Option RenameFlag) :
    Settled h (h.renameAt fromDir source toDir target flag) := by
  rw [Heap.renameAt]
  cases stands : h.standing fromDir source with
  | none => exact .unchanged balanced _
  | some moving =>
    dsimp only
    split
    · cases standsTo : h.standing toDir target with
      | none => exact .unchanged balanced _
      | some replaced => exact balanced.renameExchange heldFrom heldTo stands standsTo
    · split
      · exact .unchanged balanced _
      · rcases balanced.leaving flag with full | ⟨left, made, answered, counted, within, same, names⟩
        · rw [full]
          exact .unchanged balanced _
        · rw [answered]
          dsimp only
          -- the references the call takes are those to what moves and to what it replaces
          have first : Balanced (made.clone moving) (moving :: left.toList) 0 :=
            counted.clone (by rw [names]; exact standing_self stands)
          have referred : ∀ node, h.standing toDir target = some node →
              0 < (made.clone moving).objects.total (naming node) +
                (made.clone moving).holders.count node + (moving :: left.toList).count node := by
            intro node standsTo
            rw [total_clone, names]
            exact standing_self standsTo
          obtain ⟨second, onward⟩ := first.cloneOption referred
          have further := (less_clone made moving).trans onward
          have holders := further.holders.trans same
          have sorted : Balanced ((made.clone moving).cloneOption (h.standing toDir target))
              (left.toList ++ (moving :: (h.standing toDir target).toList)) 0 := by
            apply second.congr
            intro node
            simp only [List.count_append, List.count_cons]
            omega
          obtain ⟨taken, gone⟩ := sorted.leave (holders ▸ heldFrom) source
          have holdersTaken := gone.holders.trans holders
          obtain ⟨inserted, put⟩ := taken.insert (holdersTaken ▸ heldTo) target
          have last : Balanced ((((made.clone moving).cloneOption (h.standing toDir target)).leave
              fromDir source left).insert toDir target moving)
              ((h.standing toDir target).toList ++ []) 0 := by
            rw [List.append_nil]
            exact inserted
          obtain ⟨dropped, final⟩ := last.dropOption
          exact .answered dropped
            (within.less (further.trans (gone.trans (put.trans final))))

/-! ## Files -/

theorem length_resized (bytes : List UInt8) (length : Nat) :
    (Heap.resized bytes length).length = length := by
  rw [Heap.resized, List.length_append, List.length_take, List.length_replicate]
  omega

/-- A file's content and where it lies. -/
theorem contentOf_eq (has : h.contentOf id = some content) :
    ∃ strong, h.objects.get id = some ⟨strong, .file content⟩ := by
  unfold Heap.contentOf at has
  split at has
  · rename_i strong content held
    cases has
    exact ⟨strong, held⟩
  · cases has

/-- A file's content changed, with the bytes that account for it. -/
theorem setContent (balanced : Balanced h extra owed) {old : Content}
    (has : h.contentOf id = some old) (new : Content) (bytes : Budget)
    (limit : bytes.limit = h.bytes.limit)
    (counted : bytes.used + old.bytes.length = h.bytes.used + new.bytes.length)
    (unwrapped : bytes.wrapped = false)
    (bound : bytes.used ≤ h.bytes.used ∨ bytes.used ≤ h.bytes.limit) :
    Balanced ({ h with bytes := bytes }.setBody id (.file new)) extra owed ∧
      Within h ({ h with bytes := bytes }.setBody id (.file new)) ∧
      ({ h with bytes := bytes }.setBody id (.file new)).contentOf id = some new := by
  obtain ⟨strong, held⟩ := contentOf_eq has
  have set : { h with bytes := bytes }.setBody id (.file new) =
      { h with bytes := bytes }.setObject id ⟨strong, .file new⟩ := by
    unfold Heap.setBody
    simp only [held]
  refine ⟨balanced.setBody (.file new) bytes held rfl counted unwrapped fun _ => rfl, ?_, ?_⟩
  · rw [set]
    exact ⟨limit, rfl, bound, .inl (Nat.le_refl _)⟩
  · rw [set, Heap.contentOf, Heap.setObject, OrderedMap.get_insert_self]

/-- A file's bytes are among those used. -/
theorem length_le_used (balanced : Balanced h extra owed) (has : h.contentOf id = some content) :
    content.bytes.length ≤ h.bytes.used := by
  obtain ⟨strong, held⟩ := contentOf_eq has
  have part := OrderedMap.weightAt_le_total lengthOf h.objects id
  rw [OrderedMap.weightAt_some held, ← balanced.bytes] at part
  exact part

/-- `Content::resize`: the file's length is what was asked for, or the storage is full. -/
theorem resize (balanced : Balanced h extra owed) (has : h.contentOf id = some content)
    (length : Nat) (reserves : Bool) :
    h.resize id content length reserves = .error .storageFull ∨
      ∃ after, h.resize id content length reserves = .ok after ∧ Balanced after extra owed ∧
        Within h after ∧
        after.contentOf id = some { content with bytes := Heap.resized content.bytes length } := by
  have used := balanced.length_le_used has
  have size := length_resized content.bytes length
  rw [Heap.resize]
  by_cases grows : 0 < length - content.bytes.length
  · by_cases room : h.bytes.used + (length - content.bytes.length) ≤ usizeMax ∧
        h.bytes.used + (length - content.bytes.length) ≤ h.bytes.limit
    · have nothing : content.bytes.length - length = 0 := by omega
      cases reserves with
      | false =>
        simp only [if_pos grows, Budget.take, if_pos room]
        exact .inl rfl
      | true =>
        simp only [if_pos grows, Budget.take, if_pos room, if_true, nothing, Budget.give,
          Nat.zero_le, Nat.sub_zero]
        refine .inr ⟨_, rfl, balanced.setContent has _ _ rfl ?_ balanced.sound.1 (.inr room.2)⟩
        dsimp only
        omega
    · simp only [if_pos grows, Budget.take, if_neg room]
      exact .inl trivial
  · have enough : content.bytes.length - length ≤ h.bytes.used := by omega
    simp only [if_neg grows, Budget.give, if_pos enough]
    refine .inr ⟨_, rfl, balanced.setContent has _ _ rfl ?_ balanced.sound.1
      (.inl (Nat.sub_le _ _))⟩
    dsimp only
    omega

/-- A change to a file's content that answers or finds the storage full. -/
theorem changed (balanced : Balanced h [] 0) (id : Nat) {change : Content → Except FsError Heap}
    (each : ∀ content, h.contentOf id = some content →
      (∃ error, change content = .error error) ∨
        ∃ after, change content = .ok after ∧ Balanced after [] 0 ∧ Within h after) :
    Settled h (h.changed id change) := by
  rw [Heap.changed]
  cases has : h.contentOf id with
  | none => exact .unchanged balanced _
  | some content =>
    dsimp only
    rcases each content has with ⟨error, refused⟩ | ⟨after, answered, counted, within⟩
    · rw [refused]
      exact .unchanged balanced _
    · rw [answered]
      exact .answered counted within

theorem length_overwritten {bytes buf : List UInt8} {start : Nat}
    (inside : start + buf.length ≤ bytes.length) :
    (Heap.overwritten bytes start buf).length = bytes.length := by
  rw [Heap.overwritten, List.length_append, List.length_append, List.length_take, List.length_drop]
  omega

/-- The bytes of a file long enough put over. -/
theorem overwrite (balanced : Balanced h extra owed) (has : h.contentOf id = some content)
    {start : Nat} {buf : List UInt8} (inside : start + buf.length ≤ content.bytes.length) :
    Balanced (h.setBody id (.file { content with
        bytes := Heap.overwritten content.bytes start buf })) extra owed ∧
      Less h (h.setBody id (.file { content with
        bytes := Heap.overwritten content.bytes start buf })) := by
  have length := length_overwritten inside
  obtain ⟨counted, -, -⟩ := balanced.setContent has
    { content with bytes := Heap.overwritten content.bytes start buf } h.bytes rfl
    (by dsimp only; omega) balanced.sound.1 (.inl (Nat.le_refl _))
  exact ⟨counted, less_setBody h id _⟩

/-- `write`. -/
theorem write (balanced : Balanced h [] 0) (has : h.contentOf id = some content)
    (start : Option Nat) (buf : List UInt8) (reserves : Bool) :
    (∃ error, h.write id content start buf reserves = .error error) ∨
      ∃ after, h.write id content start buf reserves = .ok after ∧ Balanced after [] 0 ∧
        Within h after := by
  rw [Heap.write]
  generalize start.getD content.bytes.length = start
  dsimp only
  split
  · exact .inr ⟨h, rfl, balanced, (Less.refl h).within⟩
  · split
    · exact .inl ⟨_, rfl⟩
    · by_cases grows : content.bytes.length < start + buf.length
      · rw [if_pos grows]
        rcases balanced.resize has (start + buf.length) reserves with
          full | ⟨grown, answered, counted, within, stands⟩
        · rw [full]
          exact .inl ⟨_, rfl⟩
        · rw [answered]
          dsimp only
          rw [stands]
          have inside : start + buf.length ≤
              (Heap.resized content.bytes (start + buf.length)).length := by
            rw [length_resized]
          obtain ⟨done, less⟩ := counted.overwrite stands inside
          exact .inr ⟨_, rfl, done, within.less less⟩
      · rw [if_neg grows]
        dsimp only
        rw [has]
        obtain ⟨done, less⟩ := balanced.overwrite has (Nat.not_lt.mp grows)
        exact .inr ⟨_, rfl, done, less.within⟩

/-- `TmpfsFile::fallocate`. -/
theorem fallocate (balanced : Balanced h [] 0) (has : h.contentOf id = some content)
    (offset length : Nat) (reserves : Bool) :
    (∃ error, h.fallocate id content offset length reserves = .error error) ∨
      ∃ after, h.fallocate id content offset length reserves = .ok after ∧ Balanced after [] 0 ∧
        Within h after := by
  rw [Heap.fallocate]
  split
  · exact .inl ⟨_, rfl⟩
  · split
    · rcases balanced.resize has (offset + length) reserves with
        full | ⟨grown, answered, counted, within, -⟩
      · exact .inl ⟨_, full⟩
      · exact .inr ⟨grown, answered, counted, within⟩
    · exact .inr ⟨h, rfl, balanced, (Less.refl h).within⟩

/-! ## Calls and runs -/

/-- Every call with what it needs held settles. -/
theorem perform (balanced : Balanced h [] 0) (op : Op)
    (held : ∀ node ∈ op.needs, node ∈ h.holders) :
    Settled h (h.perform op) := by
  cases op with
  | lookup dir name => exact balanced.lookup dir name
  | opened node =>
    have referred := held node List.mem_cons_self
    have within := (less_clone h node).within
    exact .answered (balanced.clone (held_self referred)).toHolder
      ⟨within.bytesLimit, within.inodesLimit, within.bytes, within.inodes⟩
  | closed node =>
    obtain ⟨dropped, less⟩ := (balanced.fromHolder (held node List.mem_cons_self)).drop
    exact .answered dropped
      ⟨less.bytesLimit, less.inodesLimit, .inl less.bytes, .inl less.inodes⟩
  | create dir name => exact balanced.makeAt (held _ List.mem_cons_self) name _ rfl rfl
  | mkdir dir name => exact balanced.makeAt (held _ List.mem_cons_self) name _ rfl rfl
  | unlink dir name =>
    obtain ⟨removed, less⟩ := balanced.remove (held _ List.mem_cons_self) name
    exact .answered removed less.within
  | rmdir dir name => exact balanced.rmdir (held _ List.mem_cons_self) name
  | whiteout dir name => exact balanced.whiteout (held _ List.mem_cons_self) name
  | rename fromDir source toDir target flag =>
    exact balanced.renameAt (held _ List.mem_cons_self)
      (held _ (List.mem_cons_of_mem _ List.mem_cons_self)) source target flag
  | tmpfile dir => exact balanced.tmpfile
  | link file dir name =>
    have cloned := balanced.clone (held_self (held _ List.mem_cons_self))
    have less := less_clone h (.file file)
    have heldDir := held _ (List.mem_cons_of_mem _ List.mem_cons_self)
    obtain ⟨inserted, onward⟩ := cloned.insert (less.holders ▸ heldDir) name
    exact .answered inserted (less.trans onward).within
  | write file start buf reserves =>
    exact balanced.changed file fun content has => balanced.write has start buf reserves
  | truncate file length reserves =>
    apply balanced.changed file
    intro content has
    rcases balanced.resize has length reserves with full | ⟨after, answered, counted, within, -⟩
    · exact .inl ⟨_, full⟩
    · exact .inr ⟨after, answered, counted, within⟩
  | fallocate file offset length reserves =>
    exact balanced.changed file fun content has => balanced.fallocate has offset length reserves

/-! ## Seeding -/

/-- Holding something at a free name changes only the directory's entries. -/
theorem hold_free {node : Node} (found : h.objects.get dir = some ⟨strong, .directory state⟩)
    (free : state.entries.get name = none) :
    h.hold dir name node = (h.setObject dir
      ⟨strong, .directory (state.hold Node.isDirectory name node).1⟩, none) := by
  have has : h.stateOf dir = some state := by rw [Heap.stateOf, found]
  rw [Heap.hold, has]
  cases put : state.hold Node.isDirectory name node with
  | mk after replaced =>
    have stood : state.entries.get name = replaced := congrArg Prod.snd put
    rw [free] at stood
    dsimp only
    rw [put, ← stood, Heap.setBody, found]

/-- An object seeded at a free name of a directory alive, and where it lies. -/
theorem seedAt (balanced : Balanced h [] 0)
    (found : h.objects.get dir = some ⟨strong, .directory state⟩)
    (free : h.standing dir name = none) (body : Body) (empty : body.nodes = []) :
    Balanced (h.seedAt dir name body).2 [] 0 ∧
      (h.seedAt dir name body).2.holders = h.holders ∧
      (h.seedAt dir name body).2.objects.get (h.seedAt dir name body).1 = some ⟨1, body⟩ := by
  have made : Balanced ((h.counted body.length).alloc body).2 [body.node h.next] 0 :=
    balanced.alloc body (h.bytes.add body.length) (h.inodes.add 1) empty rfl rfl balanced.sound
  have apart : dir ≠ h.next := Nat.ne_of_lt (balanced.fresh dir _ found)
  have alive : ((h.counted body.length).alloc body).2.objects.get dir =
      some ⟨strong, .directory state⟩ := by
    show (h.objects.insert h.next ⟨1, body⟩).get dir = _
    rw [OrderedMap.get_insert_of_ne _ _ apart]
    exact found
  have nothing : state.entries.get name = none := by
    rw [Heap.standing, Heap.stateOf, found] at free
    exact free
  obtain ⟨after, less⟩ := made.holdAt alive name
  have seeded : h.seedAt dir name body =
      (h.next, (((h.counted body.length).alloc body).2.hold dir name (body.node h.next)).1) := rfl
  rw [hold_free alive nothing] at after less seeded
  rw [seeded]
  refine ⟨after, less.holders, ?_⟩
  show ((h.objects.insert h.next ⟨1, body⟩).insert dir _).get h.next = _
  rw [OrderedMap.get_insert_of_ne _ _ (Ne.symm apart), OrderedMap.get_insert_self]

/-- Objects seeded one after another, each at a free name of a directory alive. -/
inductive Sown (start : Heap) : Heap → Prop
  | none : Sown start start
  | one {h : Heap} {dir strong : Nat} {state : State Node} {name : String} {body : Body}
      (sown : Sown start h) (found : h.objects.get dir = some ⟨strong, .directory state⟩)
      (free : h.standing dir name = none)
      (blank : body = .directory .new ∨ ∃ contents, body = .file ⟨contents, 1⟩) :
      Sown start (h.seedAt dir name body).2

variable {start : Heap}

/-- They are counted, and the holders stay. -/
theorem Sown.counted (sown : Sown start h) (balanced : Balanced start [] 0) :
    Balanced h [] 0 ∧ h.holders = start.holders := by
  induction sown with
  | none => exact ⟨balanced, rfl⟩
  | @one h dir strong state name body sown found free blank ih =>
    have empty : body.nodes = [] := by
      obtain rfl | ⟨contents, rfl⟩ := blank
      · rfl
      · rfl
    obtain ⟨counted, holders, -⟩ := ih.1.seedAt found free body empty
    exact ⟨counted, holders.trans ih.2⟩

/-- A file is seeded so, beneath a directory alive. -/
theorem Sown.seedFile (sown : Sown start h) (balanced : Balanced start [] 0)
    (found : h.objects.get dir = some ⟨strong, .directory state⟩) (above names : List String)
    (contents : List UInt8) {after : Heap}
    (seeded : h.seedFile dir above names contents = .ok after) : Sown start after := by
  induction names generalizing h dir strong state above with
  | nil => cases seeded
  | cons name rest ih =>
    have counted := (sown.counted balanced).1
    cases rest with
    | nil =>
      rw [Heap.seedFile] at seeded
      split at seeded
      · cases seeded
      · cases seeded
      · rename_i free
        cases seeded
        exact sown.one found free (.inr ⟨contents, rfl⟩)
    | cons next more =>
      rw [Heap.seedFile] at seeded
      split at seeded
      · rename_i inner stands
        obtain ⟨_, _, lies⟩ := counted.directory (standing_self stands)
        exact ih sown lies (above ++ [name]) seeded
      · cases seeded
      · rename_i free
        obtain ⟨-, -, lies⟩ := counted.seedAt found free (.directory .new) rfl
        exact ih (sown.one found free (.inl rfl)) lies (above ++ [name]) seeded

/-- A list of files is seeded so. -/
theorem Sown.seed (sown : Sown start h) (balanced : Balanced start [] 0)
    (root : .directory 0 ∈ start.holders) (files : List (String × List UInt8)) {after : Heap}
    (seeded : h.seed files = .ok after) : Sown start after := by
  induction files generalizing h with
  | nil =>
    cases seeded
    exact sown
  | cons file files ih =>
    obtain ⟨path, contents⟩ := file
    rw [Heap.seed] at seeded
    split at seeded
    · cases seeded
    · split at seeded
      · cases seeded
      · split at seeded
        · rename_i next one
          obtain ⟨counted, holders⟩ := sown.counted balanced
          obtain ⟨strong, state, found, -⟩ := counted.stateOf (holders ▸ root)
          exact ih (sown.seedFile balanced found _ _ _ one) seeded
        · cases seeded

/-- Setting limits changes no count. -/
theorem configure (balanced : Balanced h [] 0) (follow : Bool) (settings : List Heap.Setting) :
    Balanced (h.configure follow settings) [] 0 := by
  induction settings generalizing h follow with
  | nil => exact balanced
  | cons setting settings ih =>
    cases setting with
    | withSize size =>
      apply ih
      refine ⟨balanced.strong, balanced.alive, balanced.bytes, ?_, balanced.fresh, ?_⟩
      · cases follow <;> exact balanced.inodes
      · cases follow <;> exact balanced.sound
    | withNrInodes nrInodes =>
      apply ih
      exact { balanced with }

end Balanced

/-- Nothing but the root lies in a new Tmpfs. -/
theorem new_only {id : Nat} {object : Object} (found : Heap.new.objects.get id = some object) :
    id = 0 ∧ object = ⟨1, .directory .new⟩ := by
  by_cases same : id = 0
  · subst same
    exact ⟨rfl, (Option.some.inj found).symm⟩
  · have absent := OrderedMap.get_insert_of_ne (OrderedMap.empty : OrderedMap Nat Object)
      (⟨1, .directory .new⟩ : Object) same
    rw [show Heap.new.objects.get id = _ from absent] at found
    cases found

/-- A Tmpfs with nothing but its root. -/
theorem new_balanced : Balanced Heap.new [] 0 := by
  refine ⟨?_, ?_, rfl, rfl, ?_, ⟨rfl, rfl⟩⟩
  · intro node
    by_cases root : node = .directory 0
    · rw [root]
      rfl
    · have unheld : Heap.new.holders.count node = 0 :=
        List.count_eq_zero.mpr fun held => root (List.mem_singleton.mp held)
      have unnamed : Heap.new.objects.total (naming node) = 0 := rfl
      rw [unheld, unnamed, OrderedMap.weightAt]
      cases found : Heap.new.objects.get node.id with
      | none => rfl
      | some object =>
        obtain ⟨place, rfl⟩ := new_only found
        rw [place]
        exact if_neg (Ne.symm root)
  · intro id object found
    obtain ⟨-, rfl⟩ := new_only found
    exact Nat.one_pos
  · intro id object found
    obtain ⟨rfl, -⟩ := new_only found
    exact Nat.one_pos

/-- What a Host App seeds is sown from a Tmpfs with nothing but its root. -/
theorem tryFromIter_sown {files : List (String × List UInt8)} {seeded : Heap}
    (accepted : Heap.tryFromIter files = .ok seeded) : Balanced.Sown Heap.new seeded :=
  Balanced.Sown.none.seed new_balanced List.mem_cons_self files accepted

theorem tryFromIter_balanced {files : List (String × List UInt8)} {seeded : Heap}
    (accepted : Heap.tryFromIter files = .ok seeded) : Balanced seeded [] 0 :=
  ((tryFromIter_sown accepted).counted new_balanced).1

/-- What a Tmpfs counts: the bytes of the files alive and an inode for each object alive, the root
among them, each object named by a directory alive or held outside, and no count ever below zero. -/
structure Counted (h : Heap) : Prop where
  bytes : h.bytes.used = h.objects.total lengthOf
  inodes : h.inodes.used = h.objects.bindings.length
  alive : ∀ id object, h.objects.get id = some object →
    (∃ dir strong state, h.objects.get dir = some ⟨strong, .directory state⟩ ∧
      object.body.node id ∈ state.nodes) ∨ object.body.node id ∈ h.holders
  unwrapped : h.bytes.wrapped = false ∧ h.inodes.wrapped = false

/-- A weight summed to something weighs something. -/
theorem exists_of_total_pos {weight : Nat → Object → Nat} {objects : OrderedMap Nat Object}
    (positive : 0 < objects.total weight) :
    ∃ id object, objects.get id = some object ∧ 0 < weight id object := by
  by_contra none
  push Not at none
  have zero : objects.total weight = 0 := by
    apply List.sum_eq_zero
    intro value member
    obtain ⟨binding, held, rfl⟩ := List.mem_map.mp member
    exact Nat.le_zero.mp (none binding.1 binding.2 (OrderedMap.get_eq_some.mpr held))
  omega

/-- What is balanced is counted. -/
theorem Balanced.counted {h : Heap} (balanced : Balanced h [] 0) : Counted h where
  bytes := balanced.bytes
  inodes := by
    rw [balanced.inodes, Heap.size, OrderedMap.total, List.map_const', List.sum_replicate]
    simp
  alive id object found := by
    have counted := balanced.strong (object.body.node id)
    rw [Body.node_id, OrderedMap.weightAt_some found, strongFor, if_pos rfl, List.count_nil] at counted
    have positive := balanced.alive id object found
    by_cases held : object.body.node id ∈ h.holders
    · exact .inr held
    · rw [List.count_eq_zero.mpr held] at counted
      obtain ⟨dir, ⟨strong, body⟩, lies, names⟩ := exists_of_total_pos
        (show 0 < h.objects.total (naming (object.body.node id)) by omega)
      have named : object.body.node id ∈ body.nodes := List.count_pos_iff.mp names
      cases body with
      | file content => cases named
      | whiteout => cases named
      | directory state => exact .inl ⟨dir, strong, state, lies, named⟩
  unwrapped := balanced.sound

/-- From any files seeded and any limits, through any calls: the counters say what is alive, no call
takes them past a limit, and a call that finds the storage full changes nothing. -/
theorem limits_never_passed (files : List (String × List UInt8)) (seeded : Heap)
    (accepted : Heap.tryFromIter files = .ok seeded) (settings : List Heap.Setting) (ops : List Op)
    (h : Heap) (ran : run Heap.step (seeded.configure true settings) ops = some h) :
    Counted h ∧ ∀ op after, h.step op = some after → Counted after ∧ Within h after ∧
      ((h.perform op).1 = .error .storageFull → after = h) := by
  have start : Balanced (seeded.configure true settings) [] 0 :=
    (tryFromIter_balanced accepted).configure true settings
  have each : ∀ (state : Heap) (op : Op) (next : Heap), Balanced state [] 0 →
      state.step op = some next → Settled state (state.perform op) ∧ next = (state.perform op).2 := by
    intro state op next balanced taken
    rw [Heap.step] at taken
    split at taken
    · rename_i held
      exact ⟨balanced.perform op held, (Option.some.inj taken).symm⟩
    · cases taken
  have kept : ∀ (state : Heap) (op : Op) (next : Heap), Balanced state [] 0 →
      state.step op = some next → Balanced next [] 0 := by
    intro state op next balanced taken
    obtain ⟨settled, rfl⟩ := each state op next balanced taken
    exact settled.balanced
  have reached := run_preserves Heap.step kept ops _ h start ran
  refine ⟨reached.counted, ?_⟩
  intro op after taken
  obtain ⟨settled, rfl⟩ := each h op after reached taken
  exact ⟨settled.balanced.counted, settled.within, settled.refused⟩

/-- A file written to after its name is gone, of a Tmpfs of four bytes seeded with two of them. -/
def heldOn : List Op :=
  [.lookup 0 "a", .write 1 none [3] true, .unlink 0 "a"]

/-- The removed file still counts its three bytes and its inode beside the root's; two more bytes
are refused and change nothing. -/
theorem limits_never_passed_held_on :
    ∃ seeded h, Heap.tryFromIter [("a", [1, 2])] = .ok seeded ∧
      run Heap.step (seeded.configure true [.withSize (some 4)]) heldOn = some h ∧
      h.bytes.used = 3 ∧ h.inodes.used = 2 ∧ Counted h ∧
      h.step (.write 1 none [4, 5] true) = some h := by
  obtain ⟨counted, each⟩ :=
    limits_never_passed [("a", [1, 2])] _ rfl [.withSize (some 4)] heldOn _ rfl
  obtain ⟨-, -, unchanged⟩ := each (.write 1 none [4, 5] true) _ rfl
  exact ⟨_, _, rfl, rfl, by rfl, by rfl, counted, congrArg some (unchanged rfl)⟩

end Kobako.Tmpfs
