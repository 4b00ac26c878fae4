import Kobako.Tmpfs.Changes

/-!
# What every object of a Tmpfs keeps

A call makes nothing but empty objects, each where nothing lay, and changes a directory one name at
a time. So whatever calls are made, a directory's positions are those of its entries and its count
of directories is the number of directories among them.
-/

namespace Kobako.Tmpfs

/-! ## Changes to one directory -/

/-- A directory's state after a change. -/
def Change.on : Change → State Node → State Node
  | .hold name node, state => (state.hold Node.isDirectory name node).1
  | .take name, state => state.take Node.isDirectory name
  | .unname, state => { state with removed := true }
  | _, state => state

/-- What is alive is not made again. -/
def Change.Remakes : Change → Prop
  | .make _ => True
  | _ => False

/-- A directory stays one through changes that do not make another in its place. -/
theorem landed_directory {changes : List Change} (kept : ∀ change ∈ changes, ¬ change.Remakes)
    (state : State Node) :
    landed (some (.directory state)) changes =
      some (.directory (changes.foldl (fun state change => change.on state) state)) := by
  induction changes generalizing state with
  | nil => rfl
  | cons change rest ih =>
    have onward := ih fun other member => kept other (List.mem_cons_of_mem _ member)
    cases change with
    | make body => exact absurd trivial (kept _ List.mem_cons_self)
    | hold name node => exact onward _
    | take name => exact onward _
    | unname => exact onward _
    | fill bytes => exact onward _

/-! ## What calls make -/

/-- What a call makes: an empty file, an empty directory or a whiteout. -/
def Body.Blank (body : Body) : Prop :=
  body = Heap.emptyFile ∨ body = .directory .new ∨ body = .whiteout

/-- What a call makes is blank and lies where nothing did. -/
def Fresh (next : Nat) (changes : List (Nat × Change)) : Prop :=
  ∀ change ∈ changes, ∀ body, change.2 = .make body → change.1 = next ∧ body.Blank

namespace Fresh

variable {next : Nat}

theorem nil : Fresh next [] := nofun

/-- A change that makes nothing. -/
theorem cons_of_kept {id : Nat} {change : Change} (kept : ¬ change.Remakes)
    {rest : List (Nat × Change)} (fresh : Fresh next rest) : Fresh next ((id, change) :: rest) := by
  intro other member body makes
  cases List.mem_cons.mp member with
  | inl same =>
    rw [same] at makes
    dsimp only at makes
    rw [makes] at kept
    exact absurd trivial kept
  | inr later => exact fresh other later body makes

/-- An object made. -/
theorem cons_make {body : Body} (blank : body.Blank) {rest : List (Nat × Change)}
    (fresh : Fresh next rest) : Fresh next ((next, .make body) :: rest) := by
  intro other member made makes
  cases List.mem_cons.mp member with
  | inl same =>
    rw [same] at makes ⊢
    cases makes
    exact ⟨rfl, blank⟩
  | inr later => exact fresh other later made makes

theorem append {first second : List (Nat × Change)} (one : Fresh next first)
    (two : Fresh next second) : Fresh next (first ++ second) := by
  intro change member
  cases List.mem_append.mp member with
  | inl early => exact one change early
  | inr late => exact two change late

theorem unnaming (node : Option Node) : Fresh next (unnaming node) := by
  cases node with
  | none => exact nil
  | some node => exact cons_of_kept (by exact id) nil

theorem inserting (h : Heap) (dir : Nat) (name : String) (node : Node) :
    Fresh next (inserting h dir name node) :=
  cons_of_kept (by exact id) (unnaming _)

theorem removing (h : Heap) (dir : Nat) (name : String) : Fresh next (removing h dir name) :=
  (unnaming _).append (cons_of_kept (by exact id) nil)

theorem making (h : Heap) (dir : Nat) (name : String) {body : Body} (blank : body.Blank) :
    Fresh h.next (making h dir name body) := by
  unfold Tmpfs.making
  split
  · exact cons_make blank (inserting _ _ _ _)
  · exact nil

theorem leavingAt (dir : Nat) (name : String) (left : Option Node) :
    Fresh next (leavingAt dir name left) := by
  cases left <;> exact cons_of_kept (by exact id) nil

theorem leftBehind (h : Heap) (flag : Option Overlay.RenameFlag) :
    Fresh h.next (leftBehind h flag) := by
  unfold Tmpfs.leftBehind
  split
  · exact cons_make (.inr (.inr rfl)) nil
  · exact nil

theorem moving (h : Heap) (fromDir : Nat) (source : String) (toDir : Nat) (target : String)
    (flag : Option Overlay.RenameFlag) :
    Fresh h.next (moving h fromDir source toDir target flag) := by
  unfold Tmpfs.moving
  split
  · exact nil
  · split
    · split
      · exact nil
      · exact cons_of_kept (by exact id) (cons_of_kept (by exact id) nil)
    · split
      · exact nil
      · split
        · exact nil
        · exact (leftBehind h flag).append ((leavingAt _ _ _).append (inserting _ _ _ _))

/-- A call makes nothing but blank objects, each where nothing lay. -/
theorem changes (h : Heap) (op : Op) : Fresh h.next (op.changes h) := by
  cases op with
  | lookup dir name => exact nil
  | opened node => exact nil
  | closed node => exact nil
  | create dir name => exact making h dir name (.inl rfl)
  | mkdir dir name => exact making h dir name (.inr (.inl rfl))
  | unlink dir name => exact removing h dir name
  | rmdir dir name =>
    unfold Op.changes
    dsimp only
    split
    · exact nil
    · exact removing h dir name
  | whiteout dir name =>
    unfold Op.changes
    dsimp only
    split
    · exact cons_make (.inr (.inr rfl)) (inserting _ _ _ _)
    · exact nil
  | rename fromDir source toDir target flag => exact moving h fromDir source toDir target flag
  | tmpfile dir =>
    unfold Op.changes
    dsimp only
    split
    · exact cons_make (.inl rfl) nil
    · exact nil
  | link file dir name => exact inserting _ dir name _
  | write file start buf reserves | truncate file length reserves
  | fallocate file offset length reserves =>
    unfold Op.changes
    dsimp only
    split
    · exact cons_of_kept (by exact id) nil
    · exact nil

/-- Nothing is made again in a place that is taken. -/
theorem kept {changes : List (Nat × Change)} (fresh : Fresh next changes) {id : Nat}
    (taken : id ≠ next) : ∀ change ∈ changesTo id changes, ¬ change.Remakes := by
  intro change member remakes
  obtain ⟨⟨place, other⟩, filtered, same⟩ := List.mem_map.mp member
  obtain ⟨among, here⟩ := List.mem_filter.mp filtered
  have at_id : place = id := of_decide_eq_true here
  dsimp only at same
  subst same
  cases other with
  | make body => exact taken (at_id ▸ (fresh _ among body rfl).1)
  | hold name node => exact remakes
  | take name => exact remakes
  | unname => exact remakes
  | fill bytes => exact remakes

end Fresh

/-- A directory that stays alive through a call changes as the call's changes to it say. -/
theorem perform_stateOf {h : Heap} (balanced : Balanced h [] 0) (op : Op) {dir : Nat}
    {state after : State Node} (has : h.stateOf dir = some state)
    (left : (h.perform op).2.stateOf dir = some after) :
    after = (changesTo dir (op.changes h)).foldl (fun state change => change.on state) state := by
  have lies := Heap.bodyOf_of_stateOf has
  have alive : dir ≠ h.next := by
    obtain ⟨object, found, -⟩ := Option.map_eq_some_iff.mp lies
    exact Nat.ne_of_lt (balanced.fresh dir object found)
  have lands := Changed.perform h op dir _ (Heap.bodyOf_of_stateOf left)
  rw [lies, landed_directory ((Fresh.changes h op).kept alive)] at lands
  cases lands
  rfl

/-! ## What every directory keeps -/

/-- A directory's positions, and its count of directories, are those of its entries. -/
def Body.Sound : Body → Prop
  | .directory state => state.Indexed ∧ state.subdirectories =
      state.entries.total fun _ node => State.directories Node.isDirectory (some node)
  | _ => True

/-- Blank objects are sound. -/
theorem Body.Blank.sound {body : Body} (blank : body.Blank) : body.Sound := by
  obtain rfl | rfl | rfl := blank
  · trivial
  · exact ⟨State.new_indexed, rfl⟩
  · trivial

/-- A directory is sound where its books are kept. -/
theorem Body.sound_directory {state : State Node} :
    (Body.directory state).Sound ↔ state.Bookkept Node.isDirectory := by
  constructor
  · intro sound
    refine ⟨sound.1, ?_⟩
    rw [State.length_directoryEntries]
    exact sound.2
  · intro kept
    refine ⟨kept.indexed, ?_⟩
    rw [← State.length_directoryEntries]
    exact kept.counted

/-- What holds something at a name stays sound. -/
theorem Body.Sound.hold {state : State Node} (sound : (Body.directory state).Sound) (name : String)
    (node : Node) : (Body.directory (state.hold Node.isDirectory name node).1).Sound :=
  Body.sound_directory.mpr ((Body.sound_directory.mp sound).hold name node)

/-- What gives a name up stays sound. -/
theorem Body.Sound.take {state : State Node} (sound : (Body.directory state).Sound)
    (name : String) : (Body.directory (state.take Node.isDirectory name)).Sound :=
  Body.sound_directory.mpr ((Body.sound_directory.mp sound).take name)

/-- Each change keeps an object sound. -/
theorem Change.apply_sound {change : Change} (made : ∀ body, change = .make body → body.Sound)
    {lies : Option Body} (sound : ∀ body, lies = some body → body.Sound) :
    ∀ body, change.apply lies = some body → body.Sound := by
  cases change with
  | make other =>
    intro body lands
    cases lands
    exact made other rfl
  | hold name node =>
    intro body lands
    rcases lies with _ | ⟨_ | _ | _⟩ <;> cases lands
    · trivial
    · exact (sound _ rfl).hold name node
    · trivial
  | take name =>
    intro body lands
    rcases lies with _ | ⟨_ | _ | _⟩ <;> cases lands
    · trivial
    · exact (sound _ rfl).take name
    · trivial
  | unname =>
    intro body lands
    rcases lies with _ | ⟨_ | _ | _⟩ <;> cases lands
    · trivial
    · obtain ⟨indexed, counted⟩ := sound _ rfl
      exact ⟨⟨indexed.inverse, indexed.named, indexed.started, indexed.given⟩, counted⟩
    · trivial
  | fill bytes =>
    intro body lands
    rcases lies with _ | ⟨_ | _ | _⟩ <;> cases lands
    · trivial
    · exact sound _ rfl
    · trivial

/-- Changes keep an object sound. -/
theorem landed_sound {changes : List Change}
    (made : ∀ body, Change.make body ∈ changes → body.Sound) {lies : Option Body}
    (sound : ∀ body, lies = some body → body.Sound) :
    ∀ body, landed lies changes = some body → body.Sound := by
  induction changes generalizing lies with
  | nil => exact sound
  | cons change rest ih =>
    apply ih
    · intro body member
      exact made body (List.mem_cons_of_mem _ member)
    · apply Change.apply_sound _ sound
      intro body same
      exact made body (same ▸ List.mem_cons_self)

/-- A Tmpfs whose objects are all sound. -/
def Heap.Sound (h : Heap) : Prop := ∀ id body, h.bodyOf id = some body → body.Sound

namespace Heap.Sound

variable {h after : Heap}

/-- Changes that make sound objects keep all sound. -/
theorem changed {changes : List (Nat × Change)} (sound : h.Sound)
    (changed : Changed changes h after)
    (made : ∀ change ∈ changes, ∀ body, change.2 = .make body → body.Sound) : after.Sound := by
  intro id body lies
  apply landed_sound _ (sound id) body (changed id body lies)
  intro other member
  obtain ⟨change, among, same⟩ := List.mem_map.mp member
  exact made change (List.mem_filter.mp among).1 other same

/-- A call keeps all sound. -/
theorem perform (sound : h.Sound) (op : Op) : (h.perform op).2.Sound := by
  apply sound.changed (Changed.perform h op)
  intro change member body makes
  exact (Fresh.changes h op change member body makes).2.sound

/-- An object seeded keeps all sound. -/
theorem seedAt (sound : h.Sound) (dir : Nat) (name : String) {body : Body} (made : body.Sound) :
    (h.seedAt dir name body).2.Sound := by
  have counted : Survives h (h.counted body.length) := .of_objects rfl
  have held := Changed.hold ((h.counted body.length).alloc body).2 dir name (body.node h.next)
  apply sound.changed ((Changed.after_survives counted (.alloc _ body)).trans held)
  intro change member other makes
  cases List.mem_cons.mp member with
  | inl first =>
    rw [first] at makes
    cases makes
    exact made
  | inr second =>
    rw [List.mem_singleton.mp second] at makes
    cases makes

/-- Files seeded keep all sound. -/
theorem sown {start : Heap} (sound : start.Sound) (sown : Balanced.Sown start h) : h.Sound := by
  induction sown with
  | none => exact sound
  | @one h dir strong state name body sown found free blank ih =>
    apply ih.seedAt
    obtain rfl | ⟨contents, rfl⟩ := blank
    · exact ⟨State.new_indexed, rfl⟩
    · trivial

/-- Limits set keep all sound. -/
theorem configure (sound : h.Sound) (follow : Bool) (settings : List Heap.Setting) :
    (h.configure follow settings).Sound := by
  induction settings generalizing h follow with
  | nil => exact sound
  | cons setting settings ih =>
    cases setting with
    | withSize size =>
      apply ih
      exact sound
    | withNrInodes nrInodes =>
      apply ih
      exact sound

/-- A Tmpfs with nothing but its root. -/
theorem new : Heap.new.Sound := by
  intro id body lies
  obtain ⟨object, found, rfl⟩ := Option.map_eq_some_iff.mp lies
  obtain ⟨-, rfl⟩ := new_only found
  exact ⟨State.new_indexed, rfl⟩

end Heap.Sound

/-- A Tmpfs as any calls leave it is balanced and all its objects are sound. -/
theorem reached_sound {files : List (String × List UInt8)} {seeded : Heap}
    (accepted : Heap.tryFromIter files = .ok seeded) {settings : List Heap.Setting} {ops : List Op}
    {h : Heap} (ran : run Heap.step (seeded.configure true settings) ops = some h) :
    Balanced h [] 0 ∧ h.Sound := by
  have kept : ∀ (state : Heap) (op : Op) (next : Heap), Balanced state [] 0 ∧ state.Sound →
      state.step op = some next → Balanced next [] 0 ∧ next.Sound := by
    intro state op next both taken
    rw [Heap.step] at taken
    split at taken
    · rename_i held
      cases taken
      exact ⟨(both.1.perform op held).balanced, both.2.perform op⟩
    · cases taken
  have start : Balanced (seeded.configure true settings) [] 0 ∧
      (seeded.configure true settings).Sound :=
    ⟨(tryFromIter_balanced accepted).configure true settings,
      (Heap.Sound.new.sown (tryFromIter_sown accepted)).configure true settings⟩
  exact run_preserves Heap.step kept ops _ h start ran

end Kobako.Tmpfs
