import Kobako.Bind.Machine

/-!
# What a guest reaches through a Bind

Every descriptor a Bind opens is open on an entry reached from its directory, so every entry its
calls read or change is, whatever the host moves meanwhile. A directory kept for a dentry has the
identity the dentry recorded: a walk compares before it keeps one, the cache's entry holds the
dentry's address for as long as it stands, and a dentry records once. Since the host gives no
identity of an open entry to another, all the directories held for one dentry are one directory.
-/

namespace Kobako.Bind

open Vfs Host

variable {ν : Type} [DecidableEq ν]

namespace State

/-- An entry reached from the Bind's directory by now. -/
def Reached (state : State ν) (object : Nat) : Prop :=
  Bind.Reached (state.host :: state.past) object

omit [DecidableEq ν] in
/-- A descriptor is open on an entry with the identity a dentry recorded, if it recorded one. -/
def Suits (state : State ν) (dentry : Dentry ν) (fid : Nat) : Prop :=
  ∃ record, dentry.record = some record ∧ ∀ identity, record.2 = some identity →
    (state.object fid).bind state.host.identity = some identity

/-- What a call knows where it stands. -/
def Knows (state : State ν) (target : Nat) : Phase ν → Prop
  | .asking address names | .searching address names => names = [] → address = target
  | .rising _ names => names ≠ []
  | .walking recorded _ _ _ _ | .checking recorded _ => recorded = state.recorded target
  | .acting fid => ∀ dentry, state.dentries target = some dentry → state.Suits dentry fid
  | _ => True

/-- A call's descriptors are open, its dentry stands for a directory, and it knows what it did. -/
structure Fits (state : State ν) (task : Task ν) : Prop where
  held : ∀ fid ∈ task.fids, state.isOpen fid
  target : task.target ∈ task.dentries →
    ∃ dentry, state.dentries task.target = some dentry ∧ dentry.record ≠ none
  knows : state.Knows task.target task.phase

/-- What every run keeps. -/
structure Sound (state : State ν) : Prop where
  distinct : state.host.Distinct
  fids : ∀ fid ∈ state.fids, fid.object < state.host.nodes.length ∧ state.Reached fid.object ∧
    (fid.isOpen → state.host.live fid.object)
  touched : ∀ object ∈ state.touched, state.Reached object
  root : state.isOpen 0 ∧ ∃ dentry, state.dentries 0 = some dentry ∧ state.Suits dentry 0
  inner : ∀ address dentry, state.dentries address = some dentry → dentry.above = none →
    address = 0
  cached : ∀ address fid, (address, fid) ∈ state.cache → state.isOpen fid ∧
    ∀ dentry, state.dentries address = some dentry → state.Suits dentry fid
  bound : state.cache.length ≤ maxCachedFids
  dirs : ∀ address dentry fid, state.dentries address = some dentry → dentry.dir = some fid →
    state.Suits dentry fid
  opened : ∀ fid ∈ state.opened, state.isOpen fid
  tasks : ∀ task ∈ state.tasks, state.Fits task

variable {outside : Outside ν} {state next : State ν} {task : Task ν} {index fid object : Nat}

/-! ## What the parts of a step keep -/

/-- Every descriptor is the one it was. -/
structure Extends (state next : State ν) : Prop where
  object : ∀ fid object, state.object fid = some object → next.object fid = some object
  identity : ∀ object, object < state.host.nodes.length →
    next.host.identity object = state.host.identity object

omit [DecidableEq ν] in
theorem mem_of_object (found : state.object fid = some object) :
    ∃ held ∈ state.fids, held.object = object := by
  obtain ⟨held, placed, same⟩ := Option.map_eq_some_iff.mp found
  exact ⟨held, List.mem_of_getElem? placed, same⟩

variable {dentry : Dentry ν} {address : Nat} {dir : Nat} {event : Event ν}

/-- A descriptor that suits a dentry goes on suiting it. -/
theorem Suits.keep (sound : state.Sound) (still : state.Extends next)
    (suits : state.Suits dentry fid) : next.Suits dentry fid := by
  obtain ⟨record, recorded, same⟩ := suits
  refine ⟨record, recorded, fun identity named => ?_⟩
  have before := same identity named
  cases found : state.object fid with
  | none => simp [found] at before
  | some object =>
    obtain ⟨held, among, here⟩ := mem_of_object found
    have within : object < state.host.nodes.length := here ▸ (sound.fids held among).1
    rw [found, Option.bind_some] at before
    rw [still.object fid object found, Option.bind_some, still.identity object within, before]

omit [DecidableEq ν] in
/-- A dentry's record is all a descriptor has to suit. -/
theorem Suits.of_record {one other : Dentry ν} (suits : state.Suits one fid)
    (same : other.record = one.record) : state.Suits other fid := by
  obtain ⟨record, recorded, named⟩ := suits
  exact ⟨record, same.trans recorded, named⟩

omit [DecidableEq ν] in
theorem Suits.record_ne (suits : state.Suits dentry fid) :
    dentry.record ≠ none := by
  obtain ⟨record, recorded, _⟩ := suits
  simp [recorded]

section

variable (sound : state.Sound)

include sound

/-- A call fits as long as its descriptors stay open and its dentry stays. -/
theorem Fits.keep (still : state.Extends next) (fits : state.Fits task)
    (isOpen : ∀ fid ∈ task.fids, state.isOpen fid → next.isOpen fid)
    (dentries : next.dentries = state.dentries) : next.Fits task where
  held fid among := isOpen fid among (fits.held fid among)
  target among := by
    rw [dentries]
    exact fits.target among
  knows := by
    have knows := fits.knows
    cases phase : task.phase with
    | walking known above names fid todo | checking known fid =>
      rw [phase] at knows
      simpa only [Knows, recorded, dentries] using knows
    | acting fid =>
      rw [phase] at knows
      intro dentry stands
      rw [dentries] at stands
      exact (knows dentry stands).keep sound still
    | asking address names | searching address names | rising address names =>
      rw [phase] at knows
      exact knows
    | _ => trivial

/-- The descriptors or the host change, each descriptor staying the one it was. -/
theorem Sound.carry (still : state.Extends next)
    (isOpen : ∀ fid, state.unheld fid = false → state.isOpen fid → next.isOpen fid)
    (distinct : next.host.Distinct)
    (fids : ∀ fid ∈ next.fids, fid.object < next.host.nodes.length ∧ next.Reached fid.object ∧
      (fid.isOpen → next.host.live fid.object))
    (touched : ∀ object ∈ next.touched, next.Reached object)
    (dentries : next.dentries = state.dentries) (cache : next.cache = state.cache)
    (opened : next.opened = state.opened) (tasks : next.tasks = state.tasks) : next.Sound where
  distinct := distinct
  fids := fids
  touched := touched
  root := by
    obtain ⟨held, dentry, stands, suits⟩ := sound.root
    exact ⟨isOpen 0 (by simp [unheld]) held, dentry, dentries ▸ stands, suits.keep sound still⟩
  inner := by
    rw [dentries]
    exact sound.inner
  cached := by
    rw [cache, dentries]
    intro address fid among
    obtain ⟨held, suits⟩ := sound.cached address fid among
    refine ⟨isOpen fid ?_ held, fun dentry stands => (suits dentry stands).keep sound still⟩
    have kept : state.cache.all (fun entry => entry.2 ≠ fid) = false := by
      simp only [List.all_eq_false]
      exact ⟨(address, fid), among, by simp⟩
    simp only [unheld, kept, Bool.and_false, Bool.false_and]
  bound := by
    rw [cache]
    exact sound.bound
  dirs := by
    rw [dentries]
    intro address dentry fid stands held
    exact (sound.dirs address dentry fid stands held).keep sound still
  opened := by
    rw [opened]
    intro fid among
    refine isOpen fid ?_ (sound.opened fid among)
    have kept : state.opened.contains fid = true := by simpa using among
    simp only [unheld, kept, Bool.not_true, Bool.and_false, Bool.false_and]
  tasks := by
    rw [tasks]
    intro task among
    refine (sound.tasks task among).keep sound still (fun fid held => isOpen fid ?_) dentries
    have kept : (state.tasks.all fun task => !task.fids.contains fid) = false := by
      simp only [List.all_eq_false]
      exact ⟨task, among, by simpa using held⟩
    simp only [unheld, kept, Bool.and_false]

/-- The host changes, and no entry a descriptor is open on goes. -/
theorem Sound.onto {host : Host ν} (distinct : host.Distinct)
    (identity : ∀ object, object < state.host.nodes.length →
      host.identity object = state.host.identity object)
    (grows : state.host.nodes.length ≤ host.nodes.length)
    (live : ∀ fid ∈ state.fids, fid.isOpen → state.host.live fid.object → host.live fid.object) :
    (state.onto host).Sound := by
  refine sound.carry ⟨fun _ _ found => found, identity⟩ (fun _ _ held => held) distinct ?_ ?_ rfl
    rfl rfl rfl
  · intro fid among
    obtain ⟨within, reached, kept⟩ := sound.fids fid among
    exact ⟨Nat.lt_of_lt_of_le within grows, .kept host reached,
      fun held => live fid among held (kept held)⟩
  · intro object among
    exact .kept host (sound.touched object among)

/-- Entries reached are read or changed. -/
theorem Sound.touch {objects : List Nat} (reached : ∀ object ∈ objects, state.Reached object) :
    (state.touch objects).Sound := by
  refine sound.carry ⟨fun _ _ found => found, fun _ _ => rfl⟩ (fun _ _ held => held) sound.distinct
    sound.fids ?_ rfl rfl rfl rfl
  intro object among
  obtain here | before := List.mem_append.mp among
  · exact reached object here
  · exact sound.touched object before

omit sound [DecidableEq ν] in
theorem object_push_of_some {found : Nat} (stands : state.object fid = some found) :
    (state.push object).object fid = some found := by
  obtain ⟨held, placed, same⟩ := Option.map_eq_some_iff.mp stands
  obtain ⟨within, _⟩ := List.getElem?_eq_some_iff.mp placed
  simp only [State.object, push, List.getElem?_append_left within, placed, Option.map_some, same]

omit sound [DecidableEq ν] in
theorem isOpen_push (held : state.isOpen fid) : (state.push object).isOpen fid := by
  unfold isOpen at held ⊢
  cases found : state.fids[fid]? with
  | none => simp [found] at held
  | some kept =>
    obtain ⟨within, _⟩ := List.getElem?_eq_some_iff.mp found
    simpa only [push, List.getElem?_append_left within] using held

omit sound [DecidableEq ν] in
theorem isOpen_push_self (state : State ν) (object : Nat) :
    (state.push object).isOpen state.fids.length := by
  simp [isOpen, push]

/-- A descriptor is opened on an entry reached. -/
theorem Sound.push (reached : state.Reached object) (kept : state.host.live object) :
    (state.push object).Sound := by
  refine sound.carry ⟨fun _ _ stands => object_push_of_some stands, fun _ _ => rfl⟩
    (fun _ _ held => isOpen_push held) sound.distinct ?_ sound.touched rfl rfl rfl rfl
  intro held among
  obtain before | new := List.mem_append.mp among
  · exact sound.fids held before
  · rw [List.mem_singleton.mp new]
    exact ⟨lt_of_live kept, reached, fun _ => kept⟩

/-- The last to hold a descriptor lets go. -/
theorem Sound.release (unheld : state.unheld fid) :
    { state with
      fids := state.fids.modify fid fun held => { held with isOpen := false } }.Sound := by
  refine sound.carry ⟨?_, fun _ _ => rfl⟩ ?_ sound.distinct ?_ sound.touched rfl rfl rfl rfl
  · intro other object stands
    obtain ⟨held, placed, same⟩ := Option.map_eq_some_iff.mp stands
    simp only [State.object, List.getElem?_modify, placed, Option.map_eq_map, Option.map_some]
    split
    · exact congrArg some same
    · exact congrArg some same
  · intro other kept held
    have apart : fid ≠ other := by
      intro same
      rw [same, kept] at unheld
      cases unheld
    unfold isOpen at held ⊢
    simpa [List.getElem?_modify, apart] using held
  · intro held among
    obtain ⟨place, placed⟩ := List.getElem?_of_mem among
    rw [List.getElem?_modify] at placed
    cases found : state.fids[place]? with
    | none => simp [found] at placed
    | some before =>
      obtain ⟨within, reached, kept⟩ := sound.fids before (List.mem_of_getElem? found)
      rw [found] at placed
      have same : (if fid = place then { before with isOpen := false } else before) = held :=
        Option.some.inj placed
      by_cases here : fid = place
      · rw [if_pos here] at same
        subst same
        exact ⟨within, reached, by simp⟩
      · rw [if_neg here] at same
        subst same
        exact ⟨within, reached, kept⟩

/-- The calls change. -/
theorem Sound.setTasks {tasks : List (Task ν)} (fits : ∀ task ∈ tasks, state.Fits task) :
    { state with tasks }.Sound where
  distinct := sound.distinct
  fids := sound.fids
  touched := sound.touched
  root := sound.root
  inner := sound.inner
  cached := sound.cached
  bound := sound.bound
  dirs := sound.dirs
  opened := sound.opened
  tasks task among :=
    ⟨(fits task among).held, (fits task among).target, (fits task among).knows⟩

/-- One call changes. -/
theorem Sound.setTask (index : Nat) (fits : state.Fits task) :
    { state with tasks := state.tasks.set index task }.Sound := by
  refine sound.setTasks fun other among => ?_
  obtain before | same := List.mem_or_eq_of_mem_set among
  · exact sound.tasks other before
  · exact same ▸ fits

/-- A call goes on with descriptors it held or that are open. -/
theorem Sound.goOn (index : Nat) (among : task ∈ state.tasks) (busy : task.phase.isDone = false)
    {phase : Phase ν} (held : ∀ fid ∈ phase.fids, fid ∈ task.phase.fids ∨ state.isOpen fid)
    (knows : state.Knows task.target phase) : (state.goOn index task phase).Sound := by
  have fits := sound.tasks task among
  have before : ∀ fid ∈ task.phase.fids ++ task.goal.fids, state.isOpen fid := by
    intro fid within
    refine fits.held fid ?_
    simp only [Task.fids, busy, Bool.false_eq_true, if_false, within]
  refine sound.setTask index ⟨?_, ?_, knows⟩
  · intro fid within
    by_cases done : phase.isDone
    · simp [Task.fids, done] at within
    · have within : fid ∈ phase.fids ++ task.goal.fids := by simpa [Task.fids, done] using within
      obtain here | own := List.mem_append.mp within
      · obtain old | new := held fid here
        · exact before fid (List.mem_append_left _ old)
        · exact new
      · exact before fid (List.mem_append_right _ own)
  · intro _
    exact fits.target (by simp [Task.dentries, busy])

/-- A call ends. -/
theorem Sound.finish (index : Nat) (task : Task ν) (answer : Except FsError (Answer ν)) :
    (state.finish index task answer).Sound := by
  refine sound.setTask index ⟨fun fid within => ?_, fun within => ?_, trivial⟩
  · simp [Task.fids, Phase.isDone] at within
  · simp [Task.dentries, Phase.isDone] at within

/-- The host is as a call on it left it. -/
theorem Sound.asked {α : Type} {outcome : Outcome ν α}
    (sane : outcome.Sane state.host state.past) :
    ((state.onto outcome.host).touch outcome.touched).Sound :=
  (sound.onto sane.distinct sane.keeps.identity sane.keeps.grows
    fun fid _ _ kept => sane.keeps.live fid.object kept).touch sane.touched

/-- A call ends with what the host answered it. -/
theorem Sound.conclude (index : Nat) (task : Task ν) {outcome : Outcome ν}
    (sane : outcome.Sane state.host state.past) : (state.conclude index task outcome).Sound :=
  (sound.asked sane).finish index task outcome.answer

/-- The cache changes. -/
theorem Sound.setCache {cache : List (Nat × Nat)}
    (kept : ∀ address fid, (address, fid) ∈ cache → state.isOpen fid ∧
      ∀ dentry, state.dentries address = some dentry → state.Suits dentry fid)
    (bound : cache.length ≤ maxCachedFids) : { state with cache }.Sound where
  distinct := sound.distinct
  fids := sound.fids
  touched := sound.touched
  root := sound.root
  inner := sound.inner
  cached := kept
  bound := bound
  dirs := sound.dirs
  opened := sound.opened
  tasks task among :=
    ⟨(sound.tasks task among).held, (sound.tasks task among).target,
      (sound.tasks task among).knows⟩

/-- `FidCache::get`. -/
theorem Sound.reuse (among : (address, fid) ∈ state.cache) :
    (state.reuse outside address fid).Sound := by
  obtain ⟨within, fewer⟩ := outside.get_sane among
  exact sound.setCache (fun other held kept => sound.cached other held (within kept))
    (Nat.le_trans fewer sound.bound)

/-- `FidCache::put`. -/
theorem Sound.keep (held : state.isOpen fid)
    (suits : ∀ dentry, state.dentries address = some dentry → state.Suits dentry fid) :
    (state.keep outside address fid).Sound := by
  obtain ⟨within, bound⟩ := outside.put_sane
  refine sound.setCache (fun other kept among => ?_) bound
  obtain same | before := List.mem_cons.mp (within among)
  · cases same
    exact ⟨held, suits⟩
  · exact sound.cached other kept before

/-- A guest opens or closes. -/
theorem Sound.setOpened {opened : List Nat} (held : ∀ fid ∈ opened, state.isOpen fid) :
    { state with opened }.Sound where
  distinct := sound.distinct
  fids := sound.fids
  touched := sound.touched
  root := sound.root
  inner := sound.inner
  cached := sound.cached
  bound := sound.bound
  dirs := sound.dirs
  opened := held
  tasks task among :=
    ⟨(sound.tasks task among).held, (sound.tasks task among).target,
      (sound.tasks task among).knows⟩

end

omit [DecidableEq ν] in
/-- A dentry that stands after one is set is that one, or stood before elsewhere. -/
theorem eq_or_dentries_of_setDentry {address other : Nat} {dentry found : Dentry ν}
    (stands : (state.setDentry address (some dentry)).dentries other = some found) :
    (other = address ∧ found = dentry) ∨ (other ≠ address ∧ state.dentries other = some found) := by
  by_cases here : other = address
  · have same : dentry = found := by simpa [State.setDentry, here] using stands
    exact .inl ⟨here, same.symm⟩
  · exact .inr ⟨here, by simpa [State.setDentry, here] using stands⟩

omit [DecidableEq ν] in
/-- What a dentry recorded stays recorded where one is made, or changes without another record. -/
theorem Fits.recorded_setDentry (fits : state.Fits task) (busy : task.phase.isDone = false)
    (record : ∀ before, state.dentries address = some before → before.record ≠ none →
      dentry.record = before.record) :
    (state.setDentry address (some dentry)).recorded task.target =
      state.recorded task.target := by
  obtain ⟨before, stood, some⟩ := fits.target (by simp [Task.dentries, busy])
  by_cases here : task.target = address
  · have recorded := record before (here ▸ stood) some
    rw [here] at stood
    simp [State.recorded, State.setDentry, here, stood, recorded]
  · simp [State.recorded, State.setDentry, here]

omit [DecidableEq ν] in
/-- A call fits where a dentry is made, or changes without another record. -/
theorem Fits.setDentry (fits : state.Fits task)
    (record : ∀ before, state.dentries address = some before → before.record ≠ none →
      dentry.record = before.record) :
    (state.setDentry address (some dentry)).Fits task := by
  refine ⟨fits.held, fun holds => ?_, ?_⟩
  · obtain ⟨before, stood, some⟩ := fits.target holds
    by_cases here : task.target = address
    · refine ⟨dentry, by simp [State.setDentry, here], ?_⟩
      rw [record before (here ▸ stood) some]
      exact some
    · exact ⟨before, by simpa [State.setDentry, here] using stood, some⟩
  · have knows := fits.knows
    cases phase : task.phase with
    | walking known first names fid todo | checking known fid =>
      rw [phase] at knows
      exact knows.trans (fits.recorded_setDentry (by rw [phase]; rfl) record).symm
    | acting fid =>
      rw [phase] at knows
      intro found stands
      obtain ⟨here, rfl⟩ | ⟨_, before⟩ := eq_or_dentries_of_setDentry stands
      · obtain ⟨before, stood, _⟩ := fits.target (by simp [Task.dentries, phase, Phase.isDone])
        have suits := knows before stood
        exact suits.of_record (record before (here ▸ stood) suits.record_ne)
      · exact knows found before
    | asking other names | searching other names | rising other names =>
      rw [phase] at knows
      exact knows
    | _ => trivial

/-- A dentry is made, or changes without another record. -/
theorem Sound.setDentry (sound : state.Sound) (address : Nat) (dentry : Dentry ν)
    (record : ∀ before, state.dentries address = some before → before.record ≠ none →
      dentry.record = before.record)
    (above : dentry.above = none → address = 0)
    (dir : ∀ fid, dentry.dir = some fid → state.Suits dentry fid)
    (fresh : state.dentries address = none → ∀ fid, (address, fid) ∉ state.cache) :
    (state.setDentry address (some dentry)).Sound := by
  have suits : ∀ before fid, state.dentries address = some before → state.Suits before fid →
      state.Suits dentry fid :=
    fun before fid stood suits => suits.of_record (record before stood suits.record_ne)
  refine ⟨sound.distinct, sound.fids, sound.touched, ⟨sound.root.1, ?_⟩, ?_, ?_, sound.bound, ?_,
    sound.opened, fun task among => (sound.tasks task among).setDentry record⟩
  · obtain ⟨before, stood, fits⟩ := sound.root.2
    by_cases here : address = 0
    · subst here
      exact ⟨dentry, by simp [State.setDentry], suits before 0 stood fits⟩
    · exact ⟨before, by simpa [State.setDentry, Ne.symm here] using stood, fits⟩
  · intro other found stands none
    obtain ⟨here, same⟩ | ⟨_, before⟩ := eq_or_dentries_of_setDentry stands
    · exact here.trans (above (same ▸ none))
    · exact sound.inner other found before none
  · intro other fid among
    obtain ⟨held, fits⟩ := sound.cached other fid among
    refine ⟨held, fun found stands => ?_⟩
    obtain ⟨here, same⟩ | ⟨_, before⟩ := eq_or_dentries_of_setDentry stands
    · subst here
      cases stood : state.dentries other with
      | none => exact absurd among (fresh stood fid)
      | some before => exact same ▸ suits before fid stood (fits before stood)
    · exact fits found before
  · intro other found fid stands held
    obtain ⟨_, same⟩ | ⟨_, before⟩ := eq_or_dentries_of_setDentry stands
    · exact same ▸ dir fid (same ▸ held)
    · exact sound.dirs other found fid before held

/-- A dentry nobody holds goes. -/
theorem Sound.dropDentry (sound : state.Sound) (inner : address ≠ 0)
    (unused : state.unused address) : (state.setDentry address none).Sound := by
  have left : ∀ other found, (state.setDentry address none).dentries other = some found →
      state.dentries other = some found := by
    intro other found stands
    by_cases here : other = address
    · simp [State.setDentry, here] at stands
    · simpa [State.setDentry, here] using stands
  refine ⟨sound.distinct, sound.fids, sound.touched, ⟨sound.root.1, ?_⟩, ?_, ?_, sound.bound, ?_,
    sound.opened, ?_⟩
  · obtain ⟨dentry, stood, fits⟩ := sound.root.2
    exact ⟨dentry, by simpa [State.setDentry, Ne.symm inner] using stood, fits⟩
  · intro other found stands
    exact sound.inner other found (left other found stands)
  · intro other fid among
    obtain ⟨held, fits⟩ := sound.cached other fid among
    exact ⟨held, fun found stands => fits found (left other found stands)⟩
  · intro other found fid stands
    exact sound.dirs other found fid (left other found stands)
  · intro task among
    have fits := sound.tasks task among
    have apart : task.target ∈ task.dentries → task.target ≠ address := by
      intro holds same
      simp only [State.unused, Bool.and_eq_true, List.all_eq_true] at unused
      have nobody := unused.1 task among
      rw [same] at holds
      simp [holds] at nobody
    refine ⟨fits.held, fun holds => ?_, ?_⟩
    · obtain ⟨dentry, stood, some⟩ := fits.target holds
      exact ⟨dentry, by simpa [State.setDentry, apart holds] using stood, some⟩
    · have knows := fits.knows
      cases phase : task.phase with
      | walking known above names fid todo | checking known fid =>
        rw [phase] at knows
        have elsewhere := apart (by simp [Task.dentries, phase, Phase.isDone])
        simpa [Knows, State.recorded, State.setDentry, elsewhere] using knows
      | acting fid =>
        rw [phase] at knows
        intro found stands
        exact knows found (left task.target found stands)
      | asking other names | searching other names | rising other names =>
        rw [phase] at knows
        exact knows
      | _ => trivial

/-! ## What a step keeps -/

/-- Every entry a step changed is among those touched. -/
def Marks (state next : State ν) : Prop :=
  ∀ object, object ∉ next.touched → next.host.nodes[object]? = state.host.nodes[object]?

omit [DecidableEq ν] in
/-- A step that leaves the host as it is. -/
theorem Marks.of_same (same : next.host = state.host) : state.Marks next :=
  fun object _ => by rw [same]

omit [DecidableEq ν] in
/-- What the host answered tells which entries changed. -/
theorem Marks.of_outcome {α : Type} {outcome : Outcome ν α} (host : next.host = outcome.host)
    (touched : next.touched = outcome.touched ++ state.touched)
    (changed : ∀ object, object ∉ outcome.touched →
      outcome.host.nodes[object]? = state.host.nodes[object]?) : state.Marks next := by
  intro object absent
  rw [host]
  refine changed object fun among => absent ?_
  rw [touched]
  exact List.mem_append_left _ among

section

variable (sound : state.Sound)

include sound

/-- A descriptor is open on an entry reached. -/
theorem Sound.reached (found : state.object fid = some object) :
    state.Reached object := by
  obtain ⟨held, among, same⟩ := mem_of_object found
  exact same ▸ (sound.fids held among).2.1

omit sound [DecidableEq ν] in
/-- A dentry that stands for a directory recorded it. -/
theorem exists_of_isDir (isDir : state.isDir address) :
    ∃ dentry, state.dentries address = some dentry ∧ dentry.record ≠ none := by
  unfold State.isDir at isDir
  cases stands : state.dentries address with
  | none => simp [stands] at isDir
  | some dentry =>
    refine ⟨dentry, rfl, ?_⟩
    intro none
    simp [stands, none] at isDir

/-- A directory found for a dentry on the way up. -/
theorem Sound.found (index : Nat) (among : task ∈ state.tasks) (busy : task.phase.isDone = false)
    (held : state.isOpen fid) {names : List ν}
    (suits : names = [] → ∀ dentry, state.dentries task.target = some dentry →
      state.Suits dentry fid) : (state.found index task fid names).Sound := by
  refine sound.goOn index among busy ?_ ?_
  · intro other within
    right
    cases names with
    | nil => simpa [List.mem_singleton.mp within] using held
    | cons name names =>
      have same : other = fid := by simpa [Phase.fids] using within
      exact same ▸ held
  · cases names with
    | nil => exact suits rfl
    | cons name names => exact rfl

/-- The names up from a dentry are taken one by one, or one is found to walk from. -/
theorem climb_sound (among : task ∈ state.tasks) (climbing : task.phase.dentries ≠ [])
    {identity : Option Identity} (taken : state.turn outside index task identity = some next) :
    next.Sound ∧ next.host = state.host := by
  have fits := sound.tasks task among
  have knows := fits.knows
  cases phase : task.phase with
  | asking address names =>
    have busy : task.phase.isDone = false := by rw [phase]; rfl
    rw [phase] at knows
    simp only [turn, phase] at taken
    split at taken
    · cases taken
    · rename_i dentry stands
      split at taken
      · rename_i root
        cases taken
        have here := sound.inner address dentry stands (Option.isNone_iff_eq_none.mp root)
        refine ⟨sound.found index among busy sound.root.1 ?_, rfl⟩
        intro none target stood
        obtain ⟨first, standing, suits⟩ := sound.root.2
        rw [← knows none, here, standing] at stood
        cases stood
        exact suits
      · split at taken
        · rename_i fid held
          cases taken
          obtain ⟨kept, stillOpen⟩ := Option.filter_eq_some_iff.mp held
          refine ⟨sound.found index among busy stillOpen ?_, rfl⟩
          intro none target stood
          rw [← knows none, stands] at stood
          cases stood
          exact sound.dirs address dentry fid stands kept
        · cases taken
          refine ⟨sound.goOn index among busy ?_ knows, rfl⟩
          intro fid within
          cases within
  | searching address names =>
    have busy : task.phase.isDone = false := by rw [phase]; rfl
    rw [phase] at knows
    simp only [turn, phase] at taken
    split at taken
    · rename_i fid kept
      cases taken
      have within : (address, fid) ∈ state.cache := by
        obtain ⟨before, after, whole, _⟩ := List.lookup_eq_some_iff.mp kept
        simp [whole]
      obtain ⟨held, suits⟩ := sound.cached address fid within
      refine ⟨(sound.reuse within).found index among busy held ?_, rfl⟩
      intro none target stood
      exact suits target (knows none ▸ stood)
    · cases taken
      refine ⟨sound.goOn index among busy ?_ trivial, rfl⟩
      intro fid within
      cases within
  | naming address names =>
    have busy : task.phase.isDone = false := by rw [phase]; rfl
    simp only [turn, phase] at taken
    split at taken
    · cases taken
    · cases taken
      refine ⟨sound.goOn index among busy ?_ (List.cons_ne_nil _ _), rfl⟩
      intro fid within
      cases within
  | rising address names =>
    have busy : task.phase.isDone = false := by rw [phase]; rfl
    rw [phase] at knows
    simp only [turn, phase] at taken
    split at taken
    · cases taken
    · cases taken
      refine ⟨sound.goOn index among busy ?_ fun none => absurd none knows, rfl⟩
      intro fid within
      cases within
  | _ =>
    rw [phase] at climbing
    exact absurd rfl climbing

/-- The directory alone, or with the entry a name there stands for, is read. -/
theorem Sound.touchAt (reached : state.Reached dir) {name : ν}
    (stands : state.host.lookup dir name = some object) : (state.touch [dir, object]).Sound :=
  sound.touch (reached_pair reached stands)

theorem Sound.touchDir (reached : state.Reached dir) :
    (state.touch [dir]).Sound := by
  refine sound.touch fun other among => ?_
  exact List.mem_singleton.mp among ▸ reached

/-- A name is opened in the directory come to, or why it cannot be is to be told; where none is
left, the directory come to is to be compared with the one recorded. -/
theorem walking_sound (among : task ∈ state.tasks) {recorded : Option Identity} {above : Nat}
    {names todo : List ν} (phase : task.phase = .walking recorded above names fid todo)
    {identity : Option Identity} (taken : state.turn outside index task identity = some next) :
    next.Sound ∧ next.host = state.host := by
  have knows := (sound.tasks task among).knows
  have busy : task.phase.isDone = false := by rw [phase]; rfl
  have own : ∀ other ∈ [above, fid], other ∈ task.phase.fids := by
    rw [phase]
    exact fun _ within => within
  rw [phase] at knows
  cases todo with
  | nil =>
    simp only [turn, phase] at taken
    cases taken
    refine ⟨sound.goOn index among busy ?_ knows, rfl⟩
    intro other within
    exact .inl (own other (List.mem_cons_of_mem _ within))
  | cons name todo =>
    simp only [turn, phase] at taken
    split at taken
    · cases taken
    · rename_i dir here
      have reached := sound.reached here
      have refused : ∀ other ∈ [fid], other ∈ task.phase.fids ∨ state.isOpen other :=
        fun other within => .inl (own other (List.mem_cons_of_mem _ within))
      split at taken
      · cases taken
        exact ⟨(sound.touchDir reached).goOn index among busy refused trivial, rfl⟩
      · rename_i object stands
        have touched := sound.touchAt reached stands
        split at taken
        · cases taken
          have pushed := touched.push (.entry name reached stands) (live_of_lookup stands)
          refine ⟨pushed.goOn index among busy ?_ knows, rfl⟩
          intro other within
          obtain first | last : other = above ∨ other = state.fids.length := by
            simpa [Phase.fids] using within
          · exact .inl (first ▸ own above (by simp))
          · rw [last]
            exact .inr (isOpen_push_self _ _)
        · cases taken
          exact ⟨touched.goOn index among busy refused trivial, rfl⟩

omit sound [DecidableEq ν] in
/-- A directory that reports the identity a call's dentry recorded suits the dentry. -/
theorem Fits.suits (fits : state.Fits task) (busy : task.phase.isDone = false)
    (here : state.object fid = some object) (same : state.recorded task.target = none ∨
      state.host.identity object = state.recorded task.target)
    (stands : state.dentries task.target = some dentry) :
    state.Suits dentry fid := by
  obtain ⟨before, stood, some⟩ := fits.target (by simp [Task.dentries, busy])
  rw [stands] at stood
  cases stood
  obtain ⟨record, has⟩ := Option.ne_none_iff_exists'.mp some
  refine ⟨record, has, fun identity named => ?_⟩
  have known : state.recorded task.target = Option.some identity := by
    simp [State.recorded, stands, has, named]
  rw [here, Option.bind_some]
  obtain none | equal := same
  · rw [known] at none
    cases none
  · rw [equal, known]

/-- The directory come to is compared with the one recorded, and kept where they are one. -/
theorem checking_sound (among : task ∈ state.tasks) {recorded : Option Identity}
    (phase : task.phase = .checking recorded fid) {identity : Option Identity}
    (taken : state.turn outside index task identity = some next) :
    next.Sound ∧ next.host = state.host := by
  have fits := sound.tasks task among
  have knows := fits.knows
  have busy : task.phase.isDone = false := by rw [phase]; rfl
  have own : fid ∈ task.phase.fids := by
    rw [phase]
    exact List.mem_singleton_self fid
  rw [phase] at knows
  simp only [turn, phase] at taken
  split at taken
  · cases taken
  · rename_i object here
    have touched := sound.touchDir (sound.reached here)
    split at taken
    · rename_i same
      cases taken
      rw [knows] at same
      have held : state.isOpen fid :=
        fits.held fid (by simp only [Task.fids, busy]; exact List.mem_append_left _ own)
      have suits : ∀ dentry, state.dentries task.target = some dentry →
          state.Suits dentry fid := fun _ stands => fits.suits busy here same stands
      refine ⟨(touched.keep held suits).goOn index among busy ?_ suits, rfl⟩
      intro other within
      exact .inl (List.mem_singleton.mp within ▸ own)
    · cases taken
      exact ⟨touched.finish index task _, rfl⟩

/-- A name is opened in the directory come to, why it cannot be is told, or the directory come to is
compared with the one recorded. -/
theorem walk_sound (among : task ∈ state.tasks) (walking : task.phase.fids ≠ [])
    (still : ∀ fid, task.phase ≠ .acting fid) (unopened : ∀ fid, task.phase ≠ .opening fid)
    {identity : Option Identity} (taken : state.turn outside index task identity = some next) :
    next.Sound ∧ next.host = state.host := by
  cases phase : task.phase with
  | walking recorded above names fid todo => exact walking_sound sound among phase taken
  | refused fid name error =>
    simp only [turn, phase] at taken
    split at taken
    · cases taken
    · rename_i dir here
      have reached := sound.reached here
      split at taken
      · cases taken
        exact ⟨(sound.touchDir reached).finish index task _, rfl⟩
      · rename_i object stands
        cases taken
        exact ⟨(sound.touchAt reached stands).finish index task _, rfl⟩
  | checking recorded fid => exact checking_sound sound among phase taken
  | acting fid => exact absurd phase (still fid)
  | opening fid => exact absurd phase (unopened fid)
  | _ =>
    rw [phase] at walking
    exact absurd rfl walking

/-- A name is opened, or why it cannot be is asked. -/
theorem openIn_sound (among : task ∈ state.tasks) (acting : task.phase = .acting fid)
    (reached : state.Reached dir) {name : ν} {how : OpenHow} {create : Bool}
    {identity : Option Identity} (free : state.host.free identity) :
    (state.openIn outside index task fid dir name how create identity).Sound ∧
      state.Marks (state.openIn outside index task fid dir name how create identity) := by
  have busy : task.phase.isDone = false := by rw [acting]; rfl
  obtain ⟨sane, opens⟩ := outside.openIn_sane sound.distinct name free reached how create
  have asked := sound.asked sane
  unfold openIn
  dsimp only
  split
  · rename_i object opened
    obtain ⟨within, live⟩ := opens object opened
    refine ⟨(asked.push (sane.touched object within) live).goOn index among busy ?_ trivial,
      .of_outcome rfl rfl sane.changed⟩
    intro other held
    rw [List.mem_singleton.mp held]
    exact .inr (isOpen_push_self _ _)
  · refine ⟨asked.goOn index among busy (fun other held => .inl ?_) trivial,
      .of_outcome rfl rfl sane.changed⟩
    rw [acting]
    exact held

/-- What opened is looked at, and a dentry that recorded nothing records it. -/
theorem opened_sound (held : state.isOpen fid) (reached : state.Reached object) {how : OpenHow}
    (taken : state.opened? index task fid object address how = some next) :
    next.Sound ∧ next.host = state.host := by
  unfold opened? at taken
  split at taken
  · rename_i node dentry stands found
    have touched := sound.touchDir reached
    have refused : ∀ error, ((state.touch [object]).finish index task (.error error)).Sound :=
      fun error => touched.finish index task _
    have answered : ∀ record, (dentry.record ≠ none → some record = dentry.record) →
        ({ (((state.touch [object]).setDentry address (some { dentry with
            record := some record
            files := dentry.files.filter (fun file => state.isOpen file.1) ++
              [(fid, how.write || how.truncate)] })).finish index task (.ok (.opened fid))) with
          opened := fid :: state.opened } : State ν).Sound := by
      intro record same
      have changed := touched.setDentry address { dentry with
          record := some record
          files := dentry.files.filter (fun file => state.isOpen file.1) ++
            [(fid, how.write || how.truncate)] } ?_ ?_ ?_ ?_
      · refine (changed.finish index task _).setOpened ?_
        intro other within
        obtain here | before := List.mem_cons.mp within
        · exact here ▸ held
        · exact sound.opened other before
      · intro before stood some
        have equal : dentry = before := Option.some.inj (found.symm.trans stood)
        exact equal ▸ same (equal ▸ some)
      · exact sound.inner address dentry found
      · intro other kept
        have suits := sound.dirs address dentry other found kept
        exact suits.of_record (same suits.record_ne)
      · intro absent
        have none : state.dentries address = none := absent
        rw [none] at found
        cases found
    split at taken
    · cases taken
      exact ⟨refused _, rfl⟩
    · rename_i none
      cases taken
      exact ⟨answered _ fun some => absurd none some, rfl⟩
    · rename_i record _ has
      split at taken
      · cases taken
        exact ⟨refused _, rfl⟩
      · cases taken
        exact ⟨answered record fun _ => has.symm, rfl⟩
    · cases taken
      exact ⟨refused _, rfl⟩
  · cases taken

/-- A call does what it is for with the directory found. -/
theorem act_sound (among : task ∈ state.tasks) (acting : task.phase = .acting fid)
    (here : state.object fid = some dir) {identity : Option Identity}
    (free : state.host.free identity)
    (taken : state.act outside index task fid dir identity = some next) :
    next.Sound ∧ state.Marks next := by
  have fits := sound.tasks task among
  have reached := sound.reached here
  have busy : task.phase.isDone = false := by rw [acting]; rfl
  have held : state.isOpen fid := by
    refine fits.held fid ?_
    simp [Task.fids, acting, Phase.isDone, Phase.fids]
  have concludes : ∀ outcome : Outcome ν, outcome.Sane state.host state.past →
      (state.conclude index task outcome).Sound ∧
        state.Marks (state.conclude index task outcome) :=
    fun outcome sane => ⟨sound.conclude index task sane, .of_outcome rfl rfl sane.changed⟩
  unfold act at taken
  split at taken
  · cases taken
    exact concludes _ (outside.ask_sane sound.distinct reached _)
  · cases taken
    exact concludes _ (outside.ask_sane sound.distinct reached _)
  · split at taken
    · cases taken
    · rename_i dentry stands
      cases taken
      have knows := fits.knows
      rw [acting] at knows
      have suits := knows dentry stands
      have changed := (sound.touchDir reached).setDentry task.target
        { dentry with dir := some fid } ?_ ?_ ?_ ?_
      · refine ⟨(changed.finish index task _).setOpened ?_, .of_same rfl⟩
        intro other within
        obtain same | before := List.mem_cons.mp within
        · exact same ▸ held
        · exact sound.opened other before
      · intro before stood _
        have equal : dentry = before := Option.some.inj (stands.symm.trans stood)
        exact equal ▸ rfl
      · exact sound.inner task.target dentry stands
      · intro other kept
        have same : fid = other := Option.some.inj kept
        exact same ▸ suits.of_record rfl
      · intro absent
        have none : state.dentries task.target = none := absent
        rw [none] at stands
        cases stands
  · cases taken
    exact concludes _ (outside.act_sane sound.distinct _ free reached _)
  · cases taken
    exact openIn_sound sound among acting reached free
  · split at taken
    · cases taken
    · split at taken
      · rename_i goal parent toName above isDir
        cases taken
        refine ⟨sound.setTask index ⟨?_, ?_, fun _ => rfl⟩, .of_same rfl⟩
        · intro other within
          have same : other = fid := by
            simpa [Task.fids, Phase.isDone, Phase.fids, Goal.fids] using within
          exact same ▸ held
        · intro _
          exact exists_of_isDir isDir
      · cases taken
  · split at taken
    · cases taken
    · rename_i above there
      cases taken
      exact concludes _ (outside.rename_sane sound.distinct _ _ (sound.reached there) reached)

/-- A call takes its next step. -/
theorem turn_sound (among : task ∈ state.tasks) {identity : Option Identity}
    (free : state.host.free identity) (taken : state.turn outside index task identity = some next) :
    next.Sound ∧ state.Marks next := by
  have unmoved : next.Sound ∧ next.host = state.host → next.Sound ∧ state.Marks next :=
    fun both => ⟨both.1, .of_same both.2⟩
  have climbing : task.phase.dentries ≠ [] → next.Sound ∧ state.Marks next :=
    fun climbs => unmoved (climb_sound sound among climbs taken)
  have walking : task.phase.fids ≠ [] → (∀ fid, task.phase ≠ .acting fid) →
      (∀ fid, task.phase ≠ .opening fid) → next.Sound ∧ state.Marks next :=
    fun walks still unopened => unmoved (walk_sound sound among walks still unopened taken)
  cases phase : task.phase with
  | acting fid =>
    simp only [turn, phase] at taken
    split at taken
    · cases taken
    · rename_i dir here
      exact act_sound sound among phase here free taken
  | opening fid =>
    simp only [turn, phase] at taken
    split at taken
    · rename_i object address name how create here goal
      have held : state.isOpen fid := by
        refine (sound.tasks task among).held fid ?_
        simp [Task.fids, phase, Phase.isDone, Phase.fids]
      exact unmoved (opened_sound sound held (sound.reached here) taken)
    · cases taken
  | done answer => simp [turn, phase] at taken
  | asking _ _ | searching _ _ | naming _ _ | rising _ _ =>
    exact climbing (by simp [phase, Phase.dentries])
  | walking _ _ _ _ _ | refused _ _ _ | checking _ _ =>
    exact walking (by simp [phase, Phase.fids]) (by simp [phase]) (by simp [phase])

/-- A call on the host fails. -/
theorem fail_sound (among : task ∈ state.tasks) {error : FsError}
    (taken : state.fail index task error = some next) :
    next.Sound ∧ next.host = state.host := by
  have finished : ∀ answer, (state.finish index task answer).Sound :=
    fun answer => sound.finish index task answer
  have refused : task.phase.isDone = false → ∀ fid ∈ task.phase.fids, ∀ name,
      (state.goOn index task (.refused fid name error)).Sound := by
    intro busy fid own name
    refine sound.goOn index among busy (fun other within => ?_) trivial
    exact .inl (List.mem_singleton.mp within ▸ own)
  unfold fail at taken
  split at taken
  · rename_i phase
    cases taken
    exact ⟨refused (by rw [phase]; rfl) _ (by simp [phase, Phase.fids]) _, rfl⟩
  · cases taken
    exact ⟨finished _, rfl⟩
  · cases taken
    exact ⟨finished _, rfl⟩
  · rename_i phase
    split at taken
    · cases taken
      exact ⟨refused (by rw [phase]; rfl) _ (by simp [phase, Phase.fids]) _, rfl⟩
    · cases taken
    · cases taken
      exact ⟨finished _, rfl⟩
  · cases taken
    exact ⟨finished _, rfl⟩
  · cases taken

/-- A call that is to find the directory a dentry stands for begins. -/
theorem Sound.spawn (isDir : state.isDir address) {goal : Goal ν} (holds : goal.fids = []) :
    (state.spawn ⟨address, goal, .asking address []⟩).Sound := by
  refine sound.setTasks fun task among => ?_
  obtain before | new := List.mem_append.mp among
  · exact sound.tasks task before
  · rw [List.mem_singleton.mp new]
    refine ⟨fun fid within => ?_, fun _ => exists_of_isDir isDir, fun _ => rfl⟩
    simp [Task.fids, Phase.isDone, Phase.fids, holds] at within

theorem above_sound {goal : ν → Goal ν} (holds : ∀ name, (goal name).fids = [])
    (taken : state.above address goal = some next) :
    next.Sound ∧ state.Marks next := by
  unfold above at taken
  split at taken
  · cases taken
  · split at taken
    · rename_i isDir
      cases taken
      exact ⟨sound.spawn isDir (holds _), .of_same rfl⟩
    · cases taken

/-- A descriptor is asked. -/
theorem through_sound {act : FidAct} (taken : state.through outside fid act = some next) :
    next.Sound ∧ state.Marks next := by
  unfold through at taken
  split at taken
  · cases taken
  · rename_i object here
    cases taken
    have sane := outside.ask_sane sound.distinct (sound.reached here) act
    exact ⟨sound.asked sane, .of_outcome rfl rfl sane.changed⟩

/-- A Bind is made a call. -/
theorem call_sound {call : Call} (taken : state.call outside address call = some next) :
    next.Sound ∧ state.Marks next := by
  cases call with
  | dir act =>
    simp only [State.call] at taken
    split at taken
    · rename_i isDir
      cases taken
      exact ⟨sound.spawn isDir rfl, .of_same rfl⟩
    · cases taken
  | getattr | setTimes atime mtime =>
    simp only [State.call] at taken
    split at taken
    · exact through_sound sound taken
    · exact above_sound sound (fun _ => rfl) taken
  | setLen len =>
    simp only [State.call] at taken
    split at taken
    · exact through_sound sound taken
    · cases taken
      exact ⟨sound, .of_same rfl⟩
  | revalidate =>
    simp only [State.call] at taken
    split at taken
    · cases taken
    · split at taken
      · cases taken
        exact ⟨sound, .of_same rfl⟩
      · exact above_sound sound (fun _ => rfl) taken
  | name act => exact above_sound sound (fun _ => rfl) taken
  | openFile how create => exact above_sound sound (fun _ => rfl) taken
  | rename target => exact above_sound sound (fun _ => rfl) taken

/-- The host changes by itself. -/
theorem host_sound (own : event.ofHost) (taken : state.step outside event = some next) :
    next.Sound := by
  cases event with
  | make node =>
    simp only [step] at taken
    split at taken
    · rename_i fits
      cases taken
      simp only [Bool.and_eq_true] at fits
      have keeps := keeps_add state.host node
      exact sound.onto (distinct_add sound.distinct fits.2) keeps.identity keeps.grows
        fun fid _ _ kept => keeps.live fid.object kept
    · cases taken
  | change object entries bytes times =>
    cases taken
    have keeps := keeps_modify state.host object (fun node => { node with entries, bytes, times })
      (fun _ => rfl) fun _ => rfl
    exact sound.onto (distinct_modify sound.distinct object _ (fun _ => rfl) fun _ kept => kept)
      keeps.identity keeps.grows fun fid _ _ kept => keeps.live fid.object kept
  | letGo object =>
    simp only [step] at taken
    split at taken
    · rename_i closed
      cases taken
      refine sound.onto (distinct_modify sound.distinct object _ (fun _ => rfl) ?_)
        (fun other _ => identity_modify state.host object other fun _ => rfl)
        (by simp [Host.modify]) ?_
      · intro node gone
        cases gone
      · intro fid among held kept
        have elsewhere : object ≠ fid.object := by
          have other := List.all_eq_true.mp closed fid among
          simp only [decide_eq_true_eq] at other
          exact fun same => other held same.symm
        unfold Host.live at kept ⊢
        rwa [nodes_modify_of_ne _ elsewhere]
    · cases taken
  | _ => cases own

/-- A dentry is made, records, moves or goes, or a guest's hold on something ends. -/
theorem idle_sound (quiet : event.ofHost = false)
    (uncalled : ∀ address call, event ≠ .call address call)
    (unturned : ∀ index identity, event ≠ .turn index identity)
    (unfailed : ∀ index error, event ≠ .fail index error)
    (unasked : ∀ fid act, event ≠ .ask fid act)
    (taken : state.step outside event = some next) :
    next.Sound ∧ next.host = state.host := by
  cases event with
  | alloc address parent name =>
    simp only [step] at taken
    split at taken
    · rename_i fits
      obtain ⟨absent, uncached, _⟩ := fits
      cases taken
      have made := sound.setDentry address ⟨some (parent, name), none, none, []⟩ ?_ ?_ ?_ ?_
      · exact ⟨⟨made.distinct, made.fids, made.touched, made.root, made.inner, made.cached,
          made.bound, made.dirs, made.opened, fun task among =>
            ⟨(made.tasks task among).held, (made.tasks task among).target,
              (made.tasks task among).knows⟩⟩, rfl⟩
      · intro before stood
        rw [absent] at stood
        cases stood
      · intro root
        cases root
      · intro fid held
        cases held
      · intro _ fid among
        have other := List.all_eq_true.mp uncached (address, fid) among
        simp at other
    · cases taken
  | instantiate address record =>
    simp only [step] at taken
    split at taken
    · rename_i above dir files stood
      cases taken
      refine ⟨sound.setDentry address _ ?_ ?_ ?_ ?_, rfl⟩
      · intro before found some
        rw [stood] at found
        cases found
        exact absurd rfl some
      · exact sound.inner address ⟨above, none, dir, files⟩ stood
      · intro fid held
        exact absurd rfl (sound.dirs address _ fid stood held).record_ne
      · intro none
        rw [stood] at none
        cases none
    · cases taken
  | move address parent name =>
    simp only [step] at taken
    split at taken
    · rename_i old record dir files stood
      split at taken
      · cases taken
        refine ⟨sound.setDentry address _ ?_ ?_ ?_ ?_, rfl⟩
        · intro before found _
          rw [stood] at found
          cases found
          rfl
        · intro root
          cases root
        · intro fid held
          exact (sound.dirs address _ fid stood held).of_record rfl
        · intro none
          rw [stood] at none
          cases none
      · cases taken
    · cases taken
  | drop address =>
    simp only [step] at taken
    split at taken
    · rename_i fits
      cases taken
      exact ⟨sound.dropDentry fits.1 fits.2, rfl⟩
    · cases taken
  | again index =>
    simp only [step] at taken
    split at taken
    · rename_i target goal recorded above names fid todo found
      cases taken
      have among := List.mem_of_getElem? found
      have fits := sound.tasks _ among
      refine ⟨sound.setTask index ⟨fun other within => ?_, fits.target, fits.knows⟩, rfl⟩
      refine fits.held other ?_
      simp only [Task.fids, Phase.isDone, Phase.fids, Bool.false_eq_true, if_false,
        List.mem_append, List.mem_cons, List.not_mem_nil, or_false] at within ⊢
      tauto
    · cases taken
  | close fid =>
    cases taken
    exact ⟨sound.setOpened fun other among => sound.opened other (List.mem_of_mem_erase among), rfl⟩
  | release fid =>
    simp only [step] at taken
    split at taken
    · rename_i unheld
      cases taken
      exact ⟨sound.release unheld, rfl⟩
    · cases taken
  | call address call => exact absurd rfl (uncalled address call)
  | turn index identity => exact absurd rfl (unturned index identity)
  | fail index error => exact absurd rfl (unfailed index error)
  | ask fid act => exact absurd rfl (unasked fid act)
  | make _ | change _ _ _ _ | letGo _ => cases quiet

/-- A step that is not the host's own marks every entry it changes. -/
theorem guest_sound (quiet : event.ofHost = false) (taken : state.step outside event = some next) :
    next.Sound ∧ state.Marks next := by
  have idle : (∀ address call, event ≠ .call address call) →
      (∀ index identity, event ≠ .turn index identity) →
      (∀ index error, event ≠ .fail index error) → (∀ fid act, event ≠ .ask fid act) →
      next.Sound ∧ state.Marks next := by
    intro uncalled unturned unfailed unasked
    obtain ⟨still, same⟩ := idle_sound sound quiet uncalled unturned unfailed unasked taken
    exact ⟨still, .of_same same⟩
  cases event with
  | call address call => exact call_sound sound taken
  | turn index identity =>
    simp only [step] at taken
    split at taken
    · cases taken
    · rename_i task found
      split at taken
      · rename_i free
        exact turn_sound sound (List.mem_of_getElem? found) free taken
      · cases taken
  | fail index error =>
    simp only [step] at taken
    split at taken
    · cases taken
    · rename_i task found
      obtain ⟨still, same⟩ := fail_sound sound (List.mem_of_getElem? found) taken
      exact ⟨still, .of_same same⟩
  | ask fid act =>
    simp only [step] at taken
    split at taken
    · exact through_sound sound taken
    · cases taken
  | _ => exact idle (by simp) (by simp) (by simp) (by simp)

end

/-- Every step keeps a state sound. -/
theorem step_sound (state : State ν) (event : Event ν) (next : State ν) (sound : state.Sound)
    (taken : state.step outside event = some next) : next.Sound := by
  cases own : event.ofHost with
  | true => exact host_sound sound own taken
  | false => exact (guest_sound sound own taken).1

/-- A Bind is sound when it is made. -/
theorem new_sound (identity : Option Identity) : (State.new identity : State ν).Sound where
  distinct := by
    have first : ∀ object, (⟨[.empty .dir identity]⟩ : Host ν).live object → object = 0 := by
      intro object kept
      have within := lt_of_live kept
      simp only [List.length_singleton] at within
      omega
    intro one other _ kept stands _ _
    rw [first one kept, first other stands]
  fids fid among := by
    rw [List.mem_singleton.mp among]
    exact ⟨Nat.zero_lt_one, .root _, fun _ => rfl⟩
  touched _ among := by cases among
  root := ⟨rfl, _, rfl, _, rfl, fun _ named => named⟩
  inner address dentry stands _ := by
    by_contra elsewhere
    simp [State.new, elsewhere] at stands
  cached _ _ among := by cases among
  bound := Nat.zero_le _
  dirs address dentry fid stands held := by
    by_cases here : address = 0
    · simp only [State.new, here, if_true, Option.some.injEq] at stands
      rw [← stands] at held
      cases held
    · simp [State.new, here] at stands
  opened _ among := by cases among
  tasks _ among := by cases among

/-- A directory is held for a dentry: kept in the cache, held open on it by a guest, or found for a
call that is to act on it. -/
def Holds (state : State ν) (address fid : Nat) : Prop :=
  state.isOpen fid ∧ ((address, fid) ∈ state.cache ∨
    (∃ dentry, state.dentries address = some dentry ∧ dentry.dir = some fid) ∨
    ∃ task ∈ state.tasks, task.target = address ∧ task.phase = .acting fid)

/-- A directory held for a dentry suits it. -/
theorem Sound.holds (sound : state.Sound) (holds : state.Holds address fid)
    (stands : state.dentries address = some dentry) :
    state.Suits dentry fid := by
  obtain ⟨_, kept | ⟨found, stood, held⟩ | ⟨task, among, here, acting⟩⟩ := holds
  · exact (sound.cached address fid kept).2 dentry stands
  · rw [stands] at stood
    cases stood
    exact sound.dirs address dentry fid stands held
  · have knows := (sound.tasks task among).knows
    rw [acting, here] at knows
    exact knows dentry stands

/-- An entry a descriptor is open on is kept by the host. -/
theorem Sound.live (sound : state.Sound) (held : state.isOpen fid)
    (found : state.object fid = some object) : state.host.live object := by
  obtain ⟨kept, placed, same⟩ := Option.map_eq_some_iff.mp found
  simp only [isOpen, placed, Option.any_some] at held
  exact same ▸ (sound.fids kept (List.mem_of_getElem? placed)).2.2 held

/-- Whatever the host changes, however dentries move, and in whichever order the steps of the calls
fall: every entry of the host a call read or changed is reached from the Bind's directory by names
that stood one after another, and one that is not is left as it is by every step of a call. Every
directory held for a dentry has the identity the dentry recorded, and all of them are one. No more
than the bound are kept for walks. -/
theorem guests_stay_beneath_the_bind {identity : Option Identity}
    (run : Reachable (step outside) (.new identity) state) :
    (∀ object ∈ state.touched, state.Reached object) ∧
    (∀ event next object, event.ofHost = false → state.step outside event = some next →
      ¬ next.Reached object → next.host.nodes[object]? = state.host.nodes[object]?) ∧
    (∀ address dentry kind recorded fid, state.dentries address = some dentry →
      dentry.record = some (kind, some recorded) → state.Holds address fid →
      ∃ object, state.object fid = some object ∧ state.host.identity object = some recorded ∧
        ∀ other, state.Holds address other → state.object other = some object) ∧
    state.cache.length ≤ maxCachedFids := by
  have sound : state.Sound := run.invariant (step outside) (new_sound identity) step_sound
  refine ⟨sound.touched, ?_, ?_, sound.bound⟩
  · intro event next object quiet taken apart
    obtain ⟨later, marks⟩ := guest_sound sound quiet taken
    exact marks object fun among => apart (later.touched object among)
  · intro address dentry kind recorded fid stands has holds
    have named : ∀ other, state.Holds address other → ∃ object, state.object other = some object ∧
        state.host.identity object = some recorded := by
      intro other held
      obtain ⟨record, found, same⟩ := sound.holds held stands
      rw [has] at found
      cases found
      exact Option.bind_eq_some_iff.mp (same recorded rfl)
    obtain ⟨object, here, same⟩ := named fid holds
    refine ⟨object, here, same, fun other held => ?_⟩
    obtain ⟨found, there, equal⟩ := named other held
    -- Both are open, so the host keeps both, and gives no two one identity.
    have one := sound.distinct object found recorded (sound.live holds.1 here)
      (sound.live held.1 there) same equal
    rw [one]
    exact there

/-- A guest opens the directory at `10/20`, and the host moves first one of the two and then the
other out of the way: the first while it is walked through, the second once it is open. Its
attributes are still told. -/
def movedAway : List (Event Nat) :=
  [Event.make (.empty .dir (some ⟨1, 2⟩)), .make (.empty .dir (some ⟨1, 3⟩)),
    .change 0 [(10, 1)] [] (0, 0), .change 1 [(20, 2)] [] (0, 0),
    .alloc 7 0 10, .instantiate 7 (.dir, some ⟨1, 2⟩),
    .alloc 8 7 20, .instantiate 8 (.dir, some ⟨1, 3⟩), .call 8 (.dir (.opens true))] ++
  List.replicate 10 (Event.turn 0 none) ++ [Event.change 0 [] [] (0, 0)] ++
  List.replicate 4 (Event.turn 0 none) ++ [Event.change 1 [] [] (0, 0), .call 8 (.dir .getattr)] ++
  List.replicate 2 (Event.turn 1 none)

theorem guests_stay_beneath_the_bind_moved :
    ∃ state, run (step .documented) (.new (some ⟨1, 1⟩)) movedAway = some state ∧
      state.host.lookup 0 10 = none ∧ state.host.lookup 1 20 = none ∧ state.opened = [2] ∧
      state.Reached 2 ∧ state.cache.length ≤ maxCachedFids := by
  refine ⟨_, rfl, rfl, rfl, rfl, ?_⟩
  have stays := guests_stay_beneath_the_bind
    (⟨movedAway, rfl⟩ : Reachable (step .documented) (.new (some ⟨1, 1⟩)) _)
  exact ⟨stays.1 2 (by decide), stays.2.2.2⟩

end State

end Kobako.Bind
