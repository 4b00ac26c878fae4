import Kobako.Sandbox.Invocations

/-!
# What a guest reaches

Whichever way the invocations of a Sandbox interleave, each one's guest reaches by a path what that
path means to its own invocation, and by a Handle what its own objects handed it under that number.
The invariant says of each invocation, by how far it is, what the code holds for it in terms of what
it did.
-/

namespace Kobako.Sandbox

open Kobako.Envelope

/-- The tables, open or sealed. -/
def Registry.tables : Registry → Tables
  | .opened tables => tables
  | .sealed tables => tables

/-! ## The invariant -/

/-- What an invocation's caller stood in is the last object and Mount at each path that was set
up. -/
structure Stands (tables : Tables) (past : Past) (overrides : List (String × Object))
    (mounts : List Mount) : Prop where
  bound : ∀ path, (overrides.find? (·.1 == path)).map (·.2) =
    (tables.lookup path).bind fun _ => (past.bound path).map .host
  mounted : ∀ path, mounts.find? (·.path == path) =
    if tables.isMounted path then past.mounted path else none

/-- What an invocation holds for its guest is what it did. -/
structure Runs (extensions : List Extension) (past : Past) (invocation : Invocation) : Prop where
  paths : ∀ path, invocation.resolveTarget (.path path) =
    (means invocation.tables extensions past invocation.made path).elim
      (.error ⟨.undefined, "unknown constant " ++ path⟩) .ok
  called : ∃ provide, past.provide = some provide ∧ Called provide invocation.made
  provided : ∀ path provider, providerAt extensions path = some provider →
    ∃ object, invocation.made.lookup provider = some object
  grants : invocation.grants =
    invocation.tables.mounts.map fun mount => (past.mounted mount.path).getD mount
  handles : invocation.handles = past.given.take maxHandleId
  frames : ∀ frame ∈ invocation.frames,
    invocation.resolveTarget frame.call.target = .ok (.host frame.object)
  replies : ∀ answered ∈ invocation.replies, ∀ path, answered.1.target = .path path →
    (∀ fault, invocation.resolveTarget (.path path) = .error fault →
      answered.2 = .fault fault) ∧
    (invocation.resolveTarget (.path path) = .ok .unresolved → answered.2 = .fault unresolvedFault)

/-- What holds of an invocation, by how far it is. -/
def Kept (state : State) (i : Nat) (past : Past) : Phase → Prop
  | .idle => past = .none
  | .starting _ met =>
    past = .none ∧ i ∈ state.starting ∧ (met = true → unmet state.extensions = none)
  | .collecting _ tables overrides mounts =>
    state.registry = .sealed tables ∧ unmet state.extensions = none ∧
      Stands tables past overrides mounts ∧ past.given = []
  | .building tables overrides mounts handles =>
    state.registry = .sealed tables ∧ unmet state.extensions = none ∧
      Stands tables past overrides mounts ∧ handles = past.given.take maxHandleId
  | .running invocation =>
    state.registry = .sealed invocation.tables ∧ unmet state.extensions = none ∧
      Runs state.extensions past invocation
  | .ended handles =>
    (∃ tables, state.registry = .sealed tables) ∧ handles = past.given.take maxHandleId
  | .failed => True

/-- What holds of a Sandbox after each invocation did what it did. -/
structure Told (pasts : Nat → Past) (state : State) : Prop where
  standing : Standing state.registry.tables state.extensions
  asserted : state.asserted = true → unmet state.extensions = none
  opened : ∀ tables, state.registry = .opened tables → state.asserted = true →
    state.starting ≠ []
  kept : ∀ i, Kept state i (pasts i) (state.invocations i)

theorem told_start : Told (fun _ => .none) start where
  standing := standing_empty
  asserted := by simp [start]
  opened := by simp [start]
  kept := fun _ => rfl

/-! ## Moving one invocation -/

variable {phase : Phase} {event : Event} {pasts : Nat → Past} {presents : Bool}
  {mounts : List Mount} {overrides : List (String × Object)} {object : Nat}

/-- What holds of an invocation goes on to hold where the seal stays and it is not dropped from
those that start. -/
theorem Kept.mono {state next : State} {i : Nat} {past : Past} (kept : Kept state i past phase)
    (extensions : next.extensions = state.extensions)
    (registry : ∀ tables, state.registry = .sealed tables → next.registry = .sealed tables)
    (starting : i ∈ state.starting → i ∈ next.starting) : Kept next i past phase := by
  cases phase with
  | idle => exact kept
  | starting run met => exact ⟨kept.1, starting kept.2.1, extensions ▸ kept.2.2⟩
  | collecting run tables overrides mounts =>
    exact ⟨registry _ kept.1, extensions ▸ kept.2.1, kept.2.2⟩
  | building tables overrides mounts handles =>
    exact ⟨registry _ kept.1, extensions ▸ kept.2.1, kept.2.2⟩
  | running invocation => exact ⟨registry _ kept.1, extensions ▸ kept.2.1, extensions ▸ kept.2.2⟩
  | ended handles => exact ⟨kept.1.imp registry, kept.2⟩
  | failed => trivial

/-- An invocation moves on and the others stand. -/
theorem Told.move {state : State} (told : Told pasts state) {i : Nat}
    (others : ∀ j, j ≠ i → (pasts j).add j event = pasts j)
    (moved : Kept state i ((pasts i).add i event) phase) :
    Told (fun j => (pasts j).add j event) (state.move i phase) where
  standing := told.standing
  asserted := told.asserted
  opened := told.opened
  kept := by
    intro j
    have stays {past : Past} {phase' : Phase} (kept : Kept state j past phase') :
        Kept (state.move i phase) j past phase' := kept.mono rfl (fun _ => id) id
    by_cases here : j = i
    · subst here
      rw [State.move_self]
      exact stays moved
    · rw [State.move_of_ne state here, others j here]
      exact stays (told.kept j)

/-- An event that changes nothing of the Sandbox and nothing an invocation did. -/
theorem Told.same {state : State} (told : Told pasts state)
    (none : ∀ j, (pasts j).add j event = pasts j) :
    Told (fun j => (pasts j).add j event) state := by
  simpa only [none] using told

/-- An event changes what an invocation did and leaves the Sandbox. -/
theorem Told.stay {state : State} (told : Told pasts state) {i : Nat}
    (here : state.invocations i = phase) (others : ∀ j, j ≠ i → (pasts j).add j event = pasts j)
    (kept : Kept state i ((pasts i).add i event) phase) :
    Told (fun j => (pasts j).add j event) state := by
  have moved := told.move others kept
  rwa [State.move, ← here, Function.update_eq_self] at moved

/-! ## Setup -/

/-- Where the Sandbox is not sealed and no invocation starts, none has got anywhere. -/
theorem Told.nothing_started {state : State} (told : Told pasts state) {tables : Tables}
    (opened : state.registry = .opened tables) (alone : state.starting = []) (i : Nat) :
    (state.invocations i = .idle ∧ pasts i = .none) ∨ state.invocations i = .failed := by
  have kept := told.kept i
  cases phase : state.invocations i with
  | idle =>
    rw [phase] at kept
    exact .inl ⟨rfl, kept⟩
  | failed => exact .inr rfl
  | starting run met =>
    rw [phase, Kept, alone] at kept
    exact absurd kept.2.1 (by simp)
  | collecting run held overrides mounts | building held overrides mounts handles
  | running invocation =>
    rw [phase, Kept, opened] at kept
    cases kept.1
  | ended handles =>
    rw [phase, Kept, opened] at kept
    obtain ⟨⟨held, sealed⟩, _⟩ := kept
    cases sealed

/-- A setup call that keeps what was set up together. -/
theorem Told.setup {state next : State} (told : Told pasts state)
    {change : Tables → Tables × List Extension}
    (keeps : ∀ tables, Standing tables state.extensions →
      Standing (change tables).1 (change tables).2)
    (taken : state.setup change = some next) :
    Told pasts next := by
  unfold State.setup at taken
  split at taken
  · cases taken
  · rename_i alone
    have alone : state.starting = [] := by simpa using alone
    cases registry : state.registry with
    | «sealed» tables =>
      simp only [registry, Option.some.injEq] at taken
      exact taken ▸ told
    | opened tables =>
      simp only [registry, Option.some.injEq] at taken
      subst taken
      have standing := told.standing
      rw [registry] at standing
      have never : state.asserted ≠ true := fun asserted =>
        told.opened tables registry asserted alone
      refine ⟨keeps tables standing, fun asserted => absurd asserted never,
        fun _ _ asserted => absurd asserted never, ?_⟩
      intro i
      rcases told.nothing_started registry alone i with ⟨idle, none⟩ | failed
      · simpa only [idle, Kept] using none
      · simp only [failed, Kept]

/-- A setup call's refusal leaves the tables. -/
theorem Standing.after {tables : Tables} {extensions : List Extension}
    (standing : Standing tables extensions) {answer : Except Error Tables}
    (accepted : ∀ next, answer = .ok next → Standing next extensions) :
    Standing (State.after tables answer) extensions := by
  cases answer with
  | error refused => exact standing
  | ok next => exact accepted next rfl

/-- The setup calls keep what was set up together. -/
theorem Told.setup_step {state next : State} (told : Told pasts state)
    (none : ∀ j, (pasts j).add j event = pasts j) {change : Tables → Tables × List Extension}
    (setup : state.step presents event = state.setup change)
    (keeps : ∀ tables, Standing tables state.extensions →
      Standing (change tables).1 (change tables).2)
    (taken : state.step presents event = some next) :
    Told (fun j => (pasts j).add j event) next :=
  (told.setup keeps (setup ▸ taken)).same none

/-! ## Starting an invocation -/

/-- An invocation that did nothing starts. -/
theorem Told.begins {state : State} (told : Told pasts state) {i : Nat}
    (idle : state.invocations i = .idle) (run : Bool) : Told pasts (state.begins i run) := by
  have nothing : pasts i = .none := by
    have kept := told.kept i
    rwa [idle] at kept
  have met : (state.asserted || (unmet state.extensions).isNone) = true →
      unmet state.extensions = none := by
    intro either
    rcases Bool.or_eq_true_iff.mp either with asserted | isNone
    · exact told.asserted asserted
    · exact Option.isNone_iff_eq_none.mp isNone
  refine ⟨told.standing, met, fun _ _ _ => by simp [State.begins], fun j => ?_⟩
  have stays {past : Past} {phase : Phase} (kept : Kept state j past phase) :
      Kept (state.begins i run) j past phase :=
    kept.mono rfl (fun _ => id) (List.mem_cons_of_mem i)
  by_cases here : j = i
  · subst here
    rw [State.begins_self]
    exact ⟨nothing, List.mem_cons_self, met⟩
  · rw [State.begins_of_ne state here]
    exact stays (told.kept j)

/-- The seal leaves what was sealed, and of what was not the services and the Mounts. -/
theorem Told.seal {state : State} (told : Told pasts state) (met : Bool)
    (compiled : Tables.Compiled) :
    Standing (state.registry.seal met compiled).1 state.extensions ∧
      ∀ tables, state.registry = .sealed tables →
        (Registry.sealed (state.registry.seal met compiled).1) = .sealed tables := by
  have standing := told.standing
  cases registry : state.registry with
  | «sealed» tables =>
    rw [registry] at standing
    exact ⟨standing, fun _ same => same⟩
  | opened tables =>
    rw [registry] at standing
    refine ⟨?_, fun _ same => by cases same⟩
    cases met with
    | true => exact standing.compile compiled
    | false => exact standing

/-- Nothing is stood in yet. -/
theorem stands_none (tables : Tables) : Stands tables .none [] [] where
  bound := by simp [Past.none]
  mounted := by simp [Past.none]

/-- An invocation goes past the seal only where the dependencies are met. -/
theorem Told.seals {state : State} (told : Told pasts state) {i : Nat} {run met : Bool}
    (starting : state.invocations i = .starting run met) (compiled : Tables.Compiled) :
    Told pasts (state.seals i compiled run met) := by
  have kept := told.kept i
  rw [starting] at kept
  obtain ⟨nothing, _, dependencies⟩ := kept
  obtain ⟨standing, stays⟩ := told.seal met compiled
  refine ⟨standing, told.asserted, fun _ opened => (by cases opened), fun j => ?_⟩
  by_cases here : j = i
  · subst here
    rw [State.seals_self]
    by_cases fails : ((state.registry.seal met compiled).2 || !met) = true
    · rw [if_pos fails]
      trivial
    · rw [if_neg fails]
      have isMet : met = true := by
        cases met with
        | true => rfl
        | false => simp at fails
      rw [nothing]
      exact ⟨rfl, dependencies isMet, stands_none _, rfl⟩
  · rw [State.seals_of_ne state here]
    refine (told.kept j).mono rfl stays ?_
    intro among
    exact List.mem_filter.mpr ⟨among, by simpa using here⟩

/-! ## Standing objects and Mounts in -/

/-- The last object bound at a path that was set up stands there. -/
theorem Stands.bind {tables : Tables} {past : Past} (stands : Stands tables past overrides mounts)
    {path : String} (declared : (tables.lookup path).isNone = false) (object : Nat) :
    Stands tables { past with bound := Function.update past.bound path (some object) }
      (replace (·.1) overrides (path, .host object)) mounts := by
  refine ⟨fun other => ?_, stands.mounted⟩
  rw [find?_replace]
  by_cases here : path = other
  · subst here
    obtain ⟨base, found⟩ := Option.isSome_iff_exists.mp (by simpa using declared)
    simp [found]
  · rw [if_neg here, stands.bound other]
    simp [Ne.symm here]

/-- A bind at a path that was not set up is refused and means nothing. -/
theorem Stands.bind_refused {tables : Tables} {past : Past}
    (stands : Stands tables past overrides mounts) {path : String}
    (undeclared : (tables.lookup path).isNone = true) (object : Nat) :
    Stands tables { past with bound := Function.update past.bound path (some object) }
      overrides mounts := by
  refine ⟨fun other => ?_, stands.mounted⟩
  rw [stands.bound other]
  by_cases here : path = other
  · subst here
    rw [Option.isNone_iff_eq_none.mp undeclared]
    rfl
  · simp [Ne.symm here]

/-- The last Mount put at a path that was mounted stands there. -/
theorem Stands.mount {tables : Tables} {past : Past} (stands : Stands tables past overrides mounts)
    {mount : Mount} (isMounted : tables.isMounted mount.path = true) :
    Stands tables { past with mounted := Function.update past.mounted mount.path (some mount) }
      overrides (replace (·.path) mounts mount) := by
  refine ⟨stands.bound, fun other => ?_⟩
  rw [find?_replace]
  by_cases here : mount.path = other
  · subst here
    simp [isMounted]
  · rw [if_neg here, stands.mounted other]
    simp [Ne.symm here]

/-- A Mount at a path nothing was mounted at is refused and stands nowhere. -/
theorem Stands.mount_refused {tables : Tables} {past : Past}
    (stands : Stands tables past overrides mounts) {mount : Mount}
    (free : tables.isMounted mount.path = false) :
    Stands tables { past with mounted := Function.update past.mounted mount.path (some mount) }
      overrides mounts := by
  refine ⟨stands.bound, fun other => ?_⟩
  rw [stands.mounted other]
  by_cases here : mount.path = other
  · subst here
    simp [free]
  · simp [Ne.symm here]

/-! ## Running the guest -/

/-- Objects are handed over until the ids are used up. -/
theorem alloc_take (given : List Nat) (object : Nat) :
    alloc (given.take maxHandleId) object = (given ++ [object]).take maxHandleId := by
  have small : maxHandleId < UInt32.size := by decide
  have length : (given.take maxHandleId).length = min maxHandleId given.length :=
    List.length_take ..
  have fits : (given.take maxHandleId).length % UInt32.size = (given.take maxHandleId).length :=
    Nat.mod_eq_of_lt (by omega)
  unfold alloc
  rw [fits]
  split
  · rename_i used
    have full : maxHandleId ≤ given.length := by omega
    rw [List.take_append_of_le_length full]
  · rename_i free
    have short : given.length < maxHandleId := by omega
    rw [List.take_of_length_le (by omega), List.take_of_length_le (by simp; omega)]

/-- An id goes on to stand for the object it stands for. -/
theorem get_append {handles : List Nat} {id : UInt32} (more : List Nat)
    (found : get handles id = some object) : get (handles ++ more) id = some object := by
  unfold get at found ⊢
  split at found
  · cases found
  · rename_i issued
    rw [if_neg issued]
    have within : id.toNat - 1 < handles.length := by
      by_contra past
      rw [List.getElem?_eq_none (by omega)] at found
      cases found
    rw [List.getElem?_append_left within, found]

/-- A table that only grows keeps what an id stands for. -/
theorem get_alloc {handles : List Nat} {id : UInt32} (given : Nat)
    (found : get handles id = some object) : get (alloc handles given) id = some object := by
  unfold alloc
  split
  · exact found
  · exact get_append [given] found

/-- A target goes on to be resolved to what it was. -/
theorem resolveTarget_alloc {invocation : Invocation} {target : Target} {object : Object}
    (found : invocation.resolveTarget target = .ok object) (given : Nat) :
    { invocation with handles := alloc invocation.handles given }.resolveTarget target =
      .ok object := by
  cases target with
  | path path => exact found
  | handle id =>
    cases held : get invocation.handles id with
    | none => simp [Invocation.resolveTarget, held] at found
    | some entry =>
      simp only [Invocation.resolveTarget, held] at found
      simp only [Invocation.resolveTarget, get_alloc given held]
      exact found

/-- An Extension resolved for each invocation is bound. -/
theorem Standing.lookup_fresh {tables : Tables} {extensions : List Extension}
    (standing : Standing tables extensions) {path : String} {provider : Nat}
    (here : providerAt extensions path = some provider) :
    (path, provider) ∈ extensions.filterMap Extension.fresh ∧ (tables.lookup path).isSome := by
  obtain ⟨request, found, rfl⟩ := Option.map_eq_some_iff.mp here
  have named : request.1 = path := by simpa using List.find?_some found
  have among := List.mem_of_find?_eq_some found
  subst named
  refine ⟨among, ?_⟩
  obtain ⟨extension, installed, fresh⟩ := List.mem_filterMap.mp among
  unfold Extension.fresh at fresh
  split at fresh
  · rename_i path provider backend
    cases fresh
    have bound := standing.bound extension installed _ backend
    rw [Option.isSome_iff_exists]
    exact ⟨_, (Catalog.lookup_eq_some standing.antichain).mpr bound⟩
  · cases fresh

/-- The guest starts with what its invocation did. -/
theorem runs_invoke {tables : Tables} {extensions : List Extension} {past : Past}
    {handles : List Nat} (standing : Standing tables extensions)
    (stands : Stands tables past overrides mounts) (given : handles = past.given.take maxHandleId)
    (provide : Nat → Nat → Nat) :
    Runs extensions { past with provide := some provide }
      { tables, handles
        resolved := overrides ++ (resolve extensions provide).2
        made := (resolve extensions provide).1
        grants := tables.forInvocation mounts
        frames := []
        replies := [] } := by
  have provided : ∀ path provider, providerAt extensions path = some provider →
      ∃ object, (resolve extensions provide).1.lookup provider = some object := by
    intro path provider here
    exact called_of_mem provide [] _ (standing.lookup_fresh here).1
  refine ⟨fun path => ?_, ⟨provide, rfl, ?_⟩, provided, ?_, given, by simp, by simp⟩
  · have found : ((overrides ++ (resolve extensions provide).2).find? (·.1 == path)).map (·.2) =
        ((tables.lookup path).bind fun _ => (past.bound path).map .host).or
          ((providerAt extensions path).bind fun provider =>
            ((resolve extensions provide).1.lookup provider).map .host) := by
      rw [List.find?_append, Option.map_or, stands.bound path, resolve, find?_resolveFrom]
      rfl
    simp only [Invocation.resolveTarget, found, means]
    cases declared : tables.lookup path with
    | none =>
      have absent : providerAt extensions path = none := by
        by_contra some
        obtain ⟨provider, here⟩ := Option.ne_none_iff_exists'.mp some
        have bound := (standing.lookup_fresh here).2
        simp [declared] at bound
      simp [absent]
    | some base =>
      cases bound : past.bound path with
      | some object => simp
      | none =>
        cases here : providerAt extensions path with
        | none => simp
        | some provider =>
          obtain ⟨object, answered⟩ := provided path provider here
          simp [answered]
  · exact Called.resolveFrom ⟨by simp, by simp⟩ _
  · refine List.map_congr_left fun mount among => ?_
    have isMounted : tables.isMounted mount.path = true :=
      List.any_eq_true.mpr ⟨mount, among, by simp⟩
    rw [stands.mounted mount.path, if_pos isMounted]

/-- An object handed over is the guest's next. -/
theorem Runs.alloc {extensions : List Extension} {past : Past} {invocation : Invocation}
    (runs : Runs extensions past invocation) (object : Nat) :
    Runs extensions { past with given := past.given ++ [object] }
      { invocation with handles := Sandbox.alloc invocation.handles object } where
  paths := runs.paths
  called := runs.called
  provided := runs.provided
  grants := runs.grants
  handles := by rw [runs.handles, alloc_take]
  frames := fun frame among => resolveTarget_alloc (runs.frames frame among) object
  replies := runs.replies

/-- Calls under way may change as long as each runs what its target names. -/
theorem Runs.with_frames {extensions : List Extension} {past : Past} {invocation : Invocation}
    (runs : Runs extensions past invocation) {frames : List Frame}
    (named : ∀ frame ∈ frames,
      invocation.resolveTarget frame.call.target = .ok (.host frame.object)) :
    Runs extensions past { invocation with frames } :=
  ⟨runs.paths, runs.called, runs.provided, runs.grants, runs.handles, named, runs.replies⟩

/-- The innermost call may change as long as it stays the call of its object. -/
theorem Runs.with_head {extensions : List Extension} {past : Past} {invocation : Invocation}
    (runs : Runs extensions past invocation) {frame changed : Frame} {rest : List Frame}
    (split : invocation.frames = frame :: rest) (call : changed.call = frame.call)
    (object : changed.object = frame.object) :
    Runs extensions past { invocation with frames := changed :: rest } := by
  refine runs.with_frames fun other among => ?_
  rcases List.mem_cons.mp among with rfl | later
  · rw [call, object]
    exact runs.frames frame (split ▸ List.mem_cons_self)
  · exact runs.frames other (split ▸ List.mem_cons_of_mem _ later)

/-- A reply that a path's meaning allows may be given. -/
theorem Runs.reply {extensions : List Extension} {past : Past} {invocation : Invocation}
    (runs : Runs extensions past invocation) {call : Call} {reply : Reply}
    (meant : ∀ path, call.target = .path path →
      (∀ fault, invocation.resolveTarget (.path path) = .error fault → reply = .fault fault) ∧
      (invocation.resolveTarget (.path path) = .ok .unresolved → reply = .fault unresolvedFault)) :
    Runs extensions past (invocation.reply call reply) := by
  refine ⟨runs.paths, runs.called, runs.provided, runs.grants, runs.handles, runs.frames, ?_⟩
  intro answered among
  rcases List.mem_append.mp among with older | newest
  · exact runs.replies answered older
  · rw [List.mem_singleton.mp newest]
    exact meant

/-- A call runs the object its target names, or is answered at once. -/
theorem Runs.answer {extensions : List Extension} {past : Past} {invocation : Invocation}
    (runs : Runs extensions past invocation) (call : Call) (exposed : Bool) :
    Runs extensions past (invocation.answer call exposed) := by
  unfold Invocation.answer
  cases named : invocation.resolveTarget call.target with
  | error fault =>
    refine runs.reply fun path target => ?_
    rw [← target, named]
    simp
  | ok object =>
    cases object with
    | unresolved =>
      refine runs.reply fun path target => ?_
      rw [← target, named]
      simp
    | host object =>
      simp only
      split
      · refine runs.with_frames fun frame among => ?_
        rcases List.mem_cons.mp among with rfl | older
        · exact named
        · exact runs.frames frame older
      · refine runs.reply fun path target => ?_
        rw [← target, named]
        simp

/-- A call changes no table. -/
theorem tables_answer (invocation : Invocation) (call : Call) (exposed : Bool) :
    (invocation.answer call exposed).tables = invocation.tables := by
  unfold Invocation.answer
  cases invocation.resolveTarget call.target with
  | error fault => rfl
  | ok object =>
    cases object with
    | unresolved => rfl
    | host object =>
      simp only
      split <;> rfl

/-- The innermost call is answered. -/
theorem Runs.returns {extensions : List Extension} {past : Past} {invocation : Invocation}
    (runs : Runs extensions past invocation) {frame : Frame} {rest : List Frame}
    (split : invocation.frames = frame :: rest) (reply : Reply) :
    Runs extensions past ({ invocation with frames := rest }.reply frame.call reply) := by
  have below : Runs extensions past { invocation with frames := rest } :=
    runs.with_frames fun other among =>
      runs.frames other (split ▸ List.mem_cons_of_mem _ among)
  have named := runs.frames frame (split ▸ List.mem_cons_self)
  refine below.reply fun path target => ?_
  have same : { invocation with frames := rest }.resolveTarget (.path path) =
      .ok (.host frame.object) := by
    rw [← named, target]
    rfl
  rw [same]
  simp

/-! ## Steps and runs -/

/-- An invocation whose caller is standing things in. -/
theorem Told.collecting {state : State} (told : Told pasts state) {i : Nat} {run : Bool}
    {tables : Tables} (phase : state.invocations i = .collecting run tables overrides mounts) :
    state.registry = .sealed tables ∧ unmet state.extensions = none ∧
      Stands tables (pasts i) overrides mounts ∧ (pasts i).given = [] := by
  have kept := told.kept i
  rwa [phase] at kept

/-- An invocation whose arguments are being built. -/
theorem Told.building {state : State} (told : Told pasts state) {i : Nat} {tables : Tables}
    {handles : List Nat} (phase : state.invocations i = .building tables overrides mounts handles) :
    state.registry = .sealed tables ∧ unmet state.extensions = none ∧
      Stands tables (pasts i) overrides mounts ∧ handles = (pasts i).given.take maxHandleId := by
  have kept := told.kept i
  rwa [phase] at kept

/-- An invocation whose guest runs. -/
theorem Told.running {state : State} (told : Told pasts state) {i : Nat} {invocation : Invocation}
    (phase : state.invocations i = .running invocation) :
    state.registry = .sealed invocation.tables ∧ unmet state.extensions = none ∧
      Runs state.extensions (pasts i) invocation := by
  have kept := told.kept i
  rwa [phase] at kept

/-- A running invocation moves on to what its guest may hold. -/
theorem Told.runs_on {state : State} (told : Told pasts state) {i : Nat}
    {invocation next : Invocation} (phase : state.invocations i = .running invocation)
    (others : ∀ j, j ≠ i → (pasts j).add j event = pasts j)
    (tables : next.tables = invocation.tables)
    (runs : Runs state.extensions ((pasts i).add i event) next) :
    Told (fun j => (pasts j).add j event) (state.move i (.running next)) := by
  obtain ⟨registry, met, _⟩ := told.running phase
  exact told.move others ⟨tables ▸ registry, met, runs⟩

/-- The guest starts. -/
theorem Told.invoke {state : State} (told : Told pasts state) {i : Nat} (provide : Nat → Nat → Nat)
    {tables : Tables} {handles : List Nat} (registry : state.registry = .sealed tables)
    (met : unmet state.extensions = none) (stands : Stands tables (pasts i) overrides mounts)
    (given : handles = (pasts i).given.take maxHandleId) :
    Told (fun j => (pasts j).add j (.invoke i provide))
      (state.invoke i provide tables overrides mounts handles) := by
  refine told.move (fun j apart => by simp [Past.add, Ne.symm apart]) ?_
  have standing := told.standing
  rw [registry] at standing
  have added : (pasts i).add i (.invoke i provide) =
      { pasts i with provide := some provide } := by simp [Past.add]
  rw [added]
  exact ⟨registry, met, runs_invoke standing stands given provide⟩

/-- An object bound by the caller. -/
theorem Told.override {state next : State} {i : Nat} {path : String} (told : Told pasts state)
    (taken : state.step presents (.override i path object) = some next) :
    Told (fun j => (pasts j).add j (.override i path object)) next := by
  have others : ∀ j, j ≠ i → (pasts j).add j (.override i path object) = pasts j :=
    fun j apart => by simp [Past.add, Ne.symm apart]
  have added : (pasts i).add i (.override i path object) =
      { pasts i with bound := Function.update (pasts i).bound path (some object) } := by
    simp [Past.add]
  cases phase : state.invocations i with
  | collecting run tables overrides mounts =>
    obtain ⟨registry, met, stands, given⟩ := told.collecting phase
    simp only [State.step, phase] at taken
    split at taken
    · rename_i undeclared
      cases taken
      refine told.stay phase others ?_
      rw [added]
      exact ⟨registry, met, stands.bind_refused undeclared object, given⟩
    · rename_i declared
      cases taken
      refine told.move others ?_
      rw [added]
      exact ⟨registry, met, stands.bind (Bool.eq_false_of_not_eq_true declared) object, given⟩
  | _ => simp [State.step, phase] at taken

/-- A Mount put by the caller. -/
theorem Told.remount {state next : State} {i : Nat} {path : String} {filesystem : Nat}
    {readOnly : Bool} {policy : Option Nat} (told : Told pasts state)
    (taken : state.step presents (.remount i path filesystem readOnly policy) = some next) :
    Told (fun j => (pasts j).add j (.remount i path filesystem readOnly policy)) next := by
  have others : ∀ j, j ≠ i →
      (pasts j).add j (.remount i path filesystem readOnly policy) = pasts j :=
    fun j apart => by simp [Past.add, Ne.symm apart]
  cases phase : state.invocations i with
  | collecting run tables overrides mounts =>
    obtain ⟨registry, met, stands, given⟩ := told.collecting phase
    cases made : Mount.new path filesystem readOnly policy with
    | error refused =>
      simp only [State.step, phase, made, Option.some.injEq] at taken
      have added : (pasts i).add i (.remount i path filesystem readOnly policy) = pasts i := by
        simp [Past.add, made]
      refine taken ▸ told.stay phase others ?_
      rw [added]
      exact ⟨registry, met, stands, given⟩
    | ok mount =>
      have placed : mount.path = path := by
        unfold Mount.new at made
        split at made
        · cases made
          rfl
        · cases made
      have added : (pasts i).add i (.remount i path filesystem readOnly policy) =
          { pasts i with
            mounted := Function.update (pasts i).mounted mount.path (some mount) } := by
        simp [Past.add, made, placed]
      simp only [State.step, phase, made] at taken
      split at taken
      · rename_i free
        cases taken
        refine told.stay phase others ?_
        rw [added]
        exact ⟨registry, met, stands.mount_refused (by simpa using free), given⟩
      · rename_i isMounted
        cases taken
        refine told.move others ?_
        rw [added]
        exact ⟨registry, met, stands.mount (by simpa using isMounted), given⟩
  | _ => simp [State.step, phase] at taken

/-- An object handed to the guest. -/
theorem Told.alloc {state next : State} {i object : Nat} (told : Told pasts state)
    (taken : state.step presents (.alloc i object) = some next) :
    Told (fun j => (pasts j).add j (.alloc i object)) next := by
  have others : ∀ j, j ≠ i → (pasts j).add j (.alloc i object) = pasts j :=
    fun j apart => by simp [Past.add, Ne.symm apart]
  have added : (pasts i).add i (.alloc i object) =
      { pasts i with given := (pasts i).given ++ [object] } := by simp [Past.add]
  cases phase : state.invocations i with
  | building tables overrides mounts handles =>
    obtain ⟨registry, met, stands, given⟩ := told.building phase
    simp only [State.step, phase, Option.some.injEq] at taken
    refine taken ▸ told.move others ?_
    rw [added]
    exact ⟨registry, met, ⟨stands.bound, stands.mounted⟩, given ▸ alloc_take _ object⟩
  | running invocation =>
    simp only [State.step, phase] at taken
    split at taken
    · cases taken
      refine told.runs_on phase others rfl ?_
      rw [added]
      exact (told.running phase).2.2.alloc object
    · cases taken
  | _ => simp [State.step, phase] at taken

/-- The guest starts, from a closure that returned or from arguments that were built. -/
theorem Told.invoke_step {state next : State} {i : Nat} {provide : Nat → Nat → Nat}
    (told : Told pasts state) (taken : state.step presents (.invoke i provide) = some next) :
    Told (fun j => (pasts j).add j (.invoke i provide)) next := by
  cases phase : state.invocations i with
  | collecting run tables overrides mounts =>
    obtain ⟨registry, met, stands, given⟩ := told.collecting phase
    cases run with
    | true => simp [State.step, phase] at taken
    | false =>
      simp only [State.step, phase, Option.some.injEq] at taken
      exact taken ▸ told.invoke provide registry met stands (by simp [given])
  | building tables overrides mounts handles =>
    obtain ⟨registry, met, stands, given⟩ := told.building phase
    simp only [State.step, phase, Option.some.injEq] at taken
    exact taken ▸ told.invoke provide registry met stands given
  | _ => simp [State.step, phase] at taken

/-- The calls of the guest, and the yields and answers of the objects that run them. -/
theorem Told.frames_step {state next : State} {i : Nat} (told : Told pasts state)
    (which : (∃ call exposed, event = .dispatch i call exposed) ∨ event = .yields i ∨
      (∃ reply, event = .yielded i reply) ∨ ∃ answer, event = .returns i answer)
    (taken : state.step presents event = some next) :
    Told (fun j => (pasts j).add j event) next := by
  cases phase : state.invocations i with
  | running invocation =>
    have runs := (told.running phase).2.2
    rcases which with ⟨call, exposed, rfl⟩ | others
    · simp only [State.step, phase] at taken
      split at taken
      · cases taken
        exact told.runs_on phase (fun _ _ => rfl) (tables_answer ..) (runs.answer call exposed)
      · cases taken
    · -- each of the others is about the innermost call
      cases frames : invocation.frames with
      | nil =>
        rcases others with rfl | ⟨reply, rfl⟩ | ⟨answer, rfl⟩ <;>
          simp [State.step, phase, frames] at taken
      | cons frame rest =>
        rcases others with rfl | ⟨reply, rfl⟩ | ⟨answer, rfl⟩
        all_goals
          simp only [State.step, phase, frames] at taken
          split at taken
        · cases taken
          exact told.runs_on phase (fun _ _ => rfl) rfl (runs.with_head frames rfl rfl)
        · cases taken
        · cases taken
          exact told.runs_on phase (fun _ _ => rfl) rfl (runs.with_head frames rfl rfl)
        · cases taken
        · cases taken
        · cases taken
          exact told.runs_on phase (fun _ _ => rfl) rfl (runs.returns frames _)
  | _ =>
    rcases which with ⟨call, exposed, rfl⟩ | rfl | ⟨reply, rfl⟩ | ⟨answer, rfl⟩ <;>
      simp [State.step, phase] at taken

/-- Every step keeps what holds of the Sandbox. -/
theorem Told.step {state next : State} (told : Told pasts state)
    (taken : state.step presents event = some next) :
    Told (fun i => (pasts i).add i event) next := by
  cases event with
  | bind path object | bindFillable path =>
    exact told.setup_step (fun _ => rfl) rfl
      (fun tables standing => standing.after fun _ bound => (standing.bind bound).1) taken
  | mount path filesystem readOnly policy =>
    refine told.setup_step (fun _ => rfl) rfl
      (fun tables standing => standing.after fun next mounted => ?_) taken
    cases made : Mount.new path filesystem readOnly policy with
    | error refused => simp [made, State.registerMount] at mounted
    | ok mount =>
      rw [made, State.registerMount] at mounted
      split at mounted
      · exact standing.mount mounted
      · cases mounted
  | install extension =>
    exact told.setup_step (fun _ => rfl) rfl
      (fun tables standing => standing.install extension) taken
  | preload name source =>
    exact told.setup_step (fun _ => rfl) rfl
      (fun tables standing => standing.after fun _ => standing.registerSource) taken
  | preloadBinary bytecode =>
    exact told.setup_step (fun _ => rfl) rfl
      (fun tables standing => standing.of_eq rfl rfl) taken
  | flag name value critical =>
    exact told.setup_step (fun _ => rfl) rfl
      (fun tables standing => standing.after fun _ => standing.flag) taken
  | begins i target =>
    cases phase : state.invocations i with
    | idle =>
      cases target with
      | none =>
        simp only [State.step, phase, Option.some.injEq] at taken
        exact taken ▸ (told.begins phase false).same fun _ => rfl
      | some name =>
        simp only [State.step, phase] at taken
        split at taken
        · cases taken
          exact (told.begins phase true).same fun _ => rfl
        · cases taken
          exact told.move (fun _ _ => rfl) trivial
    | _ => simp [State.step, phase] at taken
  | seals i compiled =>
    cases phase : state.invocations i with
    | starting run met =>
      simp only [State.step, phase, Option.some.injEq] at taken
      exact taken ▸ (told.seals phase compiled).same fun _ => rfl
    | _ => simp [State.step, phase] at taken
  | override i path object => exact told.override taken
  | remount i path filesystem readOnly policy => exact told.remount taken
  | collected i =>
    cases phase : state.invocations i with
    | collecting run tables overrides mounts =>
      obtain ⟨registry, met, stands, given⟩ := told.collecting phase
      cases run with
      | true =>
        simp only [State.step, phase, Option.some.injEq] at taken
        refine taken ▸ told.move (fun _ _ => rfl) ⟨registry, met, stands, ?_⟩
        simp [Past.add, given]
      | false => simp [State.step, phase] at taken
    | _ => simp [State.step, phase] at taken
  | invoke i provide => exact told.invoke_step taken
  | alloc i object => exact told.alloc taken
  | dispatch i call exposed => exact told.frames_step (.inl ⟨call, exposed, rfl⟩) taken
  | yields i => exact told.frames_step (.inr (.inl rfl)) taken
  | yielded i reply => exact told.frames_step (.inr (.inr (.inl ⟨reply, rfl⟩))) taken
  | returns i answer => exact told.frames_step (.inr (.inr (.inr ⟨answer, rfl⟩))) taken
  | finish i =>
    cases phase : state.invocations i with
    | running invocation =>
      obtain ⟨registry, _, runs⟩ := told.running phase
      simp only [State.step, phase] at taken
      split at taken
      · cases taken
        exact told.move (fun _ _ => rfl) ⟨⟨_, registry⟩, runs.handles⟩
      · cases taken
    | _ => simp [State.step, phase] at taken
  | fails i =>
    cases phase : state.invocations i with
    | idle | starting | ended | failed => simp [State.step, phase] at taken
    | _ =>
      simp only [State.step, phase, Option.some.injEq] at taken
      exact taken ▸ told.move (fun _ _ => rfl) trivial

/-- What holds of the Sandbox after a run. -/
theorem told_run {events : List Event} {state last : State} (told : Told pasts state)
    (ran : run (State.step presents) state events = some last) :
    Told (fun i => events.foldl (Past.add i) (pasts i)) last := by
  induction events generalizing state pasts with
  | nil => exact Option.some.inj ran ▸ told
  | cons event events ih =>
    rw [run] at ran
    cases taken : state.step presents event with
    | none => simp [taken] at ran
    | some next =>
      rw [taken] at ran
      exact ih (told.step taken) ran

/-- No dependency is unmet where each names an Extension that is installed. -/
theorem installed_of_unmet {extensions : List Extension} (met : unmet extensions = none)
    {extension : Extension} (among : extension ∈ extensions) {dependency : String}
    (needs : dependency ∈ extension.dependsOn) :
    ∃ other ∈ extensions, other.name = dependency := by
  rw [unmet, List.findSome?_eq_none_iff] at met
  have none := Option.map_eq_none_iff.mp (met extension among)
  have found := List.find?_eq_none.mp none dependency needs
  simpa using found

/-- The guests of a shared Sandbox reach what was set up. However setup calls and the steps of
invocations fall, a guest that runs sees the one sealed table, whose Extensions all have what they
depend on. A path it calls reaches the object its own invocation last bound there, else the one the
path's provider made for this invocation, each provider called once for it, else the one set up; and
the paths that reach one are those its Preamble names. A Handle reaches the object this invocation
handed it under that number, and goes on to after the run. Its Mounts are those set up, the last one
put at a path in that one's place. An object runs only a call whose target it is, and a call to a
path that means nothing, or that no object was supplied for, was answered as undefined. -/
theorem guests_reach_what_was_set_up (presents : Bool) {events : List Event} {state : State}
    (ran : run (State.step presents) start events = some state) (i : Nat) :
    (∀ invocation, state.invocations i = .running invocation →
      state.registry = .sealed invocation.tables ∧
      (∀ extension ∈ state.extensions, ∀ dependency ∈ extension.dependsOn,
        ∃ other ∈ state.extensions, other.name = dependency) ∧
      (∀ path, invocation.resolveTarget (.path path) =
        (means invocation.tables state.extensions (past i events) invocation.made path).elim
          (.error ⟨.undefined, "unknown constant " ++ path⟩) .ok) ∧
      (∀ path, path ∈ invocation.tables.preamble.bindings ↔
        ∃ object, invocation.resolveTarget (.path path) = .ok object) ∧
      (∃ provide, (past i events).provide = some provide ∧ Called provide invocation.made) ∧
      (∀ path provider, providerAt state.extensions path = some provider →
        ∃ object, invocation.made.lookup provider = some object) ∧
      (∀ id, invocation.resolveTarget (.handle id) =
        (get ((past i events).given.take maxHandleId) id).elim
          (.error ⟨.undefined, "unknown Handle id: " ++ toString id.toNat⟩)
          fun object => .ok (.host object)) ∧
      invocation.grants = invocation.tables.mounts.map (fun mount =>
        ((past i events).mounted mount.path).getD mount) ∧
      (∀ frame ∈ invocation.frames,
        invocation.resolveTarget frame.call.target = .ok (.host frame.object)) ∧
      (∀ answered ∈ invocation.replies, ∀ path, answered.1.target = .path path →
        (path ∉ invocation.tables.preamble.bindings →
          answered.2 = .fault ⟨.undefined, "unknown constant " ++ path⟩) ∧
        (invocation.resolveTarget (.path path) = .ok .unresolved →
          answered.2 = .fault unresolvedFault))) ∧
    (∀ handles, state.invocations i = .ended handles →
      handles = (past i events).given.take maxHandleId) := by
  have told : Told (fun j => past j events) state := told_run told_start ran
  constructor
  · intro invocation phase
    obtain ⟨registry, met, runs⟩ := told.running phase
    have standing : Standing invocation.tables state.extensions := by
      have held := told.standing
      rwa [registry] at held
    have declared : ∀ path, path ∈ invocation.tables.preamble.bindings ↔
        ∃ object, invocation.resolveTarget (.path path) = .ok object := by
      intro path
      rw [standing.mem_preamble path, runs.paths path, means]
      cases invocation.tables.lookup path with
      | none => simp
      | some base => simp
    refine ⟨registry, fun extension among dependency => installed_of_unmet met among, runs.paths,
      declared, runs.called, runs.provided, fun id => ?_, runs.grants, runs.frames, ?_⟩
    · rw [Invocation.resolveTarget, runs.handles]
      cases get ((past i events).given.take maxHandleId) id with
      | none => rfl
      | some object => rfl
    · intro answered among path target
      refine ⟨fun absent => ?_, (runs.replies answered among path target).2⟩
      refine (runs.replies answered among path target).1 _ ?_
      have none : invocation.tables.lookup path = none := by
        rw [standing.mem_preamble path] at absent
        simpa using absent
      rw [runs.paths path, means, none]
      rfl
  · intro handles phase
    have kept := told.kept i
    rw [phase] at kept
    exact kept.2

/-- Two Extensions share a provider. An invocation binds over one of them, its guest calls the other
and a path nothing is bound at, and is handed an object that it calls. -/
def overridden : List Event :=
  [.install ⟨"File", "", [], some ⟨"File", .perInvocation 7⟩⟩,
    .install ⟨"Dir", "", ["File"], some ⟨"Dir", .perInvocation 7⟩⟩,
    .begins 0 none, .seals 0 (.answered none), .override 0 "File" 3, .invoke 0 fun _ _ => 5,
    .dispatch 0 ⟨.path "Dir", "open", false, []⟩ true, .alloc 0 9, .returns 0 (.ok []),
    .dispatch 0 ⟨.path "Gone", "open", false, []⟩ true,
    .dispatch 0 ⟨.handle 1, "read", false, []⟩ true]

theorem guests_reach_what_was_overridden : ∃ state invocation,
    run (State.step true) start overridden = some state ∧
    state.invocations 0 = .running invocation ∧ invocation.made = [(7, 5)] ∧
    invocation.resolveTarget (.path "File") = .ok (.host 3) ∧
    invocation.resolveTarget (.path "Dir") = .ok (.host 5) ∧
    invocation.resolveTarget (.handle 1) = .ok (.host 9) ∧
    invocation.replies.map (·.2) =
      [.ok [], .fault ⟨.undefined, "unknown constant Gone"⟩] := by
  have reach := fun state (ran : run (State.step true) start overridden = some state) =>
    (guests_reach_what_was_set_up true ran 0).1
  refine ⟨_, _, rfl, rfl, rfl, ?_, ?_, ?_, rfl⟩
  · exact (reach _ rfl _ rfl).2.2.1 "File"
  · exact (reach _ rfl _ rfl).2.2.1 "Dir"
  · exact (reach _ rfl _ rfl).2.2.2.2.2.2.1 1

end Kobako.Sandbox
