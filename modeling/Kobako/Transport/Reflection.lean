import Mathlib.Data.List.Basic

/-!
# The surface a Service shows the guest

The dispatcher sends a guest's method name to a Host App's object only where `Reflection.refusal`
finds no reason against it: a floor read off Ruby's method tables as they stand at the call, and
the names of the reference's Exposure, fixed when the reference was made. Those a class gives it are
fixed earlier still, when the Handle table that made the reference first made one to an object of
the class. Host code may define, alias, rebind, hide and undefine methods between the three.

An object answers `is_a?`, `class`, `singleton_methods` and `public_send` as Kernel does; what it
answers to `respond_to?`, `members` and `respond_to_guest?` is its own. No module is prepended to
the singleton class of a single object.
-/

namespace Kobako.Transport.Reflection

inductive Visibility
  | isPublic
  | isProtected
  | isPrivate
deriving DecidableEq

/-- A method's body, as an alias, a copy or a rebinding keeps it. -/
structure Body where
  /-- `original_name`. -/
  originalName : String
  /-- `source_location`, none for a native method. -/
  sourceLocation : Option (String × Nat)
deriving DecidableEq

/-- What a module's method table holds for a name. -/
inductive Entry
  | method (visibility : Visibility) (body : Body)
  /-- `public :name` of a method that is inherited. -/
  | visibility (visibility : Visibility)
  /-- `undef_method`. -/
  | undefined

/-- The modules and objects of a Ruby process, as they stand at one moment. -/
structure World (ω ο : Type) where
  /-- `ancestors`. -/
  ancestors : ω → List ω
  table : ω → List (String × Entry)
  /-- `singleton_class?`. -/
  isSingletonClass : ω → Bool
  classClass : ω
  moduleClass : ω
  procClass : ω
  methodClass : ω
  unboundMethodClass : ω
  bindingClass : ω
  structClass : ω
  dataClass : ω
  delegatorClass : ω
  /-- `class`. -/
  classOf : ο → ω
  /-- The singleton class, once there is one, and the modules the object is extended with. -/
  singleton : ο → Option (ω × List ω)
  /-- `respond_to?`. -/
  respondTo : ο → String → Bool
  /-- `members` of a Struct or a Data. -/
  members : ο → List String
  /-- `respond_to_guest?`. -/
  respondToGuest : ο → String → Bool

/-- A method found for a name. -/
structure Found (ω : Type) where
  owner : ω
  visibility : Visibility
  body : Body

variable {ω ο : Type} [DecidableEq ω]

namespace World

variable (world : World ω ο)

/-- What a module's own table holds for a name. -/
def entry (owner : ω) (name : String) : Option Entry :=
  (world.table owner).lookup name

/-- Ruby's search of a method along a list of modules. -/
def search (name : String) : List ω → Option (Found ω)
  | [] => none
  | owner :: rest =>
    match world.entry owner name with
    | none => search name rest
    | some .undefined => none
    | some (.method visibility body) => some ⟨owner, visibility, body⟩
    | some (.visibility visibility) =>
      (search name rest).map fun found => { found with visibility }

/-- `instance_method`. -/
def instanceMethod (klass : ω) (name : String) : Option (Found ω) :=
  world.search name (world.ancestors klass)

/-- `public_method_defined?`. -/
def publicMethodDefined (klass : ω) (name : String) : Bool :=
  (world.instanceMethod klass name).any fun found => found.visibility = .isPublic

/-- `method_defined?`, of a public or a protected method. -/
def methodDefined (klass : ω) (name : String) : Bool :=
  (world.instanceMethod klass name).any fun found => found.visibility ≠ .isPrivate

/-- `private_method_defined?`. -/
def privateMethodDefined (klass : ω) (name : String) : Bool :=
  (world.instanceMethod klass name).any fun found => found.visibility = .isPrivate

/-- The visibility a module's own table gives a name. -/
def ownVisibility (owner : ω) (name : String) : Option Visibility :=
  match world.entry owner name with
  | some (.method visibility _) | some (.visibility visibility) => some visibility
  | _ => none

/-- `is_a?`. -/
def isA (object : ο) (klass : ω) : Bool := klass ∈ world.ancestors (world.classOf object)

/-- The modules Ruby searches for a method of an object before its class. -/
def before (object : ο) : List ω :=
  match world.singleton object with
  | none => []
  | some (own, extended) => own :: extended

/-- A name's visibility in the first of some modules that holds it. -/
def firstVisibility (name : String) : List ω → Option Visibility
  | [] => none
  | owner :: rest =>
    match world.entry owner name with
    | none => firstVisibility name rest
    | some _ => world.ownVisibility owner name

/-- `singleton_methods`: the names the first of these modules to hold them makes public or
protected. -/
def singletonMethods (modules : List ω) : List String :=
  (modules.flatMap fun owner => (world.table owner).map (·.1)).filter fun name =>
    (world.firstVisibility name modules).any (· ≠ .isPrivate)

/-! ## The floor -/

/-- `GADGET_OWNERS`. -/
def gadgetOwners : List ω :=
  [world.procClass, world.methodClass, world.unboundMethodClass, world.bindingClass]

/-- `ambient_copy?`. -/
def ambientCopy (body : Body) : Bool :=
  (world.ancestors world.classClass).any fun owner =>
    (world.ownVisibility owner body.originalName).isSome &&
      (world.instanceMethod owner body.originalName).any fun found =>
        found.body.sourceLocation = body.sourceLocation

/-- `Reflection.authored?`. -/
def authored (body : Body) : Bool :=
  match body.sourceLocation with
  | none => false
  | some (file, _) =>
    !("<internal:".toList.isPrefixOf file.toList) && !world.ambientCopy body

/-- `lookup_class`. -/
def lookupClass (object : ο) : ω :=
  match world.singleton object with
  | none => world.classOf object
  | some (own, extended) =>
    if world.isA object world.moduleClass ||
        !(world.singletonMethods (own :: extended)).isEmpty then own
    else world.classOf object

/-- `ambient_owner?`. -/
def ambientOwner (owner : ω) (object : ο) : Bool :=
  decide (owner ∈ world.ancestors world.classClass) || decide (owner ∈ world.gadgetOwners) ||
    (world.isA object world.moduleClass && world.isSingletonClass owner)

end World

/-- `CALLABLE_ALLOW`. -/
def callableAllow : List String := ["call", "[]", "yield", "arity", "lambda?"]

section Refusal

-- `inspect` stands for `Symbol#inspect`.
variable (inspect : String → String) (world : World ω ο)

/-- `service_refusal`. -/
def serviceRefusal (name : String) : String := s!"method {inspect name} is not a Service method"

/-- `owner_refusal`. -/
def ownerRefusal (object : ο) (name : String) (owner : ω) : Option String :=
  if !world.ambientOwner owner object then none
  else if owner ∈ world.gadgetOwners ∧ name ∈ callableAllow then none
  else some (serviceRefusal inspect name)

/-- `authored_for?`. -/
def authoredFor (object : ο) (name : String) (found : Found ω) (klass : ω) : Bool :=
  world.authored found.body ||
    decide (found.owner ∈ world.gadgetOwners ∧ name ∈ callableAllow) ||
    decide ((world.structClass ∈ world.ancestors klass ∨ world.dataClass ∈ world.ancestors klass) ∧
      name ∈ world.members object)

/-- `public_method_refusal`. -/
def publicMethodRefusal (object : ο) (name : String) (klass : ω) : Option String :=
  match world.instanceMethod klass name with
  | none => none
  | some found =>
    (ownerRefusal inspect world object name found.owner).or
      (if authoredFor world object name found klass then none
        else some (serviceRefusal inspect name))

/-- `ambient_refusal`. -/
def ambientRefusal (object : ο) (name : String) : Option String :=
  if name = "method_missing" then some (serviceRefusal inspect name)
  else
    let klass := world.lookupClass object
    if world.publicMethodDefined klass name then publicMethodRefusal inspect world object name klass
    else if !world.respondTo object name then
      some s!"no public method {inspect name} on target"
    else if world.methodDefined klass name || world.privateMethodDefined klass name then
      some (serviceRefusal inspect name)
    else ownerRefusal inspect world object name klass

/-- An Exposure: the object a reference is to, and the names fixed for it, none where the object
narrows itself. -/
structure Exposure (ο : Type) where
  object : ο
  names : Option (List String)

/-- `exposes?`. -/
def exposes (exposure : Exposure ο) (name : String) : Bool :=
  match exposure.names with
  | some names => decide (name ∈ names)
  | none => world.respondToGuest exposure.object name

/-- `Reflection.refusal`. -/
def refusal (exposure : Exposure ο) (name : String) : Option String :=
  (ambientRefusal inspect world exposure.object name).or
    (if exposes world exposure name then none
      else some s!"method {inspect name} is not exposed to the guest")

end Refusal

/-! ## What an Exposure is made with -/

section Exposing

variable (world : World ω ο)

/-- `PREDICATE`. -/
def predicate : String := "respond_to_guest?"

/-- `narrows_itself?`. -/
def narrowsItself (object : ο) : Bool :=
  let klass := world.classOf object
  world.methodDefined klass predicate || world.privateMethodDefined klass predicate ||
    decide (world.firstVisibility predicate (world.before object ++ [klass]) = some .isPrivate) ||
    decide (predicate ∈ world.singletonMethods ((world.before object).take 1))

/-- `authored_names`. -/
def authoredNames (owner : ω) : List String :=
  ((world.table owner).map (·.1)).filter fun name =>
    decide (world.ownVisibility owner name = some .isPublic) &&
      (world.instanceMethod owner name).any fun found => world.authored found.body

/-- `class_names`. -/
def classNames (object : ο) (klass : ω) : List String :=
  if world.isA object world.structClass ∨ world.isA object world.dataClass then
    authoredNames world klass ++ world.members object
  else authoredNames world klass

/-- `with_singleton`. -/
def withSingleton (object : ο) (names : List String) : List String :=
  match world.singleton object with
  | none => names
  | some (own, _) =>
    if (world.singletonMethods [own]).isEmpty then names else names ++ authoredNames world own

/-- The surfaces a Handle table has taken of classes, `@surfaces`. -/
abbrev Surfaces (ω : Type) := ω → Option (List String)

/-- `resolve_default_names`, with the surfaces it leaves. -/
def resolveDefaultNames (surfaces : Surfaces ω) (object : ο) (klass : ω) :
    List String × Surfaces ω :=
  if world.isA object world.procClass ∨ world.isA object world.methodClass then
    (callableAllow, surfaces)
  else if world.isA object world.moduleClass ∨ world.isA object world.delegatorClass then
    ([], surfaces)
  else
    let names := (surfaces klass).getD (classNames world object klass)
    (withSingleton world object names, Function.update surfaces klass (some names))

/-- `Exposure.of`, with the surfaces it leaves. -/
def Exposure.of (surfaces : Surfaces ω) (object : ο) : Exposure ο × Surfaces ω :=
  if narrowsItself world object then (⟨object, none⟩, surfaces)
  else
    let told := resolveDefaultNames world surfaces object (world.classOf object)
    (⟨object, some told.1⟩, told.2)

/-- The surfaces a table has taken once it made references to some objects, the last first, each as
the process stood by then. -/
def surfacesAfter : List (World ω ο × ο) → Surfaces ω
  | [] => fun _ => none
  | (world, object) :: earlier => (Exposure.of world (surfacesAfter earlier) object).2

end Exposing

/-! ## What the dispatch runs -/

/-- What `public_send` runs: the public method Ruby finds, or `method_missing` where it finds none
that is public. -/
inductive Ran (ω : Type)
  | method (found : Found ω)
  | missing

/-- `public_send`. -/
def World.publicSend (world : World ω ο) (object : ο) (name : String) : Ran ω :=
  match world.search name (world.before object ++ world.ancestors (world.classOf object)) with
  | none => .missing
  | some found => if found.visibility = .isPublic then .method found else .missing

/-- An object's singleton class stands before the modules it is extended with and its class. -/
def World.Laid (world : World ω ο) (object : ο) : Prop :=
  ∀ own extended, world.singleton object = some (own, extended) →
    world.ancestors own = own :: extended ++ world.ancestors (world.classOf object)

/-- What an owner of Service behaviour is not: a module every object or every class shares, a
callable's own class, or a class method's owner. -/
def World.Ambient (world : World ω ο) (object : ο) (owner : ω) : Prop :=
  owner ∈ world.ancestors world.classClass ∨ owner ∈ world.gadgetOwners ∨
    (world.isA object world.moduleClass = true ∧ world.isSingletonClass owner = true)

/-- A method written for the object: in Ruby source, and no copy, alias or rebinding of one that
every object shares. -/
def World.Written (world : World ω ο) (body : Body) : Prop :=
  (∃ file line, body.sourceLocation = some (file, line) ∧
    ¬("<internal:".toList <+: file.toList)) ∧
  ∀ owner ∈ world.ancestors world.classClass, ∀ found,
    (world.ownVisibility owner body.originalName).isSome = true →
    world.instanceMethod owner body.originalName = some found →
    found.body.sourceLocation ≠ body.sourceLocation

/-- The object is a Struct or a Data and the name one of its members. -/
def World.Member (world : World ω ο) (object : ο) (name : String) : Prop :=
  (world.structClass ∈ world.ancestors (world.lookupClass object) ∨
    world.dataClass ∈ world.ancestors (world.lookupClass object)) ∧ name ∈ world.members object

/-- A method a guest may run. -/
def World.Serves (world : World ω ο) (object : ο) (name : String) (found : Found ω) : Prop :=
  (found.owner ∈ world.gadgetOwners ∧ name ∈ callableAllow) ∨
    (¬world.Ambient object found.owner ∧
      (world.Written found.body ∨ world.Member object name))

variable {world : World ω ο} {object : ο} {name : String} {modules rest : List ω}

omit [DecidableEq ω] in
/-- A name the first module to hold it hides is found past these modules or is private. -/
theorem search_hidden
    (hidden : ∀ visibility, world.firstVisibility name modules = some visibility →
      visibility = .isPrivate) :
    world.search name (modules ++ rest) = world.search name rest ∨
      (∃ owner ∈ modules, world.entry owner name ≠ none) ∧
        ∀ found, world.search name (modules ++ rest) = some found →
          found.visibility = .isPrivate := by
  induction modules with
  | nil => exact .inl rfl
  | cons owner others ih =>
    rw [World.firstVisibility] at hidden
    simp only [List.cons_append, World.search]
    cases held : world.entry owner name with
    | none =>
      simp only [held] at hidden
      obtain past | ⟨⟨holder, among, holds⟩, closed⟩ := ih hidden
      · exact .inl past
      · exact .inr ⟨⟨holder, List.mem_cons_of_mem _ among, holds⟩, closed⟩
    | some entry =>
      refine .inr ⟨⟨owner, List.mem_cons_self, by simp [held]⟩, ?_⟩
      simp only [held, World.ownVisibility] at hidden
      cases entry with
      | undefined =>
        intro found searched
        cases searched
      | method visibility body =>
        intro found searched
        cases searched
        exact hidden visibility rfl
      | visibility visibility =>
        intro found searched
        obtain ⟨inner, _, same⟩ := Option.map_eq_some_iff.mp searched
        rw [← same]
        exact hidden visibility rfl

omit [DecidableEq ω] in
/-- A name with a visibility among some modules is in one of their tables. -/
theorem mem_tables_of_firstVisibility {visibility : Visibility}
    (first : world.firstVisibility name modules = some visibility) :
    name ∈ modules.flatMap fun owner => (world.table owner).map (·.1) := by
  induction modules with
  | nil => cases first
  | cons owner others ih =>
    rw [World.firstVisibility] at first
    rw [List.flatMap_cons, List.mem_append]
    cases held : world.entry owner name with
    | none =>
      simp only [held] at first
      exact .inr (ih first)
    | some entry =>
      left
      rw [World.entry, List.lookup_eq_some_iff] at held
      obtain ⟨front, back, split, _⟩ := held
      simp [split]

omit [DecidableEq ω] in
/-- What `singleton_methods` does not list is private in the first module to hold it. -/
theorem private_of_not_listed (unlisted : name ∉ world.singletonMethods modules)
    (visibility : Visibility) (first : world.firstVisibility name modules = some visibility) :
    visibility = .isPrivate := by
  by_contra visible
  refine unlisted (List.mem_filter.mpr ⟨mem_tables_of_firstVisibility first, ?_⟩)
  simp [first, visible]

/-- `lookup_class` starts where Ruby's own search does, or past a singleton class that makes nothing
public or protected. -/
theorem lookupClass_agrees (laid : world.Laid object) :
    (∀ name, world.instanceMethod (world.lookupClass object) name =
      world.search name (world.before object ++ world.ancestors (world.classOf object))) ∨
    (world.lookupClass object = world.classOf object ∧
      world.singletonMethods (world.before object) = []) := by
  unfold World.lookupClass World.before
  cases singled : world.singleton object with
  | none => exact .inl fun name => rfl
  | some held =>
    obtain ⟨own, extended⟩ := held
    simp only
    split
    · left
      intro name
      rw [World.instanceMethod, laid own extended singled]
    · rename_i quiet
      rw [Bool.or_eq_true, not_or, Bool.not_eq_true', Bool.not_eq_false,
        List.isEmpty_iff] at quiet
      exact .inr ⟨rfl, quiet.2⟩

omit [DecidableEq ω] in
/-- What `authored?` answers of is written in Ruby and no copy. -/
theorem written_of_authored {body : Body} (authored : world.authored body = true) :
    world.Written body := by
  unfold World.authored at authored
  split at authored
  · cases authored
  · rename_i file line source
    rw [Bool.and_eq_true, Bool.not_eq_true', Bool.not_eq_true', Bool.eq_false_iff, ne_eq,
      List.isPrefixOf_iff_prefix] at authored
    refine ⟨⟨file, line, source, authored.1⟩, fun owner shared found held searched same => ?_⟩
    have copied : world.ambientCopy body = true := by
      simp only [World.ambientCopy, List.any_eq_true]
      exact ⟨owner, shared, by simp [held, searched, same]⟩
    simp [copied] at authored

/-- `ambient_owner?` is the floor's own question. -/
theorem ambientOwner_iff {owner : ω} :
    world.ambientOwner owner object = true ↔ world.Ambient object owner := by
  simp only [World.ambientOwner, World.Ambient, Bool.or_eq_true, decide_eq_true_eq,
    Bool.and_eq_true, or_assoc]

variable {inspect : String → String}

/-- An owner that is not refused is no ambient one, or a callable's for a callable's name. -/
theorem ownerRefusal_none {owner : ω}
    (allowed : ownerRefusal inspect world object name owner = none) :
    ¬world.Ambient object owner ∨ (owner ∈ world.gadgetOwners ∧ name ∈ callableAllow) := by
  unfold ownerRefusal at allowed
  split at allowed
  · rename_i apart
    left
    rw [← ambientOwner_iff]
    simpa using apart
  · split at allowed
    · rename_i callable
      exact .inr callable
    · cases allowed

/-- A public method that is not refused serves the guest. -/
theorem serves_of_publicMethodRefusal {found : Found ω}
    (searched : world.instanceMethod (world.lookupClass object) name = some found)
    (allowed : publicMethodRefusal inspect world object name (world.lookupClass object) = none) :
    world.Serves object name found := by
  simp only [publicMethodRefusal, searched, Option.or_eq_none_iff] at allowed
  obtain ⟨owned, bodied⟩ := allowed
  obtain apart | callable := ownerRefusal_none owned
  · split at bodied
    case isFalse => cases bodied
    rename_i authored
    simp only [authoredFor, Bool.or_eq_true, decide_eq_true_eq] at authored
    obtain (authored | callable) | member := authored
    · exact .inr ⟨apart, .inl (written_of_authored authored)⟩
    · exact .inl callable
    · exact .inr ⟨apart, .inr member⟩
  · exact .inl callable

omit [DecidableEq ω] in
/-- A method nobody can call by any visibility is no method. -/
theorem instanceMethod_none {klass : ω} (unlisted : ¬world.methodDefined klass name = true)
    (unhidden : ¬world.privateMethodDefined klass name = true) :
    world.instanceMethod klass name = none := by
  cases searched : world.instanceMethod klass name with
  | none => rfl
  | some found =>
    simp only [World.methodDefined, World.privateMethodDefined, searched, Option.any_some,
      decide_eq_true_eq, not_not] at unlisted unhidden
    exact absurd unlisted unhidden

/-- A name the floor lets through is no hook, and is a public method that serves the guest or none
at all that the object answers for, as `lookup_class` sees it. -/
theorem ambientRefusal_none (allowed : ambientRefusal inspect world object name = none) :
    name ≠ "method_missing" ∧
    ((∃ found, world.instanceMethod (world.lookupClass object) name = some found ∧
        found.visibility = .isPublic ∧ world.Serves object name found) ∨
      (world.instanceMethod (world.lookupClass object) name = none ∧
        world.respondTo object name = true ∧
        (¬world.Ambient object (world.lookupClass object) ∨
          (world.lookupClass object ∈ world.gadgetOwners ∧ name ∈ callableAllow)))) := by
  unfold ambientRefusal at allowed
  split at allowed
  case isTrue => cases allowed
  rename_i plain
  refine ⟨plain, ?_⟩
  simp only at allowed
  split at allowed
  · rename_i defined
    left
    cases searched : world.instanceMethod (world.lookupClass object) name with
    | none => simp [World.publicMethodDefined, searched] at defined
    | some found =>
      rw [World.publicMethodDefined, searched, Option.any_some, decide_eq_true_eq] at defined
      exact ⟨found, rfl, defined, serves_of_publicMethodRefusal searched allowed⟩
  · right
    split at allowed
    · cases allowed
    · rename_i responds
      split at allowed
      · cases allowed
      · rename_i absent
        rw [Bool.or_eq_true, not_or] at absent
        exact ⟨instanceMethod_none absent.1 absent.2, by simpa using responds,
          ownerRefusal_none allowed⟩

/-- What a class shows of the objects it is the class of: a record's members, and the public methods
it defines in Ruby itself. -/
def World.ClassShows (world : World ω ο) (object : ο) (name : String) : Prop :=
  ((world.isA object world.structClass = true ∨ world.isA object world.dataClass = true) ∧
    name ∈ world.members object) ∨
  ∃ found, world.ownVisibility (world.classOf object) name = some .isPublic ∧
    world.instanceMethod (world.classOf object) name = some found ∧ world.Written found.body

/-- What an Exposure made of an object without a predicate of its own shows: a callable's names, or
what its class showed of an object when its surface was taken and the public methods the object
itself defines in Ruby. -/
def World.Shown (made taken : World ω ο) (first object : ο) (name : String) : Prop :=
  ((made.isA object made.procClass = true ∨ made.isA object made.methodClass = true) ∧
    name ∈ callableAllow) ∨
  (¬made.isA object made.moduleClass = true ∧ ¬made.isA object made.delegatorClass = true ∧
    (taken.ClassShows first name ∨
      ∃ owner extended found, made.singleton object = some (owner, extended) ∧
        made.ownVisibility owner name = some .isPublic ∧
        made.instanceMethod owner name = some found ∧ made.Written found.body))

omit [DecidableEq ω] in
/-- A name `authored_names` lists is public in the owner's own table and written in Ruby. -/
theorem written_of_mem_authoredNames {owner : ω} (listed : name ∈ authoredNames world owner) :
    ∃ found, world.ownVisibility owner name = some .isPublic ∧
      world.instanceMethod owner name = some found ∧ world.Written found.body := by
  obtain ⟨_, passes⟩ := List.mem_filter.mp listed
  rw [Bool.and_eq_true, decide_eq_true_eq] at passes
  obtain ⟨visible, authored⟩ := passes
  cases searched : world.instanceMethod owner name with
  | none => simp [searched] at authored
  | some found =>
    rw [searched, Option.any_some] at authored
    exact ⟨found, visible, rfl, written_of_authored authored⟩

/-- A class's surface is what it shows of the object it is taken with. -/
theorem shows_of_mem_classNames (listed : name ∈ classNames world object (world.classOf object)) :
    world.ClassShows object name := by
  unfold classNames at listed
  split at listed
  · rename_i record
    obtain listed | member := List.mem_append.mp listed
    · exact .inr (written_of_mem_authoredNames listed)
    · exact .inl ⟨record, member⟩
  · exact .inr (written_of_mem_authoredNames listed)

/-- A surface a table holds was taken with the first object of the class it made a reference to. -/
theorem surfacesAfter_taken {earlier : List (World ω ο × ο)} {klass : ω} {names : List String}
    (held : surfacesAfter earlier klass = some names) :
    ∃ taken first, (taken, first) ∈ earlier ∧ taken.classOf first = klass ∧
      names = classNames taken first klass := by
  induction earlier generalizing names with
  | nil => cases held
  | cons mint earlier ih =>
    obtain ⟨world, object⟩ := mint
    -- Either the surface stood before, or this reference is the one it was taken with.
    have before (names : List String) (held : surfacesAfter earlier klass = some names) :
        ∃ taken first, (taken, first) ∈ (world, object) :: earlier ∧ taken.classOf first = klass ∧
          names = classNames taken first klass := by
      obtain ⟨taken, first, among, classed, same⟩ := ih held
      exact ⟨taken, first, List.mem_cons_of_mem _ among, classed, same⟩
    simp only [surfacesAfter, Exposure.of] at held
    split at held
    · exact before names held
    · simp only [resolveDefaultNames] at held
      split at held
      · exact before names held
      · split at held
        · exact before names held
        · by_cases own : klass = world.classOf object
          · subst own
            simp only [Function.update_self, Option.some.injEq] at held
            subst held
            cases stood : surfacesAfter earlier (world.classOf object) with
            | none => exact ⟨world, object, List.mem_cons_self, rfl, rfl⟩
            | some names => exact before names stood
          · simp only [Function.update_of_ne own] at held
            exact before names held

/-- The names an Exposure is made with are those it shows, its class's surface as it was taken. -/
theorem shown_of_mem_resolveDefaultNames {earlier : List (World ω ο × ο)}
    (listed : name ∈
      (resolveDefaultNames world (surfacesAfter earlier) object (world.classOf object)).1) :
    ∃ taken first, (taken, first) ∈ (world, object) :: earlier ∧
      taken.classOf first = world.classOf object ∧ world.Shown taken first object name := by
  have here : (world, object) ∈ (world, object) :: earlier := List.mem_cons_self
  unfold resolveDefaultNames at listed
  split at listed
  · rename_i callable
    exact ⟨world, object, here, rfl, .inl ⟨callable, listed⟩⟩
  · split at listed
    · cases listed
    · rename_i own
      rw [not_or] at own
      -- The surface held of the class, or the one this reference takes.
      obtain ⟨taken, first, among, classed, same⟩ : ∃ taken first,
          (taken, first) ∈ (world, object) :: earlier ∧
            taken.classOf first = world.classOf object ∧
            (surfacesAfter earlier (world.classOf object)).getD
                (classNames world object (world.classOf object)) =
              classNames taken first (world.classOf object) := by
        cases held : surfacesAfter earlier (world.classOf object) with
        | none => exact ⟨world, object, here, rfl, rfl⟩
        | some names =>
          obtain ⟨taken, first, among, classed, same⟩ := surfacesAfter_taken held
          exact ⟨taken, first, List.mem_cons_of_mem _ among, classed, same⟩
      refine ⟨taken, first, among, classed, .inr ⟨own.1, own.2, ?_⟩⟩
      rw [← classed] at same
      simp only [← classed, same, withSingleton] at listed
      split at listed
      · exact .inl (shows_of_mem_classNames listed)
      · rename_i single extended singled
        split at listed
        · exact .inl (shows_of_mem_classNames listed)
        · obtain listed | listed := List.mem_append.mp listed
          · exact .inl (shows_of_mem_classNames listed)
          · obtain ⟨found, visible, searched, written⟩ := written_of_mem_authoredNames listed
            exact .inr ⟨single, extended, found, singled, visible, searched, written⟩

/-- A Service's class beside `Object` and `Class`, with a method that another it inherits from has
too, while it has it itself, and a copy of a native one. -/
def greeter (overrides : Bool) : World Nat Bool where
  ancestors
    | 10 => [10, 11, 0]
    | 1 => [1, 0]
    | owner => [owner]
  table
    | 10 => (if overrides then
          [("greet", .method .isPublic ⟨"greet", some ("greeter.rb", 3)⟩)] else []) ++
        [("run", .method .isPublic ⟨"system", none⟩)]
    | 11 => [("greet", .method .isPublic ⟨"greet", some ("base.rb", 3)⟩)]
    | 0 => [("system", .method .isPrivate ⟨"system", none⟩)]
    | _ => []
  isSingletonClass _ := false
  classClass := 1
  moduleClass := 2
  procClass := 3
  methodClass := 4
  unboundMethodClass := 5
  bindingClass := 6
  structClass := 7
  dataClass := 8
  delegatorClass := 9
  classOf _ := 10
  singleton _ := none
  respondTo _ _ := false
  members _ := []
  respondToGuest _ _ := false

example : (refusal id (greeter true) ⟨true, none⟩ "run").isSome = true := by decide

example : refusal id (greeter false)
      (Exposure.of (greeter false) (surfacesAfter ([] : List (World Nat Bool × Bool))) true).1
      "greet" =
    some "method greet is not exposed to the guest" := by decide

end Kobako.Transport.Reflection
