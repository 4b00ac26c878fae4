import Kobako.Catalog
import Kobako.Envelope.Messages

/-!
# What a Sandbox is set up with

Setup fills tables until the first invocation seals them: the Services bound, each under its path,
the snippets a guest replays, its flags, and the Mounts it is handed. An Extension brings a snippet
and may bring a Service, whose object is fixed, made anew for each invocation, or left to the
invocation to supply; until one is there its path is bound to a sentinel that refuses every call.
An invocation may stand its own objects and Mounts in for what was set up, never beside it.
-/

namespace Kobako.Sandbox

open Kobako.Envelope

/-- An `Arc<dyn Receiver>`. -/
inductive Object
  /-- One the host made. -/
  | host (id : Nat)
  /-- `Unresolved`. -/
  | unresolved
deriving Repr, DecidableEq

/-- `Provider`, a `ProviderFn` by its `Arc`. -/
inductive Provider
  | static (id : Nat)
  | perInvocation (provider : Nat)
  | fillable
deriving Repr, DecidableEq

/-- `object_of`. -/
def objectOf : Provider → Object
  | .static id => .host id
  | .perInvocation _ => .unresolved
  | .fillable => .unresolved

/-- `Backend`. -/
structure Backend where
  path : String
  provider : Provider
deriving Repr, DecidableEq

/-- `Extension`, by what its readers answer. -/
structure Extension where
  name : String
  source : String
  dependsOn : List String
  backend : Option Backend
deriving Repr, DecidableEq

/-- `Mount`. -/
structure Mount where
  path : String
  filesystem : Nat
  readOnly : Bool
  policy : Option Nat
deriving Repr, DecidableEq

/-- Why a call of the host's is refused. -/
inductive Error
  /-- `registrations must happen before the first invocation`. -/
  | sealed
  /-- What `Catalog::bind` refuses. -/
  | path (refused : Refusal)
  /-- `snippet name must be a Ruby constant name`. -/
  | snippetName (name : String)
  /-- `snippet … already preloaded`. -/
  | snippetTaken (name : String)
  /-- `flag … already set`. -/
  | flagTaken (name : String)
  /-- `mount path must be an absolute guest path`. -/
  | mountPath (path : String)
  /-- `this Sandbox's runtime presents no Mount to the guest`. -/
  | mountKind
  /-- `path … is already mounted`. -/
  | mountTaken (path : String)
  /-- `extension … depends on …, which was not installed`. -/
  | dependency (extension dependency : String)
  /-- `cannot override undeclared path`. -/
  | undeclared (path : String)
  /-- `cannot override unmounted path`. -/
  | unmounted (path : String)
deriving Repr, DecidableEq

/-- `is_guest_path`. -/
def isGuestPath (path : String) : Bool :=
  path == "/" ||
    match path.toList with
    | '/' :: rest =>
      (rest.splitOn '/').all fun part => part ≠ [] && part ≠ ['.'] && part ≠ ['.', '.']
    | _ => false

/-- `Mount::new`, and `with_policy` of what it makes. -/
def Mount.new (path : String) (filesystem : Nat) (readOnly : Bool) (policy : Option Nat) :
    Except Error Mount :=
  if isGuestPath path then .ok ⟨path, filesystem, readOnly, policy⟩ else .error (.mountPath path)

/-- `Catalog`, the tables beside its bindings told with it. -/
structure Tables where
  services : Catalog Object
  snippets : List Snippet
  flags : List Flag
  mounts : List Mount

/-- `Vec::retain` of what another key names, then `Vec::push`. -/
def replace {α : Type} (key : α → String) (entries : List α) (entry : α) : List α :=
  entries.filter (fun other => key other ≠ key entry) ++ [entry]

namespace Tables

/-- `Catalog::default`. -/
def empty : Tables := ⟨.empty, [], [], []⟩

/-- `Catalog::bind`. -/
def bind (tables : Tables) (path : String) (object : Object) : Except Error Tables :=
  match tables.services.bind path.toList object with
  | .ok services => .ok { tables with services }
  | .error refused => .error (.path refused)

/-- `Catalog::lookup`. -/
def lookup (tables : Tables) (path : String) : Option Object := tables.services.lookup path.toList

/-- Whether a snippet is source registered under a name. -/
def isNamed (name : String) : Snippet → Bool
  | .source taken _ => taken == name
  | .bytecode _ => false

/-- `Snippets::register_source`. -/
def registerSource (tables : Tables) (name body : String) : Except Error Tables :=
  if !Path.isConstantName name.toList then .error (.snippetName name)
  else if tables.snippets.any (isNamed name) then .error (.snippetTaken name)
  else .ok { tables with snippets := tables.snippets ++ [.source name body] }

/-- `Snippets::register_binary`. -/
def registerBinary (tables : Tables) (body : List UInt8) : Tables :=
  { tables with snippets := tables.snippets ++ [.bytecode body] }

/-- `Catalog::flag`. -/
def flag (tables : Tables) (name value : String) (critical : Bool) : Except Error Tables :=
  if tables.flags.any (·.name == name) then .error (.flagTaken name)
  else .ok { tables with flags := tables.flags ++ [⟨name, value, critical⟩] }

/-- `Grants::is_mounted`. -/
def isMounted (tables : Tables) (path : String) : Bool := tables.mounts.any (·.path == path)

/-- `Grants::mount`. -/
def mount (tables : Tables) (mount : Mount) : Except Error Tables :=
  if tables.isMounted mount.path then .error (.mountTaken mount.path)
  else .ok { tables with mounts := tables.mounts ++ [mount] }

/-- `Grants::for_invocation`. -/
def forInvocation (tables : Tables) (overrides : List Mount) : List Mount :=
  tables.mounts.map fun mount => (overrides.find? (·.path == mount.path)).getD mount

/-- `Catalog::preamble`. -/
def preamble (tables : Tables) : Preamble :=
  ⟨tables.services.bindings.map fun binding => String.ofList binding.1, tables.snippets,
    tables.flags⟩

/-- Each bytecode in place of its source, as long as there are both. -/
def replaceSources : List Snippet → List (List UInt8) → List Snippet
  | [], _ => []
  | .bytecode body :: rest, bytecodes => .bytecode body :: replaceSources rest bytecodes
  | .source name body :: rest, [] => .source name body :: rest
  | .source _ _ :: rest, body :: bytecodes => .bytecode body :: replaceSources rest bytecodes

/-- Whether a snippet is source. -/
def isSource : Snippet → Bool
  | .source _ _ => true
  | .bytecode _ => false

/-- What `Runtime::compile` does when it is asked. -/
inductive Compiled
  | answered (bytecodes : Option (List (List UInt8)))
  | panicked
deriving Repr, DecidableEq

/-- `Catalog::compile`, and whether the engine panicked in it. -/
def compile (tables : Tables) (compiled : Compiled) : Tables × Bool :=
  if !tables.snippets.any isSource then (tables, false)
  else
    match compiled with
    | .answered (some bytecodes) =>
      ({ tables with snippets := replaceSources tables.snippets bytecodes }, false)
    | .answered none => (tables, false)
    | .panicked => (tables, true)

end Tables

/-! ## Extensions -/

/-- `Extensions::install`: the tables it leaves, and the entry it adds. A refusal of the backend's
path leaves the snippet. -/
def install (tables : Tables) (extensions : List Extension) (extension : Extension) :
    Tables × List Extension × Except Error Unit :=
  match tables.registerSource extension.name extension.source with
  | .error refused => (tables, extensions, .error refused)
  | .ok named =>
    match extension.backend with
    | none => (named, extensions ++ [extension], .ok ())
    | some backend =>
      match named.bind backend.path (objectOf backend.provider) with
      | .error refused => (named, extensions, .error refused)
      | .ok bound => (bound, extensions ++ [extension], .ok ())

/-- The dependency `Extensions::assert_dependencies` refuses first. -/
def unmet (extensions : List Extension) : Option (String × String) :=
  extensions.findSome? fun extension =>
    (extension.dependsOn.find? fun dependency =>
      !(extensions.map (·.name)).contains dependency).map fun dependency =>
        (extension.name, dependency)

/-- The path and the provider of an Extension resolved for each invocation. -/
def Extension.fresh (extension : Extension) : Option (String × Nat) :=
  match extension.backend with
  | some ⟨path, .perInvocation provider⟩ => some (path, provider)
  | _ => none

/-- The `for` of `Extensions::resolve`: what each provider called so far answered, and what the
`provide` of the next call will. -/
def resolveFrom (provide : Nat → Nat → Nat) (made : List (Nat × Nat)) :
    List (String × Nat) → List (Nat × Nat) × List (String × Object)
  | [] => (made, [])
  | (path, provider) :: rest =>
    match made.lookup provider with
    | some object =>
      ((resolveFrom provide made rest).1, (path, .host object) :: (resolveFrom provide made rest).2)
    | none =>
      let object := provide made.length provider
      let later := resolveFrom provide (made ++ [(provider, object)]) rest
      (later.1, (path, .host object) :: later.2)

/-- `Extensions::resolve`, with what each provider it called answered. -/
def resolve (extensions : List Extension) (provide : Nat → Nat → Nat) :
    List (Nat × Nat) × List (String × Object) :=
  resolveFrom provide [] (extensions.filterMap Extension.fresh)

/-! ## What setup keeps -/

/-- What was set up hangs together: no path leads to another, each Extension's path is bound, and no
two Mounts share one. -/
structure Standing (tables : Tables) (extensions : List Extension) : Prop where
  antichain : tables.services.Antichain
  bound : ∀ extension ∈ extensions, ∀ backend, extension.backend = some backend →
    (backend.path.toList, objectOf backend.provider) ∈ tables.services.bindings
  mounts : (tables.mounts.map (·.path)).Nodup

theorem standing_empty : Standing .empty [] where
  antichain := Catalog.empty_antichain
  bound := by simp
  mounts := by simp [Tables.empty]

variable {extensions : List Extension} {tables next : Tables} {path : String}
  {made : List (Nat × Nat)} {provider : Nat}

section

variable (standing : Standing tables extensions)

include standing

/-- Only the services and the Mounts matter. -/
theorem Standing.of_eq (services : next.services = tables.services)
    (mounts : next.mounts = tables.mounts) :
    Standing next extensions :=
  ⟨services ▸ standing.antichain, services ▸ standing.bound, mounts ▸ standing.mounts⟩

omit standing in
/-- What a bind makes of the tables. -/
theorem Tables.bind_eq_ok {object : Object} (bound : tables.bind path object = .ok next) :
    ∃ services, tables.services.bind path.toList object = .ok services ∧
      next = { tables with services } := by
  unfold Tables.bind at bound
  cases answer : tables.services.bind path.toList object with
  | error refused => simp [answer] at bound
  | ok services =>
    rw [answer] at bound
    exact ⟨services, rfl, (Except.ok.inj bound).symm⟩

/-- A bind keeps what is bound and adds its path. -/
theorem Standing.bind {object : Object} (bound : tables.bind path object = .ok next) :
    Standing next extensions ∧ (path.toList, object) ∈ next.services.bindings := by
  obtain ⟨services, accepted, rfl⟩ := Tables.bind_eq_ok bound
  obtain ⟨bindable, rfl⟩ := (Catalog.bind_eq_ok standing.antichain).mp accepted
  refine ⟨⟨standing.antichain.push bindable object, ?_, standing.mounts⟩, by simp⟩
  intro extension among backend has
  exact List.mem_append_left _ (standing.bound extension among backend has)

/-- A Mount is added at a path of its own. -/
theorem Standing.mount {mount : Mount} (mounted : tables.mount mount = .ok next) :
    Standing next extensions := by
  unfold Tables.mount at mounted
  split at mounted
  · cases mounted
  · rename_i free
    cases mounted
    refine ⟨standing.antichain, standing.bound, ?_⟩
    have fresh : mount.path ∉ tables.mounts.map (·.path) := by
      intro taken
      obtain ⟨other, among, same⟩ := List.mem_map.mp taken
      exact free (List.any_eq_true.mpr ⟨other, among, by simpa using same⟩)
    rw [List.map_append, List.nodup_append]
    refine ⟨standing.mounts, by simp, ?_⟩
    intro path among other last same
    rw [List.map_singleton, List.mem_singleton] at last
    exact fresh (last ▸ same ▸ among)

/-- A snippet changes neither the services nor the Mounts. -/
theorem Standing.registerSource {name body : String}
    (registered : tables.registerSource name body = .ok next) : Standing next extensions := by
  unfold Tables.registerSource at registered
  split at registered
  · cases registered
  · split at registered
    · cases registered
    · cases registered
      exact standing.of_eq rfl rfl

/-- Nor does a flag. -/
theorem Standing.flag {name value : String} {critical : Bool}
    (set : tables.flag name value critical = .ok next) :
    Standing next extensions := by
  unfold Tables.flag at set
  split at set
  · cases set
  · cases set
    exact standing.of_eq rfl rfl

end

/-- Nor does a compile, however the engine ends it. -/
theorem Standing.compile {tables : Tables} (standing : Standing tables extensions)
    (compiled : Tables.Compiled) :
    Standing (tables.compile compiled).1 extensions := by
  unfold Tables.compile
  split
  · exact standing
  · cases compiled with
    | panicked => exact standing
    | answered bytecodes =>
      cases bytecodes with
      | none => exact standing
      | some bytecodes => exact standing.of_eq rfl rfl

/-- An install keeps what was set up, its path bound where it is added. -/
theorem Standing.install {tables : Tables} (standing : Standing tables extensions)
    (extension : Extension) :
    Standing (install tables extensions extension).1
      (install tables extensions extension).2.1 := by
  unfold Sandbox.install
  cases registered : tables.registerSource extension.name extension.source with
  | error refused => exact standing
  | ok named =>
    have kept := standing.registerSource registered
    cases has : extension.backend with
    | none =>
      refine ⟨kept.antichain, ?_, kept.mounts⟩
      intro other among backend its
      rcases List.mem_append.mp among with older | newest
      · exact kept.bound other older backend its
      · rw [List.mem_singleton.mp newest, has] at its
        cases its
    | some backend =>
      cases bound : named.bind backend.path (objectOf backend.provider) with
      | error refused => simpa only [bound] using kept
      | ok next =>
        have added := kept.bind bound
        simp only [bound]
        refine ⟨added.1.antichain, ?_, added.1.mounts⟩
        intro other among held its
        rcases List.mem_append.mp among with older | newest
        · exact added.1.bound other older held its
        · rw [List.mem_singleton.mp newest, has] at its
          cases its
          exact added.2

/-- A path of the Preamble is one a lookup answers. -/
theorem Standing.mem_preamble {tables : Tables} (standing : Standing tables extensions)
    (path : String) :
    path ∈ tables.preamble.bindings ↔ (tables.lookup path).isSome := by
  rw [Option.isSome_iff_exists]
  simp only [Tables.lookup, Catalog.lookup_eq_some standing.antichain, Tables.preamble,
    List.mem_map]
  constructor
  · rintro ⟨binding, among, rfl⟩
    exact ⟨binding.2, by simpa using among⟩
  · rintro ⟨object, among⟩
    exact ⟨_, among, by simp⟩

/-! ## What an invocation stands in -/

/-- Nothing is found under a key whose entries were dropped, and under another key what was. -/
theorem find?_filter_key {α : Type} (key : α → String) (entries : List α) (dropped name : String) :
    (entries.filter fun other => key other ≠ dropped).find? (key · == name) =
      if dropped = name then none else entries.find? (key · == name) := by
  induction entries with
  | nil => simp
  | cons other rest ih =>
    by_cases same : key other = dropped
    · rw [List.filter_cons_of_neg (by simpa using same), ih]
      by_cases here : dropped = name
      · simp [here]
      · rw [if_neg here, if_neg here, List.find?_cons_of_neg (by simpa [same] using here)]
    · rw [List.filter_cons_of_pos (by simpa using same)]
      by_cases named : key other = name
      · have apart : dropped ≠ name := fun equal => same (named.trans equal.symm)
        simp [named, apart]
      · rw [List.find?_cons_of_neg (by simpa using named), ih,
          List.find?_cons_of_neg (by simpa using named)]

/-- The entry found for a key is the last one pushed under it. -/
theorem find?_replace {α : Type} (key : α → String) (entries : List α) (entry : α)
    (name : String) :
    (replace key entries entry).find? (key · == name) =
      if key entry = name then some entry else entries.find? (key · == name) := by
  rw [replace, List.find?_append, find?_filter_key]
  by_cases here : key entry = name
  · simp [here]
  · simp [here]

/-- The provider of an Extension at a path. -/
def providerAt (extensions : List Extension) (path : String) : Option Nat :=
  ((extensions.filterMap Extension.fresh).find? (·.1 == path)).map (·.2)

/-- What a provider answered stays its answer. -/
theorem lookup_resolveFrom (provide : Nat → Nat → Nat) (made : List (Nat × Nat))
    (requests : List (String × Nat)) {provider object : Nat}
    (held : made.lookup provider = some object) :
    (resolveFrom provide made requests).1.lookup provider = some object := by
  induction requests generalizing made with
  | nil => exact held
  | cons request rest ih =>
    obtain ⟨path, other⟩ := request
    unfold resolveFrom
    cases known : made.lookup other with
    | some answer => exact ih made held
    | none =>
      refine ih _ ?_
      rw [List.lookup_append, held]
      rfl

/-- The object a resolution answers a path with is its provider's. -/
theorem find?_resolveFrom (provide : Nat → Nat → Nat) (made : List (Nat × Nat))
    (requests : List (String × Nat)) (path : String) :
    ((resolveFrom provide made requests).2.find? (·.1 == path)).map (·.2) =
      ((requests.find? (·.1 == path)).map (·.2)).bind fun provider =>
        ((resolveFrom provide made requests).1.lookup provider).map .host := by
  induction requests generalizing made with
  | nil => rfl
  | cons request rest ih =>
    obtain ⟨here, provider⟩ := request
    unfold resolveFrom
    cases known : made.lookup provider with
    | some object =>
      have stays := lookup_resolveFrom provide made rest known
      by_cases same : here = path
      · simp [same, stays]
      · simpa [same] using ih made
    | none =>
      have answered : (made ++ [(provider, provide made.length provider)]).lookup provider =
          some (provide made.length provider) := by simp [List.lookup_append, known]
      have stays := lookup_resolveFrom provide _ rest answered
      by_cases same : here = path
      · simp [same, stays]
      · simpa [same] using ih (made ++ [(provider, provide made.length provider)])

/-- No provider was called twice, and each entry is what its call answered. -/
structure Called (provide : Nat → Nat → Nat) (made : List (Nat × Nat)) : Prop where
  once : (made.map (·.1)).Nodup
  answered : ∀ (index provider object : Nat), made[index]? = some (provider, object) →
    object = provide index provider

/-- A provider nothing is held for has not been called. -/
theorem not_called (unknown : made.lookup provider = none) : provider ∉ made.map (·.1) := by
  intro called
  obtain ⟨entry, among, rfl⟩ := List.mem_map.mp called
  have other := List.lookup_eq_none_iff.mp unknown entry among
  simp at other

/-- A call of a provider nothing is held for is its first. -/
theorem Called.push {provide : Nat → Nat → Nat} (called : Called provide made)
    (unknown : made.lookup provider = none) :
    Called provide (made ++ [(provider, provide made.length provider)]) := by
  constructor
  · rw [List.map_append, List.nodup_append]
    refine ⟨called.once, by simp, ?_⟩
    intro other among last here same
    have newest : last = provider := by simpa using here
    exact not_called unknown (newest ▸ same ▸ among)
  · intro index other object found
    rw [List.getElem?_append] at found
    split at found
    · exact called.answered index other object found
    · rw [List.getElem?_singleton] at found
      split at found
      · have last : index = made.length := by omega
        cases found
        rw [last]
      · cases found

/-- A resolution calls no provider twice. -/
theorem Called.resolveFrom {provide : Nat → Nat → Nat} (called : Called provide made)
    (requests : List (String × Nat)) :
    Called provide (resolveFrom provide made requests).1 := by
  induction requests generalizing made with
  | nil => exact called
  | cons request rest ih =>
    obtain ⟨path, provider⟩ := request
    unfold Sandbox.resolveFrom
    cases known : made.lookup provider with
    | some object => exact ih called
    | none => exact ih (called.push known)

/-- A resolution calls the provider of each request. -/
theorem called_of_mem (provide : Nat → Nat → Nat) (made : List (Nat × Nat))
    (requests : List (String × Nat)) (among : (path, provider) ∈ requests) :
    ∃ object, (resolveFrom provide made requests).1.lookup provider = some object := by
  induction requests generalizing made with
  | nil => cases among
  | cons request rest ih =>
    obtain ⟨here, other⟩ := request
    unfold resolveFrom
    cases known : made.lookup other with
    | some object =>
      rcases List.mem_cons.mp among with first | later
      · cases first
        exact ⟨object, lookup_resolveFrom provide made rest known⟩
      · exact ih made later
    | none =>
      rcases List.mem_cons.mp among with first | later
      · cases first
        have answered : (made ++ [(provider, provide made.length provider)]).lookup provider =
            some (provide made.length provider) := by simp [List.lookup_append, known]
        exact ⟨_, lookup_resolveFrom provide _ rest answered⟩
      · exact ih _ later

end Kobako.Sandbox
