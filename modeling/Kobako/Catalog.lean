import Kobako.Text
import Mathlib.Data.List.Perm.Basic
import Mathlib.Data.List.Infix
import Mathlib.Data.List.Pairwise

/-!
# Bound Service paths

A Service is bound under a path of constant names joined by `::`, and the guest reaches it by that
path alone. A path is refused where it is not of that form, stands in the reserved namespace, or
is bound, leads to a bound path or lies beneath one. The refusal compares texts; here it is shown
to compare segments, so the bound paths are an antichain whatever is bound and in whichever order.
The registry of the Ruby gem is modelled beside that of the crate, and answers each call alike.
-/

namespace Kobako

variable {α : Type}

/-! ## Paths and their segments -/

namespace Path

/-- `str::split("::")`. -/
def split : Text → List Text
  | [] => [[]]
  | ':' :: ':' :: rest => [] :: split rest
  | c :: rest => (split rest).modifyHead (c :: ·)

/-- Segments joined by `::`. -/
def join : List Text → Text
  | [] => []
  | [segment] => segment
  | segment :: next :: segments => segment ++ ':' :: ':' :: join (next :: segments)

/-- `MAX_SYMBOL_LEN`. -/
def maxSymbolLen : Nat := 65534

/-- A character of a constant name past its first. -/
def wordChar (c : Char) : Bool := c.isAlphanum || c == '_'

/-- `is_constant_name`. -/
def isConstantName (name : Text) : Bool :=
  Text.len name ≤ maxSymbolLen && name.head?.any Char.isUpper && name.tail.all wordChar

/-- `is_constant_path`. -/
def isConstantPath (path : Text) : Bool := (split path).all isConstantName

/-- `RESERVED_NAMESPACE`. -/
def reservedNamespace : Text := ['K', 'o', 'b', 'a', 'k', 'o']

/-- `is_reserved`. -/
def isReserved (path : Text) : Bool := (split path).head? == some reservedNamespace

/-- Neither path leads to the other, segment by segment. -/
def Incomparable (first second : Text) : Prop :=
  ¬split first <+: split second ∧ ¬split second <+: split first

theorem Incomparable.symm {first second : Text} (apart : Incomparable first second) :
    Incomparable second first := ⟨apart.2, apart.1⟩

instance : Std.Symm fun first second : Text × α => Incomparable first.1 second.1 :=
  ⟨fun _ _ => Incomparable.symm⟩

/-- A path has a segment. -/
theorem split_ne_nil (path : Text) : split path ≠ [] := by
  fun_induction split path with
  | case1 => simp
  | case2 => simp
  | case3 c rest _ ih => simpa using ih

/-- The segments joined are the path. -/
theorem join_split (path : Text) : join (split path) = path := by
  fun_induction split path with
  | case1 => rfl
  | case2 rest ih =>
    cases segments : split rest with
    | nil => exact absurd segments (split_ne_nil rest)
    | cons segment others =>
      rw [segments] at ih
      rw [join, ih]
      rfl
  | case3 c rest _ ih =>
    cases segments : split rest with
    | nil => exact absurd segments (split_ne_nil rest)
    | cons segment others =>
      rw [segments] at ih
      cases others with
      | nil => simpa [join] using ih
      | cons next others => simpa [join] using ih

/-- Two paths of the same segments are one. -/
theorem split_injective {first second : Text} (same : split first = split second) :
    first = second := by
  rw [← join_split first, same, join_split]

/-- Segments joined to further ones. -/
theorem join_append {front back : List Text} (first : front ≠ []) (second : back ≠ []) :
    join (front ++ back) = join front ++ ':' :: ':' :: join back := by
  induction front with
  | nil => exact absurd rfl first
  | cons segment front ih =>
    cases front with
    | nil =>
      cases back with
      | nil => exact absurd rfl second
      | cons next back => rfl
    | cons next front =>
      have later := ih (by simp)
      simp only [List.cons_append, join] at later ⊢
      rw [later]
      simp

/-- A path that does not end in a colon keeps its segments where `::` follows it. -/
theorem split_append {path : Text} (ends : path.getLast? ≠ some ':') (rest : Text) :
    split (path ++ ':' :: ':' :: rest) = split path ++ split rest := by
  fun_induction split path with
  | case1 => rfl
  | case2 path ih =>
    have later : path.getLast? ≠ some ':' := by
      cases path with
      | nil => simp at ends
      | cons c path => simpa using ends
    simp [split, ih later]
  | case3 c path single ih =>
    have later : path.getLast? ≠ some ':' := by
      cases path with
      | nil => simp
      | cons d path => simpa using ends
    have apart : ∀ tail, c = ':' → path ++ ':' :: ':' :: rest ≠ ':' :: tail := by
      intro tail colon
      cases path with
      | nil => simp [colon] at ends
      | cons d path =>
        intro same
        simp only [List.cons_append, List.cons.injEq] at same
        exact single path colon (by rw [same.1])
    have steps : split (c :: (path ++ ':' :: ':' :: rest)) =
        (split (path ++ ':' :: ':' :: rest)).modifyHead (c :: ·) := by
      rw [split]
      intro tail colon same
      exact apart tail colon same
    rw [List.cons_append, steps, ih later]
    cases segments : split path with
    | nil => exact absurd segments (split_ne_nil path)
    | cons segment others => rfl

/-- What a path ends in is what its last segment ends in. -/
theorem getLast?_join {segments : List Text} (filled : ∀ segment ∈ segments, segment ≠ []) :
    (join segments).getLast? = segments.getLast?.bind List.getLast? := by
  induction segments with
  | nil => rfl
  | cons segment segments ih =>
    cases segments with
    | nil => rfl
    | cons next segments =>
      have later := ih fun other mem => filled other (List.mem_cons_of_mem _ mem)
      have some : join (next :: segments) ≠ [] := by
        have first := filled next (by simp)
        cases segments with
        | nil => exact first
        | cons last segments => simp [join, first]
      obtain ⟨c, rest, same⟩ := List.exists_cons_of_ne_nil some
      rw [join, List.getLast?_append, List.getLast?_cons_cons, List.getLast?_cons_cons, ← later,
        same]
      simp [List.getLast?_cons]

/-- A constant name starts with a letter. -/
theorem constantName_ne_nil {name : Text} (isName : isConstantName name = true) : name ≠ [] := by
  rintro rfl
  simp [isConstantName] at isName

/-- A constant name has no colon. -/
theorem constantName_no_colon {name : Text} (isName : isConstantName name = true) :
    ':' ∉ name := by
  cases name with
  | nil => simp
  | cons c rest =>
    simp only [isConstantName, List.head?_cons, Option.any_some, List.tail_cons, Bool.and_eq_true,
      List.all_eq_true] at isName
    intro colon
    rcases List.mem_cons.mp colon with same | later
    · have upper := isName.1.2
      rw [← same] at upper
      exact absurd upper (by decide)
    · exact absurd (isName.2 _ later) (by decide)

/-- A constant path does not end in a colon. -/
theorem constantPath_ends {path : Text} (isPath : isConstantPath path = true) :
    path.getLast? ≠ some ':' := by
  have names : ∀ segment ∈ split path, isConstantName segment = true :=
    List.all_eq_true.mp isPath
  intro colon
  rw [← join_split path, getLast?_join fun segment mem => constantName_ne_nil (names segment mem),
    Option.bind_eq_some_iff] at colon
  obtain ⟨segment, last, ends⟩ := colon
  exact constantName_no_colon (names segment (List.mem_of_getLast? last)) (List.mem_of_getLast? ends)

/-- A text starts with a constant path and `::` exactly where its segments go on past the
path's. -/
theorem startsWith_iff {path other : Text} (isPath : isConstantPath path = true) :
    path ++ [':', ':'] <+: other ↔ split path <+: split other ∧ path ≠ other := by
  constructor
  · rintro ⟨rest, rfl⟩
    rw [List.append_assoc]
    refine ⟨⟨split rest, (split_append (constantPath_ends isPath) rest).symm⟩, fun same => ?_⟩
    have long := congrArg List.length same
    simp at long
  · rintro ⟨⟨rest, same⟩, apart⟩
    cases rest with
    | nil => exact absurd (split_injective (by simpa using same)) apart
    | cons segment rest =>
      have whole := congrArg join same
      rw [join_append (split_ne_nil path) (by simp), join_split, join_split] at whole
      exact ⟨join (segment :: rest), by rw [← whole]; simp⟩

end Path

/-! ## The registry of the crate -/

/-- Why a path is refused. -/
inductive Refusal where
  /-- `bind path must be constant-form segments joined by '::'`. -/
  | form (path : Text)
  /-- `Service path … is in the reserved Kobako namespace`. -/
  | reserved (path : Text)
  /-- `Service path … conflicts with an existing binding`. -/
  | conflict (path : Text)
  deriving DecidableEq, Repr

/-- A sequence of calls of a registry: each one's answer, and the registry they leave. -/
def bindEach {σ : Type} (bind : σ → Text → α → Except Refusal σ) :
    List (Text × α) → σ → List (Except Refusal Unit) × σ
  | [], registry => ([], registry)
  | (path, object) :: calls, registry =>
    match bind registry path object with
    | .ok next => (.ok () :: (bindEach bind calls next).1, (bindEach bind calls next).2)
    | .error refused =>
      (.error refused :: (bindEach bind calls registry).1, (bindEach bind calls registry).2)

/-- `Catalog`: the paths bound, each with its object, in the order they were bound. -/
structure Catalog (α : Type) where
  /-- Each bound path with its object. -/
  bindings : List (Text × α)

namespace Catalog

open Kobako.Path

/-- `Catalog::default`. -/
def empty : Catalog α := ⟨[]⟩

/-- `Catalog::collides`. -/
def collides (catalog : Catalog α) (path : Text) : Bool :=
  catalog.bindings.any fun binding =>
    binding.1 == path || (path ++ [':', ':']).isPrefixOf binding.1 ||
      (binding.1 ++ [':', ':']).isPrefixOf path

/-- `Catalog::bind`. -/
def bind (catalog : Catalog α) (path : Text) (object : α) : Except Refusal (Catalog α) :=
  if !isConstantPath path then .error (.form path)
  else if isReserved path then .error (.reserved path)
  else if catalog.collides path then .error (.conflict path)
  else .ok ⟨catalog.bindings ++ [(path, object)]⟩

/-- `Catalog::lookup`. -/
def lookup (catalog : Catalog α) (path : Text) : Option α :=
  (catalog.bindings.find? fun binding => binding.1 == path).map Prod.snd

/-- A sequence of `Catalog::bind` calls. -/
def bindAll (calls : List (Text × α)) (catalog : Catalog α) :
    List (Except Refusal Unit) × Catalog α := bindEach bind calls catalog

/-- The paths bound are constant paths, none of which leads to another. -/
structure Antichain (catalog : Catalog α) : Prop where
  /-- Each path is of constant form. -/
  constant : ∀ binding ∈ catalog.bindings, isConstantPath binding.1 = true
  /-- No path leads to another. -/
  apart : catalog.bindings.Pairwise fun first second => Incomparable first.1 second.1

/-- What a path has to meet to be bound. -/
structure Bindable (catalog : Catalog α) (path : Text) : Prop where
  /-- The path is of constant form. -/
  constant : isConstantPath path = true
  /-- It is outside the reserved namespace. -/
  free : (split path).head? ≠ some reservedNamespace
  /-- It neither leads to a bound path nor lies beneath one. -/
  apart : ∀ binding ∈ catalog.bindings, Incomparable binding.1 path

variable {catalog : Catalog α} {path : Text} {object : α}

/-- Constant paths collide exactly where one leads to the other. -/
theorem collides_iff (constant : ∀ binding ∈ catalog.bindings, isConstantPath binding.1 = true)
    (isPath : isConstantPath path = true) :
    catalog.collides path = false ↔ ∀ binding ∈ catalog.bindings, Incomparable binding.1 path := by
  rw [collides, List.any_eq_false]
  refine forall₂_congr fun binding mem => ?_
  simp only [Bool.or_eq_true, beq_iff_eq, List.isPrefixOf_iff_prefix,
    startsWith_iff isPath, startsWith_iff (constant binding mem), Incomparable]
  by_cases same : binding.1 = path
  · simp [same]
  · have other : path ≠ binding.1 := fun turned => same turned.symm
    simp only [same, other, false_or, ne_eq, not_false_eq_true, and_true, not_or]
    exact and_comm

/-- A call is accepted exactly where its path may be bound, and then binds it last. -/
theorem bind_eq_ok {catalog next : Catalog α} (antichain : catalog.Antichain) :
    catalog.bind path object = .ok next ↔
      catalog.Bindable path ∧ next = ⟨catalog.bindings ++ [(path, object)]⟩ := by
  by_cases isPath : isConstantPath path = true
  · by_cases isFree : isReserved path = true
    · have reserved : (split path).head? = some reservedNamespace := by simpa [isReserved] using isFree
      simp only [bind, isPath, isFree, Bool.not_true, Bool.false_eq_true, ↓reduceIte, reduceCtorEq,
        false_iff, not_and]
      exact fun bindable => absurd reserved bindable.free
    · have free : (split path).head? ≠ some reservedNamespace := by simpa [isReserved] using isFree
      have collision := collides_iff antichain.constant isPath
      by_cases clash : catalog.collides path = true
      · have clashes : ¬∀ binding ∈ catalog.bindings, Incomparable binding.1 path := by
          rw [← collision, clash]
          simp
        simp only [bind, isPath, isFree, clash, Bool.not_true, Bool.false_eq_true, ↓reduceIte,
          reduceCtorEq, false_iff, not_and]
        exact fun bindable => absurd bindable.apart clashes
      · rw [Bool.not_eq_true] at clash
        have bindable : catalog.Bindable path := ⟨isPath, free, collision.mp clash⟩
        simp [bind, isPath, isFree, clash, bindable, eq_comm]
  · simp only [bind, isPath, Bool.not_false, ↓reduceIte, reduceCtorEq, false_iff, not_and]
    exact fun bindable => absurd bindable.constant isPath

/-- Binding a path keeps the bound paths an antichain. -/
theorem Antichain.push (antichain : catalog.Antichain) (bindable : catalog.Bindable path)
    (object : α) :
    Antichain ⟨catalog.bindings ++ [(path, object)]⟩ := by
  refine ⟨fun binding mem => ?_, ?_⟩
  · rcases List.mem_append.mp mem with older | newest
    · exact antichain.constant binding older
    · rw [List.mem_singleton.mp newest]
      exact bindable.constant
  · rw [List.pairwise_append]
    refine ⟨antichain.apart, List.pairwise_singleton _ _, fun first older second newest => ?_⟩
    rw [List.mem_singleton.mp newest]
    exact bindable.apart first older

/-! ## Sequences of calls -/

theorem empty_antichain : (empty : Catalog α).Antichain := ⟨by simp [empty], by simp [empty]⟩

section

variable (antichain : catalog.Antichain)

include antichain

/-- A call by whether its path may be bound. -/
theorem bindAll_cons (path : Text) (object : α) (calls : List (Text × α)) :
    (catalog.Bindable path ∧ Antichain ⟨catalog.bindings ++ [(path, object)]⟩ ∧
      bindAll ((path, object) :: calls) catalog =
        (.ok () :: (bindAll calls ⟨catalog.bindings ++ [(path, object)]⟩).1,
          (bindAll calls ⟨catalog.bindings ++ [(path, object)]⟩).2)) ∨
    (¬catalog.Bindable path ∧ ∃ refused, bindAll ((path, object) :: calls) catalog =
        (.error refused :: (bindAll calls catalog).1, (bindAll calls catalog).2)) := by
  cases answer : catalog.bind path object with
  | ok next =>
    obtain ⟨bindable, rfl⟩ := (bind_eq_ok antichain).mp answer
    exact .inl ⟨bindable, antichain.push bindable object, by simp only [bindAll, bindEach, answer]⟩
  | error refused =>
    refine .inr ⟨fun bindable => ?_, refused, by simp only [bindAll, bindEach, answer]⟩
    rw [(bind_eq_ok antichain).mpr ⟨bindable, rfl⟩] at answer
    cases answer

/-- Whatever is called, the bound paths stay an antichain. -/
theorem bindAll_antichain (calls : List (Text × α)) :
    (bindAll calls catalog).2.Antichain := by
  induction calls generalizing catalog with
  | nil => exact antichain
  | cons call calls ih =>
    obtain ⟨path, object⟩ := call
    rcases bindAll_cons antichain path object calls with ⟨_, kept, same⟩ | ⟨_, _, same⟩
    · rw [same]
      exact ih kept
    · rw [same]
      exact ih antichain

omit antichain in
/-- A call accepted among others is the first of them or a later one. -/
theorem exists_called_cons {call binding : Text × α} {calls : List (Text × α)}
    {answer : Except Refusal Unit} {answers : List (Except Refusal Unit)} :
    (∃ index : Nat, (call :: calls)[index]? = some binding ∧
        (answer :: answers)[index]? = some (.ok ())) ↔
      (call = binding ∧ answer = .ok ()) ∨
        ∃ index : Nat, calls[index]? = some binding ∧ answers[index]? = some (.ok ()) := by
  constructor
  · rintro ⟨index, called, accepted⟩
    cases index with
    | zero => exact .inl ⟨by simpa using called, by simpa using accepted⟩
    | succ index => exact .inr ⟨index, called, accepted⟩
  · rintro (⟨same, accepted⟩ | ⟨index, called, accepted⟩)
    · exact ⟨0, by simpa using same, by simpa using accepted⟩
    · exact ⟨index + 1, called, accepted⟩

/-- What is bound is what was bound before or by an accepted call. -/
theorem mem_bindAll (calls : List (Text × α)) (binding : Text × α) :
    binding ∈ (bindAll calls catalog).2.bindings ↔ binding ∈ catalog.bindings ∨
      ∃ index : Nat, calls[index]? = some binding ∧
        (bindAll calls catalog).1[index]? = some (.ok ()) := by
  induction calls generalizing catalog with
  | nil => simp [bindAll, bindEach]
  | cons call calls ih =>
    obtain ⟨path, object⟩ := call
    rcases bindAll_cons antichain path object calls with ⟨_, kept, same⟩ | ⟨_, _, same⟩
    · rw [same, exists_called_cons, ih kept, List.mem_append, List.mem_singleton]
      simp only [and_true, eq_comm, or_assoc]
    · rw [same, exists_called_cons, ih antichain]
      simp

/-- No call is accepted for a path that is bound. -/
theorem bound_refused (calls : List (Text × α)) (bound : (path, object) ∈ catalog.bindings)
    {index : Nat} {other : α} (called : calls[index]? = some (path, other)) :
    (bindAll calls catalog).1[index]? ≠ some (.ok ()) := by
  induction calls generalizing catalog index with
  | nil => simp at called
  | cons call calls ih =>
    obtain ⟨first, given⟩ := call
    rcases bindAll_cons antichain first given calls with ⟨bindable, kept, same⟩ | ⟨_, _, same⟩
    · rw [same]
      cases index with
      | zero =>
        simp only [List.getElem?_cons_zero, Option.some.injEq, Prod.mk.injEq] at called
        have apart := bindable.apart _ bound
        rw [called.1] at apart
        exact absurd (List.prefix_refl _) apart.1
      | succ index => exact ih kept (List.mem_append_left _ bound) called
    · rw [same]
      cases index with
      | zero => simp
      | succ index => exact ih antichain bound called

/-- One call at most is accepted for a path. -/
theorem accepted_once (calls : List (Text × α)) {first second : Nat} {object other : α}
    (called : calls[first]? = some (path, object))
    (accepted : (bindAll calls catalog).1[first]? = some (.ok ()))
    (again : calls[second]? = some (path, other))
    (accepts : (bindAll calls catalog).1[second]? = some (.ok ())) : first = second := by
  induction calls generalizing catalog first second with
  | nil => simp at called
  | cons call calls ih =>
    obtain ⟨given, held⟩ := call
    rcases bindAll_cons antichain given held calls with ⟨_, kept, same⟩ | ⟨_, refused, same⟩
    · rw [same] at accepted accepts
      have bound : (given, held) ∈ catalog.bindings ++ [(given, held)] := by simp
      cases first with
      | zero =>
        cases second with
        | zero => rfl
        | succ second =>
          simp only [List.getElem?_cons_zero, Option.some.injEq, Prod.mk.injEq] at called
          obtain ⟨rfl, rfl⟩ := called
          exact absurd accepts (bound_refused kept calls bound again)
      | succ first =>
        cases second with
        | zero =>
          simp only [List.getElem?_cons_zero, Option.some.injEq, Prod.mk.injEq] at again
          obtain ⟨rfl, rfl⟩ := again
          exact absurd accepted (bound_refused kept calls bound called)
        | succ second => rw [ih kept called accepted again accepts]
    · rw [same] at accepted accepts
      cases first with
      | zero => simp at accepted
      | succ first =>
        cases second with
        | zero => simp at accepts
        | succ second => rw [ih antichain called accepted again accepts]

/-- Two objects bound at one path are one. -/
theorem Antichain.same_object {first second : Text × α} (one : first ∈ catalog.bindings)
    (other : second ∈ catalog.bindings) (at_ : first.1 = path) (there : second.1 = path) :
    first = second := by
  by_contra apart
  have incomparable := antichain.apart.forall one other apart
  rw [at_, there] at incomparable
  exact incomparable.1 (List.prefix_refl _)

/-- A lookup answers what is bound at the path. -/
theorem lookup_eq_some :
    catalog.lookup path = some object ↔ (path, object) ∈ catalog.bindings := by
  rw [lookup, Option.map_eq_some_iff]
  constructor
  · rintro ⟨binding, found, rfl⟩
    have here : binding.1 = path := by simpa using List.find?_some found
    rw [← here]
    exact List.mem_of_find?_eq_some found
  · intro bound
    cases found : catalog.bindings.find? fun binding => binding.1 == path with
    | none => exact absurd (List.find?_eq_none.mp found _ bound) (by simp)
    | some binding =>
      have here : binding.1 = path := by simpa using List.find?_some found
      have same := antichain.same_object (List.mem_of_find?_eq_some found) bound here rfl
      exact ⟨binding, rfl, by rw [same]⟩

/-- A list binds without refusal exactly where each path may be bound and none leads to another. -/
theorem bindAll_accepted (calls : List (Text × α)) :
    (∀ answer ∈ (bindAll calls catalog).1, answer = .ok ()) ↔
      (∀ call ∈ calls, catalog.Bindable call.1) ∧
        calls.Pairwise fun first second => Incomparable first.1 second.1 := by
  induction calls generalizing catalog with
  | nil => simp [bindAll, bindEach]
  | cons call calls ih =>
    obtain ⟨path, object⟩ := call
    rcases bindAll_cons antichain path object calls with ⟨bindable, kept, same⟩ | ⟨not, _, same⟩
    · have pushes : ∀ other : Text, Bindable ⟨catalog.bindings ++ [(path, object)]⟩ other ↔
          catalog.Bindable other ∧ Incomparable path other := by
        intro other
        constructor
        · intro isBindable
          exact ⟨⟨isBindable.constant, isBindable.free,
            fun binding mem => isBindable.apart binding (List.mem_append_left _ mem)⟩,
            isBindable.apart (path, object) (by simp)⟩
        · rintro ⟨isBindable, apart⟩
          refine ⟨isBindable.constant, isBindable.free, fun binding mem => ?_⟩
          rcases List.mem_append.mp mem with older | newest
          · exact isBindable.apart binding older
          · rw [List.mem_singleton.mp newest]
            exact apart
      rw [same, List.forall_mem_cons, ih kept, List.forall_mem_cons, List.pairwise_cons]
      simp only [pushes, true_and, bindable]
      constructor
      · rintro ⟨both, later⟩
        exact ⟨fun call mem => (both call mem).1, fun call mem => (both call mem).2, later⟩
      · rintro ⟨each, first, later⟩
        exact ⟨fun call mem => ⟨each call mem, first call mem⟩, later⟩
    · rw [same]
      simp only [List.forall_mem_cons, reduceCtorEq, false_and, false_iff, not_and]
      exact fun both => absurd both.1 not

end

end Catalog

/-! ## The registry of the gem -/

/-- `Catalog::Services`: the `Hash` of bound paths, in the order they were bound. -/
structure Services (α : Type) where
  /-- Each bound path with its object. -/
  bindings : List (Text × α)

namespace Services

open Kobako.Path

/-- `CONSTANT_NAME`: an upper-case letter and at most 65533 word characters. -/
def constantName : Text → Bool
  | [] => false
  | c :: rest => c.isUpper && rest.all wordChar && rest.length ≤ 65533

/-- `String#split("::", -1)`. -/
def splitAll (path : Text) : List Text := if path.isEmpty then [] else split path

/-- `String#split("::")`, which drops the empty segments at the end. -/
def splitTrimmed (path : Text) : List Text :=
  ((splitAll path).reverse.dropWhile List.isEmpty).reverse

/-- `Services#validate_path`. -/
def validatePath (path : Text) : Except Refusal Text :=
  if !(splitAll path).isEmpty && (splitAll path).all constantName then .ok path
  else .error (.form path)

/-- `Services#reserved?`. -/
def reserved (path : Text) : Bool := (splitTrimmed path).head? == some reservedNamespace

/-- `Services#collision?`. -/
def collision (services : Services α) (path : Text) : Bool :=
  services.bindings.any fun binding =>
    binding.1 == path || (path ++ [':', ':']).isPrefixOf binding.1 ||
      (binding.1 ++ [':', ':']).isPrefixOf path

/-- `Hash#[]=`. -/
def store (bindings : List (Text × α)) (path : Text) (object : α) : List (Text × α) :=
  if bindings.any (·.1 == path) then
    bindings.map fun binding => if binding.1 == path then (binding.1, object) else binding
  else bindings ++ [(path, object)]

/-- `Services#bind`. -/
def bind (services : Services α) (path : Text) (object : α) : Except Refusal (Services α) :=
  match validatePath path with
  | .error refused => .error refused
  | .ok path =>
    if reserved path then .error (.reserved path)
    else if services.collision path then .error (.conflict path)
    else .ok ⟨store services.bindings path object⟩

/-- A sequence of `Services#bind` calls. -/
def bindAll (calls : List (Text × α)) (services : Services α) :
    List (Except Refusal Unit) × Services α := bindEach bind calls services

/-- Characters of a constant name are one byte each. -/
theorem wordChar_size {c : Char} (word : wordChar c = true) : c.utf8Size = 1 := by
  rw [Char.utf8Size_eq_one_iff]
  rcases (Bool.or_eq_true _ _).mp word with alphanum | same
  · rcases (Bool.or_eq_true _ _).mp alphanum with letter | digit
    · rcases (Bool.or_eq_true _ _).mp letter with upper | lower
      · have within : c.val ≥ 'A'.val ∧ c.val ≤ 'Z'.val := of_decide_eq_true upper
        exact UInt32.le_trans within.2 (by decide)
      · have below : c.val ≤ 'z'.val := of_decide_eq_true ((Bool.and_eq_true _ _).mp lower).2
        exact UInt32.le_trans below (by decide)
    · have below : c.val ≤ '9'.val := of_decide_eq_true ((Bool.and_eq_true _ _).mp digit).2
      exact UInt32.le_trans below (by decide)
  · rw [beq_iff_eq.mp same]
    decide

/-- An upper-case letter is a character of a constant name. -/
theorem wordChar_of_isUpper {c : Char} (upper : c.isUpper = true) : wordChar c = true := by
  have letter : c.isAlpha = true := (Bool.or_eq_true _ _).mpr (.inl upper)
  simp [wordChar, Char.isAlphanum, letter]

/-- Word characters take as many bytes as there are of them. -/
theorem len_of_word {name : Text} (word : name.all wordChar = true) : Text.len name = name.length := by
  induction name with
  | nil => rfl
  | cons c rest ih =>
    rw [List.all_cons, Bool.and_eq_true] at word
    rw [Text.len_cons, wordChar_size word.1, ih word.2, List.length_cons, Nat.add_comm]

/-- The two languages take the same names. -/
theorem constantName_eq (name : Text) : constantName name = isConstantName name := by
  cases name with
  | nil => rfl
  | cons c rest =>
    by_cases word : c.isUpper = true ∧ rest.all wordChar = true
    · have long : Text.len (c :: rest) = rest.length + 1 := by
        rw [Text.len_cons, wordChar_size (wordChar_of_isUpper word.1), len_of_word word.2,
          Nat.add_comm]
      simp only [constantName, isConstantName, List.head?_cons, Option.any_some, List.tail_cons,
        word.1, word.2, long, maxSymbolLen, Bool.true_and, Bool.and_true, decide_eq_decide]
      constructor <;> intro short <;> omega
    · have neither : (c.isUpper && rest.all wordChar) = false := by
        simpa [Bool.and_eq_true] using word
      simp only [constantName, isConstantName, List.head?_cons, Option.any_some, List.tail_cons,
        Bool.and_assoc, neither, Bool.and_false]
      exact Bool.false_and _

/-- The two languages take the same paths. -/
theorem validatePath_eq (path : Text) :
    validatePath path = if isConstantPath path then .ok path else .error (.form path) := by
  have names : constantName = isConstantName := funext constantName_eq
  cases path with
  | nil => rfl
  | cons c rest =>
    have some : (split (c :: rest)).isEmpty = false := by
      rw [List.isEmpty_eq_false_iff]
      exact split_ne_nil _
    simp [validatePath, splitAll, some, names, isConstantPath]

/-- No segment of a constant path is empty, so none is dropped. -/
theorem splitTrimmed_eq {path : Text} (isPath : isConstantPath path = true) :
    splitTrimmed path = split path := by
  have filled : ∀ segment ∈ split path, segment.isEmpty = false := by
    intro segment mem
    rw [List.isEmpty_eq_false_iff]
    exact constantName_ne_nil (List.all_eq_true.mp isPath segment mem)
  have some : path.isEmpty = false := by
    rw [List.isEmpty_eq_false_iff]
    rintro rfl
    exact absurd isPath (by decide)
  have keeps : (split path).reverse.dropWhile List.isEmpty = (split path).reverse := by
    cases turned : (split path).reverse with
    | nil => rfl
    | cons last others =>
      have here : last ∈ split path := by
        rw [← List.mem_reverse, turned]
        exact List.mem_cons_self
      rw [List.dropWhile_cons, filled last here]
      rfl
  rw [splitTrimmed, splitAll, some, if_neg (by simp), keeps, List.reverse_reverse]

/-- Registries that hold the same answer alike and hold the same. -/
theorem bind_eq (services : Services α) (path : Text) (object : α) :
    services.bind path object =
      (Catalog.bind ⟨services.bindings⟩ path object).map fun next => ⟨next.bindings⟩ := by
  by_cases isPath : isConstantPath path = true
  · have keeps : reserved path = isReserved path := by
      rw [reserved, splitTrimmed_eq isPath, isReserved]
    by_cases isFree : isReserved path = true
    · simp [bind, validatePath_eq, isPath, keeps, isFree, Catalog.bind, Except.map]
    · by_cases clash : Catalog.collides ⟨services.bindings⟩ path = true
      · have collides : services.collision path = true := clash
        simp [bind, validatePath_eq, isPath, keeps, isFree, Catalog.bind, clash, collides,
          Except.map]
      · have collides : services.collision path = false := Bool.not_eq_true _ ▸ clash
        have absent : services.bindings.any (·.1 == path) = false := by
          rw [List.any_eq_false]
          intro binding mem here
          have misses := List.any_eq_false.mp collides binding mem
          simp [here] at misses
        simp [bind, validatePath_eq, isPath, keeps, isFree, Catalog.bind, clash, collides,
          Except.map, store, absent]
  · simp [bind, validatePath_eq, isPath, Catalog.bind, Except.map]

/-- Every sequence of calls is answered alike. -/
theorem bindAll_eq (calls : List (Text × α)) (services : Services α) :
    (bindAll calls services).1 = (Catalog.bindAll calls ⟨services.bindings⟩).1 ∧
      (bindAll calls services).2.bindings =
        (Catalog.bindAll calls ⟨services.bindings⟩).2.bindings := by
  induction calls generalizing services with
  | nil => exact ⟨rfl, rfl⟩
  | cons call calls ih =>
    obtain ⟨path, object⟩ := call
    have same := bind_eq services path object
    cases answer : Catalog.bind ⟨services.bindings⟩ path object with
    | ok next =>
      rw [answer] at same
      obtain ⟨answers, bindings⟩ := ih ⟨next.bindings⟩
      simp only [bindAll, Catalog.bindAll, bindEach, answer, same, Except.map] at answers bindings ⊢
      exact ⟨by rw [answers], bindings⟩
    | error refused =>
      rw [answer] at same
      obtain ⟨answers, bindings⟩ := ih services
      simp only [bindAll, Catalog.bindAll, bindEach, answer, same, Except.map] at answers bindings ⊢
      exact ⟨by rw [answers], bindings⟩

end Services

/-- Bound paths never shadow each other. Whatever is bound, the bound paths are an antichain of
constant paths; a path's lookup answers the object of the one call accepted for it; a further call
is accepted exactly where its path is of constant form, outside the reserved namespace and
incomparable to every path bound; whether a list binds without refusal does not depend on its
order; and the gem's registry answers every sequence as the crate's does. -/
theorem bindings_antichain (calls : List (Text × α)) :
    (Catalog.bindAll calls .empty).2.Antichain ∧
    (∀ path object, (Catalog.bindAll calls .empty).2.lookup path = some object ↔
      ∃ index : Nat, calls[index]? = some (path, object) ∧
        (Catalog.bindAll calls .empty).1[index]? = some (.ok ())) ∧
    (∀ path (first second : Nat) (object other : α), calls[first]? = some (path, object) →
      (Catalog.bindAll calls .empty).1[first]? = some (.ok ()) →
      calls[second]? = some (path, other) →
      (Catalog.bindAll calls .empty).1[second]? = some (.ok ()) → first = second) ∧
    (∀ path object, (∃ next, (Catalog.bindAll calls .empty).2.bind path object = .ok next) ↔
      Path.isConstantPath path = true ∧
        (Path.split path).head? ≠ some Path.reservedNamespace ∧
        ∀ binding ∈ (Catalog.bindAll calls .empty).2.bindings,
          Path.Incomparable binding.1 path) ∧
    (∀ others : List (Text × α), calls.Perm others →
      ((∀ answer ∈ (Catalog.bindAll calls .empty).1, answer = .ok ()) ↔
        ∀ answer ∈ (Catalog.bindAll others .empty).1, answer = .ok ())) ∧
    (Services.bindAll calls ⟨[]⟩).1 = (Catalog.bindAll calls .empty).1 := by
  have starts := Catalog.empty_antichain (α := α)
  have antichain := Catalog.bindAll_antichain starts calls
  refine ⟨antichain, fun path object => ?_, fun path first second object other =>
    Catalog.accepted_once starts calls, fun path object => ?_, fun others turned => ?_,
    (Services.bindAll_eq calls ⟨[]⟩).1⟩
  · rw [Catalog.lookup_eq_some antichain, Catalog.mem_bindAll starts]
    simp [Catalog.empty]
  · simp only [Catalog.bind_eq_ok antichain, exists_and_left, exists_eq, and_true]
    exact ⟨fun bindable => ⟨bindable.constant, bindable.free, bindable.apart⟩,
      fun ⟨constant, free, apart⟩ => ⟨constant, free, apart⟩⟩
  · rw [Catalog.bindAll_accepted starts, Catalog.bindAll_accepted starts]
    have each : (∀ call ∈ calls, Catalog.empty.Bindable (α := α) call.1) ↔
        ∀ call ∈ others, Catalog.empty.Bindable (α := α) call.1 :=
      forall_congr' fun call => by rw [turned.mem_iff]
    rw [each, turned.pairwise_iff Path.Incomparable.symm]

end Kobako
