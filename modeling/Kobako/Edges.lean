import Mathlib.Data.List.Induction
import Mathlib.Logic.Basic

/-!
# Trees by their edges

A tree told by what each directory holds at each name. Whatever a node is, `inside` says which
directory it is, if it is one, and `key` tells nodes apart. Placing something at a name leaves every
other name, and everything beneath a node the name is not beneath of; a tree stays one where nothing
is placed beneath itself.
-/

namespace Kobako

/-- What each directory holds at each name. -/
abbrev Edges (ι κ ν : Type) := ι → κ → Option ν

namespace Edges

variable {ι κ ν : Type} [DecidableEq ι] [DecidableEq κ]

/-- Something placed at a name, or the name left free. -/
def place (edges : Edges ι κ ν) (dir : ι) (name : κ) (what : Option ν) : Edges ι κ ν :=
  fun other called => if other = dir ∧ called = name then what else edges other called

theorem place_self (edges : Edges ι κ ν) (dir : ι) (name : κ) (what : Option ν) :
    edges.place dir name what dir name = what := if_pos ⟨rfl, rfl⟩

theorem place_other (edges : Edges ι κ ν) {dir other : ι} {name called : κ} (what : Option ν)
    (apart : ¬ (other = dir ∧ called = name)) :
    edges.place dir name what other called = edges other called := if_neg apart

/-- What stands at a name moved to another, leaving something, or nothing, in its place. -/
def move (edges : Edges ι κ ν) (fromDir : ι) (source : κ) (toDir : ι) (target : κ)
    (left : Option ν) : Edges ι κ ν :=
  (edges.place fromDir source left).place toDir target (edges fromDir source)

/-- What holds nothing is neither directory of a move over it, and holds nothing still. -/
theorem move_nothing {edges : Edges ι κ ν} {fromDir toDir dir : ι} {source target : κ}
    (nothing : ∀ name, edges dir name = none) (stands : edges fromDir source ≠ none)
    (standsTo : edges toDir target ≠ none) (left : Option ν) (name : κ) :
    edges.move fromDir source toDir target left dir name = none := by
  have notTarget : dir ≠ toDir := fun same => standsTo (same ▸ nothing target)
  have notSource : dir ≠ fromDir := fun same => stands (same ▸ nothing source)
  unfold move
  rw [place_other _ _ fun both => notTarget both.1, place_other _ _ fun both => notSource both.1]
  exact nothing name

/-! ## Nodes named once -/

variable (key : ν → ι) (inside : ν → Option ι)

/-- No node has two names. -/
def Once (edges : Edges ι κ ν) : Prop :=
  ∀ dir name other called first second, edges dir name = some first →
    edges other called = some second → key first = key second → other = dir ∧ called = name

/-- A tree of fewer edges. -/
def Within (fewer edges : Edges ι κ ν) : Prop :=
  ∀ dir name node, fewer dir name = some node → edges dir name = some node

theorem place_none_within (edges : Edges ι κ ν) (dir : ι) (name : κ) :
    (edges.place dir name none).Within edges := by
  intro other called node placed
  by_cases here : other = dir ∧ called = name
  · rw [here.1, here.2, place_self] at placed
    cases placed
  · rw [place_other edges none here] at placed
    exact placed

variable {key}

omit [DecidableEq ι] [DecidableEq κ] in
theorem Once.within {fewer edges : Edges ι κ ν} (once : edges.Once key)
    (within : fewer.Within edges) : fewer.Once key := by
  intro dir name other called first second one two same
  exact once dir name other called first second (within _ _ _ one) (within _ _ _ two) same

variable {dir : ι} {edges : Edges ι κ ν} {name : κ} {node : ν} {left : Option ν} {fromDir toDir : ι}
  {moving : ν} {source target : κ}

/-- A node that has no name elsewhere, given one. -/
theorem Once.place (once : edges.Once key)
    (nowhere : ∀ other called held, edges other called = some held → key held = key node →
      other = dir ∧ called = name) : (edges.place dir name (some node)).Once key := by
  intro first firstName second secondName one two here there same
  by_cases atFirst : first = dir ∧ firstName = name
  · rw [atFirst.1, atFirst.2] at here ⊢
    rw [place_self] at here
    cases here
    by_cases atSecond : second = dir ∧ secondName = name
    · exact atSecond
    · rw [place_other edges _ atSecond] at there
      exact nowhere second secondName two there same.symm
  · rw [place_other edges _ atFirst] at here
    by_cases atSecond : second = dir ∧ secondName = name
    · rw [atSecond.1, atSecond.2, place_self] at there
      cases there
      exact absurd (nowhere first firstName one here same) atFirst
    · rw [place_other edges _ atSecond] at there
      exact once first firstName second secondName one two here there same

/-! ## Beneath -/

/-- Where names lead from a node. -/
def walk (edges : Edges ι κ ν) (node : ν) : List κ → Option ν
  | [] => some node
  | name :: path =>
    match inside node with
    | some dir =>
      match edges dir name with
      | some next => walk edges next path
      | none => none
    | none => none

/-- A directory is a node or lies beneath it. -/
def Beneath (edges : Edges ι κ ν) (node : ν) (dir : ι) : Prop :=
  ∃ path last, edges.walk inside node path = some last ∧ inside last = some dir

/-- No directory lies beneath what it holds. -/
def Acyclic (edges : Edges ι κ ν) : Prop :=
  ∀ dir name node, edges dir name = some node → ¬ edges.Beneath inside node dir

variable {inside}

section

omit [DecidableEq ι] [DecidableEq κ]

/-- A directory is beneath itself. -/
theorem beneath_self (is : inside node = some dir) :
    edges.Beneath inside node dir := ⟨[], node, rfl, is⟩

/-- Nothing is beneath what is no directory. -/
theorem not_beneath_leaf (leaf : inside node = none) (dir : ι) :
    ¬ edges.Beneath inside node dir := by
  rintro ⟨path, last, walks, ends⟩
  cases path with
  | nil =>
    cases walks
    rw [leaf] at ends
    cases ends
  | cons name path =>
    simp only [walk, leaf] at walks
    cases walks

/-- Nothing but itself is beneath a directory that holds nothing. -/
theorem not_beneath_empty {own : ι} (is : inside node = some own)
    (empty : ∀ name, edges own name = none) (apart : dir ≠ own) :
    ¬ edges.Beneath inside node dir := by
  rintro ⟨path, last, walks, ends⟩
  cases path with
  | nil =>
    cases walks
    rw [is] at ends
    exact apart (Option.some.inj ends).symm
  | cons name path =>
    simp only [walk, is, empty] at walks
    cases walks

/-- One name on. -/
theorem walk_cons {node next : ν} (is : inside node = some dir) (holds : edges dir name = some next)
    (path : List κ) :
    edges.walk inside node (name :: path) = edges.walk inside next path := by
  simp only [walk, is, holds]

/-- What is beneath what a directory holds is beneath it. -/
theorem Beneath.up {node next : ν} {dir last : ι} (is : inside node = some dir)
    (holds : edges dir name = some next) (beneath : edges.Beneath inside next last) :
    edges.Beneath inside node last := by
  obtain ⟨path, final, walks, ends⟩ := beneath
  refine ⟨name :: path, final, ?_, ends⟩
  rw [walk_cons is holds]
  exact walks

/-- What is beneath a directory beneath a node is beneath the node. -/
theorem Beneath.trans {node next : ν} {dir last : ι} (one : edges.Beneath inside node dir)
    (holds : edges dir name = some next) (two : edges.Beneath inside next last) :
    edges.Beneath inside node last := by
  obtain ⟨path, final, walks, ends⟩ := one
  induction path generalizing node with
  | nil =>
    cases walks
    exact two.up ends holds
  | cons first path ih =>
    unfold walk at walks
    split at walks
    · rename_i inner is
      split at walks
      · rename_i step stands
        exact (ih walks).up is stands
      · cases walks
    · cases walks

end

/-- Something placed at a name of a directory that is not beneath a node changes nothing beneath the
node. -/
theorem walk_place {what : Option ν} (outside : ¬ edges.Beneath inside node dir) (path : List κ) :
    (edges.place dir name what).walk inside node path = edges.walk inside node path := by
  induction path generalizing node with
  | nil => rfl
  | cons first path ih =>
    unfold walk
    cases is : inside node with
    | none => rfl
    | some inner =>
      have apart : ¬ (inner = dir ∧ first = name) := by
        intro same
        rw [same.1] at is
        exact outside (beneath_self is)
      dsimp only
      rw [place_other edges what apart]
      cases stands : edges inner first with
      | none => rfl
      | some next => exact ih fun beneath => outside (beneath.up is stands)

/-- What is beneath a node once something is placed was beneath it, or is beneath what is placed. -/
theorem Beneath.of_place {node placed : ν} {dir last : ι}
    (outside : ¬ edges.Beneath inside placed dir)
    (beneath : (edges.place dir name (some placed)).Beneath inside node last) :
    edges.Beneath inside node last ∨
      edges.Beneath inside node dir ∧ edges.Beneath inside placed last := by
  obtain ⟨path, final, walks, ends⟩ := beneath
  induction path generalizing node with
  | nil => exact .inl ⟨[], final, walks, ends⟩
  | cons first path ih =>
    unfold walk at walks
    cases is : inside node with
    | none =>
      rw [is] at walks
      cases walks
    | some inner =>
      rw [is] at walks
      dsimp only at walks
      by_cases here : inner = dir ∧ first = name
      · rw [here.1] at is
        rw [here.1, here.2, place_self] at walks
        dsimp only at walks
        rw [walk_place outside] at walks
        exact .inr ⟨beneath_self is, path, final, walks, ends⟩
      · rw [place_other edges _ here] at walks
        cases stands : edges inner first with
        | none =>
          rw [stands] at walks
          cases walks
        | some next =>
          rw [stands] at walks
          cases ih walks with
          | inl before => exact .inl (before.up is stands)
          | inr through => exact .inr ⟨through.1.up is stands, through.2⟩

omit [DecidableEq ι] [DecidableEq κ] in
/-- What is beneath a node in a tree of fewer edges is beneath it. -/
theorem Beneath.within {fewer edges : Edges ι κ ν} (within : fewer.Within edges)
    (beneath : fewer.Beneath inside node dir) : edges.Beneath inside node dir := by
  obtain ⟨path, final, walks, ends⟩ := beneath
  induction path generalizing node with
  | nil => exact ⟨[], final, walks, ends⟩
  | cons first path ih =>
    unfold walk at walks
    split at walks
    · rename_i inner is
      split at walks
      · rename_i step stands
        exact (ih walks).up is (within _ _ _ stands)
      · cases walks
    · cases walks

omit [DecidableEq ι] [DecidableEq κ] in
theorem Acyclic.within {fewer edges : Edges ι κ ν} (acyclic : edges.Acyclic inside)
    (within : fewer.Within edges) : fewer.Acyclic inside := by
  intro dir name node holds beneath
  exact acyclic dir name node (within _ _ _ holds) (beneath.within within)

/-- A tree stays one where nothing is placed beneath itself. -/
theorem Acyclic.place (acyclic : edges.Acyclic inside) (outside : ¬ edges.Beneath inside node dir) :
    (edges.place dir name (some node)).Acyclic inside := by
  intro other called held holds beneath
  by_cases here : other = dir ∧ called = name
  · rw [here.1, here.2, place_self] at holds
    cases holds
    rw [here.1] at beneath
    cases beneath.of_place outside with
    | inl before => exact outside before
    | inr through => exact outside through.2
  · rw [place_other edges _ here] at holds
    cases beneath.of_place outside with
    | inl before => exact acyclic other called held holds before
    | inr through => exact outside (through.2.trans holds through.1)

/-! ## Moves -/

/-- What stands after a move is what moved, what it left, or what stood there. -/
theorem move_cases {fromDir toDir dir : ι} {source target name : κ}
    (stands : edges.move fromDir source toDir target left dir name = some node) :
    ((dir = toDir ∧ name = target) ∧ edges fromDir source = some node) ∨
      (¬ (dir = toDir ∧ name = target) ∧ (dir = fromDir ∧ name = source) ∧ left = some node) ∨
      (¬ (dir = toDir ∧ name = target) ∧ ¬ (dir = fromDir ∧ name = source) ∧
        edges dir name = some node) := by
  unfold move at stands
  by_cases there : dir = toDir ∧ name = target
  · rw [there.1, there.2, place_self] at stands
    exact .inl ⟨there, stands⟩
  · rw [place_other _ _ there] at stands
    by_cases here : dir = fromDir ∧ name = source
    · rw [here.1, here.2, place_self] at stands
      exact .inr (.inl ⟨there, here, stands⟩)
    · rw [place_other _ _ here] at stands
      exact .inr (.inr ⟨there, here, stands⟩)

/-- A move gives nothing a second name, where what it leaves stands nowhere but at its target. -/
theorem Once.move (once : edges.Once key) (stands : edges fromDir source = some moving)
    (leaves : ∀ node, left = some node → key node ≠ key moving ∧
      ∀ dir name held, edges dir name = some held → key held = key node →
        dir = toDir ∧ name = target) :
    (edges.move fromDir source toDir target left).Once key := by
  intro dir name other called first second one two same
  obtain ⟨there, moved⟩ | ⟨aside, here, lies⟩ | ⟨aside, apart, stood⟩ := move_cases one
  · rw [stands] at moved
    cases moved
    obtain ⟨there', -⟩ | ⟨-, -, lies⟩ | ⟨-, apart, stood⟩ := move_cases two
    · exact ⟨there'.1.trans there.1.symm, there'.2.trans there.2.symm⟩
    · exact absurd same.symm (leaves second lies).1
    · exact absurd (once _ _ _ _ _ _ stands stood same) apart
  · obtain ⟨-, moved⟩ | ⟨-, here', -⟩ | ⟨aside', -, stood⟩ := move_cases two
    · rw [stands] at moved
      cases moved
      exact absurd same (leaves first lies).1
    · exact ⟨here'.1.trans here.1.symm, here'.2.trans here.2.symm⟩
    · exact absurd ((leaves first lies).2 _ _ _ stood same.symm) aside'
  · obtain ⟨-, moved⟩ | ⟨-, -, lies⟩ | ⟨-, -, stood'⟩ := move_cases two
    · rw [stands] at moved
      cases moved
      exact absurd (once _ _ _ _ _ _ stands stood same.symm) apart
    · exact absurd ((leaves second lies).2 _ _ _ stood same) aside
    · exact once _ _ _ _ _ _ stood stood' same

/-- What moves lies beneath nothing that moves with it. -/
theorem not_beneath_left (acyclic : edges.Acyclic inside) {source : κ}
    (stands : edges fromDir source = some moving) (outside : ¬ edges.Beneath inside moving toDir)
    (leaves : ∀ node, left = some node → ¬ edges.Beneath inside node fromDir) :
    ¬ (edges.place fromDir source left).Beneath inside moving toDir := by
  intro beneath
  cases left with
  | none => exact outside (beneath.within (place_none_within edges fromDir source))
  | some node =>
    cases beneath.of_place (leaves node rfl) with
    | inl before => exact outside before
    | inr through => exact acyclic fromDir source moving stands through.1

/-- A tree stays one where nothing is moved beneath itself. -/
theorem Acyclic.move (acyclic : edges.Acyclic inside) (stands : edges fromDir source = some moving)
    (outside : ¬ edges.Beneath inside moving toDir)
    (leaves : ∀ node, left = some node → ¬ edges.Beneath inside node fromDir) :
    (edges.move fromDir source toDir target left).Acyclic inside := by
  have clear := not_beneath_left acyclic stands outside leaves
  unfold Edges.move
  rw [stands]
  apply Acyclic.place _ clear
  cases left with
  | none => exact acyclic.within (place_none_within edges fromDir source)
  | some node => exact acyclic.place (leaves node rfl)

/-- Everything beneath what moves stays as it is. -/
theorem walk_move (acyclic : edges.Acyclic inside) (stands : edges fromDir source = some moving)
    (outside : ¬ edges.Beneath inside moving toDir)
    (leaves : ∀ node, left = some node → ¬ edges.Beneath inside node fromDir) (path : List κ) :
    (edges.move fromDir source toDir target left).walk inside moving path =
      edges.walk inside moving path := by
  have clear := not_beneath_left acyclic stands outside leaves
  unfold move
  rw [walk_place clear, walk_place (acyclic fromDir source moving stands)]

/-- Two names exchanged are moved to each other. -/
theorem move_swap (edges : Edges ι κ ν) (apart : ¬ (toDir = fromDir ∧ target = source)) :
    edges.move fromDir source toDir target (edges toDir target) =
      edges.move toDir target fromDir source (edges fromDir source) := by
  funext dir name
  unfold move
  by_cases there : dir = toDir ∧ name = target
  · rw [there.1, there.2, place_self, place_other _ _ apart, place_self]
  · rw [place_other _ _ there]
    by_cases here : dir = fromDir ∧ name = source
    · rw [here.1, here.2, place_self, place_self]
    · rw [place_other _ _ here, place_other _ _ here, place_other _ _ there]

/-! ## Paths -/

section

omit [DecidableEq ι] [DecidableEq κ]

/-- Names one after the other lead where the last of them do. -/
theorem walk_append (edges : Edges ι κ ν) (node : ν) (first second : List κ) :
    edges.walk inside node (first ++ second) =
      (edges.walk inside node first).bind fun next => edges.walk inside next second := by
  induction first generalizing node with
  | nil => rfl
  | cons name first ih =>
    rw [List.cons_append, walk, walk]
    cases inside node with
    | none => rfl
    | some dir =>
      dsimp only
      cases edges dir name with
      | none => rfl
      | some next => exact ih next

/-- The last name of a path is an edge from where the others lead. -/
theorem walk_concat {node last : ν} {path : List κ}
    (walks : edges.walk inside node (path ++ [name]) = some last) :
    ∃ before dir, edges.walk inside node path = some before ∧ inside before = some dir ∧
      edges dir name = some last := by
  rw [walk_append] at walks
  obtain ⟨before, leads, onward⟩ := Option.bind_eq_some_iff.mp walks
  unfold walk at onward
  split at onward
  · rename_i dir is
    split at onward
    · rename_i next stands
      cases onward
      exact ⟨before, dir, leads, is, stands⟩
    · cases onward
  · cases onward

/-- One name further on. -/
theorem walk_concat_eq {node before : ν} {path : List κ}
    (leads : edges.walk inside node path = some before) (is : inside before = some dir) (name : κ) :
    edges.walk inside node (path ++ [name]) = edges dir name := by
  rw [walk_append, leads]
  show edges.walk inside before [name] = _
  simp only [walk, is]
  cases edges dir name <;> rfl

end

section Rooted

variable {root : ν} (keyed : ∀ node dir, inside node = some dir → dir = key node)

include keyed

omit [DecidableEq ι] [DecidableEq κ] in
/-- Where nothing has two names and nothing holds the root, one path leads to each node. -/
theorem walk_unique {edges : Edges ι κ ν} (once : edges.Once key)
    (unrooted : ∀ dir name node, edges dir name = some node → key node ≠ key root)
    {first second : List κ} {one two : ν} (leads : edges.walk inside root first = some one)
    (also : edges.walk inside root second = some two) (same : key one = key two) :
    first = second := by
  induction first using List.reverseRecOn generalizing second one two with
  | nil =>
    cases leads
    induction second using List.reverseRecOn with
    | nil => rfl
    | append_singleton path name _ =>
      obtain ⟨before, dir, -, -, stands⟩ := walk_concat also
      exact absurd same.symm (unrooted dir name two stands)
  | append_singleton path name ih =>
    obtain ⟨before, dir, reaches, is, stands⟩ := walk_concat leads
    induction second using List.reverseRecOn with
    | nil =>
      cases also
      exact absurd same (unrooted dir name one stands)
    | append_singleton other called _ =>
      obtain ⟨behind, from_, arrives, own, holds⟩ := walk_concat also
      obtain ⟨sameDir, sameName⟩ := once _ _ _ _ _ _ stands holds same
      have keys : key before = key behind := by
        rw [← keyed before dir is, ← keyed behind from_ own, sameDir]
      rw [ih reaches arrives keys, sameName]

/-- A new node that holds nothing, placed at a free name: its path leads to it, and all others where
they led. -/
theorem walk_place_new {edges : Edges ι κ ν} (once : edges.Once key)
    (unrooted : ∀ dir name node, edges dir name = some node → key node ≠ key root)
    {above : List κ} {holder node : ν} {dir : ι} {name : κ}
    (leads : edges.walk inside root above = some holder) (is : inside holder = some dir)
    (free : edges dir name = none)
    (empty : ∀ own called, inside node = some own → own ≠ dir ∧ edges own called = none)
    (path : List κ) :
    (edges.place dir name (some node)).walk inside root path =
      if path = above ++ [name] then some node else edges.walk inside root path := by
  induction path using List.reverseRecOn with
  | nil =>
    have apart : [] ≠ above ++ [name] := by simp
    rw [if_neg apart]
    rfl
  | append_singleton before called ih =>
    rw [walk_append, ih, walk_append edges]
    by_cases past : before = above ++ [name]
    · -- nothing is beneath what is new
      have apart : before ++ [called] ≠ above ++ [name] := by
        rw [past]
        simp
      rw [if_pos past, if_neg apart, past, walk_concat_eq leads is, free]
      show (edges.place dir name (some node)).walk inside node [called] = none
      cases own : inside node with
      | none => simp only [walk, own]
      | some inner =>
        obtain ⟨other, nothing⟩ := empty inner called own
        simp only [walk, own]
        rw [place_other _ _ fun both => other both.1, nothing]
    · rw [if_neg past]
      cases reaches : edges.walk inside root before with
      | none =>
        have apart : before ++ [called] ≠ above ++ [name] := by
          intro same
          rw [(List.append_inj' same rfl).1, leads] at reaches
          cases reaches
        rw [if_neg apart]
        rfl
      | some here =>
        show (edges.place dir name (some node)).walk inside here [called] = _
        cases own : inside here with
        | none =>
          have apart : before ++ [called] ≠ above ++ [name] := by
            intro same
            rw [(List.append_inj' same rfl).1, leads] at reaches
            cases reaches
            rw [is] at own
            cases own
          rw [if_neg apart]
          simp only [walk, own, Option.bind_some]
        | some inner =>
          by_cases new : inner = dir ∧ called = name
          · have keys : key here = key holder := by
              rw [← keyed here inner own, ← keyed holder dir is, new.1]
            have same := walk_unique keyed once unrooted reaches leads keys
            rw [if_pos (by rw [same, new.2])]
            simp only [walk, own]
            rw [new.1, new.2, place_self]
          · have apart : before ++ [called] ≠ above ++ [name] := by
              intro same
              obtain ⟨sameBefore, sameName⟩ := List.append_inj' same rfl
              rw [sameBefore, leads] at reaches
              cases reaches
              rw [is] at own
              exact new ⟨(Option.some.inj own).symm, List.singleton_inj.mp sameName⟩
            rw [if_neg apart]
            simp only [walk, own, Option.bind_some]
            rw [place_other _ _ new]

end Rooted

end Edges

end Kobako
