import Kobako.Regexp.Grammar
import Kobako.Regexp.Rewriter

/-!
# Places in the output

The places the rewriter keeps stay places where its output can be cut. A unit, a run of literal
characters and a class start no earlier than every open group, so what is written over one of them
leaves the starts of the groups standing. A class that folds is followed chunk by chunk, so that
what is cut out of it when it closes is known as text.
-/

namespace Kobako.Regexp

open Text

/-- An answer handed on. -/
@[simp] theorem ok_bind {α β : Type} (a : α) (next : α → Except Stop β) :
    (Except.ok a >>= next) = next a := rfl

@[simp] theorem sliced_some {α : Type} (a : α) : sliced (some a) = .ok a := rfl

/-! ## Cuts -/

/-- A place where text can be cut. -/
def Cut (text : Text) (place : Nat) : Prop := ∃ front back, text = front ++ back ∧ len front = place

namespace Cut

variable {text : Text} {place : Nat}

theorem splitAt (cut : Cut text place) : ∃ front back,
    Text.splitAt text place = some (front, back) ∧ text = front ++ back ∧ len front = place := by
  obtain ⟨front, back, split, long⟩ := cut
  exact ⟨front, back, splitAt_iff.mpr ⟨split, long⟩, split, long⟩

theorem le (cut : Cut text place) : place ≤ len text := by
  obtain ⟨front, back, rfl, rfl⟩ := cut
  rw [len_append]
  omega

theorem whole (text : Text) : Cut text (len text) := ⟨text, [], by simp, rfl⟩

theorem append (cut : Cut text place) (more : Text) : Cut (text ++ more) place := by
  obtain ⟨front, back, rfl, long⟩ := cut
  exact ⟨front, back ++ more, by simp, long⟩

/-- A cut within a stretch of text stands whatever is written behind that stretch. -/
theorem keep {front back : Text} (cut : Cut (front ++ back) place) (within_ : place ≤ len front)
    (new : Text) : Cut (front ++ new) place := by
  obtain ⟨first, second, split, long⟩ := cut
  rcases List.append_eq_append_iff.mp split with ⟨middle, same, -⟩ | ⟨middle, same, -⟩
  · have total := congrArg len same
    rw [len_append] at total
    exact ⟨front, new, rfl, by omega⟩
  · exact ⟨first, middle ++ new, by rw [same, List.append_assoc], long⟩

theorem truncate (cut : Cut text place) : ∃ front back,
    truncate text place = some front ∧ text = front ++ back ∧ len front = place := by
  have bound := cut.le
  obtain ⟨front, back, split, long⟩ := cut
  refine ⟨front, back, ?_, split, long⟩
  rw [Regexp.truncate, if_pos bound, split]
  exact sliceTo_append long

end Cut

/-! ## Quantities -/

theorem popular_lt {q : Quantity} {row : Nat} (popular : q.popular = some row) : row < 6 := by
  unfold Quantity.popular at popular
  obtain ⟨base, found, rfl⟩ := Option.map_eq_some_iff.mp popular
  have small : base < 3 := by
    split at found
    · cases found; decide
    · cases found; decide
    · cases found; decide
    · cases found
  split <;> omega

/-- Every pair of popular quantifiers stands in the table. -/
theorem folds_total : ∀ row < 6, ∀ column < 6,
    ((folds[row]?).bind (·[column]?)).isSome = true := by decide

theorem foldOf_total (inner outer : Quantity) : ∃ fold, foldOf inner outer = .ok fold := by
  unfold foldOf
  cases first : inner.popular with
  | none => exact ⟨_, rfl⟩
  | some row =>
    cases second : outer.popular with
    | none => exact ⟨_, rfl⟩
    | some column =>
      obtain ⟨fold, found⟩ := Option.isSome_iff_exists.mp
        (folds_total row (popular_lt first) column (popular_lt second))
      exact ⟨fold, by dsimp only; rw [found]; rfl⟩

theorem stackQuantity_total (text : Text) (current : Option Quantity) (outer : Quantity) :
    ∃ stacked, stackQuantity text current outer = .ok stacked := by
  unfold stackQuantity
  cases current with
  | none => exact ⟨_, rfl⟩
  | some inner =>
    obtain ⟨fold, found⟩ := foldOf_total inner (boundByInnerStar inner outer)
    unfold foldQuantity
    dsimp only
    rw [found]
    cases fold <;> exact ⟨_, rfl⟩

theorem writeQuantities_total (quantities : List Quantity) (text : Text)
    (current : Option Quantity) : ∃ written, writeQuantities text current quantities = .ok written := by
  induction quantities generalizing text current with
  | nil => exact ⟨_, rfl⟩
  | cons quantity rest ih =>
    obtain ⟨stacked, found⟩ :=
      stackQuantity_total text current { quantity with possessive := false }
    unfold writeQuantities
    rw [found]
    change ∃ written, (if quantity.possessive = true then _ else _) = Except.ok written
    split
    · exact ih _ _
    · exact ih _ _

theorem writeRepeat_total (unit : Text) (quantities : List Quantity) :
    ∃ written, writeRepeat unit quantities = .ok written := writeQuantities_total _ _ _

/-! ## What is kept -/

/-- The places the rewriter keeps outside a class. -/
structure Placed (r : Rewriter) : Prop where
  /-- The source itself is the outermost group. -/
  grouped : r.groups ≠ []
  /-- Each open group starts at a cut. -/
  starts : ∀ group ∈ r.groups, Cut r.out group.start
  /-- A group starts no earlier than those around it. -/
  nested : (r.groups.map (·.start)).Pairwise (· ≥ ·)
  /-- A unit starts at a cut, no earlier than any open group. -/
  unit : ∀ start, r.unitStart = some start →
    Cut r.out start ∧ ∀ group ∈ r.groups, group.start ≤ start
  /-- So does a run of literal characters. -/
  run : r.literalRun ≠ [] →
    Cut r.out r.literalRunStart ∧ ∀ group ∈ r.groups, group.start ≤ r.literalRunStart

/-- What pushing a piece leaves as it was, the closings owed and the classes apart. -/
structure Kept (r r' : Rewriter) : Prop where
  names : r'.names = r.names
  hasCalls : r'.hasCalls = r.hasCalls
  literalRun : r'.literalRun = r.literalRun
  literalRunStart : r'.literalRunStart = r.literalRunStart
  folding : r'.folding = r.folding
  unitStart : r'.unitStart = r.unitStart
  groups : r'.groups.map (·.start) = r.groups.map (·.start)

namespace Kept

variable {r r' r'' : Rewriter}

theorem rfl (r : Rewriter) : Kept r r := ⟨.refl _, .refl _, .refl _, .refl _, .refl _, .refl _, .refl _⟩

theorem push (r : Rewriter) (text : Text) : Kept r (r.push text) :=
  ⟨.refl _, .refl _, .refl _, .refl _, .refl _, .refl _, .refl _⟩

/-- What is true of the start of each group stays true. -/
theorem starts (kept : Kept r r') (holds : Nat → Prop)
    (each : ∀ group ∈ r.groups, holds group.start) : ∀ group ∈ r'.groups, holds group.start := by
  intro group mem
  have listed : group.start ∈ r'.groups.map (·.start) := List.mem_map_of_mem mem
  rw [kept.groups] at listed
  obtain ⟨old, there, same⟩ := List.mem_map.mp listed
  rw [← same]
  exact each old there

theorem grouped (kept : Kept r r') (filled : r.groups ≠ []) : r'.groups ≠ [] := by
  intro none
  have same := kept.groups
  rw [none, List.map_nil] at same
  exact filled (List.map_eq_nil_iff.mp same.symm)

end Kept

/-- Places stand where only the end of the output was written, or what stands behind the unit and
no literal run was. -/
theorem Placed.rewritten {r r' : Rewriter} (placed : Placed r) (kept : Kept r r')
    {front back new : Text} (old : r.out = front ++ back) (out : r'.out = front ++ new)
    (where_ : back = [] ∨ r.unitStart = some (len front) ∧ r.literalRun = []) : Placed r' := by
  have reach : ∀ {place : Nat}, Cut r.out place → place ≤ len front → Cut r'.out place := by
    intro place cut bound
    rw [old] at cut
    rw [out]
    exact cut.keep bound new
  have bound : ∀ {place : Nat}, Cut r.out place → back = [] → place ≤ len front := by
    intro place cut empty
    have le := cut.le
    rw [old, empty, List.append_nil] at le
    exact le
  refine ⟨kept.grouped placed.grouped, ?_, kept.groups ▸ placed.nested, ?_, ?_⟩
  · refine kept.starts (Cut r'.out) fun group mem => ?_
    have cut := placed.starts group mem
    rcases where_ with empty | ⟨unit, -⟩
    · exact reach cut (bound cut empty)
    · exact reach cut ((placed.unit _ unit).2 group mem)
  · intro start unit
    rw [kept.unitStart] at unit
    obtain ⟨cut, least⟩ := placed.unit start unit
    refine ⟨?_, kept.starts (· ≤ start) least⟩
    rcases where_ with empty | ⟨at_, -⟩
    · exact reach cut (bound cut empty)
    · rw [at_, Option.some.injEq] at unit
      exact reach cut (by omega)
  · intro running
    rw [kept.literalRun] at running
    obtain ⟨cut, least⟩ := placed.run running
    rw [kept.literalRunStart]
    refine ⟨?_, kept.starts (· ≤ r.literalRunStart) least⟩
    rcases where_ with empty | ⟨-, none⟩
    · exact reach cut (bound cut empty)
    · exact absurd none running

/-! ## Repeats -/

section Repeats

variable {r : Rewriter}

/-- What a quantifier writes: the unit again, or at the end of the output. -/
def Requantified (r r' : Rewriter) : Prop :=
  Kept r r' ∧ r'.foldedClass = r.foldedClass ∧ ∃ front back new, r.out = front ++ back ∧
    r'.out = front ++ new ∧ (back = [] ∨ r.unitStart = some (len front))

theorem writeQuantifiedUnit_total (placed : Placed r) {start : Nat}
    (unit : r.unitStart = some start) :
    ∃ r', r.writeQuantifiedUnit start = .ok r' ∧ Requantified r r' := by
  obtain ⟨front, back, cut, split, long⟩ := (placed.unit start unit).1.truncate
  obtain ⟨text, written⟩ := writeRepeat_total r.quantifiedUnit r.quantities
  refine ⟨{ r with out := front ++ text }, ?_, ⟨.refl _, .refl _, .refl _, .refl _, .refl _,
    .refl _, .refl _⟩, rfl, front, back, text, split, rfl, .inr (by rw [unit, long])⟩
  unfold Rewriter.writeQuantifiedUnit
  rw [cut, written]
  rfl

theorem repeatUnit_total (placed : Placed r) (quantity : Quantity) :
    ∃ r', r.repeatUnit quantity = .ok r' ∧ Requantified r r' := by
  unfold Rewriter.repeatUnit
  dsimp only
  split
  · obtain ⟨text, written⟩ := writeRepeat_total [] [quantity]
    rw [written]
    exact ⟨_, rfl, ⟨rfl, rfl, rfl, rfl, rfl, rfl, rfl⟩, rfl, r.out, [], text, by simp, rfl, .inl rfl⟩
  · rename_i start unit
    have cut := (placed.unit start unit).1
    split
    · split
      · obtain ⟨front, back, found, split, long⟩ := cut.splitAt
        rw [found]
        exact ⟨_, rfl, ⟨rfl, rfl, rfl, rfl, rfl, rfl, rfl⟩, rfl, front, back,
          "(?:".toList ++ back ++ "|)".toList, split, by simp only [List.append_assoc],
          .inr (by rw [unit, long])⟩
      · exact ⟨_, rfl, ⟨rfl, rfl, rfl, rfl, rfl, rfl, rfl⟩, rfl, r.out, [], [], by simp, by simp,
          .inl rfl⟩
    · obtain ⟨text, found⟩ : ∃ text,
          Rewriter.unitText { r with optionalLookAround := none } start = .ok text := by
        unfold Rewriter.unitText
        split
        · obtain ⟨front, back, found, -, -⟩ := cut.splitAt
          exact ⟨back, by rw [sliceFrom, found]; rfl⟩
        · exact ⟨_, rfl⟩
      rw [found]
      have again : Placed { r with
          optionalLookAround := none
          quantifiedUnit := text
          quantities := r.quantities ++ [quantity] } :=
        { placed with }
      obtain ⟨r', wrote, kept, folded, out⟩ := writeQuantifiedUnit_total again unit
      exact ⟨r', wrote, { kept with }, folded, out⟩

theorem modifyRepeat_total (placed : Placed r) (modifier : Text) :
    ∃ r', r.modifyRepeat modifier = .ok r' ∧ Requantified r r' := by
  unfold Rewriter.modifyRepeat
  dsimp only
  split
  · exact ⟨_, rfl, ⟨rfl, rfl, rfl, rfl, rfl, rfl, rfl⟩, rfl, r.out, [], [], by simp, by simp,
      .inl rfl⟩
  · split
    · exact ⟨_, rfl, ⟨rfl, rfl, rfl, rfl, rfl, rfl, rfl⟩, rfl, r.out, [], modifier, by simp, rfl,
        .inl rfl⟩
    · rename_i start unit
      have cut := (placed.unit start unit).1
      split
      · obtain ⟨front, back, found, split, long⟩ := cut.truncate
        rw [found]
        exact ⟨_, rfl, ⟨rfl, rfl, rfl, rfl, rfl, rfl, rfl⟩, rfl, front, back, _, split, rfl,
          .inr (by rw [unit, long])⟩
      · split
        · exact ⟨_, rfl, ⟨rfl, rfl, rfl, rfl, rfl, rfl, rfl⟩, rfl, r.out, [], [], by simp, by simp,
            .inl rfl⟩
        · rename_i quantity last
          have again : Placed { r with
              «repeat» := .settled
              quantities := r.quantities.dropLast ++ [Rewriter.modified modifier quantity] } :=
            { placed with }
          obtain ⟨r', wrote, kept, folded, out⟩ := writeQuantifiedUnit_total again unit
          exact ⟨r', wrote, { kept with }, folded, out⟩

theorem pushQuantifier_total (placed : Placed r) (text : Text) :
    ∃ r', r.pushQuantifier text = .ok r' ∧ Requantified r r' := by
  unfold Rewriter.pushQuantifier
  split
  · exact modifyRepeat_total placed text
  · obtain ⟨r', repeats, kept, folded, out⟩ := repeatUnit_total placed
      (if text = ['?'] then .greedy 0 (some 1)
        else if text = ['*'] then .greedy 0 none else .greedy 1 none)
    dsimp only
    rw [repeats]
    exact ⟨_, rfl, { kept with }, folded, out⟩

end Repeats

/-! ## Runs of literal characters -/

/-- An answer that refuses. -/
def Fails {α : Type} (answer : Except String α) : Prop := ∃ reason, answer = .error reason

/-- A run of literal characters and the last of it, apart where a quantifier follows. -/
def runParts (run : Text) (splitLast : Bool) : Text × Text :=
  if splitLast then (run.dropLast, run.getLast?.toList) else (run, [])

variable (build : Build)

/-- A run whose spellings are too many. -/
def RunFails (run : Text) (splitLast : Bool) : Prop :=
  Fails (expandRun build (runParts run splitLast).1) ∨
    Fails (expandRun build (runParts run splitLast).2)

theorem splitRun_eq (run : Text) (splitLast : Bool) :
    Rewriter.splitRun run splitLast = .ok (runParts run splitLast) := by
  unfold Rewriter.splitRun runParts
  cases splitLast with
  | false => rfl
  | true =>
    rcases List.eq_nil_or_concat run with rfl | ⟨front, last, rfl⟩
    · rfl
    · have split : splitAt (front ++ [last]) (len (front ++ [last]) - last.utf8Size) =
          some (front, [last]) := by
        refine splitAt_iff.mpr ⟨rfl, ?_⟩
        rw [len_append, len_cons, len_nil]
        omega
      have last_ : (front ++ [last]).getLast? = some last := by simp
      rw [List.concat_eq_append]
      dsimp only
      rw [if_pos rfl, if_pos rfl, last_, Option.map_some, Option.getD_some, split,
        List.dropLast_concat]
      rfl

/-- Nothing spells nothing. -/
theorem expandRun_nil : expandRun build [] = .ok none := rfl

theorem runFails_nil (splitLast : Bool) : ¬RunFails build [] splitLast := by
  have parts : runParts [] splitLast = ([], []) := by cases splitLast <;> rfl
  rintro (⟨reason, fails⟩ | ⟨reason, fails⟩)
  · rw [parts, expandRun_nil] at fails
    cases fails
  · rw [parts, expandRun_nil] at fails
    cases fails

/-- What closing a run leaves as it was, and the places it keeps. -/
structure RunClosed (r r' : Rewriter) : Prop where
  names : r'.names = r.names
  hasCalls : r'.hasCalls = r.hasCalls
  literalRun : r'.literalRun = []
  folding : r'.folding = r.folding
  groups : r'.groups = r.groups
  foldedClass : r'.foldedClass = r.foldedClass
  placed : Placed r → Placed r'
  still : r.literalRun = [] → r' = r

/-- A run closes unless its spellings are too many. -/
theorem closeLiteralRun_outcome (r : Rewriter) (splitLast : Bool)
    (cut : r.literalRun ≠ [] → Cut r.out r.literalRunStart) :
    RunFails build r.literalRun splitLast ∧
        (∃ reason, r.closeLiteralRun build splitLast = .error (.refused reason)) ∨
      ¬RunFails build r.literalRun splitLast ∧
        ∃ r', r.closeLiteralRun build splitLast = .ok r' ∧ RunClosed r r' := by
  unfold Rewriter.closeLiteralRun
  by_cases empty : r.literalRun = []
  · rw [if_pos empty, empty]
    exact .inr ⟨runFails_nil build splitLast, r, rfl,
      ⟨rfl, rfl, empty, rfl, rfl, rfl, id, fun _ => rfl⟩⟩
  · rw [if_neg empty, splitRun_eq]
    unfold RunFails
    generalize runParts r.literalRun splitLast = parts
    change (_ ∧ ∃ reason, Rewriter.spellRun build { r with literalRun := [] } splitLast parts.1
      parts.2 = _) ∨ _ ∧ ∃ r', Rewriter.spellRun build { r with literalRun := [] } splitLast parts.1
      parts.2 = _ ∧ _
    unfold Rewriter.spellRun
    cases first : expandRun build parts.1 with
    | error reason => exact .inl ⟨.inl ⟨reason, rfl⟩, reason, rfl⟩
    | ok headSpelled =>
      cases second : expandRun build parts.2 with
      | error reason => exact .inl ⟨.inr ⟨reason, rfl⟩, reason, rfl⟩
      | ok lastSpelled =>
        refine .inr ⟨?_, ?_⟩
        · rintro (⟨reason, fails⟩ | ⟨reason, fails⟩) <;> cases fails
        · change ∃ r', (if headSpelled = none ∧ lastSpelled = none then _ else _) = _ ∧ _
          split
          · refine ⟨_, rfl, ⟨rfl, rfl, rfl, rfl, rfl, rfl, fun placed => ?_, fun none =>
              absurd none empty⟩⟩
            exact ⟨placed.grouped, placed.starts, placed.nested, placed.unit, fun run => absurd rfl run⟩
          · obtain ⟨front, back, found, split, long⟩ := (cut empty).truncate
            rw [found]
            refine ⟨_, rfl, ⟨rfl, rfl, rfl, rfl, rfl, rfl, fun placed => ?_, fun none =>
              absurd none empty⟩⟩
            have least := (placed.run empty).2
            refine ⟨placed.grouped, ?_, placed.nested, ?_, fun run => absurd rfl run⟩
            · intro group mem
              have start := placed.starts group mem
              rw [split] at start
              have kept := start.keep (by rw [long]; exact least group mem) (headSpelled.getD parts.1)
              exact kept.append _
            · intro start unit
              cases unit
              cases splitLast with
              | true =>
                refine ⟨(Cut.whole _).append _, fun group mem => ?_⟩
                have bound := least group mem
                simp only [if_true, len_append]
                omega
              | false =>
                have here : Cut (front ++ headSpelled.getD parts.1) r.literalRunStart :=
                  ⟨front, _, rfl, long⟩
                exact ⟨here.append _, least⟩

/-! ## Classes that fold -/

/-- What a class was written with: each stretch, and whether the engine must not fold it. -/
abbrev Chunks := List (Bool × Text)

variable (chunks : Chunks)

/-- The text of a class behind its bracket. -/
def Chunks.text : Text := chunks.flatMap (·.2)

/-- What is left of a class once the stretches the engine must not fold are cut out. -/
def Chunks.folded : Text := (chunks.filter (!·.1)).flatMap (·.2)

/-- The stretches the engine must not fold. -/
def Chunks.unfolded : Text := (chunks.filter (·.1)).flatMap (·.2)

/-- Where those stretches stand, the first chunk standing at `place`. -/
def Chunks.ranges : Nat → Chunks → List (Nat × Nat)
  | _, [] => []
  | place, (cut, text) :: rest =>
    (if cut then [(place, place + len text)] else []) ++ ranges (place + len text) rest

theorem Chunks.ranges_append (place : Nat) (chunks more : Chunks) :
    ranges place (chunks ++ more) =
      ranges place chunks ++ ranges (place + len (text chunks)) more := by
  induction chunks generalizing place with
  | nil => rfl
  | cons chunk rest ih =>
    obtain ⟨cut, written⟩ := chunk
    simp only [List.cons_append, ranges, ih, List.append_assoc, text, List.flatMap_cons, len_append,
      Nat.add_assoc]

/-- The stretches are cut out of a class at their places. `done` was read, and `pending` is what
was read since the last cut. -/
theorem cutUnfolded_chunks (base : Nat) (chunks : Chunks) (done pending tail : Text) :
    Rewriter.cutUnfolded (done ++ (pending ++ (chunks.text ++ tail))) base (base + len done)
        (Chunks.ranges (base + len done + len pending) chunks) =
      .ok (pending ++ (chunks.folded ++ tail), chunks.unfolded) := by
  have shift : ∀ n : Nat, base + n - base = n := fun n => by omega
  induction chunks generalizing done pending with
  | nil =>
    have rest : sliceFrom (done ++ (pending ++ tail)) (base + len done - base) =
        some (pending ++ tail) := sliceFrom_append (shift _).symm
    simp only [Chunks.ranges, Chunks.text, List.flatMap_nil, List.nil_append, Rewriter.cutUnfolded,
      Chunks.folded, Chunks.unfolded, List.filter_nil]
    rw [if_pos (by omega), rest]
    rfl
  | cons chunk rest ih =>
    obtain ⟨cut, written⟩ := chunk
    cases cut with
    | false =>
      have same := ih done (pending ++ written)
      rw [len_append, ← Nat.add_assoc] at same
      simp only [Chunks.ranges, Chunks.text, Chunks.folded, Chunks.unfolded, List.flatMap_cons,
        List.nil_append, List.append_assoc, Bool.false_eq_true, if_false, Bool.not_false,
        List.filter_cons_of_pos, List.filter_cons_of_neg, not_false_eq_true] at same ⊢
      exact same
    | true =>
      have onward := ih (done ++ (pending ++ written)) []
      have kept : slice (done ++ (pending ++ (written ++ (Chunks.text rest ++ tail))))
          (base + len done - base) (base + len done + len pending - base) = some pending := by
        rw [← List.append_assoc]
        exact slice_append (shift _).symm (by omega)
      have gone : slice (done ++ (pending ++ (written ++ (Chunks.text rest ++ tail))))
          (base + len done + len pending - base)
          (base + len done + len pending + len written - base) = some written := by
        have moved : done ++ (pending ++ (written ++ (Chunks.text rest ++ tail))) =
            (done ++ pending) ++ written ++ (Chunks.text rest ++ tail) := by
          simp only [List.append_assoc]
        rw [moved]
        exact slice_append (by rw [len_append]; omega) (by rw [len_append]; omega)
      simp only [len_append, len_nil, Nat.add_zero, List.nil_append, List.append_assoc,
        ← Nat.add_assoc] at onward
      have whole : Chunks.text ((true, written) :: rest) ++ tail =
          written ++ (Chunks.text rest ++ tail) := by
        simp only [Chunks.text, List.flatMap_cons, List.append_assoc]
      have folded : Chunks.folded ((true, written) :: rest) = Chunks.folded rest := rfl
      have unfolded : Chunks.unfolded ((true, written) :: rest) =
          written ++ Chunks.unfolded rest := rfl
      rw [whole, folded, unfolded]
      simp only [Chunks.ranges, if_true, List.singleton_append, Rewriter.cutUnfolded]
      rw [if_pos (by omega), if_pos (by omega), kept, gone]
      change (Rewriter.cutUnfolded _ _ _ _ >>= _) = _
      rw [onward]
      rfl

/-- A class that folds, as far as it was read. -/
def InClass (r : Rewriter) (open_ : FoldedClass) (chunks : Chunks) : Prop :=
  ∃ front, r.out = front ++ '[' :: chunks.text ∧ len front = open_.start ∧
    open_.unfoldedClasses = Chunks.ranges (open_.start + 1) chunks ∧
    r.unitStart = some open_.start

/-- The alternatives a class is written as when it closes. -/
def Chunks.alternatives : List Text :=
  if Chunks.ranges 0 chunks = [] then ['[' :: (chunks.text ++ [']'])]
  else
    let body := (stripPrefix ['^'] chunks.folded).getD chunks.folded
    (if body = [] then [] else [['['] ++ body ++ [']']]) ++
      ["(?-i:[".toList ++ chunks.unfolded ++ "])".toList]

/-- The text a class that folds is closed as, `written` the characters read in it. -/
def Chunks.closed (written : Text) (chunks : Chunks) : Text :=
  let negated := written.head? = some '^'
  let folds := if negated then [] else classFolds build written
  let positive :=
    "(?:".toList ++ List.intercalate ['|'] (chunks.alternatives ++ folds) ++ [')']
  if folds = [] ∧ Chunks.ranges 0 chunks = [] then '[' :: (chunks.text ++ [']'])
  else if negated ∧ Chunks.ranges 0 chunks ≠ [] then
    "(?:(?!".toList ++ positive ++ ")(?s:.))".toList
  else positive

/-- Whether there is a stretch to cut out does not depend on where the class stands. -/
theorem Chunks.ranges_nil (place : Nat) (chunks : Chunks) :
    ranges place chunks = [] ↔ ranges 0 chunks = [] := by
  have any : ∀ place, ranges place chunks = [] ↔ ∀ chunk ∈ chunks, chunk.1 = false := by
    induction chunks with
    | nil => simp [ranges]
    | cons chunk rest ih =>
      intro place
      obtain ⟨cut, written⟩ := chunk
      cases cut with
      | false => simp [ranges, ih]
      | true => simp [ranges]
  rw [any, any]

theorem classAlternatives_chunks {open_ : FoldedClass} {chunks : Chunks}
    (places : open_.unfoldedClasses = Chunks.ranges (open_.start + 1) chunks) :
    Rewriter.classAlternatives ('[' :: (chunks.text ++ [']'])) open_ = .ok chunks.alternatives := by
  unfold Rewriter.classAlternatives Chunks.alternatives
  rw [places]
  simp only [Chunks.ranges_nil (open_.start + 1)]
  by_cases none : Chunks.ranges 0 chunks = []
  · rw [if_pos none, if_pos none]
  · have cut := cutUnfolded_chunks open_.start chunks [] ['['] [']']
    have bracket : ('[' : Char).utf8Size = 1 := rfl
    have closing : (']' : Char).utf8Size = 1 := rfl
    simp only [List.nil_append, len_nil, Nat.add_zero, List.singleton_append, len_cons,
      bracket] at cut
    have inside : slice ('[' :: (chunks.folded ++ [']'])) 1
        (len ('[' :: (chunks.folded ++ [']'])) - 1) = some chunks.folded := by
      have split : '[' :: (chunks.folded ++ [']']) = ['['] ++ chunks.folded ++ [']'] := by simp
      rw [split]
      refine slice_append rfl ?_
      simp only [len_append, len_cons, len_nil]
      omega
    rw [if_neg none, if_neg none, cut, ok_bind]
    dsimp only
    rw [inside]
    rfl

/-- A class that folds closes, written over from where it starts. -/
theorem closeFoldedClass_chunks {r : Rewriter} {open_ : FoldedClass} {chunks : Chunks}
    (folding : r.foldedClass = some open_) {front : Text}
    (out : r.out = front ++ '[' :: (chunks.text ++ [']'])) (start : len front = open_.start)
    (places : open_.unfoldedClasses = Chunks.ranges (open_.start + 1) chunks) :
    r.closeFoldedClass build = .ok { r with
      foldedClass := none
      out := front ++ chunks.closed build open_.written } := by
  have cut : splitAt r.out open_.start = some (front, '[' :: (chunks.text ++ [']'])) := by
    rw [out, ← start]
    exact splitAt_append _ _
  unfold Rewriter.closeFoldedClass Chunks.closed
  rw [folding]
  dsimp only
  rw [cut, sliced_some, ok_bind]
  dsimp only
  rw [classAlternatives_chunks places, ok_bind, places]
  simp only [ne_eq, Chunks.ranges_nil (open_.start + 1)]
  generalize (if open_.written.head? = some '^' then [] else classFolds build open_.written) = folds
  by_cases plain : folds = [] ∧ Chunks.ranges 0 chunks = []
  · rw [if_pos plain, if_pos plain, ← out]
  · rw [if_neg plain, if_neg plain]
    split
    · simp only [List.append_assoc]
    · rfl

end Kobako.Regexp
