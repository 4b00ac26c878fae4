import Kobako.Regexp.Reading

/-!
# Every spelling of a run

The text `fold::expand_run` writes for a run of literal characters, by the words it matches: the run
with any stretches of it that spell what one character folds to replaced by such a character, and
any characters that fold to several replaced by their folds. Each has the run's own full fold. The
text is cut off once it is too long, so however many spellings a run has, the text and the calls
that write it stay bounded.
-/

namespace Kobako.Regexp

open Text

/-! ## Folding -/

/-- The full fold of a character. -/
def fullFold (c : Char) : Text := (multiFold c).getD [simpleFold c]

/-- The full fold of a word. -/
def fullFolds (word : Text) : Text := word.flatMap fullFold

theorem fullFolds_append (first second : Text) :
    fullFolds (first ++ second) = fullFolds first ++ fullFolds second := List.flatMap_append

/-- Each character of the table folds as it says. -/
theorem multiFold_of_mem : ∀ entry ∈ multi, multiFold entry.1 = some entry.2 := by decide +kernel

/-- What a character folds to is its own fold. -/
theorem fold_fixed : ∀ entry ∈ multi, ∀ c ∈ entry.2, multiFold c = none ∧ simpleFold c = c := by
  have each : ∀ entry ∈ multi,
      (entry.2.all fun c => decide (multiFold c = none ∧ simpleFold c = c)) = true := by
    decide +kernel
  intro entry member
  exact forall_mem (each entry member)

/-- No character of the table folds otherwise. -/
theorem simpleFold_source : ∀ entry ∈ multi, simpleFold entry.1 = entry.1 := by decide +kernel

/-- A character folds to two or three. -/
theorem fold_length : ∀ entry ∈ multi, entry.2 ≠ [] ∧ entry.2.length ≤ 3 := by decide

variable {folded : Text} {source : Char}

/-- What folds to several is in the table. -/
theorem mem_of_multiFold {c : Char} (folds : multiFold c = some folded) :
    (c, folded) ∈ multi := by
  unfold multiFold at folds
  obtain ⟨entry, found, same⟩ := Option.map_eq_some_iff.mp folds
  have here := List.find?_some found
  have member := List.mem_of_find?_eq_some found
  have called : entry.1 = c := of_decide_eq_true here
  rw [← called, ← same]
  exact member

/-- A fold is its own full fold. -/
theorem fullFolds_fold (member : (source, folded) ∈ multi) :
    fullFolds folded = folded := by
  have each : ∀ c ∈ folded, fullFold c = [c] := by
    intro c among
    obtain ⟨single, same⟩ := fold_fixed _ member c among
    unfold fullFold
    rw [single, same]
    rfl
  unfold fullFolds
  rw [List.flatMap_congr each]
  exact List.flatMap_singleton' folded

/-- A stretch that spells a fold has it as its full fold. -/
theorem fullFolds_stretch {stretch folded : Text} (member : (source, folded) ∈ multi)
    (spells : stretch.map simpleFold = folded) : fullFolds stretch = folded := by
  have each : ∀ c ∈ stretch, fullFold c = [simpleFold c] := by
    intro c among
    unfold fullFold
    cases several : multiFold c with
    | none => rfl
    | some other =>
      -- such a character folds to itself otherwise, which no fold holds
      have here := mem_of_multiFold several
      have itself := simpleFold_source _ here
      have inFold : simpleFold c ∈ folded := spells ▸ List.mem_map_of_mem among
      rw [itself] at inFold
      have single := (fold_fixed _ member c inFold).1
      rw [several] at single
      cases single
  unfold fullFolds
  rw [List.flatMap_congr each, ← spells]
  exact (List.map_eq_flatMap).symm

/-! ## Respelling -/

/-- A run respelled: stretches that spell a fold replaced by a character of that fold, and
characters by their folds. -/
inductive Respelled : Text → Text → Prop where
  | nil : Respelled [] []
  | keep (c : Char) {rest word : Text} (more : Respelled rest word) :
      Respelled (c :: rest) (c :: word)
  | unfold {c : Char} {folded rest word : Text} (folds : multiFold c = some folded)
      (more : Respelled rest word) : Respelled (c :: rest) (folded ++ word)
  | join {source : Char} {stretch folded rest word : Text} (member : (source, folded) ∈ multi)
      (spells : stretch.map simpleFold = folded) (more : Respelled rest word) :
      Respelled (stretch ++ rest) (source :: word)

/-- A run is a spelling of itself. -/
theorem Respelled.refl (run : Text) : Respelled run run := by
  induction run with
  | nil => exact .nil
  | cons c rest ih => exact .keep c ih

/-- A run respelled has the same full fold. -/
theorem Respelled.fullFolds {run word : Text} (respelled : Respelled run word) :
    fullFolds word = fullFolds run := by
  induction respelled with
  | nil => rfl
  | keep c more ih => exact congrArg (fullFold c ++ ·) ih
  | @unfold c folded rest word folds more ih =>
    have same : fullFold c = folded := by
      unfold fullFold
      rw [folds]
      rfl
    rw [fullFolds_append, ih, fullFolds_fold (mem_of_multiFold folds)]
    show folded ++ _ = fullFold c ++ _
    rw [same]
    rfl
  | @join source stretch folded rest word member spells more ih =>
    have same : fullFold source = folded := by
      unfold fullFold
      rw [multiFold_of_mem _ member]
      rfl
    rw [fullFolds_append, fullFolds_stretch member spells, ← ih]
    show fullFold source ++ _ = _
    rw [same]
    rfl

/-! ## The words a run is spelled with -/

/-- A list each entry adds to holds what it held and what any entry adds. -/
theorem mem_foldl_adding {α β : Type} {step : List α → β → List α} {adds : β → α → Prop}
    (one : ∀ held entry a, a ∈ step held entry ↔ a ∈ held ∨ adds entry a) (entries : List β)
    (held : List α) (a : α) :
    a ∈ entries.foldl step held ↔ a ∈ held ∨ ∃ entry ∈ entries, adds entry a := by
  induction entries generalizing held with
  | nil => simp
  | cons entry entries ih =>
    rw [List.foldl_cons, ih, one, List.exists_mem_cons_iff, or_assoc]

/-- A fold that stands at the front of a run is kept once. -/
theorem mem_joinFold (run : Text) (joined : List (Nat × Text)) (entry : Char × Text)
    (found : Nat × Text) :
    found ∈ (let spelled := decide (entry.2.length ≤ run.length) &&
        ((run.take entry.2.length).map simpleFold == entry.2)
      if spelled && (entry.2.length, entry.2) ∉ joined then joined ++ [(entry.2.length, entry.2)]
      else joined) ↔
    found ∈ joined ∨ (found = (entry.2.length, entry.2) ∧ entry.2.length ≤ run.length ∧
      (run.take entry.2.length).map simpleFold = entry.2) := by
  dsimp only
  by_cases spells : entry.2.length ≤ run.length ∧ (run.take entry.2.length).map simpleFold = entry.2
  · have yes : (decide (entry.2.length ≤ run.length) &&
        ((run.take entry.2.length).map simpleFold == entry.2)) = true := by
      rw [Bool.and_eq_true, decide_eq_true_iff, beq_iff_eq]
      exact spells
    rw [yes, Bool.true_and]
    by_cases among : (entry.2.length, entry.2) ∈ joined
    · rw [if_neg (by simpa using among)]
      constructor
      · exact .inl
      · rintro (early | ⟨same, -⟩)
        · exact early
        · rw [same]
          exact among
    · rw [if_pos (decide_eq_true among), List.mem_append, List.mem_singleton]
      exact or_congr_right (iff_self_and.mpr fun _ => spells)
  · have no : ¬ ((decide (entry.2.length ≤ run.length) &&
        ((run.take entry.2.length).map simpleFold == entry.2)) &&
        decide ((entry.2.length, entry.2) ∉ joined)) = true := by
      intro both
      rw [Bool.and_eq_true, Bool.and_eq_true, decide_eq_true_iff, beq_iff_eq] at both
      exact spells both.1
    rw [if_neg no]
    exact (or_iff_left fun both => spells both.2).symm

/-- The stretches at the front of a run that spell a fold. -/
theorem mem_joinedFolds {run : Text} {length : Nat} :
    (length, folded) ∈ joinedFolds run ↔ length = folded.length ∧
      (∃ source, (source, folded) ∈ multi) ∧ folded.length ≤ run.length ∧
      (run.take folded.length).map simpleFold = folded := by
  unfold joinedFolds
  rw [mem_foldl_adding (mem_joinFold run)]
  constructor
  · rintro (early | ⟨⟨source, target⟩, member, same, fits, spells⟩)
    · cases early
    · cases same
      exact ⟨rfl, ⟨source, member⟩, fits, spells⟩
  · rintro ⟨rfl, ⟨source, member⟩, fits, spells⟩
    exact .inr ⟨(source, folded), member, rfl, fits, spells⟩

/-- The words of a character alone. -/
def aloneWords (c : Char) : Language Char :=
  match multiFold c with
  | some folded => {[c]} + {folded}
  | none => {[c]}

/-- The characters whose fold is `folded`. -/
def sources (folded : Text) : Text := (multi.filter (·.2 = folded)).map (·.1)

/-- The words of a run, at most `rounds` deep. -/
def spelledWords : Nat → Text → Language Char
  | _, [] | 0, _ => 1
  | rounds + 1, c :: rest => aloneWords c * spelledWords rounds rest +
      ((joinedFolds (c :: rest)).map fun entry =>
        oneOf (sources entry.2) * spelledWords rounds ((c :: rest).drop entry.1)).sum

theorem mem_sources :
    source ∈ sources folded ↔ (source, folded) ∈ multi := by
  unfold sources
  rw [List.mem_map]
  constructor
  · rintro ⟨⟨other, target⟩, member, rfl⟩
    obtain ⟨among, same⟩ := List.mem_filter.mp member
    rw [← of_decide_eq_true same]
    exact among
  · intro member
    exact ⟨(source, folded), List.mem_filter.mpr ⟨member, decide_eq_true rfl⟩, rfl⟩

/-- A word of a sum of languages is a word of one of them. -/
theorem mem_sum {languages : List (Language Char)} {word : Text} :
    word ∈ languages.sum ↔ ∃ language ∈ languages, word ∈ language := by
  induction languages with
  | nil =>
    rw [List.sum_nil]
    constructor
    · intro none_
      exact absurd none_ (Language.notMem_zero word)
    · rintro ⟨language, member, -⟩
      cases member
  | cons language rest ih =>
    rw [List.sum_cons, Language.mem_add, ih]
    simp only [List.mem_cons, exists_eq_or_imp]

/-- The words of a character alone are it and its fold. -/
theorem mem_aloneWords {c : Char} {word : Text} :
    word ∈ aloneWords c ↔ word = [c] ∨ multiFold c = some word := by
  unfold aloneWords
  cases folds : multiFold c with
  | none =>
    constructor
    · intro same
      exact .inl same
    · rintro (same | same)
      · exact same
      · cases same
  | some folded =>
    dsimp only
    rw [Language.mem_add]
    constructor
    · rintro (same | same)
      · exact .inl same
      · exact .inr (congrArg some (Set.mem_singleton_iff.mp same).symm)
    · rintro (same | same)
      · exact .inl same
      · exact .inr (Option.some.inj same).symm

/-- The words of a run are the ways to respell it. -/
theorem mem_spelledWords {rounds : Nat} {run word : Text} (long : run.length ≤ rounds) :
    word ∈ spelledWords rounds run ↔ Respelled run word := by
  constructor
  · intro member
    induction rounds generalizing run word with
    | zero =>
      have empty : run = [] := List.length_eq_zero_iff.mp (Nat.le_zero.mp long)
      subst empty
      cases member
      exact .nil
    | succ rounds ih =>
      cases run with
      | nil =>
        cases member
        exact .nil
      | cons c rest =>
        have shorter : rest.length ≤ rounds := Nat.le_of_succ_le_succ long
        rw [spelledWords, Language.mem_add] at member
        cases member with
        | inl alone =>
          obtain ⟨front, isFront, back, isBack, rfl⟩ := Language.mem_mul.mp alone
          have more := ih shorter isBack
          cases mem_aloneWords.mp isFront with
          | inl same =>
            rw [same]
            exact .keep c more
          | inr folds => exact .unfold folds more
        | inr joined =>
          obtain ⟨language, among, inside⟩ := mem_sum.mp joined
          obtain ⟨⟨length, folded⟩, found, rfl⟩ := List.mem_map.mp among
          obtain ⟨front, ⟨source, named, rfl⟩, back, isBack, rfl⟩ := Language.mem_mul.mp inside
          obtain ⟨rfl, ⟨other, target⟩, fits, spells⟩ := mem_joinedFolds.mp found
          have positive : 0 < folded.length :=
            List.length_pos_iff.mpr (fold_length _ target).1
          have shorter : ((c :: rest).drop folded.length).length ≤ rounds := by
            rw [List.length_drop]
            omega
          have more := Respelled.join (mem_sources.mp named) spells (ih shorter isBack)
          rw [List.take_append_drop] at more
          exact more
  · intro respelled
    induction respelled generalizing rounds with
    | nil => cases rounds <;> rfl
    | @keep c rest word more ih =>
      cases rounds with
      | zero => cases long
      | succ rounds =>
        rw [spelledWords, Language.mem_add]
        left
        exact Language.mem_mul.mpr ⟨[c], mem_aloneWords.mpr (.inl rfl), word,
          ih (Nat.le_of_succ_le_succ long), rfl⟩
    | @unfold c folded rest word folds more ih =>
      cases rounds with
      | zero => cases long
      | succ rounds =>
        rw [spelledWords, Language.mem_add]
        left
        exact Language.mem_mul.mpr ⟨folded, mem_aloneWords.mpr (.inr folds), word,
          ih (Nat.le_of_succ_le_succ long), rfl⟩
    | @join source stretch folded rest word member spells more ih =>
      have same : stretch.length = folded.length := by
        rw [← spells, List.length_map]
      have positive : 0 < folded.length := List.length_pos_iff.mpr (fold_length _ member).1
      rw [List.length_append] at long
      cases rounds with
      | zero => omega
      | succ rounds =>
        cases stretch with
        | nil =>
          rw [List.length_nil] at same
          omega
        | cons c stretch =>
          rw [List.cons_append, spelledWords, Language.mem_add]
          right
          apply mem_sum.mpr
          have found : (folded.length, folded) ∈ joinedFolds (c :: (stretch ++ rest)) := by
            apply mem_joinedFolds.mpr
            refine ⟨rfl, ⟨source, member⟩, ?_, ?_⟩
            · rw [← List.cons_append, List.length_append]
              omega
            · rw [← List.cons_append, ← same, List.take_left]
              exact spells
          refine ⟨_, List.mem_map.mpr ⟨_, found, rfl⟩, ?_⟩
          dsimp only
          rw [← List.cons_append, ← same, List.drop_left]
          rw [List.length_cons] at long same
          exact Language.mem_mul.mpr ⟨[source], ⟨source, mem_sources.mpr member, rfl⟩, word,
            ih (by omega), rfl⟩

/-! ## The text read back -/

/-- A text that reads as one item, whatever was read before. -/
def Spells (text : Text) (language : Language Char) : Prop :=
  ∀ r : Reading, r.mode = .items → r.read text = some (r.item language)

theorem Spells.nil : Spells [] 1 := by
  intro r between
  obtain ⟨outer, before, current, mode⟩ := r
  dsimp only at between
  subst between
  show some _ = some (Reading.item _ 1)
  unfold Reading.item
  rw [mul_one]

theorem Spells.append {first second : Text} {one two : Language Char} (front : Spells first one)
    (back : Spells second two) : Spells (first ++ second) (one * two) := by
  intro r between
  rw [Reading.read_append, front r between, Option.bind_some, back _ rfl]
  unfold Reading.item
  rw [mul_assoc]

/-- A group opened. -/
theorem read_open (r : Reading) (between : r.mode = .items) :
    r.read "(?:".toList = some ⟨(r.before, r.current) :: r.outer, 0, 1, .items⟩ := by
  obtain ⟨outer, before, current, mode⟩ := r
  dsimp only at between
  subst between
  rfl

/-- Another alternative. -/
theorem read_bar (r : Reading) (between : r.mode = .items) :
    r.read ['|'] = some ⟨r.outer, r.before + r.current, 1, .items⟩ := by
  obtain ⟨outer, before, current, mode⟩ := r
  dsimp only at between
  subst between
  rfl

/-- A group closed. -/
theorem read_close (outer : List (Language Char × Language Char))
    (before current first last : Language Char) :
    Reading.read ⟨(before, current) :: outer, first, last, .items⟩ [')'] =
      some ⟨outer, before, current * (first + last), .items⟩ := rfl

section

variable (build : Build)

/-- A character alone reads as it or its fold. -/
theorem spells_aloneText (c : Char) : Spells (aloneText build c) (aloneWords c) := by
  unfold aloneText aloneWords
  cases multiFold c with
  | none =>
    intro r between
    exact read_literalText build r between c
  | some folded =>
    intro r between
    dsimp only
    rw [Reading.read_append, Reading.read_append, Reading.read_append, Reading.read_append,
      read_open r between, Option.bind_some, read_literalText build _ rfl, Option.bind_some,
      read_bar _ rfl, Option.bind_some, read_foldText build _ rfl, Option.bind_some]
    unfold Reading.item
    dsimp only
    rw [read_close, zero_add, one_mul, one_mul]

/-- The characters of a fold read as one of them. -/
theorem spells_sourcesOf {folded : Text} (some_ : sources folded ≠ []) :
    Spells (sourcesOf build folded) (oneOf (sources folded)) := by
  intro r between
  have same : (multi.filter (·.2 = folded)).flatMap (fun entry => literalText build entry.1) =
      (sources folded).flatMap (literalText build) := by
    unfold sources
    rw [List.flatMap_map]
  unfold sourcesOf
  rw [same]
  exact read_class build r between some_

variable {rounds : Nat}

/-- The alternatives behind the first of a group. -/
theorem read_alternatives {run : Text}
    (each : ∀ length out after, writeSpellings build rounds (run.drop length) out = .ok after →
      ∃ text, after = out ++ text ∧ Spells text (spelledWords rounds (run.drop length)))
    (joined : List (Nat × Text)) (some_ : ∀ entry ∈ joined, sources entry.2 ≠ []) {out after : Text}
    (written : joined.foldlM (fun out entry => writeSpellings build rounds (run.drop entry.1) (out
      ++ ['|'] ++ sourcesOf build entry.2)) out = .ok after) :
    ∃ text, after = out ++ text ∧ ∀ r : Reading, r.mode = .items → ∃ next : Reading,
      r.read text = some next ∧ next.outer = r.outer ∧ next.mode = .items ∧
        next.before + next.current = r.before + r.current + (joined.map fun entry =>
          oneOf (sources entry.2) * spelledWords rounds (run.drop entry.1)).sum := by
  induction joined generalizing out with
  | nil =>
    cases written
    refine ⟨[], (List.append_nil _).symm, ?_⟩
    intro r between
    exact ⟨r, rfl, rfl, between, (add_zero _).symm⟩
  | cons entry joined ih =>
    rw [List.foldlM_cons] at written
    cases first : writeSpellings build rounds (run.drop entry.1)
        (out ++ ['|'] ++ sourcesOf build entry.2) with
    | error error =>
      rw [first] at written
      cases written
    | ok middle =>
      rw [first] at written
      obtain ⟨text, rfl, spells⟩ := each _ _ _ first
      obtain ⟨more, rfl, reads⟩ := ih (fun other member => some_ other
        (List.mem_cons_of_mem _ member)) written
      refine ⟨['|'] ++ sourcesOf build entry.2 ++ text ++ more, ?_, ?_⟩
      · simp only [List.append_assoc]
      · intro r between
        have here := spells_sourcesOf build (some_ entry List.mem_cons_self)
        obtain ⟨next, onward, outer, mode, total⟩ := reads
          ⟨r.outer, r.before + r.current,
            oneOf (sources entry.2) * spelledWords rounds (run.drop entry.1), .items⟩ rfl
        refine ⟨next, ?_, outer, mode, ?_⟩
        · rw [Reading.read_append, Reading.read_append, Reading.read_append, read_bar r between,
            Option.bind_some, here _ rfl, Option.bind_some, spells _ rfl, Option.bind_some]
          unfold Reading.item
          dsimp only
          rw [one_mul]
          exact onward
        · rw [total, List.map_cons, List.sum_cons]
          exact add_assoc _ _ _

/-- A step that answers after another that did. -/
theorem bind_eq_ok {α β : Type} {first : Except String α} {next : α → Except String β} {answer : β}
    (answers : first.bind next = .ok answer) : ∃ a, first = .ok a ∧ next a = .ok answer := by
  cases first with
  | error error => cases answers
  | ok a => exact ⟨a, rfl, answers⟩

/-- A run spelled out: at its end, or behind its first character with or
without stretches that spell a fold. -/
theorem writeSpellings_cases {run out after : Text}
    (written : writeSpellings build rounds run out = .ok after) :
    ((run = [] ∨ rounds = 0) ∧ after = out) ∨ ∃ less c rest, rounds = less + 1 ∧ run = c :: rest ∧
      ((joinedFolds run = [] ∧ writeSpellings build less rest (out ++ aloneText build c) = .ok after) ∨
        ∃ middle last, joinedFolds run ≠ [] ∧
          writeSpellings build less rest (out ++ "(?:".toList ++ aloneText build c) = .ok middle ∧
          (joinedFolds run).foldlM (fun out entry => writeSpellings build less (run.drop entry.1)
            (out ++ ['|'] ++ sourcesOf build entry.2)) middle = .ok last ∧ after = last ++ [')']) := by
  cases rounds with
  | zero =>
    unfold writeSpellings at written
    split at written
    · cases written
    · left
      exact ⟨.inr rfl, by cases run <;> exact (Except.ok.inj written).symm⟩
  | succ rounds =>
    unfold writeSpellings at written
    split at written
    · cases written
    · cases run with
      | nil => exact .inl ⟨.inl rfl, (Except.ok.inj written).symm⟩
      | cons c rest =>
        right
        refine ⟨rounds, c, rest, rfl, rfl, ?_⟩
        dsimp only at written
        by_cases single : joinedFolds (c :: rest) = []
        · rw [if_pos single] at written
          exact .inl ⟨single, written⟩
        · rw [if_neg single] at written
          right
          obtain ⟨middle, first, written⟩ := bind_eq_ok written
          obtain ⟨last, others, written⟩ := bind_eq_ok written
          exact ⟨middle, last, single, first, others, (Except.ok.inj written).symm⟩

/-- What `write_spellings` adds to a text reads as the words of the run. -/
theorem writeSpellings_spells {run out after : Text}
    (written : writeSpellings build rounds run out = .ok after) :
    ∃ text, after = out ++ text ∧ Spells text (spelledWords rounds run) := by
  induction rounds generalizing run out after with
  | zero =>
    cases writeSpellings_cases build written with
    | inl ends =>
      refine ⟨[], by rw [ends.2, List.append_nil], ?_⟩
      cases run <;> exact Spells.nil
    | inr more =>
      obtain ⟨less, c, rest, same, -⟩ := more
      cases same
  | succ rounds ih =>
    obtain ⟨ends | none_, rfl⟩ | ⟨less, c, rest, same, rfl, ⟨single, alone⟩ |
      ⟨middle, last, several, first, others, rfl⟩⟩ := writeSpellings_cases build written
    · rw [ends]
      exact ⟨[], (List.append_nil _).symm, Spells.nil⟩
    · cases none_
    · cases same
      obtain ⟨text, rfl, spells⟩ := ih alone
      refine ⟨aloneText build c ++ text, List.append_assoc _ _ _, ?_⟩
      rw [spelledWords, single, List.map_nil, List.sum_nil, add_zero]
      exact (spells_aloneText build c).append spells
    · cases same
      obtain ⟨text, rfl, spells⟩ := ih first
      have named : ∀ entry ∈ joinedFolds (c :: rest), sources entry.2 ≠ [] := by
        intro entry found
        obtain ⟨-, ⟨source, member⟩, -⟩ := mem_joinedFolds.mp found
        exact List.ne_nil_of_mem (mem_sources.mpr member)
      obtain ⟨more, rfl, reads⟩ :=
        read_alternatives build (fun length out after => ih) _ named others
      refine ⟨"(?:".toList ++ aloneText build c ++ text ++ more ++ [')'], ?_, ?_⟩
      · simp only [List.append_assoc]
      · intro r between
        have front := (spells_aloneText build c).append spells
        obtain ⟨next, onward, outer, mode, total⟩ := reads
          ⟨(r.before, r.current) :: r.outer, 0, aloneWords c * spelledWords rounds rest, .items⟩ rfl
        obtain ⟨inner, before, current, inside⟩ := next
        dsimp only at outer mode total
        subst outer mode
        rw [Reading.read_append, Reading.read_append, List.append_assoc, Reading.read_append,
          read_open r between, Option.bind_some, front _ rfl, Option.bind_some]
        unfold Reading.item
        dsimp only
        rw [one_mul, onward, Option.bind_some, read_close, total, zero_add, spelledWords]

/-- What `expand_run` answers reads as the words of the run. -/
theorem expandRun_language {run text : Text} (answers : expandRun build run = .ok (some text)) :
    spelledLanguage text = some (spelledWords run.length run) := by
  unfold expandRun at answers
  dsimp only at answers
  split at answers
  · cases written : writeSpellings build run.length run [] with
    | error error =>
      rw [written] at answers
      cases answers
    | ok after =>
      rw [written] at answers
      cases answers
      obtain ⟨whole, same, spells⟩ := writeSpellings_spells build written
      rw [List.nil_append] at same
      subst same
      unfold spelledLanguage
      rw [spells _ rfl, Option.bind_some]
      show some (0 + 1 * spelledWords run.length run) = _
      rw [zero_add, one_mul]
  · cases answers

end

end Kobako.Regexp
