import Kobako.Regexp.Index
import Kobako.Regexp.Pieces

/-!
# Spans of matches

Every match of a pattern in a subject, as `regexp/replace.rs` collects them, and what
`String#gsub` and `String#split` make of them, as `string_ext.rs` does. The engine is a parameter.
Where it answers matches in order, the spans it is asked for part the subject: each piece of it
lies in one span or between two. `String#split` counts its limit in the guest's `usize`, which is
where a limit past it is lost.
-/

namespace Kobako.Regexp

open Text

/-! ## Spans -/

/-- `MatchSpan`. -/
structure MatchSpan where
  /-- The match itself. -/
  whole : Nat × Nat
  /-- Each group that took part. -/
  groups : List (Option (Nat × Nat))
deriving Repr, DecidableEq

/-- Where the search goes on behind a match: a character further where it is empty. -/
def searchBehind (subject : Text) (whole : Nat × Nat) : Option Nat :=
  if whole.1 < whole.2 then some whole.2
  else (sliceFrom subject whole.2).map fun rest => whole.2 + (rest.head?.map Char.utf8Size).getD 1

/-- The loop of `match_spans`, from a place on. It goes round at most `rounds` times: none where it
panics, or where it would go on. -/
def spansFrom (regexp : RegexpState) (subject : Text) :
    Nat → Nat → Option (Except String (List MatchSpan))
  | 0, _ => none
  | rounds + 1, pos =>
    if len subject < pos then some (.ok [])
    else
      match regexp.capturesFromPos subject pos with
      | .error reason => some (.error reason)
      | .ok none => some (.ok [])
      | .ok (some captures) => do
        let next ← searchBehind subject captures.whole
        let rest ← spansFrom regexp subject rounds next
        some (rest.map (⟨captures.whole, captures.others⟩ :: ·))

/-- `match_spans`, at most one round for each byte of the subject and two more. -/
def matchSpans (regexp : RegexpState) (subject : Text) : Option (Except String (List MatchSpan)) :=
  spansFrom regexp subject (len subject + 2) 0

/-! ## Replacements -/

/-- What a replacement raises. -/
inductive ReplaceError where
  | regexpError (reason : String)
  | undefinedGroup (name : Text)
  | invalidExpression (replacement : Text)
deriving Repr, DecidableEq

/-- `group_of_name`. -/
def groupOfName (indexes : List Nat) (tookPart : Nat → Bool) : Option Nat :=
  (indexes.reverse.find? tookPart).or indexes.getLast?

/-- `name_to_index`. -/
def nameToIndex (regexp : RegexpState) (span : MatchSpan) (name : Text) : Option Nat := do
  let (_, indexes) ← regexp.names.find? (·.1 = name)
  groupOfName indexes fun index => ((span.groups[index - 1]?).join).isSome

/-- `push_group`, as what it writes. -/
def groupText (subject : Text) (span : MatchSpan) (index : Nat) : Option Text :=
  match if index = 0 then some span.whole else (span.groups[index - 1]?).join with
  | some (start, stop) => slice subject start stop
  | none => some []

/-- `read_group_name`: the name and the text behind it. -/
def readGroupName : Text → Option (Text × Text)
  | '<' :: rest => splitOnce '>' rest
  | _ => none

/-- What one turn of the loop of `expand_replacement` writes, and the text behind it. -/
def expandOne (regexp : RegexpState) (subject : Text) (span : MatchSpan) (replacement : Text) :
    Char → Text → Option (Except ReplaceError (Text × Text))
  | '\\', [] => some (.ok (['\\'], []))
  | '\\', '\\' :: rest => some (.ok (['\\'], rest))
  | '\\', 'k' :: rest =>
    match readGroupName rest with
    | none => some (.error (.invalidExpression replacement))
    | some (name, rest) =>
      match nameToIndex regexp span name with
      | none => some (.error (.undefinedGroup name))
      | some index => (groupText subject span index).map fun text => .ok (text, rest)
  | '\\', other :: rest =>
    if other.isDigit then
      (groupText subject span (digitValue other)).map fun text => .ok (text, rest)
    else some (.ok (['\\', other], rest))
  | c, rest => some (.ok ([c], rest))

/-- The loop of `expand_replacement`, which goes round at most `rounds` times. -/
def expandFrom (regexp : RegexpState) (subject : Text) (span : MatchSpan) (replacement : Text) :
    Nat → Text → Option (Except ReplaceError Text)
  | 0, _ => none
  | _ + 1, [] => some (.ok [])
  | rounds + 1, c :: rest => do
    match ← expandOne regexp subject span replacement c rest with
    | .error raised => some (.error raised)
    | .ok (text, rest) =>
      let more ← expandFrom regexp subject span replacement rounds rest
      some (more.map (text ++ ·))

/-- `expand_replacement`. -/
def expandReplacement (regexp : RegexpState) (subject : Text) (span : MatchSpan)
    (replacement : Text) : Option (Except ReplaceError Text) :=
  expandFrom regexp subject span replacement (replacement.length + 1) replacement

/-- The loop of `str_gsub`, what was read of the subject ending at `last`. -/
def gsubFrom (regexp : RegexpState) (subject replacement : Text) :
    Nat → List MatchSpan → Option (Except ReplaceError Text)
  | last, [] => (sliceFrom subject last).map .ok
  | last, span :: rest => do
    let kept ← slice subject last span.whole.1
    match ← expandReplacement regexp subject span replacement with
    | .error raised => some (.error raised)
    | .ok text =>
      let more ← gsubFrom regexp subject replacement span.whole.2 rest
      some (more.map (kept ++ text ++ ·))

/-- `str_gsub`, of a pattern and a text to put for each match. -/
def strGsub (regexp : RegexpState) (subject replacement : Text) :
    Option (Except ReplaceError Text) := do
  match ← matchSpans regexp subject with
  | .error reason => some (.error (.regexpError reason))
  | .ok spans => gsubFrom regexp subject replacement 0 spans

/-! ## Splitting -/

/-- A range `str_split` answers: a field of its own, or a group of the match before it. -/
inductive SplitPart where
  | field (start stop : Nat)
  | capture (start stop : Nat)
deriving Repr, DecidableEq

/-- The range itself. -/
def SplitPart.range : SplitPart → Nat × Nat
  | .field start stop => (start, stop)
  | .capture start stop => (start, stop)

/-- The fields among the ranges, the groups aside. -/
def fieldsOf (cuts : List SplitPart) : List (Nat × Nat) :=
  cuts.filterMap fun cut => match cut with
    | .field start stop => some (start, stop)
    | .capture _ _ => none

/-- An `as usize` on the guest. -/
def asUsize (n : Int) : Nat := (n % 2 ^ 32).toNat

/-- Whether a match is empty where a field starts. -/
def emptyAt (span : MatchSpan) (last : Nat) : Prop :=
  span.whole.1 = span.whole.2 ∧ span.whole.1 = last

instance (span : MatchSpan) (last : Nat) : Decidable (emptyAt span last) :=
  inferInstanceAs (Decidable (_ ∧ _))

/-- The loop of `str_split`: the ranges it pushes and where the last field starts. -/
def splitFrom (limit : Int) : Nat → Nat → List MatchSpan → List SplitPart × Nat
  | last, _, [] => ([], last)
  | last, splits, span :: rest =>
    if emptyAt span last then splitFrom limit last splits rest
    else if 0 < limit ∧ asUsize (limit - 1) ≤ splits then ([], last)
    else
      let (cuts, stop) := splitFrom limit span.whole.2 (splits + 1) rest
      (.field last span.whole.1 ::
        ((span.groups.filterMap id).map fun group => .capture group.1 group.2) ++ cuts, stop)

/-- The ranges up to the last that is not empty. -/
def dropEmpty (cuts : List SplitPart) : List SplitPart :=
  (cuts.reverse.dropWhile fun cut => cut.range.1 = cut.range.2).reverse

/-- `str_split`, on a pattern. -/
def strSplit (regexp : RegexpState) (subject : Text) (limit : Int) :
    Option (Except String (List SplitPart)) := do
  match ← matchSpans regexp subject with
  | .error reason => some (.error reason)
  | .ok spans =>
    let (cuts, last) := splitFrom limit 0 0 spans
    let cuts := cuts ++ [.field last (len subject)]
    some (.ok (if limit = 0 then dropEmpty cuts else cuts))

/-! ## Cuts of the subject -/

/-- Two places a text can be cut at, in order, part it in three. -/
theorem slice_between {text : Text} {start stop : Nat} (ordered : start ≤ stop)
    (first : isCharBoundary text start = true) (second : isCharBoundary text stop = true) :
    ∃ middle back, slice text start stop = some middle ∧
      sliceFrom text start = some (middle ++ back) ∧ sliceFrom text stop = some back := by
  obtain ⟨⟨front, after⟩, one⟩ := Option.isSome_iff_exists.mp first
  obtain ⟨⟨longer, back⟩, two⟩ := Option.isSome_iff_exists.mp second
  obtain ⟨whole, long⟩ := splitAt_iff.mp one
  obtain ⟨again, length⟩ := splitAt_iff.mp two
  have within : ∃ middle, longer = front ++ middle ∧ after = middle ++ back := by
    rw [whole] at again
    cases List.append_eq_append_iff.mp again with
    | inl split =>
      obtain ⟨middle, extends_, rest⟩ := split
      exact ⟨middle, extends_, rest⟩
    | inr split =>
      obtain ⟨middle, extends_, rest⟩ := split
      have none : middle = [] := by
        by_cases empty : middle = []
        · exact empty
        · have filled := len_pos empty
          rw [extends_, len_append] at long
          omega
      subst none
      rw [List.append_nil] at extends_
      exact ⟨[], by rw [extends_, List.append_nil], rest.symm⟩
  obtain ⟨middle, extends_, rest⟩ := within
  subst extends_ rest
  rw [len_append] at length
  refine ⟨middle, back, ?_, ?_, ?_⟩
  · rw [whole, ← List.append_assoc]
    exact slice_append long length
  · rw [whole]
    exact sliceFrom_append long
  · rw [whole, ← List.append_assoc]
    exact sliceFrom_append (by rw [len_append, length])

theorem sliceFrom_zero (text : Text) : sliceFrom text 0 = some text := by
  cases text <;> rfl

/-- A place a text can be cut at lies within it. -/
theorem le_of_isCharBoundary {text : Text} {place : Nat}
    (boundary : isCharBoundary text place = true) : place ≤ len text := by
  obtain ⟨⟨front, back⟩, cut⟩ := Option.isSome_iff_exists.mp boundary
  obtain ⟨whole, long⟩ := splitAt_iff.mp cut
  rw [whole, len_append]
  omega

/-! ## Spans in order -/

/-- An engine that answers none or a match at or after the place asked, within the subject and on
its characters. -/
structure Lawful (regexp : RegexpState) (subject : Text) : Prop where
  /-- It is never given up. -/
  answers : ∀ pos, ∃ found, regexp.capturesFromPos subject pos = .ok found
  /-- What it finds lies behind the place, its end behind its start, both between characters. -/
  ordered : ∀ pos captures, regexp.capturesFromPos subject pos = .ok (some captures) →
    pos ≤ captures.whole.1 ∧ captures.whole.1 ≤ captures.whole.2 ∧
    isCharBoundary subject captures.whole.1 = true ∧
    isCharBoundary subject captures.whole.2 = true

variable {regexp : RegexpState} {subject : Text}

/-- A span that lies in the subject, on its characters. -/
def MatchSpan.Fits (subject : Text) (span : MatchSpan) : Prop :=
  span.whole.1 ≤ span.whole.2 ∧ isCharBoundary subject span.whole.1 = true ∧
    isCharBoundary subject span.whole.2 = true

/-- Spans in order: each starts at or after the end of those before it, and none is another. -/
def InOrder (spans : List MatchSpan) : Prop :=
  spans.Pairwise fun one other => one.whole.2 ≤ other.whole.1 ∧ one.whole ≠ other.whole

/-- The search goes on behind a match, at most one place past the subject. -/
theorem searchBehind_spec {whole : Nat × Nat} (ordered : whole.1 ≤ whole.2)
    (boundary : isCharBoundary subject whole.2 = true) :
    ∃ next, searchBehind subject whole = some next ∧ whole.2 ≤ next ∧ whole.1 < next ∧
      next ≤ len subject + 1 := by
  unfold searchBehind
  by_cases filled : whole.1 < whole.2
  · rw [if_pos filled]
    have inside := le_of_isCharBoundary boundary
    exact ⟨whole.2, rfl, Nat.le_refl _, filled, by omega⟩
  · rw [if_neg filled]
    obtain ⟨⟨front, back⟩, cut⟩ := Option.isSome_iff_exists.mp boundary
    obtain ⟨split, long⟩ := splitAt_iff.mp cut
    have behind : sliceFrom subject whole.2 = some back := by
      rw [split]
      exact sliceFrom_append long
    rw [behind, Option.map_some]
    have total : len subject = whole.2 + len back := by rw [split, len_append, long]
    refine ⟨_, rfl, ?_⟩
    cases back with
    | nil =>
      simp only [List.head?_nil, Option.map_none, Option.getD_none]
      rw [len_nil] at total
      omega
    | cons c rest =>
      have one := c.utf8Size_pos
      simp only [List.head?_cons, Option.map_some, Option.getD_some]
      rw [len_cons] at total
      omega

/-- The search ends: it finds spans in order, each behind the place it began at. -/
theorem spansFrom_inOrder (lawful : Lawful regexp subject) (rounds pos : Nat)
    (enough : len subject + 2 ≤ rounds + pos) (inside : pos ≤ len subject + 1) :
    ∃ spans, spansFrom regexp subject rounds pos = some (.ok spans) ∧ InOrder spans ∧
      ∀ span ∈ spans, pos ≤ span.whole.1 ∧ span.Fits subject := by
  induction rounds generalizing pos with
  | zero => omega
  | succ rounds ih =>
    unfold spansFrom
    by_cases past : len subject < pos
    · rw [if_pos past]
      exact ⟨[], rfl, List.Pairwise.nil, by simp⟩
    · rw [if_neg past]
      obtain ⟨found, answered⟩ := lawful.answers pos
      rw [answered]
      cases found with
      | none => exact ⟨[], rfl, List.Pairwise.nil, by simp⟩
      | some captures =>
        obtain ⟨behind, ordered, first, second⟩ := lawful.ordered pos captures answered
        obtain ⟨next, goes, after, further, within_⟩ := searchBehind_spec ordered second
        obtain ⟨spans, rest, sorted, later⟩ := ih next (by omega) within_
        refine ⟨⟨captures.whole, captures.others⟩ :: spans, ?_, ?_, ?_⟩
        · simp only [goes, Option.bind_eq_bind, Option.bind_some, rest]
          rfl
        · apply List.Pairwise.cons _ sorted
          intro span member
          have starts := (later span member).1
          refine ⟨by show captures.whole.2 ≤ _; omega, ?_⟩
          intro same
          have start : captures.whole.1 = span.whole.1 := congrArg Prod.fst same
          omega
        · intro span member
          cases List.mem_cons.mp member with
          | inl same =>
            subst same
            exact ⟨behind, ordered, first, second⟩
          | inr inRest =>
            obtain ⟨starts, fits⟩ := later span inRest
            exact ⟨by omega, fits⟩

/-- `match_spans` ends in spans in order, all of them in the subject. -/
theorem matchSpans_inOrder (lawful : Lawful regexp subject) :
    ∃ spans, matchSpans regexp subject = some (.ok spans) ∧ InOrder spans ∧
      ∀ span ∈ spans, span.Fits subject := by
  obtain ⟨spans, found, sorted, later⟩ :=
    spansFrom_inOrder lawful (len subject + 2) 0 (Nat.le_refl _) (Nat.zero_le _)
  exact ⟨spans, found, sorted, fun span member => (later span member).2⟩

/-! ## Replacing each match with itself -/

/-- `\\0`, the match itself. -/
def wholeMatch : Text := ['\\', '0']

/-- The match itself stands for the match. -/
theorem expandReplacement_wholeMatch (span : MatchSpan) :
    expandReplacement regexp subject span wholeMatch =
      (slice subject span.whole.1 span.whole.2).map .ok := by
  have first : expandOne regexp subject span wholeMatch '\\' ['0'] =
      (slice subject span.whole.1 span.whole.2).map fun text => .ok (text, []) := rfl
  unfold expandReplacement
  show expandFrom regexp subject span wholeMatch 3 ('\\' :: ['0']) = _
  unfold expandFrom
  rw [first]
  cases slice subject span.whole.1 span.whole.2 with
  | none => rfl
  | some text =>
    show some (Except.ok (text ++ [])) = _
    rw [List.append_nil]
    rfl

/-- Spans in order behind a place: each lies in the subject and starts at or after it. -/
def Behind (subject : Text) (last : Nat) (spans : List MatchSpan) : Prop :=
  isCharBoundary subject last = true ∧ InOrder spans ∧
    ∀ span ∈ spans, last ≤ span.whole.1 ∧ span.Fits subject

variable {last : Nat} {spans : List MatchSpan}

/-- What is left of spans in order is in order behind the first of them. -/
theorem Behind.tail {span : MatchSpan} {rest : List MatchSpan}
    (behind : Behind subject last (span :: rest)) : Behind subject span.whole.2 rest := by
  obtain ⟨-, sorted, fits⟩ := behind
  obtain ⟨later, ordered⟩ := List.pairwise_cons.mp sorted
  have first := (fits span List.mem_cons_self).2
  refine ⟨first.2.2, ordered, ?_⟩
  intro next member
  exact ⟨(later next member).1, (fits next (List.mem_cons_of_mem _ member)).2⟩

/-- Each match put for itself leaves the subject from there on. -/
theorem gsubFrom_wholeMatch (behind : Behind subject last spans) :
    gsubFrom regexp subject wholeMatch last spans = (sliceFrom subject last).map .ok := by
  induction spans generalizing last with
  | nil => rfl
  | cons span rest ih =>
    obtain ⟨after, ordered, first, second⟩ := behind.2.2 span List.mem_cons_self
    obtain ⟨kept, back, one, fromLast, fromStart⟩ := slice_between after behind.1 first
    obtain ⟨found, more, two, fromMatch, fromStop⟩ := slice_between ordered first second
    have same : back = found ++ more := by
      rw [fromStart, Option.some.injEq] at fromMatch
      exact fromMatch
    unfold gsubFrom
    rw [one, expandReplacement_wholeMatch, two, ih behind.tail, fromStop, fromLast, same]
    simp only [Option.bind_eq_bind, Option.bind_some, Option.map_some, Except.map,
      List.append_assoc]

/-! ## Splitting at each match -/

/-- The matches a subject is split at: all but the empty ones where a field starts. -/
def separators : Nat → List MatchSpan → List MatchSpan
  | _, [] => []
  | last, span :: rest =>
    if emptyAt span last then separators last rest else span :: separators span.whole.2 rest

/-- The fields between separators, from a place to the end of a subject so long. -/
def between (length : Nat) : Nat → List MatchSpan → List (Nat × Nat)
  | last, [] => [(last, length)]
  | last, span :: rest => (last, span.whole.1) :: between length span.whole.2 rest

/-- The separators a limit lets through once some were. -/
def limited (limit : Int) (splits : Nat) (seps : List MatchSpan) : List MatchSpan :=
  if 0 < limit then seps.take (asUsize (limit - 1) - splits) else seps

/-- The groups of a match are no fields. -/
theorem fieldsOf_captures (groups : List (Nat × Nat)) (cuts : List SplitPart) :
    fieldsOf ((groups.map fun group => SplitPart.capture group.1 group.2) ++ cuts) = fieldsOf cuts := by
  induction groups with
  | nil => rfl
  | cons group rest ih => exact ih

/-- The loop leaves the fields between the separators the limit lets through. -/
theorem splitFrom_fields (limit : Int) (length last splits : Nat) (spans : List MatchSpan) :
    fieldsOf ((splitFrom limit last splits spans).1 ++
        [.field (splitFrom limit last splits spans).2 length]) =
      between length last (limited limit splits (separators last spans)) := by
  induction spans generalizing last splits with
  | nil => simp [splitFrom, separators, limited, between, fieldsOf]
  | cons span rest ih =>
    unfold splitFrom separators
    by_cases skipped : emptyAt span last
    · rw [if_pos skipped, if_pos skipped]
      exact ih last splits
    · rw [if_neg skipped, if_neg skipped]
      by_cases reached : 0 < limit ∧ asUsize (limit - 1) ≤ splits
      · rw [if_pos reached]
        have none : asUsize (limit - 1) - splits = 0 := by omega
        rw [limited, if_pos reached.1, none, List.take_zero]
        rfl
      · rw [if_neg reached]
        have onward : limited limit splits (span :: separators span.whole.2 rest) =
            span :: limited limit (splits + 1) (separators span.whole.2 rest) := by
          unfold limited
          by_cases positive : 0 < limit
          · have more : asUsize (limit - 1) - splits = asUsize (limit - 1) - (splits + 1) + 1 := by
              omega
            rw [if_pos positive, if_pos positive, more, List.take_succ_cons]
          · rw [if_neg positive, if_neg positive]
        have later := ih span.whole.2 (splits + 1)
        rw [onward]
        cases behind : splitFrom limit span.whole.2 (splits + 1) rest with
        | mk cuts stop =>
          rw [behind] at later
          show (last, span.whole.1) :: fieldsOf
            ((((span.groups.filterMap id).map fun group => SplitPart.capture group.1 group.2) ++ cuts) ++
              [.field stop length]) = _
          rw [List.append_assoc, fieldsOf_captures, later]
          rfl

/-- Where no group took part, every range is a field. -/
theorem splitFrom_ungrouped (limit : Int) (last splits : Nat)
    (ungrouped : ∀ span ∈ spans, span.groups = []) :
    (splitFrom limit last splits spans).1.map SplitPart.range =
      fieldsOf (splitFrom limit last splits spans).1 := by
  induction spans generalizing last splits with
  | nil => rfl
  | cons span rest ih =>
    have later := fun span member => ungrouped span (List.mem_cons_of_mem _ member)
    unfold splitFrom
    by_cases skipped : emptyAt span last
    · rw [if_pos skipped]
      exact ih last splits later
    · rw [if_neg skipped]
      by_cases reached : 0 < limit ∧ asUsize (limit - 1) ≤ splits
      · rw [if_pos reached]
        rfl
      · rw [if_neg reached, ungrouped span List.mem_cons_self]
        exact congrArg ((last, span.whole.1) :: ·) (ih span.whole.2 (splits + 1) later)

/-- The separators are among the matches. -/
theorem separators_sublist (last : Nat) (spans : List MatchSpan) :
    (separators last spans).Sublist spans := by
  induction spans generalizing last with
  | nil => exact List.Sublist.slnil
  | cons span rest ih =>
    unfold separators
    by_cases skipped : emptyAt span last
    · rw [if_pos skipped]
      exact (ih last).cons span
    · rw [if_neg skipped]
      exact (ih span.whole.2).cons_cons span

/-- Separators are in order behind the same place as the matches. -/
theorem Behind.separators (behind : Behind subject last spans) (from_ : Nat) :
    Behind subject last (separators from_ spans) := by
  have among := separators_sublist from_ spans
  refine ⟨behind.1, behind.2.1.sublist among, ?_⟩
  intro span member
  exact behind.2.2 span (among.subset member)

/-- Texts one after another, one of the second list between each two of the first. -/
def interleave : List Text → List Text → Text
  | first :: rest, between :: more => first ++ between ++ interleave rest more
  | rest, _ => rest.flatten

/-- The texts of ranges, none where one of them cannot be cut. -/
def textsOf (subject : Text) (ranges : List (Nat × Nat)) : Option (List Text) :=
  ranges.mapM fun range => slice subject range.1 range.2

/-- Fields joined by the matches between them. -/
def Joins (subject : Text) (fields matches_ : List (Nat × Nat)) (joined : Text) : Prop :=
  ∃ texts found, textsOf subject fields = some texts ∧ textsOf subject matches_ = some found ∧
    fields.length = matches_.length + 1 ∧ interleave texts found = joined

/-- The fields between separators in order, joined by them, are the subject from there on. -/
theorem between_joins {seps : List MatchSpan} (behind : Behind subject last seps) :
    ∃ joined, sliceFrom subject last = some joined ∧
      Joins subject (between (len subject) last seps) (seps.map (·.whole)) joined := by
  induction seps generalizing last with
  | nil =>
    have ends : isCharBoundary subject (len subject) = true := by
      have cut : splitAt subject (len subject) = some (subject, []) :=
        splitAt_iff.mpr ⟨(List.append_nil _).symm, rfl⟩
      rw [isCharBoundary, cut]
      rfl
    obtain ⟨text, back, kept, fromLast, atEnd⟩ :=
      slice_between (le_of_isCharBoundary behind.1) behind.1 ends
    have none : back = [] := by
      have cut : sliceFrom subject (len subject) = some [] := by
        have all : sliceFrom (subject ++ []) (len subject) = some [] := sliceFrom_append rfl
        rwa [List.append_nil] at all
      rw [cut, Option.some.injEq] at atEnd
      exact atEnd.symm
    rw [none, List.append_nil] at fromLast
    refine ⟨text, fromLast, [text], [], ?_, rfl, rfl, ?_⟩
    · simp [textsOf, between, kept]
    · simp [interleave]
  | cons span rest ih =>
    obtain ⟨after, ordered, first, second⟩ := behind.2.2 span List.mem_cons_self
    obtain ⟨field, back, kept, fromLast, fromStart⟩ := slice_between after behind.1 first
    obtain ⟨match_, more, found, fromMatch, fromStop⟩ := slice_between ordered first second
    obtain ⟨joined, rest_, texts, matches_, one, two, count, same⟩ := ih behind.tail
    rw [fromStart, Option.some.injEq] at fromMatch
    rw [fromStop, Option.some.injEq] at rest_
    refine ⟨field ++ back, fromLast, field :: texts, match_ :: matches_, ?_, ?_, ?_, ?_⟩
    · unfold textsOf at one ⊢
      simp [between, kept, one]
    · unfold textsOf at two ⊢
      simp [found, two]
    · simp [between, count]
    · rw [interleave, same, fromMatch, rest_, List.append_assoc]

theorem between_length (length last : Nat) (seps : List MatchSpan) :
    (between length last seps).length = seps.length + 1 := by
  induction seps generalizing last with
  | nil => rfl
  | cons span rest ih => simp [between, ih]

/-- The fields before the last are the same however many separators follow. -/
theorem between_dropLast (length last count : Nat) (seps : List MatchSpan) :
    (between length last (seps.take count)).dropLast =
      (between length last seps).take (min count seps.length) := by
  induction seps generalizing last count with
  | nil => simp [between]
  | cons span rest ih =>
    cases count with
    | zero => simp [between]
    | succ count =>
      have some_ : between length span.whole.2 (rest.take count) ≠ [] := by
        intro none
        have length_ := between_length length span.whole.2 (rest.take count)
        rw [none] at length_
        simp at length_
      rw [List.take_succ_cons, List.length_cons, Nat.succ_min_succ]
      simp only [between]
      rw [List.dropLast_cons_of_ne_nil some_, ih, List.take_succ_cons]

/-- The last field starts where the one there starts, and goes on to the end. -/
theorem between_getLast (length last count : Nat) (seps : List MatchSpan) :
    (between length last (seps.take count)).getLast? =
      ((between length last seps)[min count seps.length]?).map fun field => (field.1, length) := by
  induction seps generalizing last count with
  | nil => simp [between]
  | cons span rest ih =>
    cases count with
    | zero => simp [between]
    | succ count =>
      have later := ih span.whole.2 count
      have some_ : (between length span.whole.2 (rest.take count)).getLast?.isSome = true := by
        have length_ := between_length length span.whole.2 (rest.take count)
        apply List.getLast?_isSome.mpr
        intro none
        rw [none] at length_
        simp at length_
      rw [List.take_succ_cons, List.length_cons, Nat.succ_min_succ]
      simp only [between, List.getElem?_cons_succ]
      rw [← later, List.getLast?_cons]
      cases last_ : (between length span.whole.2 (rest.take count)).getLast? with
      | none =>
        rw [last_] at some_
        cases some_
      | some field => rfl

/-! ## The whole -/

/-- What a limit of at least one gives: as many fields as it says, or as there are without one,
the last of them all that is left. -/
def LimitKept (regexp : RegexpState) (subject : Text) (limit : Int) : Prop :=
  ∃ all got, strSplit regexp subject (-1) = some (.ok all) ∧
    strSplit regexp subject limit = some (.ok got) ∧
    ((fieldsOf got).length : Int) = min limit (fieldsOf all).length ∧
    (fieldsOf got).dropLast = (fieldsOf all).take ((fieldsOf got).length - 1) ∧
    (fieldsOf got).getLast? =
      ((fieldsOf all)[(fieldsOf got).length - 1]?).map fun field => (field.1, len subject)

/-- The matches of a subject part it: they are found in order, each put for itself gives the
subject, splitting at them without a limit gives fields that joined by matches give the subject,
and a limit is kept. -/
def Partitions (regexp : RegexpState) (subject : Text) (limit : Int) : Prop :=
  ∃ spans, matchSpans regexp subject = some (.ok spans) ∧ InOrder spans ∧
    strGsub regexp subject wholeMatch = some (.ok subject) ∧
    (∀ negative < (0 : Int), ∃ cuts seps, strSplit regexp subject negative = some (.ok cuts) ∧
      ((∀ span ∈ spans, span.groups = []) → cuts.map SplitPart.range = fieldsOf cuts) ∧
      seps.Sublist (spans.map (·.whole)) ∧ Joins subject (fieldsOf cuts) seps subject) ∧
    LimitKept regexp subject limit

/-- How many matches a subject is split at without a limit. -/
def splitPoints (regexp : RegexpState) (subject : Text) : Nat :=
  match matchSpans regexp subject with
  | some (.ok spans) => (separators 0 spans).length
  | _ => 0

/-- What `str_split` answers for a limit that is not 0, the groups aside. -/
theorem strSplit_fields (found : matchSpans regexp subject = some (.ok spans)) {limit : Int}
    (given : limit ≠ 0) :
    ∃ cuts, strSplit regexp subject limit = some (.ok cuts) ∧
      fieldsOf cuts = between (len subject) 0 (limited limit 0 (separators 0 spans)) ∧
      ((∀ span ∈ spans, span.groups = []) → cuts.map SplitPart.range = fieldsOf cuts) := by
  have fields := splitFrom_fields limit (len subject) 0 0 spans
  refine ⟨_, ?_, fields, ?_⟩
  · unfold strSplit
    rw [found]
    simp only [Option.bind_eq_bind, Option.bind_some, if_neg given]
  · intro ungrouped
    rw [List.map_append, fieldsOf, List.filterMap_append, splitFrom_ungrouped limit 0 0 ungrouped]
    rfl

/-- The matches of a lawful engine are in order from the start of the subject. -/
theorem matchSpans_behind (lawful : Lawful regexp subject) :
    ∃ spans, matchSpans regexp subject = some (.ok spans) ∧ Behind subject 0 spans := by
  obtain ⟨spans, found, sorted, fits⟩ := matchSpans_inOrder lawful
  refine ⟨spans, found, ?_, sorted, ?_⟩
  · unfold isCharBoundary splitAt
    cases subject <;> rfl
  · intro span member
    exact ⟨Nat.zero_le _, fits span member⟩

/-- Each match put for itself gives the subject. -/
theorem strGsub_wholeMatch (found : matchSpans regexp subject = some (.ok spans))
    (behind : Behind subject 0 spans) :
    strGsub regexp subject wholeMatch = some (.ok subject) := by
  unfold strGsub
  rw [found, Option.bind_eq_bind, Option.bind_some]
  show gsubFrom regexp subject wholeMatch 0 spans = _
  rw [gsubFrom_wholeMatch behind, sliceFrom_zero]
  rfl

/-- A limit is kept exactly where the guest's `usize` holds one less than it, or holds at least as
much as there are places to split at once that is cut to it. -/
theorem limitKept_iff (found : matchSpans regexp subject = some (.ok spans)) {limit : Int}
    (positive : 0 < limit) :
    LimitKept regexp subject limit ↔
      limit ≤ 2 ^ 32 ∨ ((separators 0 spans).length : Int) ≤ (limit - 1) % 2 ^ 32 := by
  obtain ⟨all, splitAll, allFields, -⟩ := strSplit_fields found (show (-1 : Int) ≠ 0 by decide)
  obtain ⟨got, splitGot, gotFields, -⟩ := strSplit_fields found (show limit ≠ 0 by omega)
  have unlimited : limited (-1) 0 (separators 0 spans) = separators 0 spans := rfl
  rw [unlimited] at allFields
  rw [limited, if_pos positive, Nat.sub_zero] at gotFields
  generalize separators 0 spans = seps at allFields gotFields ⊢
  have capped : (asUsize (limit - 1) : Int) = (limit - 1) % 2 ^ 32 := by
    unfold asUsize
    omega
  have count : (fieldsOf got).length = min (asUsize (limit - 1)) seps.length + 1 := by
    rw [gotFields, between_length, List.length_take]
  have total : (fieldsOf all).length = seps.length + 1 := by rw [allFields, between_length]
  constructor
  · rintro ⟨all', got', again, againGot, length, -⟩
    rw [splitAll] at again
    rw [splitGot] at againGot
    cases again
    cases againGot
    rw [count, total] at length
    omega
  · intro kept
    refine ⟨all, got, splitAll, splitGot, ?_, ?_, ?_⟩
    · rw [count, total]
      omega
    · rw [count, gotFields, allFields, between_dropLast, Nat.add_sub_cancel]
    · rw [count, gotFields, allFields, between_getLast, Nat.add_sub_cancel]

/-- Whatever an engine that answers matches in order finds in a subject, its matches part it, and a
positive limit of `String#split` is kept exactly where it is at most `2 ^ 32` or the places to split
at are no more than one less than it, cut to the guest's `usize`. -/
theorem partitions_iff (lawful : Lawful regexp subject) (limit : Int) (positive : 0 < limit) :
    Partitions regexp subject limit ↔
      limit ≤ 2 ^ 32 ∨ (splitPoints regexp subject : Int) ≤ (limit - 1) % 2 ^ 32 := by
  obtain ⟨spans, found, behind⟩ := matchSpans_behind lawful
  have points : splitPoints regexp subject = (separators 0 spans).length := by
    unfold splitPoints
    rw [found]
  rw [points, ← limitKept_iff found positive]
  constructor
  · rintro ⟨-, -, -, -, -, kept⟩
    exact kept
  · intro kept
    refine ⟨spans, found, behind.2.1, strGsub_wholeMatch found behind, ?_, kept⟩
    intro negative below
    obtain ⟨cuts, split, fields, ungrouped⟩ := strSplit_fields found (show negative ≠ 0 by omega)
    rw [limited, if_neg (by omega)] at fields
    have seps := behind.separators 0
    obtain ⟨joined, whole, joins⟩ := between_joins seps
    rw [sliceFrom_zero, Option.some.injEq] at whole
    rw [← whole] at joins
    refine ⟨cuts, (separators 0 spans).map (·.whole), split, ungrouped, ?_, ?_⟩
    · exact (separators_sublist 0 spans).map _
    · rw [fields]
      exact joins

/-- The first comma at or after a place. -/
def commaFrom (subject : Text) (pos : Nat) : Option Captures := do
  let rest ← sliceFrom subject pos
  let place ← find (· = ',') rest
  some ⟨(pos + place, pos + place + 1), []⟩

/-- A comma that is found stands in the subject. -/
theorem commaFrom_found {subject : Text} {pos : Nat} {captures : Captures}
    (found : commaFrom subject pos = some captures) :
    ∃ front back, subject = front ++ ',' :: back ∧ pos ≤ len front ∧
      captures.whole = (len front, len front + 1) := by
  unfold commaFrom at found
  rw [Option.bind_eq_bind] at found
  obtain ⟨rest, from_, found⟩ := Option.bind_eq_some_iff.mp found
  rw [Option.bind_eq_bind] at found
  obtain ⟨place, there, found⟩ := Option.bind_eq_some_iff.mp found
  obtain ⟨⟨front, after⟩, cut, behind⟩ := Option.map_eq_some_iff.mp from_
  obtain ⟨split, long⟩ := splitAt_iff.mp cut
  obtain ⟨before, c, back, inside, here, wanted, -⟩ := find_some there
  have comma : c = ',' := of_decide_eq_true wanted
  cases found
  subst comma
  have same : after = before ++ ',' :: back := by
    rw [← inside, ← behind]
  refine ⟨front ++ before, back, ?_, ?_, ?_⟩
  · rw [split, same, List.append_assoc]
  · rw [len_append]
    omega
  · rw [len_append, long, here]

/-- A pattern of one comma. -/
def comma : RegexpState where
  capturesFromPos subject pos := .ok (commaFrom subject pos)
  «within» := by
    intro subject pos captures found
    obtain ⟨front, back, split, -, whole⟩ := commaFrom_found (Except.ok.inj found)
    rw [whole, split, len_append]
    exact Nat.le_add_right _ _
  source := [',']
  options := 0
  names := []

theorem comma_lawful (subject : Text) : Lawful comma subject := by
  refine ⟨fun pos => ⟨_, rfl⟩, ?_⟩
  intro pos captures found
  obtain ⟨front, back, split, after, whole⟩ := commaFrom_found (Except.ok.inj found)
  have start : splitAt subject (len front) = some (front, ',' :: back) :=
    splitAt_iff.mpr ⟨split, rfl⟩
  have stop : splitAt subject (len front + 1) = some (front ++ [','], back) := by
    apply splitAt_iff.mpr
    refine ⟨by rw [split, List.append_assoc]; rfl, ?_⟩
    rw [len_append]
    rfl
  rw [whole]
  unfold isCharBoundary
  rw [start, stop]
  exact ⟨after, Nat.le_succ _, rfl, rfl⟩

/-- A limit of two splits `a,b` in two. -/
theorem partitions_iff_two : Partitions comma "a,b".toList 2 :=
  (partitions_iff (comma_lawful _) 2 (by decide)).mpr (.inl (by decide))

/-- A limit one past the guest's `usize` splits `a,b` not at all. -/
theorem not_partitions_past :
    Lawful comma "a,b".toList ∧ ¬Partitions comma "a,b".toList (2 ^ 32 + 1) := by
  refine ⟨comma_lawful _, ?_⟩
  rintro ⟨-, -, -, -, -, all, got, splitAll, splitGot, count, -⟩
  have two : strSplit comma "a,b".toList (-1) = some (.ok [.field 0 1, .field 2 3]) := rfl
  have one : strSplit comma "a,b".toList (2 ^ 32 + 1) = some (.ok [.field 0 3]) := rfl
  rw [two] at splitAll
  rw [one] at splitGot
  cases splitAll
  cases splitGot
  exact absurd count (by decide)

end Kobako.Regexp
