import Kobako.Regexp.Rewriter

/-!
# Where a match begins

`Regexp#match` and `String#index` of a pattern, as `regexp.rs` and `string_ext.rs` have them. The
engine is a parameter: a search of a text from a place on, with the text before that place in view.
`Regexp#match` makes that search; `String#index` searches the text from the place on as a text of
its own, and adds the place to what it is answered. The two agree where the position is out of range
or resolves to the start, and for every pattern none of whose pieces asks about the text before it.
What the engine is known to do is that it tries the pattern at one place after another, and that
only such a piece makes a try depend on the text before its place; no less is enough for the two to
agree.
-/

namespace Kobako.Regexp

open Text

/-! ## The engine -/

/-- What a search of the engine finds: the span of the match, and of each group that took part. -/
structure Captures where
  /-- The match itself. -/
  whole : Nat × Nat
  /-- The groups of the pattern. -/
  others : List (Option (Nat × Nat))
deriving Repr, DecidableEq

/-- `RegexpState`, with the compiled pattern by its `captures_from_pos` and `match_names`. -/
structure RegexpState where
  /-- The first match at or after a place, or why the search was given up. -/
  capturesFromPos : Text → Nat → Except String (Option Captures)
  /-- A match lies within the text searched. -/
  «within» : ∀ subject pos captures, capturesFromPos subject pos = .ok (some captures) →
    captures.whole.1 ≤ len subject
  /-- The pattern's source. -/
  source : Text
  /-- The pattern's options. -/
  options : BitVec 64
  /-- The named groups. -/
  names : List (Text × List Nat)

/-- `MatchState`. -/
structure MatchState where
  /-- The text that was searched. -/
  subject : Text
  /-- The span of the match, then of each group. -/
  groups : List (Option (Nat × Nat))
  /-- The named groups. -/
  names : List (Text × List Nat)
deriving Repr, DecidableEq

/-- What a match raises. -/
inductive Raised where
  | regexpError (source : Text) (reason : String)
  | notText
deriving Repr, DecidableEq

/-- Code that reads and sets `$~`. -/
abbrev Matching := EStateM Raised (Option MatchState)

/-! ## `Regexp#match` -/

/-- `str::is_char_boundary`. -/
def isCharBoundary (text : Text) (place : Nat) : Bool := (splitAt text place).isSome

/-- The loop of `resolve_pos`. -/
def snapDown (text : Text) : Nat → Nat
  | 0 => 0
  | place + 1 => if isCharBoundary text (place + 1) then place + 1 else snapDown text place

/-- `resolve_pos`. -/
def resolvePos (subject : Text) (pos : Int) : Option Nat :=
  let length : Int := len subject
  let pos := if pos < 0 then pos + length else pos
  if pos < 0 ∨ pos > length then none else some (snapDown subject pos.toNat)

variable (regexp : RegexpState)

/-- `do_match`. -/
def doMatch (subject : Text) (pos : Nat) : Matching (Option MatchState) :=
  fun last =>
    match regexp.capturesFromPos subject pos with
    | .ok (some captures) =>
      let found : MatchState := ⟨subject, some captures.whole :: captures.others, regexp.names⟩
      .ok (some found) (some found)
    | .ok none => .ok none none
    | .error reason => .error (.regexpError regexp.source reason) last

/-- `rx_match`, of a text and without a block. -/
def rxMatch (subject : Text) (pos : Int) : Matching (Option MatchState) :=
  match resolvePos subject pos with
  | none => return none
  | some pos => doMatch regexp subject pos

/-- Where a match begins, by its first span. -/
def MatchState.beginning (found : MatchState) : Option Nat := (found.groups[0]?).join.map (·.1)

/-! ## `String#index` -/

/-- An `as i32`. -/
def asI32 (n : Int) : Int := n.bmod (2 ^ 32)

/-- `md_begin`, of a group the pattern has. -/
def mdBegin (found : MatchState) (index : Nat) : Option Int :=
  (found.groups[index]?).join.map fun span => asI32 span.1

/-- `rx_eqtilde`, of a text. -/
def rxEqtilde (subject : Text) : Matching (Option Int) := do
  match ← doMatch regexp subject 0 with
  | none => return none
  | some found => return mdBegin found 0

/-- `str_index`, of a pattern. The bytes from the place on are read as text again. -/
def strIndex (subject : Text) (pos : Int) : Matching (Option Int) :=
  match resolvePos subject pos with
  | none => return none
  | some start =>
    match splitAt subject start with
    | none => throw .notText
    | some (_, tail) => do
      match ← rxEqtilde regexp tail with
      | some offset => return some (asI32 (offset + start))
      | none => return none

/-! ## Places -/

/-- A text of the guest: no allocation there exceeds `isize::MAX` bytes. -/
structure Subject where
  /-- Its characters. -/
  text : Text
  /-- Its bytes are counted by an `i32`. -/
  short : len text < 2 ^ 31

/-- A place snapped down is where the text can be cut. -/
theorem splitAt_snapDown (text : Text) (place : Nat) :
    ∃ front back, splitAt text (snapDown text place) = some (front, back) := by
  induction place with
  | zero =>
    refine ⟨[], text, ?_⟩
    rw [snapDown, splitAt]
  | succ place ih =>
    unfold snapDown
    by_cases boundary : isCharBoundary text (place + 1) = true
    · rw [if_pos boundary]
      obtain ⟨cut, found⟩ := Option.isSome_iff_exists.mp boundary
      exact ⟨cut.1, cut.2, found⟩
    · rw [if_neg boundary]
      exact ih

/-- A position that resolves is where the text can be cut. -/
theorem splitAt_resolvePos {subject : Text} {pos : Int} {start : Nat}
    (resolved : resolvePos subject pos = some start) :
    ∃ front back, splitAt subject start = some (front, back) := by
  unfold resolvePos at resolved
  dsimp only at resolved
  generalize (if pos < 0 then pos + (len subject : Int) else pos) = place at resolved
  by_cases outside : place < 0 ∨ place > len subject
  · rw [if_pos outside] at resolved
    cases resolved
  · rw [if_neg outside] at resolved
    cases resolved
    exact splitAt_snapDown subject _

/-- A place within a text of the guest is an `i32`. -/
theorem asI32_of_lt {place : Nat} (short : place < 2 ^ 31) : asI32 place = place := by
  unfold asI32
  rw [Int.bmod_eq_of_le] <;> omega

/-! ## Agreement -/

/-- What a call answers, or raises. -/
def answered {α : Type} : EStateM.Result Raised (Option MatchState) α → Except Raised α
  | .ok a _ => .ok a
  | .error raised _ => .error raised

/-- `String#index` answers where the match `Regexp#match` finds begins, and nil where it finds
none. -/
def Agrees (subject : Text) (pos : Int) : Prop :=
  ∀ last, answered (strIndex regexp subject pos last) =
    (answered (rxMatch regexp subject pos last)).map
      fun found => found.bind fun found => found.beginning.map Int.ofNat

/-- Where the first match at or after a place begins. -/
def firstFrom (subject : Text) (pos : Nat) : Except String (Option Nat) :=
  (regexp.capturesFromPos subject pos).map fun found => found.map (·.whole.1)

/-- What stands before a text makes no difference to where the pattern first matches in it. -/
def Unseen (front back : Text) : Prop :=
  firstFrom regexp (front ++ back) (len front) =
    (firstFrom regexp back 0).map fun found => found.map (· + len front)

/-- What `Regexp#match` answers at a place, by what the engine finds. -/
theorem answered_doMatch (subject : Text) (pos : Nat) (last : Option MatchState) :
    (answered (doMatch regexp subject pos last)).map
        (fun found => found.bind fun found => found.beginning.map Int.ofNat) =
      ((firstFrom regexp subject pos).mapError (Raised.regexpError regexp.source)).map
        (fun found => found.map Int.ofNat) := by
  unfold doMatch firstFrom
  cases regexp.capturesFromPos subject pos with
  | error reason => rfl
  | ok found =>
    cases found with
    | none => rfl
    | some captures => rfl

/-- What `String#index` answers at a place, by what the engine finds in the text from there on. -/
theorem answered_strIndex {subject front back : Text} {pos : Int} (short : len subject < 2 ^ 31)
    (resolved : resolvePos subject pos = some (len front)) (split : subject = front ++ back)
    (last : Option MatchState) :
    answered (strIndex regexp subject pos last) =
      (((firstFrom regexp back 0).map fun found => found.map (· + len front)).mapError
        (Raised.regexpError regexp.source)).map (fun found => found.map Int.ofNat) := by
  have cut : splitAt subject (len front) = some (front, back) := splitAt_iff.mpr ⟨split, rfl⟩
  have total : len subject = len front + len back := by
    rw [split, len_append]
  unfold strIndex firstFrom
  rw [resolved]
  dsimp only
  rw [cut]
  dsimp only
  cases searched : regexp.capturesFromPos back 0 with
  | error reason =>
    have failed : doMatch regexp back 0 last = .error (.regexpError regexp.source reason) last := by
      unfold doMatch
      rw [searched]
    simp only [rxEqtilde, bind, EStateM.bind, failed, answered]
    rfl
  | ok found =>
    cases found with
    | none =>
      have missed : doMatch regexp back 0 last = .ok none none := by
        unfold doMatch
        rw [searched]
      simp only [rxEqtilde, bind, EStateM.bind, missed]
      rfl
    | some captures =>
      have inside := regexp.within back 0 captures searched
      let found : MatchState := ⟨back, some captures.whole :: captures.others, regexp.names⟩
      have matched : doMatch regexp back 0 last = .ok (some found) (some found) := by
        unfold doMatch
        rw [searched]
      have offset : mdBegin found 0 = some (captures.whole.1 : Int) := by
        show some (asI32 captures.whole.1) = _
        rw [asI32_of_lt (by omega)]
      simp only [rxEqtilde, bind, EStateM.bind, matched, pure, EStateM.pure, offset, answered]
      rw [← Int.natCast_add, asI32_of_lt (by omega)]
      rfl

/-- Answers are equal as values of the guest exactly where they are equal. -/
theorem mapped_eq_iff (source : Text) (left right : Except String (Option Nat)) :
    (left.mapError (Raised.regexpError source)).map (fun found => found.map Int.ofNat) =
        (right.mapError (Raised.regexpError source)).map (fun found => found.map Int.ofNat) ↔
      left = right := by
  constructor
  · intro same
    cases left with
    | error reason =>
      cases right with
      | error other =>
        injection same with same
        injection same with _ same
        rw [same]
      | ok found => cases same
    | ok found =>
      cases right with
      | error other => cases same
      | ok other =>
        injection same with same
        have injective : Function.Injective Int.ofNat := fun _ _ => Int.ofNat.inj
        rw [Option.map_injective injective same]
  · intro same
    rw [same]

/-- `String#index` agrees with `Regexp#match` exactly where the engine's two searches do. -/
theorem agrees_iff_unseen (subject : Subject) (pos : Int) :
    Agrees regexp subject.text pos ↔
      ∀ front back, subject.text = front ++ back →
        resolvePos subject.text pos = some (len front) → Unseen regexp front back := by
  cases resolved : resolvePos subject.text pos with
  | none =>
    refine ⟨fun _ _ _ _ => nofun, fun _ last => ?_⟩
    unfold strIndex rxMatch
    rw [resolved]
    rfl
  | some start =>
    obtain ⟨front, back, cut⟩ := splitAt_resolvePos resolved
    obtain ⟨split, long⟩ := splitAt_iff.mp cut
    rw [← long] at resolved
    -- Each call answers by one search, so they agree where the searches do.
    have agrees : Agrees regexp subject.text pos ↔ Unseen regexp front back := by
      have each : ∀ last, answered (strIndex regexp subject.text pos last) =
          (answered (rxMatch regexp subject.text pos last)).map
            (fun found => found.bind fun found => found.beginning.map Int.ofNat) ↔
          Unseen regexp front back := by
        intro last
        have asked : rxMatch regexp subject.text pos = doMatch regexp subject.text (len front) := by
          unfold rxMatch
          rw [resolved]
        rw [answered_strIndex regexp subject.short resolved split, asked, answered_doMatch,
          mapped_eq_iff, split]
        exact eq_comm
      exact ⟨fun agrees => (each none).mp (agrees none), fun unseen last => (each last).mpr unseen⟩
    rw [agrees]
    constructor
    · intro unseen front' back' split' same
      have long' : len front' = len front := by
        rw [long]
        exact (Option.some.inj same).symm
      have cut' : splitAt subject.text (len front) = some (front', back') :=
        splitAt_iff.mpr ⟨split', long'⟩
      rw [long, cut] at cut'
      cases cut'
      exact unseen
    · intro unseen
      exact unseen front back split (by rw [long])

/-! ## What a pattern asks about the text before it -/

/-- A piece that asks about the text before it: an anchor to the start of a line, of the text or of
the search, a word boundary, a look-behind. -/
def Piece.looksBehind : Piece → Bool
  | .text written => written = ['^']
  | .escape letter false _ => letter ∈ "AbBG<>".toList
  | .open opening => "(?<=".toList <+: opening || "(?<!".toList <+: opening
  | _ => false

/-- A source some piece of which asks about the text before it. -/
def LooksBehind (source : Text) (options : BitVec 64) : Prop :=
  ∃ names captures hasCalls pieces,
    scan source (hasOption options extendedBit) = .ok (names, captures, hasCalls) ∧
    (Pieces.new source (hasOption options extendedBit) captures).readAll (source.length + 1) =
      some pieces ∧
    ∃ piece ∈ pieces, piece.1.looksBehind = true

/-- How the engine tries a pattern at a place: told the text before it and from it on, whether the
search began there and what the search has spent, it answers the match, or what is spent by then. -/
abbrev Tries := Text → Text → Bool → Nat → Except String (Captures ⊕ Nat)

/-- A search, place by place. -/
def search (tries : Tries) : Text → Bool → Nat → Text → Except String (Option Captures)
  | [], first, spent, before =>
    match tries before [] first spent with
    | .error reason => .error reason
    | .ok (.inl captures) => .ok (some captures)
    | .ok (.inr _) => .ok none
  | c :: rest, first, spent, before =>
    match tries before (c :: rest) first spent with
    | .error reason => .error reason
    | .ok (.inl captures) => .ok (some captures)
    | .ok (.inr spent) => search tries rest false spent (before ++ [c])

/-- The spans of a match in a text with more before it. -/
def Captures.shift (captures : Captures) (more : Nat) : Captures where
  whole := (captures.whole.1 + more, captures.whole.2 + more)
  others := captures.others.map fun span => span.map fun span => (span.1 + more, span.2 + more)

/-- A match, or what was spent, in a text with more before it. -/
def shiftTry (more : Nat) : Except String (Captures ⊕ Nat) → Except String (Captures ⊕ Nat) :=
  Except.map (Sum.map (·.shift more) id)

/-- What the engine is documented to do for a pattern. -/
structure Documented (regexp : RegexpState) (tries : Tries) : Prop where
  /-- A search tries one place after another. -/
  searches : ∀ front back,
    regexp.capturesFromPos (front ++ back) (len front) = search tries back true 0 front
  /-- Where no piece asks about the text before it, no try depends on it. -/
  blind : ¬LooksBehind regexp.source regexp.options → ∀ before after first spent,
    tries before after first spent = shiftTry (len before) (tries [] after first spent)

/-- Spans moved twice. -/
theorem shiftTry_shiftTry (more most : Nat) (tried : Except String (Captures ⊕ Nat)) :
    shiftTry more (shiftTry most tried) = shiftTry (most + more) tried := by
  have twice : ∀ captures : Captures,
      (captures.shift most).shift more = captures.shift (most + more) := by
    intro captures
    simp only [Captures.shift, Nat.add_assoc, List.map_map, Function.comp_def, Option.map_map]
  rcases tried with reason | captures | spent
  · rfl
  · exact congrArg (fun moved => Except.ok (Sum.inl moved)) (twice captures)
  · rfl

/-- A search that no try of depends on the text before finds the same with more before. -/
theorem search_append {tries : Tries}
    (blind : ∀ before after first spent,
      tries before after first spent = shiftTry (len before) (tries [] after first spent))
    (front after : Text) (first : Bool) (spent : Nat) (before : Text) :
    search tries after first spent (front ++ before) =
      (search tries after first spent before).map fun found => found.map (·.shift (len front)) := by
  have tried : ∀ before after first spent, tries (front ++ before) after first spent =
      shiftTry (len front) (tries before after first spent) := by
    intro before after first spent
    rw [blind (front ++ before), blind before, shiftTry_shiftTry, len_append, Nat.add_comm]
  induction after generalizing first spent before with
  | nil =>
    unfold search
    rw [tried]
    rcases tries before [] first spent with reason | captures | spent
    · rfl
    · rfl
    · rfl
  | cons c rest ih =>
    unfold search
    rw [tried]
    rcases tries before (c :: rest) first spent with reason | captures | spent
    · rfl
    · rfl
    · show search tries rest false spent (front ++ before ++ [c]) = _
      rw [List.append_assoc]
      exact ih false spent (before ++ [c])

/-- The text before a place makes no difference to a pattern that does not ask about it. -/
theorem Documented.unseen {regexp : RegexpState} {tries : Tries} (known : Documented regexp tries)
    (blind : ¬LooksBehind regexp.source regexp.options) (front back : Text) :
    Unseen regexp front back := by
  have alone : regexp.capturesFromPos back 0 = search tries back true 0 [] :=
    known.searches [] back
  have moved := search_append (known.blind blind) front back true 0 []
  rw [List.append_nil] at moved
  unfold Unseen firstFrom
  rw [known.searches front back, moved, alone]
  rcases search tries back true 0 [] with reason | found
  · rfl
  · cases found with
    | none => rfl
    | some captures => rfl

/-- What a search finds lies within the text, where each try's match does. -/
theorem search_within {tries : Tries}
    (inside : ∀ before after first spent captures,
      tries before after first spent = .ok (.inl captures) →
        captures.whole.1 ≤ len before + len after)
    {after : Text} {first : Bool} {spent : Nat} {before : Text} {captures : Captures}
    (found : search tries after first spent before = .ok (some captures)) :
    captures.whole.1 ≤ len before + len after := by
  induction after generalizing first spent before with
  | nil =>
    unfold search at found
    cases tried : tries before [] first spent with
    | error reason =>
      rw [tried] at found
      cases found
    | ok answer =>
      rw [tried] at found
      cases answer with
      | inl captures' =>
        cases found
        exact inside before [] first spent captures tried
      | inr spent => cases found
  | cons c rest ih =>
    unfold search at found
    cases tried : tries before (c :: rest) first spent with
    | error reason =>
      rw [tried] at found
      cases found
    | ok answer =>
      rw [tried] at found
      cases answer with
      | inl captures' =>
        cases found
        exact inside before (c :: rest) first spent captures tried
      | inr spent =>
        have later := ih found
        simp only [len_append, len_cons, len_nil] at later ⊢
        omega

/-- The engine that searches by `tries`. -/
def RegexpState.ofTries (tries : Tries)
    (inside : ∀ before after first spent captures,
      tries before after first spent = .ok (.inl captures) →
        captures.whole.1 ≤ len before + len after)
    (source : Text) (options : BitVec 64) : RegexpState where
  capturesFromPos subject pos :=
    match splitAt subject pos with
    | some (front, back) => search tries back true 0 front
    | none => .ok none
  «within» := by
    intro subject pos captures found
    split at found
    · rename_i front back cut
      obtain ⟨rfl, -⟩ := splitAt_iff.mp cut
      rw [len_append]
      exact search_within inside found
    · cases found
  source := source
  options := options
  names := []

/-- An engine that searches by `tries` does so from any place. -/
theorem RegexpState.ofTries_searches {tries : Tries}
    {inside : ∀ before after first spent captures,
      tries before after first spent = .ok (.inl captures) →
        captures.whole.1 ≤ len before + len after}
    {source : Text} {options : BitVec 64} (front back : Text) :
    (RegexpState.ofTries tries inside source options).capturesFromPos (front ++ back) (len front) =
      search tries back true 0 front := by
  have cut : splitAt (front ++ back) (len front) = some (front, back) :=
    splitAt_iff.mpr ⟨rfl, rfl⟩
  show (match splitAt (front ++ back) (len front) with
    | some (front, back) => search tries back true 0 front
    | none => .ok none) = _
  rw [cut]

/-- A try that matches the empty text, at the start of the text alone. -/
def triesStart : Tries := fun before _ _ spent =>
  .ok (if before = [] then .inl ⟨(0, 0), []⟩ else .inr spent)

/-- A match at the start of the text lies within it. -/
theorem triesStart_inside (before after : Text) (first : Bool) (spent : Nat) (captures : Captures)
    (tried : triesStart before after first spent = .ok (.inl captures)) :
    captures.whole.1 ≤ len before + len after := by
  unfold triesStart at tried
  split at tried
  · cases tried
    exact Nat.zero_le _
  · cases tried

/-- The start of the text is not found behind it. -/
theorem search_triesStart {before : Text} (behind : before ≠ []) (after : Text) (first : Bool)
    (spent : Nat) : search triesStart after first spent before = .ok none := by
  induction after generalizing first spent before with
  | nil =>
    unfold search triesStart
    rw [if_neg behind]
  | cons c rest ih =>
    unfold search triesStart
    rw [if_neg behind]
    exact ih (List.append_ne_nil_of_left_ne_nil behind _) false spent

/-- `String#index` agrees with `Regexp#match`, whatever an engine that does what it is documented to
finds, exactly where the position is out of range or resolves to the start, or no piece of the
pattern asks about the text before it. -/
theorem strIndex_agrees_iff (source : Text) (options : BitVec 64) (subject : Subject) (pos : Int) :
    (∀ regexp tries, regexp.source = source → regexp.options = options →
      Documented regexp tries → Agrees regexp subject.text pos) ↔
      resolvePos subject.text pos = none ∨ resolvePos subject.text pos = some 0 ∨
        ¬LooksBehind source options := by
  constructor
  · intro agrees
    by_cases looks : LooksBehind source options
    · cases resolved : resolvePos subject.text pos with
      | none => exact .inl rfl
      | some start =>
        refine .inr (.inl (congrArg some ?_))
        obtain ⟨front, back, cut⟩ := splitAt_resolvePos resolved
        obtain ⟨split, long⟩ := splitAt_iff.mp cut
        refine Decidable.byContradiction fun further => ?_
        -- The engine that matches at the start of the text alone is not known not to look behind.
        let regexp := RegexpState.ofTries triesStart triesStart_inside source options
        have known : Documented regexp triesStart :=
          ⟨RegexpState.ofTries_searches, fun blind => absurd looks blind⟩
        have unseen := (agrees_iff_unseen regexp subject pos).mp
          (agrees regexp triesStart rfl rfl known) front back split (by rw [resolved, long])
        have behind : front ≠ [] := by
          rintro rfl
          exact further long.symm
        have alone : regexp.capturesFromPos back 0 = search triesStart back true 0 [] :=
          known.searches [] back
        have found : search triesStart back true 0 [] = .ok (some ⟨(0, 0), []⟩) := by
          cases back with
          | nil => rfl
          | cons c rest => rfl
        unfold Unseen firstFrom at unseen
        rw [known.searches front back, search_triesStart behind, alone, found] at unseen
        cases unseen
    · exact .inr (.inr looks)
  · rintro condition regexp tries rfl rfl known
    refine (agrees_iff_unseen regexp subject pos).mpr fun front back split resolved => ?_
    rcases condition with out | start | blind
    · rw [out] at resolved
      cases resolved
    · -- Nothing stands before the start.
      have none : front = [] := by
        rw [start, Option.some.injEq] at resolved
        refine Decidable.byContradiction fun filled => ?_
        have long := len_pos filled
        omega
      subst none
      unfold Unseen
      show firstFrom regexp back 0 = _
      rcases firstFrom regexp back 0 with reason | found
      · rfl
      · cases found with
        | none => rfl
        | some place => rfl
    · exact known.unseen blind front back

/-- A try of the pattern `a`, or of `\Aa`, which matches at the start of the text alone. -/
def triesA (anchored : Bool) : Tries := fun before after _ spent =>
  .ok (if after.head? = some 'a' ∧ (anchored = true → before = []) then
    .inl ⟨(len before, len before + 1), []⟩ else .inr spent)

/-- A match of `a` lies within the text. -/
theorem triesA_inside (anchored : Bool) (before after : Text) (first : Bool) (spent : Nat)
    (captures : Captures) (tried : triesA anchored before after first spent = .ok (.inl captures)) :
    captures.whole.1 ≤ len before + len after := by
  unfold triesA at tried
  split at tried
  · cases tried
    exact Nat.le_add_right _ _
  · cases tried

/-- The engine's search for `a`. -/
def literal : RegexpState := .ofTries (triesA false) (triesA_inside false) ['a'] 0

/-- The engine's search for `\Aa`. -/
def anchored : RegexpState := .ofTries (triesA true) (triesA_inside true) "\\Aa".toList 0

/-- The search for `a` does as is documented. -/
theorem literal_documented : Documented literal (triesA false) := by
  refine ⟨RegexpState.ofTries_searches, fun _ before after first spent => ?_⟩
  unfold triesA
  by_cases here : after.head? = some 'a'
  · simp [here, shiftTry, Except.map, Captures.shift, Nat.add_comm]
  · simp [here, shiftTry, Except.map]

/-- No piece of `a` asks about the text before it. -/
theorem not_looksBehind_literal : ¬LooksBehind ['a'] 0 := by
  rintro ⟨names, captures, hasCalls, pieces, scanned, read, piece, mem, looks⟩
  cases scanned
  cases read
  cases List.mem_singleton.mp mem
  cases looks

/-- `"ba".index(/a/, 1)` is where `/a/.match("ba", 1)` begins. -/
theorem strIndex_agrees_iff_literal : Agrees literal "ba".toList 1 :=
  (strIndex_agrees_iff ['a'] 0 ⟨"ba".toList, by decide⟩ 1).mpr
    (.inr (.inr not_looksBehind_literal)) literal (triesA false) rfl rfl literal_documented

/-- A piece of `\Aa` asks about the text before it. -/
theorem looksBehind_anchored : LooksBehind "\\Aa".toList 0 :=
  ⟨[], 0, false, [(.escape 'A' false .default, false), (.text ['a'], false)], rfl, rfl, _,
    List.mem_cons_self, rfl⟩

/-- Cut off from the text before it, a place in its middle passes for its start. -/
theorem strIndex_disagrees :
    Documented anchored (triesA true) ∧ ¬Agrees anchored "ba".toList 1 := by
  refine ⟨⟨RegexpState.ofTries_searches, fun blind => absurd looksBehind_anchored blind⟩, ?_⟩
  intro agrees
  have same := agrees none
  have resolved : resolvePos "ba".toList 1 = some (len ['b']) := by decide
  have indexed : answered (strIndex anchored "ba".toList 1 none) = .ok (some 1) := by
    rw [answered_strIndex anchored (by decide) resolved rfl]
    rfl
  have matched : answered (rxMatch anchored "ba".toList 1 none) = .ok none := by
    unfold rxMatch
    rw [resolved]
    rfl
  rw [indexed, matched] at same
  injection same with same
  cases same

end Kobako.Regexp
