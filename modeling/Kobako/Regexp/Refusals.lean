import Kobako.Regexp.Places

/-!
# Refusals

Which pieces the rewriter refuses, told by the piece and by what is known of the whole source, and
which one it cannot slice: a reference `\k` whose name begins with no ASCII character. Every other
piece is pushed, and what it leaves of the places kept is said once for all of them.
-/

namespace Kobako.Regexp

open Text

/-! ## How a translation stops -/

/-- How an answer comes out: a panic just as `panics` says, else a refusal just as `refuses` says,
else an answer that `good` holds of. -/
def Stops {α : Type} (answer : Except Stop α) (panics refuses : Prop) (good : α → Prop) : Prop :=
  match answer with
  | .error .panicked => panics
  | .error (.refused _) => ¬panics ∧ refuses
  | .ok a => ¬panics ∧ ¬refuses ∧ good a

namespace Stops

variable {α β : Type} {panics refuses : Prop} {good : α → Prop}

theorem ok {a : α} (calm : ¬panics) (allowed : ¬refuses) (holds : good a) :
    Stops (.ok a) panics refuses good := ⟨calm, allowed, holds⟩

theorem refused {reason : String} (calm : ¬panics) (forbidden : refuses) :
    Stops (.error (.refused reason) : Except Stop α) panics refuses good := ⟨calm, forbidden⟩

/-- One step, then another made of its answer. -/
theorem bind {first : Except Stop α} {next : α → Except Stop β} {later laterRefuses : Prop}
    {after : β → Prop} (start : Stops first panics refuses good)
    (onward : ∀ a, good a → Stops (next a) later laterRefuses after) :
    Stops (first >>= next) (panics ∨ ¬refuses ∧ later) (refuses ∨ laterRefuses) after := by
  match first, start with
  | .error .panicked, holds => exact .inl holds
  | .error (.refused _), ⟨calm, forbidden⟩ =>
    refine ⟨?_, .inl forbidden⟩
    rintro (holds | ⟨allowed, -⟩)
    · exact calm holds
    · exact allowed forbidden
  | .ok a, ⟨calm, allowed, holds⟩ =>
    rw [ok_bind]
    have rest := onward a holds
    match next a, rest with
    | .error .panicked, holds => exact .inr ⟨allowed, holds⟩
    | .error (.refused _), ⟨quiet, forbidden⟩ =>
      refine ⟨?_, .inr forbidden⟩
      rintro (holds | ⟨-, holds⟩)
      · exact calm holds
      · exact quiet holds
    | .ok b, ⟨quiet, free, holds⟩ =>
      refine ⟨?_, ?_, holds⟩
      · rintro (holds | ⟨-, holds⟩)
        · exact calm holds
        · exact quiet holds
      · rintro (forbidden | forbidden)
        · exact allowed forbidden
        · exact free forbidden

/-- The same end, said in other words. -/
theorem imp {answer : Except Stop α} {panics' refuses' : Prop} {good' : α → Prop}
    (stops : Stops answer panics refuses good) (same : panics ↔ panics')
    (forbids : ¬panics → (refuses ↔ refuses')) (implies : ∀ a, good a → good' a) :
    Stops answer panics' refuses' good' := by
  match answer, stops with
  | .error .panicked, holds => exact same.mp holds
  | .error (.refused _), ⟨calm, forbidden⟩ =>
    exact ⟨fun holds => calm (same.mpr holds), (forbids calm).mp forbidden⟩
  | .ok a, ⟨calm, allowed, holds⟩ =>
    exact ⟨fun holds => calm (same.mpr holds), fun forbidden => allowed ((forbids calm).mpr forbidden),
      implies a holds⟩

/-- One step, then another that always answers. -/
theorem bindOk {first : Except Stop α} {next : α → Except Stop β} {after : β → Prop}
    (start : Stops first panics refuses good)
    (onward : ∀ a, good a → ∃ b, next a = .ok b ∧ after b) :
    Stops (first >>= next) panics refuses after := by
  match first, start with
  | .error .panicked, holds => exact holds
  | .error (.refused _), stopped => exact stopped
  | .ok a, ⟨calm, allowed, holds⟩ =>
    obtain ⟨b, answered, holds⟩ := onward a holds
    rw [ok_bind, answered]
    exact ⟨calm, allowed, holds⟩

/-- What refuses by a reason never panics. -/
theorem refusing (answer : Except String α) :
    Stops (refusing answer) False (Fails answer) fun a => answer = .ok a := by
  cases answer with
  | error reason => exact ⟨not_false, reason, rfl⟩
  | ok a =>
    refine ⟨not_false, ?_, rfl⟩
    rintro ⟨reason, fails⟩
    cases fails

/-- A step that always answers. -/
theorem always {answer : Except Stop α} (answers : ∃ a, answer = .ok a ∧ good a) :
    Stops answer False False good := by
  obtain ⟨a, rfl, holds⟩ := answers
  exact ⟨not_false, not_false, holds⟩

end Stops

/-! ## Which pieces are refused -/

section Refuses

variable (build : Build) (names : List (Text × List Nat)) (hasCalls : Bool)

/-- A reference with a level that is refused. -/
def LevelRefuses (name : Text) : Prop :=
  (hasCalls = true ∨ (findSharedNumbers names name).isSome = true) ∨
    names ≠ [] ∧ isGroupNumber name = true

/-- A reference or a call by name that is refused. -/
def NameRefuses (kind : Char) (name : Text) : Prop :=
  names ≠ [] ∧ isGroupNumber name = true ∨
    kind = 'g' ∧ (findSharedNumbers names name).isSome = true

/-- A piece that is refused, as the rewriter knows the source. -/
def Refuses (folding : Bool) : Piece → Prop
  | .escape letter true charset => Fails (shorthand build letter true charset)
  | .escape letter false charset =>
    if letter = 'b' ∨ letter = 'B' then Fails (wordBoundary build letter charset)
    else Fails (shorthand build letter false charset)
  | .codePoints body _ => ∃ hex ∈ Rewriter.splitWhitespace body, fromHex hex = none
  | .posixBracket name negated charset => Fails (posixBracket build name negated charset folding)
  | .interval lower upper => Fails (readInterval lower upper)
  | .plainGroup inNegativeLookBehind => inNegativeLookBehind = true ∧ names = []
  | .numberedCondition _ | .numberedReference _ => names ≠ []
  | .namedReference _ kind name =>
    match Rewriter.levelOf kind name with
    | .ok (some (name, _)) => LevelRefuses names hasCalls name
    | .ok none => NameRefuses names kind name
    | .error _ => False
  | .refused _ => True
  | _ => False

/-- A reference `\k` whose name is empty or begins beyond ASCII, so that no character stands in its
first byte. -/
def BareLevel : Piece → Prop
  | .namedReference _ kind name => kind = 'k' ∧ name.head?.all (!isAscii ·) = true
  | _ => False

end Refuses

theorem utf8Size_beyond {c : Char} (beyond : isAscii c = false) : 1 < c.utf8Size := by
  have large : ¬c.val < 128 := by simpa [isAscii] using beyond
  have several : c.utf8Size ≠ 1 := by
    rw [ne_eq, Char.utf8Size_eq_one_iff, UInt32.le_iff_toNat_le]
    rw [UInt32.lt_iff_toNat_lt] at large
    change ¬c.val.toNat ≤ 127
    change ¬c.val.toNat < 128 at large
    omega
  have some := Char.utf8Size_pos c
  omega

/-- The level of a name is read unless no character stands in its first byte. -/
theorem splitLevel_stops (name : Text) :
    Stops (splitLevel name) (name.head?.all (!isAscii ·) = true) False fun _ => True := by
  cases name with
  | nil => exact rfl
  | cons c rest =>
    cases ascii : isAscii c with
    | false =>
      have none : sliceFrom (c :: rest) 1 = none := by
        have large := utf8Size_beyond ascii
        cases cut : Text.splitAt (c :: rest) 1 with
        | none => rw [sliceFrom, cut]; rfl
        | some parts =>
          obtain ⟨front, back⟩ := parts
          obtain ⟨split, long⟩ := splitAt_iff.mp cut
          cases front with
          | nil => cases long
          | cons first more =>
            cases split
            rw [len_cons] at long
            omega
      unfold splitLevel
      rw [none]
      simp [Stops, sliced, bind, Except.bind, ascii]
    | true =>
      have short := utf8Size_ascii ascii
      have calm : ¬(c :: rest).head?.all (!isAscii ·) = true := by simp [ascii]
      unfold splitLevel
      rw [sliceFrom_one short, sliced_some, ok_bind]
      split
      · exact ⟨calm, not_false, trivial⟩
      · rename_i place found
        obtain ⟨front, sign, back, split, long, wanted⟩ := rfind_some found
        have cut : Text.splitAt (c :: rest) (place + 1) = some (c :: front, sign :: back) := by
          refine splitAt_iff.mpr ⟨by rw [split]; rfl, ?_⟩
          rw [len_cons, short, long]
          omega
        have small : sign.utf8Size = 1 := by
          have plus : sign = '+' ∨ sign = '-' := by simpa using wanted
          rcases plus with rfl | rfl <;> rfl
        rw [cut, sliced_some, ok_bind]
        dsimp only
        rw [sliceFrom_one small, sliced_some, ok_bind]
        split
        · exact ⟨calm, not_false, trivial⟩
        · split
          · exact ⟨calm, not_false, trivial⟩
          · exact ⟨calm, not_false, trivial⟩

/-! ## Pushing a piece -/

/-- Every name has a number. -/
def Numbered (names : List (Text × List Nat)) : Prop := ∀ entry ∈ names, entry.2 ≠ []

/-- What a piece other than a quantifier writes: at the end of the output, and marked in the class
that folds or not. -/
def Appended (r r' : Rewriter) : Prop :=
  Kept r r' ∧ (∃ text, r'.out = r.out ++ text) ∧
    (r'.foldedClass = r.foldedClass ∨ r'.foldedClass = r.foldedClass.map fun open_ =>
      { open_ with unfoldedClasses := open_.unfoldedClasses ++ [(len r.out, len r'.out)] })

/-- The part a piece plays. -/
def Piece.role : Piece → Role
  | .comment _ | .classText _ | .classClose | .posixBracket _ _ _ => .inert
  | .escape _ inClass _ | .char _ inClass | .codePoints _ inClass | .property _ _ _ inClass =>
    .ofText inClass
  | .quantifier _ | .interval _ _ => .repeat
  | .close => .closing
  | .options _ isScoped => if isScoped then .opening false else .boundary
  | .open opener => .opening
      (["(?=".toList, "(?!".toList, "(?<=".toList, "(?<!".toList].any (· <+: opener))
  | .namedGroup _ _ | .plainGroup _ | .numberedCondition _ | .namedCondition _ _ => .opening false
  | .text written => if written = ['|'] then .boundary else .unit
  | _ => .unit

theorem Appended.push (r : Rewriter) (text : Text) : Appended r (r.push text) :=
  ⟨.push r text, ⟨text, rfl⟩, .inl rfl⟩

/-- A stretch is kept from folding where it was written last. -/
theorem keepUnfoldedIf_total (r : Rewriter) (asks inClass : Bool) (text : Text) :
    ∃ r', (r.push text).keepUnfoldedIf asks (len r.out) inClass = .ok r' ∧ Appended r r' := by
  unfold Rewriter.keepUnfoldedIf Rewriter.keepUnfolded
  cases asks with
  | false => exact ⟨_, rfl, .push r text⟩
  | true =>
    rw [if_pos rfl]
    split
    · exact ⟨_, rfl, .push r text⟩
    · cases inClass with
      | true =>
        exact ⟨_, rfl, ⟨rfl, rfl, rfl, rfl, rfl, rfl, rfl⟩, ⟨text, rfl⟩, .inr rfl⟩
      | false =>
        have cut : Text.splitAt (r.push text).out (len r.out) = some (r.out, text) :=
          splitAt_append _ _
        rw [cut]
        exact ⟨_, rfl, ⟨rfl, rfl, rfl, rfl, rfl, rfl, rfl⟩,
          ⟨"(?-i:".toList ++ text ++ [')'], by simp only [List.append_assoc]⟩, .inl rfl⟩

theorem pushCodePoints_stops (words : List Text) (r : Rewriter) :
    Stops (r.pushCodePoints words) False (∃ hex ∈ words, fromHex hex = none)
      fun r' => ∃ text, r' = r.push text := by
  induction words generalizing r with
  | nil =>
    have same : r = r.push [] := by rw [Rewriter.push, List.append_nil]
    exact ⟨not_false, by simp, [], same⟩
  | cons hex rest ih =>
    unfold Rewriter.pushCodePoints
    cases value : fromHex hex with
    | none => exact ⟨not_false, hex, List.mem_cons_self, value⟩
    | some number =>
      refine (ih (r.push (codePointText number))).imp Iff.rfl ?_ ?_
      · intro _
        simp [value]
      · rintro r' ⟨text, rfl⟩
        refine ⟨codePointText number ++ text, ?_⟩
        simp only [Rewriter.push, List.append_assoc]

theorem levelOf_stops (kind : Char) (name : Text) :
    Stops (Rewriter.levelOf kind name) (kind = 'k' ∧ name.head?.all (!isAscii ·) = true) False
      fun _ => True := by
  unfold Rewriter.levelOf
  split
  · rename_i asked
    refine (splitLevel_stops name).imp ?_ (fun _ => Iff.rfl) fun _ holds => holds
    exact ⟨fun bare => ⟨asked, bare⟩, fun both => both.2⟩
  · rename_i other
    exact ⟨fun both => other both.1, not_false, trivial⟩

theorem pushLeveledReference_stops (r : Rewriter) (name : Text) (level : Int) :
    Stops (r.pushLeveledReference name level) False (LevelRefuses r.names r.hasCalls name)
      fun r' => ∃ text, r' = r.push text := by
  unfold Rewriter.pushLeveledReference LevelRefuses
  split
  · rename_i refused
    exact .refused not_false (.inl refused)
  · rename_i unshared
    split
    · rename_i refused
      exact .refused not_false (.inr refused)
    · rename_i unnumbered
      have allowed := not_or.mpr ⟨unshared, unnumbered⟩
      split
      · exact .ok not_false allowed ⟨_, rfl⟩
      · exact .ok not_false allowed ⟨_, rfl⟩

theorem pushNamedReference_stops (r : Rewriter) (text : Text) (kind : Char) (name : Text) :
    Stops (r.pushNamedReference text kind name) False (NameRefuses r.names kind name)
      fun r' => ∃ text, r' = r.push text := by
  unfold Rewriter.pushNamedReference NameRefuses
  split
  · rename_i refused
    exact .refused not_false (.inl refused)
  · rename_i unnumbered
    split
    · rename_i numbers found
      split
      · rename_i call
        exact .refused not_false (.inr ⟨call, by rw [found]; rfl⟩)
      · rename_i reference
        refine .ok not_false ?_ ⟨_, rfl⟩
        rintro (refused | ⟨call, -⟩)
        · exact unnumbered refused
        · exact reference call
    · rename_i unshared
      refine .ok not_false ?_ ⟨_, rfl⟩
      rintro (refused | ⟨-, shared⟩)
      · exact unnumbered refused
      · rw [unshared] at shared
        cases shared

/-- What a piece leaves the rewriter with. -/
def Pushed (r : Rewriter) (piece : Piece) (pushed : Role × Rewriter) : Prop :=
  pushed.1 = piece.role ∧
    (piece.role ≠ .repeat ∧ Appended r pushed.2 ∨ piece.role = .repeat ∧ Requantified r pushed.2)

theorem Pushed.plain {r : Rewriter} {piece : Piece} {role : Role} (text : Text)
    (same : piece.role = role) (other : role ≠ .repeat) : Pushed r piece (role, r.push text) :=
  ⟨same.symm, .inl ⟨same ▸ other, .push r text⟩⟩

/-- An escape is pushed unless its shorthand or boundary has no spelling. -/
theorem escape_stops (build : Build) (r : Rewriter) (letter : Char) (inClass : Bool)
    (charset : Charset) :
    Stops (r.pushPiece build (.escape letter inClass charset)) False
      (Refuses build r.names r.hasCalls r.folding (.escape letter inClass charset))
      (Pushed r (.escape letter inClass charset)) := by
  have unfolds : ∀ {inClass : Bool} {spelled : Except String (Option Text)} (asks : Bool),
      Stops (refusing spelled >>= fun replacement =>
        ((r.push (replacement.getD ['\\', letter])).keepUnfoldedIf asks (len r.out) inClass))
        False (Fails spelled) (Appended r) := by
    intro inClass spelled asks
    refine Stops.bindOk (Stops.refusing _) ?_
    intro replacement _
    exact keepUnfoldedIf_total r asks inClass _
  cases inClass with
  | true =>
    refine Stops.bindOk (unfolds (isAsciiShorthand letter charset)) ?_
    intro r' appended
    exact ⟨_, rfl, rfl, .inl ⟨nofun, appended⟩⟩
  | false =>
    change Stops (if letter = 'b' ∨ letter = 'B' then _ else _) _ (if _ then _ else _) _
    split
    · refine Stops.bindOk (Stops.refusing _) ?_
      intro text _
      obtain ⟨r', kept, appended⟩ := keepUnfoldedIf_total r (charset = .ascii) false text
      rw [kept]
      exact ⟨_, rfl, rfl, .inl ⟨nofun, appended⟩⟩
    · refine Stops.bindOk (unfolds (isAsciiShorthand letter charset)) ?_
      intro r' appended
      exact ⟨_, rfl, rfl, .inl ⟨nofun, appended⟩⟩

/-- A named reference panics where its level stands in no whole character, and is refused as its
level or its name is. -/
theorem namedReference_stops (build : Build) (r : Rewriter) (text : Text) (kind : Char)
    (name : Text) :
    Stops (r.pushPiece build (.namedReference text kind name))
      (BareLevel (.namedReference text kind name))
      (Refuses build r.names r.hasCalls r.folding (.namedReference text kind name))
      (Pushed r (.namedReference text kind name)) := by
  have level := levelOf_stops kind name
  unfold Rewriter.pushPiece Refuses
  dsimp only
  cases read : Rewriter.levelOf kind name with
  | error stop =>
    rw [read] at level
    cases stop with
    | panicked => exact level
    | refused reason => exact absurd level.2 not_false
  | ok found =>
    rw [read] at level
    cases found with
    | some leveled =>
      rw [ok_bind]
      refine Stops.bindOk ((pushLeveledReference_stops r leveled.1 leveled.2).imp ?_ ?_
        fun r' pushed => pushed) ?_
      · exact (iff_false_intro level.1).symm
      · exact fun _ => Iff.rfl
      · rintro r' ⟨text, rfl⟩
        exact ⟨_, rfl, .plain _ rfl nofun⟩
    | none =>
      rw [ok_bind]
      refine Stops.bindOk ((pushNamedReference_stops r text kind name).imp ?_ ?_
        fun r' pushed => pushed) ?_
      · exact (iff_false_intro level.1).symm
      · exact fun _ => Iff.rfl
      · rintro r' ⟨text, rfl⟩
        exact ⟨_, rfl, .plain _ rfl nofun⟩

/-- A piece is pushed unless it is refused or no character stands in the first byte of its name. -/
theorem pushPiece_stops (build : Build) {r : Rewriter} (placed : Placed r)
    (numbered : Numbered r.names) (piece : Piece) :
    Stops (r.pushPiece build piece) (BareLevel piece)
      (Refuses build r.names r.hasCalls r.folding piece) (Pushed r piece) := by
  have roleOfText : ∀ inClass, Role.ofText inClass ≠ .repeat := by decide
  cases piece with
  | comment text => exact .ok nofun nofun (.plain _ rfl nofun)
  | classText text => exact .ok nofun nofun (.plain _ rfl nofun)
  | classClose => exact .ok nofun nofun (.plain _ rfl nofun)
  | escape letter inClass charset => exact escape_stops build r letter inClass charset
  | char value inClass => exact .ok nofun nofun (.plain _ rfl (roleOfText inClass))
  | codePoints body inClass =>
    refine Stops.bindOk (pushCodePoints_stops (Rewriter.splitWhitespace body) r) ?_
    rintro r' ⟨text, rfl⟩
    exact ⟨_, rfl, .plain _ rfl (roleOfText inClass)⟩
  | property text name negated inClass => exact .ok nofun nofun (.plain _ rfl (roleOfText inClass))
  | posixBracket name negated charset =>
    refine Stops.bindOk (Stops.refusing _) ?_
    intro text _
    obtain ⟨r', kept, appended⟩ := keepUnfoldedIf_total r
      (isUnfoldedPosixBracket name negated charset r.folding) true text
    rw [kept]
    exact ⟨_, rfl, rfl, .inl ⟨nofun, appended⟩⟩
  | quantifier text =>
    refine Stops.bindOk (Stops.always (pushQuantifier_total placed text)) ?_
    intro r' requantified
    exact ⟨_, rfl, rfl, .inr ⟨rfl, requantified⟩⟩
  | interval lower upper =>
    refine Stops.bindOk (Stops.refusing _) ?_
    intro quantity _
    obtain ⟨r', repeats, kept, folded, out⟩ := repeatUnit_total placed quantity
    rw [repeats]
    exact ⟨_, rfl, rfl, .inr ⟨rfl, { kept with }, folded, out⟩⟩
  | close => exact .ok nofun nofun ⟨rfl, .inl ⟨nofun, .rfl r, ⟨[], by simp⟩, .inl rfl⟩⟩
  | options letters isScoped =>
    cases isScoped with
    | true => exact .ok nofun nofun (.plain _ rfl nofun)
    | false =>
      refine .ok nofun nofun ⟨rfl, .inl ⟨nofun, ⟨rfl, rfl, rfl, rfl, rfl, rfl, ?_⟩, ⟨_, rfl⟩, .inl rfl⟩⟩
      dsimp only [Rewriter.push]
      cases r.groups with
      | nil => rfl
      | cons group outer => rfl
  | «open» text => exact .ok nofun nofun (.plain _ rfl nofun)
  | namedGroup text name => exact .ok nofun nofun (.plain _ rfl nofun)
  | plainGroup inNegativeLookBehind =>
    unfold Rewriter.pushPiece
    dsimp only
    split
    · rename_i refused
      exact .refused nofun ⟨refused.1, not_not.mp refused.2⟩
    · rename_i allowed
      refine .ok nofun ?_ (.plain _ rfl nofun)
      rintro ⟨negative, empty⟩
      exact allowed ⟨negative, not_not.mpr empty⟩
  | numberedCondition text =>
    unfold Rewriter.pushPiece
    dsimp only
    split
    · rename_i named
      exact .refused nofun named
    · rename_i unnamed
      exact .ok nofun unnamed (.plain _ rfl nofun)
  | namedCondition text name =>
    unfold Rewriter.pushPiece
    dsimp only
    split
    · rename_i key numbers found
      have filled := numbered _ (List.mem_of_find?_eq_some found)
      obtain ⟨number, rest, rfl⟩ := List.exists_cons_of_ne_nil filled
      exact .ok nofun nofun (.plain _ rfl nofun)
    · exact .ok nofun nofun (.plain _ rfl nofun)
  | text text =>
    refine .ok nofun nofun (.plain _ rfl ?_)
    split <;> nofun
  | classOpen text => exact .ok nofun nofun (.plain _ rfl nofun)
  | literalBrace => exact .ok nofun nofun (.plain _ rfl nofun)
  | numberedReference text =>
    unfold Rewriter.pushPiece
    dsimp only
    split
    · rename_i named
      exact .refused nofun named
    · rename_i unnamed
      exact .ok nofun unnamed (.plain _ rfl nofun)
  | namedReference text kind name => exact namedReference_stops build r text kind name
  | refused reason => exact .refused nofun trivial

end Kobako.Regexp
