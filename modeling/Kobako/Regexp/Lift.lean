import Kobako.Regexp.Grammar
import Kobako.Regexp.Rewriter

/-!
# Lifting a group out of a source

`Regexp#to_s` writes a source that is one group of options as the group's own text, under the
options the group sets. `regexp/render.rs` finds such a group with a scanner of its own, which knows
escapes and one level of classes and nothing else of what `Pieces` reads. Where it answers, the
options are read as `Pieces` reads them, and the group is the whole source where what `Pieces` says
it encloses is in balance as the scanner counts it.
-/

namespace Kobako.Regexp

open Text

/-! ## The scanner -/

/-- The option bit of a letter. -/
def optionBit (c : Char) : Option (BitVec 64) :=
  if c = 'i' then some ignoreCaseBit
  else if c = 'm' then some multilineBit
  else if c = 'x' then some extendedBit
  else none

/-- The first loop of `lift_inline_group`: the options enabled, those disabled, and the text behind
the colon. -/
def liftOptions : Text → Bool → BitVec 64 → BitVec 64 → Option (BitVec 64 × BitVec 64 × Text)
  | [], _, _, _ => none
  | c :: rest, inDisable, enabled, disabled =>
    if c = ':' then some (enabled, disabled, rest)
    else if c = '-' ∧ inDisable = false then liftOptions rest true enabled disabled
    else
      match optionBit c with
      | none => none
      | some bit =>
        if inDisable then liftOptions rest inDisable enabled (disabled ||| bit)
        else liftOptions rest inDisable (enabled ||| bit) disabled

/-- Where the second loop of `lift_inline_group` stands. It reads bytes, and passes over the one
behind a backslash; a character past ASCII is no mark in any of its bytes, so that it is read here
as one. -/
structure Scanner where
  /-- `depth`. -/
  depth : Int
  /-- `in_class`. -/
  inClass : Bool
  /-- Whether a backslash was read. -/
  escaped : Bool
deriving Repr, DecidableEq

namespace Scanner

/-- One character. -/
def step (s : Scanner) (c : Char) : Scanner :=
  if s.escaped then { s with escaped := false }
  else if c = '\\' then { s with escaped := true }
  else if c = '[' ∧ s.inClass = false then { s with inClass := true }
  else if c = ']' ∧ s.inClass = true then { s with inClass := false }
  else if c = '(' ∧ s.inClass = false then { s with depth := s.depth + 1 }
  else if c = ')' ∧ s.inClass = false then { s with depth := s.depth - 1 }
  else s

/-- A text. -/
def run (s : Scanner) (text : Text) : Scanner := text.foldl step s

/-- Behind the opening of a group, outside classes. -/
def inside : Scanner := ⟨1, false, false⟩

end Scanner

/-- The second loop of `lift_inline_group`: what stands before the closing that leaves no group
open, and what stands behind it. -/
def liftBody (s : Scanner) : Text → Option (Text × Text)
  | [] => none
  | c :: rest =>
    if (s.step c).depth = 0 then some ([], rest)
    else (liftBody (s.step c) rest).map fun found => (c :: found.1, found.2)

/-- `lift_inline_group`. -/
def liftInlineGroup (source : Text) : Option (BitVec 64 × BitVec 64 × Text) := do
  let options ← stripPrefix ['(', '?'] source
  let (enabled, disabled, rest) ← liftOptions options false 0 0
  let (body, behind) ← liftBody .inside rest
  if behind = [] then some (enabled, disabled, body) else none

/-! ## What `Pieces` reads -/

/-- The option bits of letters. -/
def letterBits : Text → BitVec 64
  | [] => 0
  | c :: rest => (optionBit c).getD 0 ||| letterBits rest

/-- The options letters set and those they unset, behind `-`. -/
def optionBits (letters : Text) : BitVec 64 × BitVec 64 :=
  let (on, off) := (splitOnce '-' letters).getD (letters, [])
  (letterBits on, letterBits off)

/-- The reading behind the closing of the group that is the `depth`th open one, if it closes within
so many pieces. -/
def Pieces.groupEnd (depth : Nat) : Nat → Pieces → Option Pieces
  | 0, _ => none
  | rounds + 1, p =>
    match p.next with
    | some (some (piece, after)) =>
      if piece = .close ∧ p.frames.length = depth then some after
      else groupEnd depth rounds after
    | _ => none

/-- A source read as a group that sets options and the reading behind its opening. -/
def Opens (source : Text) (extended : Bool) (captures : Nat) (letters : Text) (inner : Pieces) :
    Prop :=
  (Pieces.new source extended captures).next = some (some (.options letters true, inner))

/-- What a lifted group is: the source is read as one group that sets exactly these options, closes
at the source's last character and encloses this text. -/
def SpansWhole (source : Text) (extended : Bool) (captures : Nat) (enabled disabled : BitVec 64)
    (body : Text) : Prop :=
  ∃ letters inner after, Opens source extended captures letters inner ∧
    optionBits letters = (enabled, disabled) ∧ inner.rest = body ++ [')'] ∧
    inner.groupEnd inner.frames.length (source.length + 1) = some after ∧ after.rest = []

/-- What the source's first group encloses, as `Pieces` reads it, is in balance as the scanner
counts it: as many parentheses opened as closed, no class left open and no escape begun. -/
def EnclosesBalance (source : Text) (extended : Bool) (captures : Nat) : Prop :=
  ∃ letters inner after enclosed, Opens source extended captures letters inner ∧
    inner.groupEnd inner.frames.length (source.length + 1) = some after ∧
    inner.rest = enclosed ++ ')' :: after.rest ∧ Scanner.run .inside enclosed = .inside

/-! ## The options -/

/-- Letters a group of options is lifted with. -/
def LiftLetters (letters : Text) : Prop := ∀ c ∈ letters, c ∈ ['i', 'm', 'x', '-']

variable {c : Char} {letters : Text} {s : Scanner}

/-- A letter before any `-` sets its option. -/
theorem optionBits_cons (other : c ≠ '-') (letters : Text) :
    optionBits (c :: letters) =
      ((optionBit c).getD 0 ||| (optionBits letters).1, (optionBits letters).2) := by
  have split : splitOnce '-' (c :: letters) =
      (splitOnce '-' letters).map fun cut => (c :: cut.1, cut.2) := by
    rw [splitOnce, if_neg other]
  unfold optionBits
  rw [split]
  cases splitOnce '-' letters with
  | none => rfl
  | some cut => rfl

/-- A letter with an option bit is one of three. -/
theorem optionBit_some {bit : BitVec 64} (named : optionBit c = some bit) :
    c ∈ ['i', 'm', 'x'] := by
  by_cases known : c ∈ ['i', 'm', 'x']
  · exact known
  · simp only [List.mem_cons, List.not_mem_nil, or_false, not_or] at known
    simp [optionBit, known] at named

/-- Behind `-`, each letter up to the colon is disabled. -/
theorem liftOptions_disabling {text rest : Text} {enabled disabled on off : BitVec 64}
    (read : liftOptions text true enabled disabled = some (on, off, rest)) :
    ∃ letters, text = letters ++ ':' :: rest ∧ (∀ c ∈ letters, c ∈ ['i', 'm', 'x']) ∧
      on = enabled ∧ off = disabled ||| letterBits letters := by
  induction text generalizing disabled with
  | nil => cases read
  | cons c text ih =>
    unfold liftOptions at read
    by_cases colon : c = ':'
    · rw [if_pos colon] at read
      cases read
      exact ⟨[], by rw [colon]; rfl, by simp, rfl, by simp [letterBits]⟩
    · rw [if_neg colon, if_neg (by simp)] at read
      cases named : optionBit c with
      | none =>
        rw [named] at read
        cases read
      | some bit =>
        rw [named] at read
        obtain ⟨letters, split, known, same, bits⟩ := ih read
        refine ⟨c :: letters, by rw [split]; rfl, ?_, same, ?_⟩
        · intro d member
          cases List.mem_cons.mp member with
          | inl first => exact first ▸ optionBit_some named
          | inr later => exact known d later
        · rw [bits, letterBits, named, Option.getD_some, BitVec.or_assoc]

/-- The options read are those the letters up to the colon set and unset. -/
theorem liftOptions_spec {text rest : Text} {enabled on off : BitVec 64}
    (read : liftOptions text false enabled 0 = some (on, off, rest)) :
    ∃ letters, text = letters ++ ':' :: rest ∧ LiftLetters letters ∧
      (on, off) = (enabled ||| (optionBits letters).1, (optionBits letters).2) := by
  induction text generalizing enabled with
  | nil => cases read
  | cons c text ih =>
    unfold liftOptions at read
    by_cases colon : c = ':'
    · rw [if_pos colon] at read
      cases read
      exact ⟨[], by rw [colon]; rfl, by simp [LiftLetters], by simp [optionBits, splitOnce, letterBits]⟩
    · rw [if_neg colon] at read
      by_cases dash : c = '-'
      · rw [if_pos ⟨dash, rfl⟩] at read
        obtain ⟨letters, split, known, same, bits⟩ := liftOptions_disabling read
        refine ⟨c :: letters, by rw [split]; rfl, ?_, ?_⟩
        · intro d member
          cases List.mem_cons.mp member with
          | inl first => rw [first, dash]; decide
          | inr later => exact List.mem_append_left ['-'] (known d later)
        · subst dash
          rw [same, bits]
          simp [optionBits, splitOnce, letterBits]
      · rw [if_neg (by simp [dash])] at read
        cases named : optionBit c with
        | none =>
          rw [named] at read
          cases read
        | some bit =>
          rw [named] at read
          obtain ⟨letters, split, known, bits⟩ := ih read
          refine ⟨c :: letters, by rw [split]; rfl, ?_, ?_⟩
          · intro d member
            cases List.mem_cons.mp member with
            | inl first => exact first ▸ List.mem_append_left ['-'] (optionBit_some named)
            | inr later => exact known d later
          · rw [bits, optionBits_cons dash, named, Option.getD_some, BitVec.or_assoc]

/-- Text that cannot be split at a character does not hold it. -/
theorem not_mem_of_splitOnce {wanted : Char} {text : Text} (whole : splitOnce wanted text = none) :
    wanted ∉ text := by
  induction text with
  | nil => simp
  | cons c rest ih =>
    unfold splitOnce at whole
    by_cases here : c = wanted
    · rw [if_pos here] at whole
      cases whole
    · rw [if_neg here, Option.map_eq_none_iff] at whole
      simp only [List.mem_cons, not_or]
      exact ⟨fun same => here same.symm, ih whole⟩

/-- Letters a group is lifted with are options `Pieces` knows. -/
theorem LiftLetters.known (lifted : LiftLetters letters) :
    areKnownOptions letters = true := by
  have on : ∀ c ∈ ['i', 'm', 'x', '-'], c ≠ '-' → c ∈ "imxdau".toList :=
    forall_mem (by decide)
  have off : ∀ c ∈ ['i', 'm', 'x', '-'], c ∈ "imx-".toList :=
    forall_mem (by decide)
  have setting : ∀ front : Text, (∀ c ∈ front, c ∈ letters) → '-' ∉ front →
      front.all (· ∈ "imxdau".toList) = true := by
    intro front among absent
    apply List.all_eq_true.mpr
    intro c member
    have other : c ≠ '-' := fun same => absent (same ▸ member)
    exact decide_eq_true (on c (lifted c (among c member)) other)
  unfold areKnownOptions
  cases cut : splitOnce '-' letters with
  | none =>
    have all := setting letters (fun _ member => member) (not_mem_of_splitOnce cut)
    rw [Option.getD_none]
    simpa using all
  | some parts =>
    obtain ⟨front, back⟩ := parts
    obtain ⟨split, absent⟩ := splitOnce_some cut
    have all := setting front (fun c member => by rw [split]; simp [member]) absent
    have rest : back.all (· ∈ "imx-".toList) = true := by
      apply List.all_eq_true.mpr
      intro c member
      exact decide_eq_true (off c (lifted c (by rw [split]; simp [member])))
    rw [Option.getD_some]
    exact Bool.and_eq_true_iff.mpr ⟨all, rest⟩

/-- The letters of an option group are read up to its colon. -/
theorem readOptionLetters_lifted {letters rest : Text} (lifted : LiftLetters letters) :
    readOptionLetters (letters ++ ':' :: rest) = some (some letters) := by
  have quiet : ∀ c ∈ ['i', 'm', 'x', '-'], (!c.isAlphanum && decide (c ≠ '-')) = false :=
    forall_mem (by decide)
  have found : find (fun c => !c.isAlphanum && decide (c ≠ '-')) (letters ++ ':' :: rest) =
      some (len letters) :=
    find_append (by decide) fun c member => quiet c (lifted c member)
  unfold readOptionLetters
  rw [found]
  simp only [Option.bind_eq_bind]
  rw [sliceFrom_append rfl, sliceTo_append rfl]
  rfl

/-- The text behind the opening of a lifted group begins with none of the marks of other groups. -/
theorem LiftLetters.opening (lifted : LiftLetters letters) (rest : Text) :
    ∃ first option, letters ++ ':' :: rest = first :: option ∧
      ∀ d ∈ ['#', 'P', '~', '(', '<', '\''], first ≠ d := by
  have table : ∀ c ∈ ['i', 'm', 'x', '-', ':'], c ∉ ['#', 'P', '~', '(', '<', '\''] :=
    forall_mem (by decide)
  have apart : ∀ c ∈ ['i', 'm', 'x', '-', ':'], ∀ d ∈ ['#', 'P', '~', '(', '<', '\''], c ≠ d := by
    intro c known d member same
    exact table c known (same ▸ member)
  cases letters with
  | nil => exact ⟨':', rest, rfl, apart ':' (by decide)⟩
  | cons c more =>
    have known := List.mem_append_left [':'] (lifted c List.mem_cons_self)
    exact ⟨c, more ++ ':' :: rest, rfl, apart c known⟩

/-- The opening of a lifted group is read by its options. -/
theorem group_lifted {p : Pieces} {letters rest : Text} (lifted : LiftLetters letters)
    (source : p.rest = '(' :: '?' :: (letters ++ ':' :: rest)) :
    p.group = p.applyOptions letters := by
  obtain ⟨first, option, opening, apart⟩ := lifted.opening rest
  have condition : p.namedCondition (letters ++ ':' :: rest) = some none := by
    have other : stripPrefix ['('] (letters ++ ':' :: rest) = none := by
      rw [opening]
      simp [stripPrefix, (apart '(' (by decide)).symm]
    unfold Pieces.namedCondition
    rw [other]
  have unnamed : p.namedGroup (letters ++ ':' :: rest) = some none := by
    have undelimited : readDelimited (letters ++ ':' :: rest) = some none := by
      cases readDelimited_cases (letters ++ ':' :: rest) with
      | inl none => exact none
      | inr named =>
        obtain ⟨opens, name, closes, more, split, delimited, -⟩ := named
        rw [opening] at split
        cases split
        cases delimited with
        | inl angle => exact absurd angle.1 (apart '<' (by decide))
        | inr quote => exact absurd quote.1 (apart '\'' (by decide))
    unfold Pieces.namedGroup
    rw [undelimited]
    split <;> rfl
  have front : sliceFrom p.rest 1 = some ('?' :: (letters ++ ':' :: rest)) := by
    rw [source]
    exact sliceFrom_one (by decide) _
  have asked : stripPrefix ['?'] ('?' :: (letters ++ ':' :: rest)) =
      some (letters ++ ':' :: rest) := stripPrefix_iff.mpr rfl
  have head : ∀ d, first ≠ d → (letters ++ ':' :: rest).head? ≠ some d := by
    intro d other same
    rw [opening, List.head?_cons] at same
    exact other (Option.some.inj same)
  have bare : both (decide ((letters ++ ':' :: rest).head? = some '('))
      ((sliceFrom (letters ++ ':' :: rest) 1).map fun rest => rest.head?.any Char.isDigit) =
        some false := by
    rw [decide_eq_false (head '(' (apart '(' (by decide)))]
    rfl
  unfold Pieces.group
  rw [front]
  simp only [Option.bind_eq_bind, Option.bind_some, asked]
  rw [if_neg (head '#' (apart '#' (by decide))), if_neg (head 'P' (apart 'P' (by decide))),
    if_neg (head '~' (apart '~' (by decide))), bare]
  simp only [Option.bind_some, Bool.false_eq_true, if_false]
  unfold Pieces.namedOrOptions
  rw [condition]
  simp only [Option.bind_eq_bind, Option.bind_some, unnamed, readOptionLetters_lifted lifted]

/-- The options of a lifted group open a group that sets them. -/
theorem applyOptions_lifted {p : Pieces} {frame : Frame} {outer : List Frame} {letters rest : Text}
    (lifted : LiftLetters letters) (framed : p.frames = frame :: outer)
    (source : p.rest = '(' :: '?' :: (letters ++ ':' :: rest)) :
    p.applyOptions letters = some (.options letters true, { p with
      rest
      frames := Pieces.optionLetters true frame letters :: frame :: outer }) := by
  have front : p.rest = ('(' :: '?' :: letters) ++ ':' :: rest := source
  have whole : p.rest = ('(' :: '?' :: (letters ++ [':'])) ++ rest := by
    rw [source]
    simp
  have long : len ('(' :: '?' :: letters) = 2 + len letters := by
    have one : ('(' : Char).utf8Size = 1 ∧ ('?' : Char).utf8Size = 1 := by decide
    simp only [len_cons]
    omega
  have sized : len ('(' :: '?' :: (letters ++ [':'])) = 3 + len letters := by
    have one : ('(' : Char).utf8Size = 1 ∧ ('?' : Char).utf8Size = 1 ∧
        (':' : Char).utf8Size = 1 := by decide
    simp only [len_cons, len_append, len_nil]
    omega
  have closed : sliceFrom p.rest (2 + len letters) = some (':' :: rest) := by
    rw [front]
    exact sliceFrom_append long
  have opened : p.openFrame = some { p with frames := frame :: frame :: outer } := by
    unfold Pieces.openFrame Pieces.frame
    rw [framed]
    rfl
  unfold Pieces.applyOptions
  simp only [Option.bind_eq_bind]
  rw [closed]
  simp only [Option.bind_some, List.head?_cons, decide_true, if_true, opened, lifted.known]
  let inner : Pieces :=
    { p with frames := Pieces.optionLetters true frame letters :: frame :: outer }
  have taken : inner.takeAs (3 + len letters) (fun _ => .options letters true) =
      some (.options letters true, { inner with rest }) := Pieces.takeAs_append whole sized
  exact taken

/-- A source that begins as a lifted one does is read as a group of its options. -/
theorem opens_of_liftLetters (rest : Text) (lifted : LiftLetters letters) (extended : Bool)
    (captures : Nat) :
    ∃ inner, Opens ('(' :: '?' :: (letters ++ ':' :: rest)) extended captures letters inner ∧
      inner.rest = rest ∧ inner.classDepth = 0 ∧ inner.frames.length = 2 := by
  let p := Pieces.new ('(' :: '?' :: (letters ++ ':' :: rest)) extended captures
  have read := applyOptions_lifted (p := p) lifted rfl rfl
  rw [← group_lifted lifted rfl] at read
  have next : p.next = p.group.map some := rfl
  exact ⟨_, (next.trans (congrArg (Option.map some) read)), rfl, rfl, rfl⟩

/-! ## The scanner and the text it reads -/

/-- What one character does to the depth: only a parenthesis outside classes and escapes closes. -/
theorem Scanner.step_depth (s : Scanner) (c : Char) :
    s.depth ≤ (s.step c).depth ∨
      c = ')' ∧ s.inClass = false ∧ s.escaped = false ∧ (s.step c).depth = s.depth - 1 := by
  unfold Scanner.step
  by_cases escaped : s.escaped = true
  · rw [if_pos escaped]
    exact .inl (Int.le_refl _)
  · rw [if_neg escaped]
    split
    · exact .inl (Int.le_refl _)
    · split
      · exact .inl (Int.le_refl _)
      · split
        · exact .inl (Int.le_refl _)
        · split
          · exact .inl (by show s.depth ≤ s.depth + 1; omega)
          · split
            · rename_i closes
              exact .inr ⟨closes.1, closes.2, by simpa using escaped, rfl⟩
            · exact .inl (Int.le_refl _)

/-- A character that leaves no group open is a parenthesis outside classes, one group being open. -/
theorem Scanner.step_closes (open_ : 0 < s.depth) (closes : (s.step c).depth = 0) :
    c = ')' ∧ s = .inside := by
  cases s.step_depth c with
  | inl more => omega
  | inr closing =>
    obtain ⟨paren, outside, plain, less⟩ := closing
    have last : s.depth = 1 := by omega
    obtain ⟨depth, inClass, escaped⟩ := s
    cases outside
    cases plain
    cases last
    exact ⟨paren, rfl⟩

/-- What the scanner finds is closed by a parenthesis, and is in balance as it counts. -/
theorem liftBody_some {text body behind : Text} (open_ : 0 < s.depth)
    (found : liftBody s text = some (body, behind)) :
    text = body ++ ')' :: behind ∧ s.run body = .inside := by
  induction text generalizing s body with
  | nil => cases found
  | cons c text ih =>
    unfold liftBody at found
    by_cases closes : (s.step c).depth = 0
    · rw [if_pos closes] at found
      cases found
      obtain ⟨paren, same⟩ := Scanner.step_closes open_ closes
      exact ⟨by rw [paren]; rfl, same⟩
    · rw [if_neg closes] at found
      obtain ⟨⟨more, rest⟩, later, same⟩ := Option.map_eq_some_iff.mp found
      cases same
      have still : 0 < (s.step c).depth := by
        cases s.step_depth c with
        | inl rises => omega
        | inr closing => omega
      obtain ⟨split, balanced⟩ := ih still later
      exact ⟨by rw [split]; rfl, balanced⟩

/-- Where the scanner finds nothing behind, it stopped behind the first text that is in balance and
closed. -/
theorem liftBody_whole {enclosed body more : Text} (found : liftBody s (enclosed ++ ')' :: more) =
    some (body, [])) (balanced : s.run enclosed = .inside) : more = [] ∧ body = enclosed := by
  induction enclosed generalizing s body with
  | nil =>
    have inside : s = .inside := balanced
    subst inside
    cases found
    exact ⟨rfl, rfl⟩
  | cons c enclosed ih =>
    rw [List.cons_append] at found
    unfold liftBody at found
    by_cases closes : (s.step c).depth = 0
    · rw [if_pos closes] at found
      have nothing : enclosed ++ ')' :: more = [] := congrArg Prod.snd (Option.some.inj found)
      simp at nothing
    · rw [if_neg closes] at found
      obtain ⟨⟨rest, behind⟩, later, same⟩ := Option.map_eq_some_iff.mp found
      cases same
      obtain ⟨none, whole⟩ := ih later balanced
      exact ⟨none, by rw [whole]⟩

/-- What `lift_inline_group` answers stands in a source that begins with the options' letters and
ends in a parenthesis, and the scanner finds it there. -/
theorem liftInlineGroup_some {source body : Text} {enabled disabled : BitVec 64}
    (lifted : liftInlineGroup source = some (enabled, disabled, body)) :
    ∃ letters, source = '(' :: '?' :: (letters ++ ':' :: (body ++ [')'])) ∧ LiftLetters letters ∧
      optionBits letters = (enabled, disabled) ∧
      liftBody .inside (body ++ [')']) = some (body, []) := by
  unfold liftInlineGroup at lifted
  simp only [Option.bind_eq_bind] at lifted
  obtain ⟨options, stripped, lifted⟩ := Option.bind_eq_some_iff.mp lifted
  obtain ⟨⟨on, off, rest⟩, read, lifted⟩ := Option.bind_eq_some_iff.mp lifted
  obtain ⟨⟨inside, behind⟩, found, lifted⟩ := Option.bind_eq_some_iff.mp lifted
  dsimp only at lifted found
  by_cases ends : behind = []
  · rw [if_pos ends] at lifted
    cases lifted
    subst ends
    obtain ⟨letters, split, known, bits⟩ := liftOptions_spec read
    obtain ⟨whole, -⟩ := liftBody_some (by decide) found
    have source_ := stripPrefix_iff.mp stripped
    refine ⟨letters, ?_, known, ?_, ?_⟩
    · rw [source_, split, whole]
      rfl
    · rw [bits]
      simp
    · rw [← whole]
      exact found
  · rw [if_neg ends] at lifted
    cases lifted

/-- Where `lift_inline_group` answers, the group it answers with is the whole source, with these
options and this text, exactly where what the source's first group encloses is in balance as the
scanner counts it. -/
theorem spansWhole_iff_enclosesBalance {source body : Text} {enabled disabled : BitVec 64}
    (extended : Bool) (captures : Nat)
    (lifted : liftInlineGroup source = some (enabled, disabled, body)) :
    SpansWhole source extended captures enabled disabled body ↔
      EnclosesBalance source extended captures := by
  obtain ⟨letters, split, known, bits, found⟩ := liftInlineGroup_some lifted
  obtain ⟨inner, opens, rest, -, -⟩ := opens_of_liftLetters _ known extended captures
  rw [← split] at opens
  constructor
  · rintro ⟨letters', inner', after, opens', -, within_, closes, ended⟩
    refine ⟨letters', inner', after, body, opens', closes, ?_, ?_⟩
    · rw [within_, ended]
    · exact (liftBody_some (by decide) found).2
  · rintro ⟨letters', inner', after, enclosed, opens', closes, within_, balanced⟩
    have same := opens.symm.trans opens'
    cases same
    rw [rest] at within_
    rw [within_] at found
    obtain ⟨ended, whole⟩ := liftBody_whole found balanced
    exact ⟨letters, inner, after, opens, bits, rest, closes, ended⟩

end Kobako.Regexp
