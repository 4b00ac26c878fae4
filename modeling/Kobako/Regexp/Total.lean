import Kobako.Regexp.Refusals

/-!
# Every source is translated or refused

The reader and the rewriter go on together. Outside a class none is folded; inside one that is, the
output ends with what was written of it since its bracket. So each piece is rewritten, refused, or
is a reference `\k` whose first byte holds no character, and a source makes `build_pattern` panic
just where such a reference is reached.
-/

namespace Kobako.Regexp

open Text

/-! ## What a run of literals comes to -/

/-- How a piece closes the run before it: the last character apart or not, or not at all. -/
def Piece.closesRun (folding : Bool) : Piece → Option Bool
  | .text written =>
    if folding = true ∧ isLiteralChar written = true then none else some false
  | .quantifier _ | .interval _ _ => some true
  | _ => some false

/-- The run of literal characters behind a piece. -/
def runBehind (run : Text) (folding : Bool) : Piece → Text
  | .text text => if folding = true ∧ isLiteralChar text = true then run ++ text else []
  | _ => []

variable (build : Build)

/-- A piece that closes a run whose spellings are too many. -/
def RunStops (run : Text) (folding : Bool) (piece : Piece) : Prop :=
  ∃ splitLast, piece.closesRun folding = some splitLast ∧ RunFails build run splitLast

/-- What the run before a piece leaves the rewriter with. -/
structure RunMoved (r : Rewriter) (piece : Piece) (folding : Bool) (r' : Rewriter) : Prop where
  names : r'.names = r.names
  hasCalls : r'.hasCalls = r.hasCalls
  foldedClass : r'.foldedClass = r.foldedClass
  literalRun : r'.literalRun = runBehind r.literalRun folding piece
  placed : Placed r → Placed r'
  still : r.literalRun = [] → r'.out = r.out ∧ r'.unitStart = r.unitStart ∧ r'.groups = r.groups

theorem closeLiteralRun_stops (r : Rewriter) (splitLast : Bool) (placed : Placed r) :
    Stops (r.closeLiteralRun build splitLast) False
      (RunFails build r.literalRun splitLast) (RunClosed r) := by
  rcases closeLiteralRun_outcome build r splitLast fun run => (placed.run run).1 with
    ⟨fails, reason, refused⟩ | ⟨allowed, r', closed, spec⟩
  · rw [refused]
    exact .refused not_false fails
  · rw [closed]
    exact .ok not_false allowed spec

variable {r : Rewriter} {piece : Piece} {names : List (Text × List Nat)}

theorem runOn_stops (placed : Placed r) (piece : Piece) (folding : Bool) :
    Stops (r.runOn build piece folding) False
      (RunStops build r.literalRun folding piece) (RunMoved r piece folding) := by
  have closes : ∀ {splitLast : Bool}, piece.closesRun folding = some splitLast →
      runBehind r.literalRun folding piece = [] →
      Stops (r.closeLiteralRun build splitLast) False (RunStops build r.literalRun folding piece)
        (RunMoved r piece folding) := by
    intro splitLast closing behind
    refine (closeLiteralRun_stops build r splitLast placed).imp Iff.rfl ?_ ?_
    · intro _
      constructor
      · exact fun fails => ⟨splitLast, closing, fails⟩
      · rintro ⟨other, same, fails⟩
        rw [closing, Option.some.injEq] at same
        rwa [same]
    · intro r' closed
      refine ⟨closed.names, closed.hasCalls, closed.foldedClass, ?_, closed.placed, ?_⟩
      · rw [closed.literalRun, behind]
      · intro empty
        rw [closed.still empty]
        exact ⟨rfl, rfl, rfl⟩
  unfold Rewriter.runOn
  split
  · rename_i text
    split
    · rename_i literal
      have unclosed : Piece.closesRun folding (.text text) = none := if_pos literal
      refine .ok not_false ?_ ⟨rfl, rfl, rfl, (if_pos literal).symm, fun placed => ?_, fun _ =>
        ⟨rfl, rfl, rfl⟩⟩
      · rintro ⟨splitLast, closing, -⟩
        rw [unclosed] at closing
        cases closing
      · refine ⟨placed.grouped, placed.starts, placed.nested, placed.unit, fun _ => ?_⟩
        dsimp only
        split
        · exact ⟨.whole _, fun group mem => (placed.starts group mem).le⟩
        · rename_i running
          exact placed.run running
    · rename_i other
      exact closes (if_neg other) (if_neg other)
  · exact closes rfl rfl
  · exact closes rfl rfl
  · rename_i notText notQuantifier notInterval
    refine closes ?_ ?_
    · cases piece with
      | text text => exact absurd rfl (notText text)
      | quantifier text => exact absurd rfl (notQuantifier text)
      | interval lower upper => exact absurd rfl (notInterval lower upper)
      | _ => rfl
    · cases piece with
      | text text => exact absurd rfl (notText text)
      | _ => rfl

/-! ## Roles -/

theorem Pushed.placed {pushed : Role × Rewriter} (placed : Placed r) (is : Pushed r piece pushed)
    (closed : piece.role = .repeat → r.literalRun = []) :
    Placed pushed.2 := by
  obtain ⟨-, ⟨-, kept, ⟨text, out⟩, -⟩ | ⟨repeats, kept, -, front, back, new, old, out, where_⟩⟩ := is
  · exact placed.rewritten kept (List.append_nil _).symm out (.inl rfl)
  · refine placed.rewritten kept old out ?_
    rcases where_ with empty | unit
    · exact .inl empty
    · exact .inr ⟨unit, closed repeats⟩

/-- What settling a role leaves as it was. -/
structure Settled (r r' : Rewriter) : Prop where
  names : r'.names = r.names
  hasCalls : r'.hasCalls = r.hasCalls
  foldedClass : r'.foldedClass = r.foldedClass
  literalRun : r'.literalRun = r.literalRun
  placed : Placed r'

/-- A group that holds one unit is told from another by what stands behind its start. -/
theorem takeGroupedRepeat_total (placed : Placed r) :
    ∃ taken r', r.takeGroupedRepeat = .ok (taken, r') ∧ r'.names = r.names ∧
      r'.hasCalls = r.hasCalls ∧ r'.foldedClass = r.foldedClass ∧ r'.literalRun = r.literalRun ∧
      r'.literalRunStart = r.literalRunStart ∧ r'.out = r.out ∧ r'.groups = r.groups := by
  unfold Rewriter.takeGroupedRepeat
  split
  · rename_i group outer more groups
    have cut := placed.starts group (by rw [groups]; exact List.mem_cons_self)
    obtain ⟨holds, held⟩ : ∃ holds, r.holdsOneUnit group = .ok holds := by
      unfold Rewriter.holdsOneUnit
      split
      · obtain ⟨front, back, found, -, -⟩ := cut.splitAt
        rw [sliceFrom, found]
        exact ⟨_, rfl⟩
      · exact ⟨_, rfl⟩
    rw [held, ok_bind]
    split
    · exact ⟨_, _, rfl, rfl, rfl, rfl, rfl, rfl, rfl, rfl⟩
    · exact ⟨_, _, rfl, rfl, rfl, rfl, rfl, rfl, rfl, rfl⟩
  · exact ⟨_, _, rfl, rfl, rfl, rfl, rfl, rfl, rfl, rfl⟩

/-- The groups left when one closes, and the unit that one is. -/
theorem Placed.closed (placed : Placed r) (closed : r.literalRun = [])
    (taken : Option (Text × List Quantity)) : Settled r (r.forget.closeGroup taken) := by
  have run : ∀ {out : Text} {groups : List OpenGroup}, r.literalRun ≠ [] →
      Cut out r.literalRunStart ∧ ∀ group ∈ groups, group.start ≤ r.literalRunStart :=
    fun running => absurd closed running
  have still : Placed (r.forget.closeGroup none) := by
    unfold Rewriter.closeGroup Rewriter.forget
    dsimp only
    split
    · rename_i group outer more groups
      have nested := placed.nested
      rw [groups, List.map_cons, List.pairwise_cons] at nested
      refine ⟨List.cons_ne_nil _ _, ?_, nested.2, ?_, run⟩
      · intro other mem
        have there : other ∈ r.groups := by rw [groups]; exact List.mem_cons_of_mem _ mem
        exact (placed.starts other there).append _
      · intro start unit
        cases unit
        have here : group ∈ r.groups := by rw [groups]; exact List.mem_cons_self
        refine ⟨(placed.starts group here).append _, fun other mem => ?_⟩
        exact nested.1 _ (List.mem_map_of_mem mem)
    · rename_i lone
      refine ⟨placed.grouped, ?_, placed.nested, nofun, run⟩
      exact fun group mem => (placed.starts group mem).append _
  cases taken with
  | none => exact ⟨rfl, rfl, rfl, rfl, still⟩
  | some taken =>
    exact ⟨rfl, rfl, rfl, rfl, still.grouped, still.starts, still.nested, still.unit, still.run⟩

/-- A piece other than a run's is settled by its role. -/
theorem settle_total {r r' : Rewriter} {role : Role} (placed : Placed r)
    (pushed : Pushed r piece (role, r')) (closed : piece.role ≠ .unit → r.literalRun = []) :
    ∃ settled, r'.settle role (len r.out) = .ok settled ∧ Settled r' settled ∧
      (role = .inert → settled = r') := by
  have after : Placed r' := pushed.placed placed fun repeats => closed (by rw [repeats]; nofun)
  have kept : Kept r r' := by
    obtain ⟨-, ⟨-, kept, -⟩ | ⟨-, kept, -⟩⟩ := pushed
    · exact kept
    · exact kept
  have bound : ∀ group ∈ r'.groups, group.start ≤ len r.out :=
    kept.starts (· ≤ len r.out) fun group mem => (placed.starts group mem).le
  have same : role = piece.role := pushed.1
  unfold Rewriter.settle
  cases role with
  | inert => exact ⟨_, rfl, ⟨rfl, rfl, rfl, rfl, after⟩, fun _ => rfl⟩
  | «repeat» => exact ⟨_, rfl, ⟨rfl, rfl, rfl, rfl, after⟩, nofun⟩
  | boundary =>
    refine ⟨_, rfl, ⟨rfl, rfl, rfl, rfl, ?_⟩, nofun⟩
    exact ⟨after.grouped, after.starts, after.nested, nofun, after.run⟩
  | unit =>
    obtain ⟨-, ⟨-, -, ⟨text, out⟩, -⟩ | ⟨repeats, -⟩⟩ := pushed
    · refine ⟨_, rfl, ⟨rfl, rfl, rfl, rfl, ?_⟩, nofun⟩
      refine ⟨after.grouped, after.starts, after.nested, ?_, after.run⟩
      intro start unit
      cases unit
      refine ⟨?_, bound⟩
      change Cut r'.out (len r.out)
      rw [out]
      exact (Cut.whole r.out).append text
    · rw [repeats] at same
      cases same
  | opening lookAround =>
    obtain ⟨-, ⟨-, -, ⟨text, out⟩, -⟩ | ⟨repeats, -⟩⟩ := pushed
    · refine ⟨_, rfl, ⟨rfl, rfl, rfl, rfl, ?_⟩, nofun⟩
      have cut : Cut r'.out (len r.out) := by
        rw [out]
        exact (Cut.whole r.out).append text
      have empty : r'.literalRun = [] := by
        rw [kept.literalRun]
        exact closed (by rw [← same]; nofun)
      refine ⟨List.cons_ne_nil _ _, ?_, ?_, nofun, fun running => absurd empty running⟩
      · intro group mem
        rcases List.mem_cons.mp mem with rfl | there
        · exact cut
        · exact after.starts group there
      · refine List.pairwise_cons.mpr ⟨?_, after.nested⟩
        intro start mem
        obtain ⟨group, there, rfl⟩ := List.mem_map.mp mem
        exact bound group there
    · rw [repeats] at same
      cases same
  | closing =>
    obtain ⟨taken, r'', took, names, calls, folded, run, runStart, out, groups⟩ :=
      takeGroupedRepeat_total after
    have empty : r''.literalRun = [] := by
      rw [run, kept.literalRun]
      exact closed (by rw [← same]; nofun)
    rw [took, ok_bind]
    have again : Placed { r'' with unitStart := none } := by
      refine ⟨?_, ?_, ?_, nofun, fun running => absurd empty running⟩
      · rw [groups]
        exact after.grouped
      · dsimp only
        rw [groups, out]
        exact after.starts
      · dsimp only
        rw [groups]
        exact after.nested
    have settled := again.closed empty taken
    refine ⟨_, rfl, ⟨settled.names.trans names, settled.hasCalls.trans calls,
      settled.foldedClass.trans folded, settled.literalRun.trans run, settled.placed⟩, nofun⟩

/-! ## One piece -/

/-- A run goes on only over a unit. -/
theorem runBehind_role {run : Text} {folding : Bool} (other : piece.role ≠ .unit) :
    runBehind run folding piece = [] := by
  cases piece with
  | text text =>
    refine if_neg fun literal => other ?_
    have plain : text ≠ ['|'] := by
      rintro rfl
      exact absurd literal.2 (by decide)
    exact if_neg plain
  | _ => rfl

/-- What the rewriter notes of a class leaves everything else as it was. -/
theorem noteClass_eq (r : Rewriter) (piece : Piece) (folding : Bool) :
    ∃ foldedClass, { r with folding }.noteClass piece folding = { r with folding, foldedClass } ∧
      ((∀ text, piece ≠ .classOpen text) → ∀ open', foldedClass = some open' →
        ∃ open_, r.foldedClass = some open_ ∧ open'.start = open_.start ∧
          open'.unfoldedClasses = open_.unfoldedClasses) := by
  unfold Rewriter.noteClass
  split
  · split
    · exact ⟨_, rfl, fun other => absurd rfl (other _)⟩
    · exact ⟨_, rfl, fun other => absurd rfl (other _)⟩
  · refine ⟨_, rfl, fun _ open' is => ?_⟩
    obtain ⟨open_, there, rfl⟩ := Option.map_eq_some_iff.mp is
    exact ⟨open_, there, rfl, rfl⟩
  · exact ⟨_, rfl, fun _ open' is => ⟨open', is, rfl, rfl⟩⟩

/-- What rewriting a piece that closes no class leaves the rewriter with. -/
structure Rewritten (r : Rewriter) (piece : Piece) (folding : Bool) (r' : Rewriter) : Prop where
  names : r'.names = r.names
  hasCalls : r'.hasCalls = r.hasCalls
  literalRun : r'.literalRun = runBehind r.literalRun folding piece
  placed : Placed r'
  /-- No class is begun but by its bracket. -/
  outside : r.foldedClass = none → (∀ text, piece ≠ .classOpen text) → r'.foldedClass = none
  /-- Inside a class, text is written behind it and marked or not. -/
  inside : piece.role = .inert → r.literalRun = [] → r'.unitStart = r.unitStart ∧
    ∃ text, r'.out = r.out ++ text ∧ ∀ open', r'.foldedClass = some open' →
      ∃ open_, r.foldedClass = some open_ ∧ open'.start = open_.start ∧
        (open'.unfoldedClasses = open_.unfoldedClasses ∨
          open'.unfoldedClasses = open_.unfoldedClasses ++ [(len r.out, len r'.out)])

theorem rewrite_stops (placed : Placed r) (numbered : Numbered r.names)
    (open_ : piece ≠ .classClose) (folding : Bool) :
    Stops (r.rewrite build piece folding)
      (¬RunStops build r.literalRun folding piece ∧ BareLevel piece)
      (RunStops build r.literalRun folding piece ∨
        Refuses build r.names r.hasCalls folding piece) (Rewritten r piece folding) := by
  unfold Rewriter.rewrite
  refine ((runOn_stops build placed piece folding).bind ?_).imp (false_or _).to_iff (fun _ => Iff.rfl)
    fun _ holds => holds
  intro r₁ moved
  obtain ⟨foldedClass, noted, classes⟩ := noteClass_eq r₁ piece folding
  have placed₁ := moved.placed placed
  have placed₂ : Placed { r₁ with folding, foldedClass } :=
    { placed₁ with }
  have numbered₂ : Numbered r₁.names := by rw [moved.names]; exact numbered
  dsimp only
  rw [noted]
  have pushes : Stops (Rewriter.pushPiece build { r₁ with folding, foldedClass } piece)
      (BareLevel piece) (Refuses build r.names r.hasCalls folding piece)
      (Pushed { r₁ with folding, foldedClass } piece) := by
    rw [← moved.names, ← moved.hasCalls]
    exact pushPiece_stops build placed₂ numbered₂ piece
  refine pushes.bindOk ?_
  rintro ⟨role, r₂⟩ pushed
  have closes : piece.role ≠ .unit → r₁.literalRun = [] := by
    intro other
    rw [moved.literalRun, runBehind_role other]
  obtain ⟨r₃, settles, settled, still⟩ := settle_total placed₂ pushed closes
  have skips : r₂.closeClass build piece = .ok r₂ := if_neg open_
  dsimp only
  rw [skips, ok_bind]
  refine ⟨r₃, settles, ?_⟩
  have kept : Kept { r₁ with folding, foldedClass } r₂ := by
    obtain ⟨-, ⟨-, kept, -⟩ | ⟨-, kept, -⟩⟩ := pushed
    · exact kept
    · exact kept
  refine ⟨?_, ?_, ?_, settled.placed, ?_, ?_⟩
  · rw [settled.names, kept.names, ← moved.names]
  · rw [settled.hasCalls, kept.hasCalls, ← moved.hasCalls]
  · rw [settled.literalRun, kept.literalRun, ← moved.literalRun]
  · intro unfolded other
    have before : foldedClass = none := by
      cases is : foldedClass with
      | none => rfl
      | some open' =>
        obtain ⟨open_, there, -⟩ := classes other open' is
        rw [moved.foldedClass, unfolded] at there
        cases there
    rw [settled.foldedClass]
    obtain ⟨-, ⟨-, -, -, same | marked⟩ | ⟨-, -, same, -⟩⟩ := pushed
    · exact same.trans before
    · rw [marked, before]
      rfl
    · exact same.trans before
  · intro inert empty
    obtain ⟨out, unit, -⟩ := moved.still empty
    have other : ∀ text, piece ≠ .classOpen text := by
      rintro text rfl
      cases inert
    obtain ⟨same, ⟨-, -, ⟨text, wrote⟩, marked⟩ | ⟨repeats, -⟩⟩ := pushed
    · have last : r₃ = r₂ := still (same.trans inert)
      rw [last]
      refine ⟨kept.unitStart.trans unit, text, by rw [wrote, ← out], ?_⟩
      intro open' is
      rcases marked with unmarked | marked
      · rw [unmarked] at is
        obtain ⟨open_, there, start, ranges⟩ := classes other open' is
        exact ⟨open_, moved.foldedClass ▸ there, start, .inl ranges⟩
      · rw [marked] at is
        obtain ⟨middle, noted, rfl⟩ := Option.map_eq_some_iff.mp is
        obtain ⟨open_, there, start, ranges⟩ := classes other middle noted
        refine ⟨open_, moved.foldedClass ▸ there, start, .inr ?_⟩
        dsimp only
        rw [ranges, out]
    · rw [repeats] at inert
      cases inert

/-! ## Inside a class and outside -/

/-- What is kept while a source is read, as far as it was. -/
structure Fit (p : Pieces) (r : Rewriter) : Prop where
  placed : Placed r
  numbered : Numbered r.names
  /-- Outside a class none folds. -/
  outside : p.rest ≠ [] → p.classDepth = 0 → r.foldedClass = none
  /-- Inside one there is no run, and the output ends with what was written of it. -/
  inside : p.rest ≠ [] → 0 < p.classDepth → r.literalRun = [] ∧
    ∀ open_, r.foldedClass = some open_ → ∃ chunks, InClass r open_ chunks

/-- What a step does to the class it is in. -/
inductive ClassStep (p : Pieces) (piece : Piece) (after : Pieces) : Prop where
  | opens (bracket : piece = .classOpen ['[']) (before : p.classDepth = 0)
      (behind : after.classDepth = 1)
  | closes (bracket : piece = .classClose) (before : p.classDepth = 1)
      (behind : after.classDepth = 0)
  | outside (before : p.classDepth = 0) (behind : after.classDepth = 0)
      (unclosed : piece ≠ .classClose) (unopened : ∀ text, piece ≠ .classOpen text)
  | inside (before : 0 < p.classDepth) (behind : 0 < after.classDepth)
      (unclosed : piece ≠ .classClose) (inert : piece.role = .inert)
  | trailing (last : piece = .text ['\\']) (behind : after.rest = [])
  | refused (reason : String) (refusal : piece = .refused reason)

/-- A piece that stands inside a class as well as outside is inert there. -/
theorem ClassStep.anywhere {p after : Pieces} (same : after.classDepth = p.classDepth)
    (unclosed : piece ≠ .classClose) (unopened : ∀ text, piece ≠ .classOpen text)
    (inert : 0 < p.classDepth → piece.role = .inert) : ClassStep p piece after := by
  by_cases before : p.classDepth = 0
  · exact .outside before (by omega) unclosed unopened
  · exact .inside (by omega) (by omega) unclosed (inert (by omega))

theorem ClassStep.literal (p : Pieces) (text more : Text) :
    ClassStep p (.literal text (0 < p.classDepth)) { p with rest := more } := by
  have shape : ∀ inClass, Piece.literal text inClass ≠ .classClose ∧
      ∀ other, Piece.literal text inClass ≠ .classOpen other := by
    intro inClass
    cases inClass <;> exact ⟨nofun, nofun⟩
  refine .anywhere rfl (shape _).1 (shape _).2 fun inClass => ?_
  rw [decide_eq_true inClass]
  rfl

theorem Reads.classes {p after : Pieces} (reads : Reads p piece after) :
    ClassStep p piece after := by
  have ofText : 0 < p.classDepth → Role.ofText (decide (0 < p.classDepth)) = .inert := by
    intro inClass
    rw [decide_eq_true inClass]
    rfl
  cases reads with
  | trailing rest => exact .trailing rfl rfl
  | property kind rest inside => exact .anywhere rfl nofun nofun ofText
  | codePoints rest inside => exact .anywhere rfl nofun nofun ofText
  | codePoint rest inside => exact .literal p _ _
  | char rest filled small => exact .anywhere rfl nofun nofun ofText
  | bare rest plain => exact .literal p _ _
  | escape rest ascii head named => exact .anywhere rfl nofun nofun ofText
  | posixBracket inClass rest known head => exact .inside inClass inClass nofun rfl
  | classClose inClass rest => exact .closes rfl inClass rfl
  | classText inClass rest unescaped stays =>
    refine .inside inClass ?_ nofun rfl
    rcases stays with ⟨-, deeper⟩ | ⟨-, -, open_⟩ | ⟨-, -, same⟩
    · dsimp only
      omega
    · exact open_
    · dsimp only
      omega
  | classOpen outside rest => exact .opens rfl outside rfl
  | close outside rest =>
    refine .outside outside ?_ nofun nofun
    unfold Pieces.closeFrame
    split
    · exact outside
    · exact outside
  | namedReference outside => exact .outside outside outside nofun nofun
  | numberedReference outside => exact .outside outside outside nofun nofun
  | literalBrace outside => exact .outside outside outside nofun nofun
  | interval outside => exact .outside outside outside nofun nofun
  | quantifier outside => exact .outside outside outside nofun nofun
  | lineComment outside => exact .outside outside outside nofun nofun
  | space outside => exact .outside outside outside nofun nofun
  | text outside => exact .outside outside outside nofun nofun
  | plainGroup outside => exact .outside outside outside nofun nofun
  | groupComment outside => exact .outside outside outside nofun nofun
  | numberedCondition outside => exact .outside outside outside nofun nofun
  | namedCondition outside => exact .outside outside outside nofun nofun
  | namedGroup outside => exact .outside outside outside nofun nofun
  | options outside => exact .outside outside outside nofun nofun
  | «open» outside => exact .outside outside outside nofun nofun
  | refused => exact .refused _ rfl

/-- What a class was written with, once a stretch is written behind. -/
theorem InClass.append {r r' : Rewriter} {open_ open' : FoldedClass} {chunks : Chunks} {text : Text}
    (within_ : InClass r open_ chunks) (out : r'.out = r.out ++ text)
    (unit : r'.unitStart = r.unitStart) (start : open'.start = open_.start)
    (ranges : open'.unfoldedClasses = open_.unfoldedClasses ∨
      open'.unfoldedClasses = open_.unfoldedClasses ++ [(len r.out, len r'.out)]) :
    ∃ chunks, InClass r' open' chunks := by
  obtain ⟨front, wrote, long, places, at_⟩ := within_
  have grown : ∀ cut, r'.out = front ++ '[' :: Chunks.text (chunks ++ [(cut, text)]) := by
    intro cut
    rw [out, wrote]
    simp only [Chunks.text, List.flatMap_append, List.flatMap_cons, List.flatMap_nil,
      List.append_nil, List.append_assoc, List.cons_append]
  have total : len r.out = open_.start + 1 + len chunks.text := by
    have bracket : ('[' : Char).utf8Size = 1 := rfl
    rw [wrote, len_append, len_cons, long, bracket]
    omega
  rcases ranges with same | marked
  · refine ⟨chunks ++ [(false, text)], front, grown false, by rw [start, long], ?_, ?_⟩
    · rw [same, places, start, Chunks.ranges_append]
      exact (List.append_nil _).symm
    · rw [unit, at_, start]
  · refine ⟨chunks ++ [(true, text)], front, grown true, by rw [start, long], ?_, ?_⟩
    · rw [marked, places, start, Chunks.ranges_append, out, len_append, total]
      rfl
    · rw [unit, at_, start]

/-! ## A reading -/

section Reading

variable {p after : Pieces} {r : Rewriter} {piece : Piece}

/-- What is kept once a piece is rewritten. -/
structure Stepped (after : Pieces) (r : Rewriter) (piece : Piece) (folding : Bool)
    (r' : Rewriter) : Prop where
  fit : Fit after r'
  names : r'.names = r.names
  hasCalls : r'.hasCalls = r.hasCalls
  literalRun : r'.literalRun = runBehind r.literalRun folding piece

/-- Where no class is in the way, what is kept after a piece is what its rewriting keeps. -/
theorem Rewritten.stepped {folding : Bool} {r' : Rewriter} (numbered : Numbered r.names)
    (rewritten : Rewritten r piece folding r')
    (outside : after.rest ≠ [] → after.classDepth = 0 → r'.foldedClass = none)
    (inside : after.rest ≠ [] → 0 < after.classDepth → r'.literalRun = [] ∧
      ∀ open_, r'.foldedClass = some open_ → ∃ chunks, InClass r' open_ chunks) :
    Stepped after r piece folding r' := by
  have named : Numbered r'.names := by rw [rewritten.names]; exact numbered
  exact ⟨⟨rewritten.placed, named, outside, inside⟩, rewritten.names, rewritten.hasCalls,
    rewritten.literalRun⟩

/-- A bracket begins a class. -/
theorem rewrite_opens (build : Build) (fit : Fit p r) (more : p.rest ≠ [])
    (before : p.classDepth = 0) (behind : after.classDepth = 1) (folding : Bool) :
    Stops (r.rewrite build (.classOpen ['[']) folding) False
      (RunStops build r.literalRun folding (.classOpen ['[']))
      (Stepped after r (.classOpen ['[']) folding) := by
  unfold Rewriter.rewrite
  refine (runOn_stops build fit.placed (.classOpen ['[']) folding).bindOk ?_
  intro r₁ moved
  have placed := moved.placed fit.placed
  have unfolded : r₁.foldedClass = none := moved.foldedClass.trans (fit.outside more before)
  have numbered : Numbered r₁.names := by rw [moved.names]; exact fit.numbered
  have shape : ∃ foldedClass, { r₁ with folding }.noteClass (.classOpen ['[']) folding =
      { r₁ with folding, foldedClass } ∧
      ∀ open_, foldedClass = some open_ → open_ = ⟨len r₁.out, [], []⟩ := by
    unfold Rewriter.noteClass
    dsimp only
    split
    · exact ⟨_, rfl, fun open_ is => (Option.some.inj is).symm⟩
    · refine ⟨none, by rw [unfolded], nofun⟩
  obtain ⟨foldedClass, noted, begun⟩ := shape
  dsimp only
  rw [noted]
  refine ⟨_, rfl, ⟨⟨⟨placed.grouped, ?_, placed.nested, ?_, ?_⟩, numbered, ?_, ?_⟩, moved.names,
    moved.hasCalls, moved.literalRun⟩⟩
  · exact fun group mem => (placed.starts group mem).append _
  · intro start unit
    cases unit
    exact ⟨(Cut.whole _).append _, fun group mem => (placed.starts group mem).le⟩
  · exact fun running => absurd moved.literalRun running
  · intro _ closed
    omega
  · refine fun _ _ => ⟨moved.literalRun, fun open_ is => ⟨[], r₁.out, rfl, ?_, ?_, ?_⟩⟩
    · rw [begun open_ is]
    · rw [begun open_ is]
      rfl
    · rw [begun open_ is]

/-- The bracket that closes a class writes it over from where it starts. -/
theorem rewrite_closes (build : Build) (fit : Fit p r) (more : p.rest ≠ [])
    (before : p.classDepth = 1) (behind : after.classDepth = 0) (folding : Bool) :
    ∃ r', r.rewrite build .classClose folding = .ok r' ∧ Stepped after r .classClose folding r' := by
  obtain ⟨empty, folded⟩ := fit.inside more (by omega)
  have placed := fit.placed
  have runs : r.runOn build .classClose folding = .ok r := if_pos empty
  unfold Rewriter.rewrite
  rw [runs, ok_bind]
  have pushes : Rewriter.pushPiece build { r with folding } .classClose =
      .ok (.inert, { r with folding, out := r.out ++ [']'] }) := rfl
  change ∃ r', (Rewriter.pushPiece build { r with folding } .classClose >>= _) = .ok r' ∧ _
  rw [pushes, ok_bind]
  change ∃ r', (Rewriter.closeFoldedClass build { r with folding, out := r.out ++ [']'] } >>= _) =
    .ok r' ∧ _
  have inert : ∀ (r : Rewriter) (start : Nat), r.settle .inert start = .ok r := fun _ _ => rfl
  -- Whether it folds or not, the class was written behind every group and is the unit.
  have stepped : ∀ out, (∀ group ∈ r.groups, Cut out group.start) →
      (∀ start, r.unitStart = some start → Cut out start) →
      Stepped after r .classClose folding { r with folding, out, foldedClass := none } := by
    intro out starts unit
    refine ⟨⟨⟨placed.grouped, starts, placed.nested, ?_, fun running => absurd empty running⟩,
      fit.numbered, fun _ _ => rfl, fun _ open_ => ?_⟩, rfl, rfl, empty⟩
    · exact fun start is => ⟨unit start is, (placed.unit start is).2⟩
    · omega
  rcases Option.eq_none_or_eq_some r.foldedClass with unfolded | ⟨open_, is⟩
  · have plain : Rewriter.closeFoldedClass build { r with folding, out := r.out ++ [']'] } =
        .ok { r with folding, out := r.out ++ [']'], foldedClass := none } := by
      unfold Rewriter.closeFoldedClass
      dsimp only
      rw [unfolded]
    rw [plain, ok_bind, inert]
    refine ⟨_, rfl, stepped _ ?_ ?_⟩
    · exact fun group mem => (placed.starts group mem).append _
    · exact fun start unit => (placed.unit start unit).1.append _
  · obtain ⟨chunks, front, out, long, ranges, unit⟩ := folded open_ is
    have closes : Rewriter.closeFoldedClass build { r with folding, out := r.out ++ [']'] } =
        .ok { r with
          folding
          foldedClass := none
          out := front ++ chunks.closed build open_.written } :=
      closeFoldedClass_chunks (r := { r with folding, out := r.out ++ [']'] }) build is
        (by simp only [out, List.append_assoc, List.cons_append]) long ranges
    rw [closes, ok_bind, inert]
    have least := (placed.unit _ unit).2
    refine ⟨_, rfl, stepped _ ?_ ?_⟩
    · intro group mem
      have cut := placed.starts group mem
      rw [out] at cut
      exact cut.keep (by rw [long]; exact least group mem) _
    · intro start at_
      rw [unit, Option.some.injEq] at at_
      exact ⟨front, _, rfl, long.trans at_⟩

/-- One piece of a source is rewritten, refused, or panics on its name. -/
theorem rewrite_fit (build : Build) (fit : Fit p r) (reads : Reads p piece after)
    (framed : p.frames ≠ []) (folding : Bool) :
    Stops (r.rewrite build piece folding)
      (¬RunStops build r.literalRun folding piece ∧ BareLevel piece)
      (RunStops build r.literalRun folding piece ∨
        Refuses build r.names r.hasCalls folding piece) (Stepped after r piece folding) := by
  obtain ⟨⟨taken, filled, split⟩, -⟩ := reads.advances framed
  have more : p.rest ≠ [] := by
    rw [split]
    exact List.append_ne_nil_of_left_ne_nil filled _
  have other : ∀ {piece : Piece}, piece ≠ .classClose →
      (∀ r', Rewritten r piece folding r' → Stepped after r piece folding r') →
      Stops (r.rewrite build piece folding)
        (¬RunStops build r.literalRun folding piece ∧ BareLevel piece)
        (RunStops build r.literalRun folding piece ∨
          Refuses build r.names r.hasCalls folding piece) (Stepped after r piece folding) := by
    intro piece unclosed stepped
    exact (rewrite_stops build fit.placed fit.numbered unclosed folding).imp Iff.rfl
      (fun _ => Iff.rfl) stepped
  cases reads.classes with
  | opens bracket before behind =>
    subst bracket
    refine (rewrite_opens build fit more before behind folding).imp ?_ ?_ fun _ holds => holds
    · exact ⟨False.elim, fun both => both.2⟩
    · exact fun _ => ⟨.inl, fun stops => stops.resolve_right nofun⟩
  | closes bracket before behind =>
    subst bracket
    obtain ⟨empty, -⟩ := fit.inside more (by omega)
    refine (Stops.always (rewrite_closes build fit more before behind folding)).imp ?_ ?_
      fun _ holds => holds
    · exact ⟨False.elim, fun both => both.2⟩
    · refine fun _ => ⟨False.elim, ?_⟩
      rintro (⟨splitLast, closing, fails⟩ | refuses)
      · exact runFails_nil build splitLast (empty ▸ fails)
      · exact refuses
  | outside before behind unclosed unopened =>
    refine other unclosed fun r' rewritten => rewritten.stepped fit.numbered ?_ ?_
    · exact fun _ _ => rewritten.outside (fit.outside more before) unopened
    · intro _ open_
      omega
  | inside before behind unclosed inert =>
    refine other unclosed fun r' rewritten => rewritten.stepped fit.numbered ?_ ?_
    · intro _ closed
      omega
    · intro _ _
      obtain ⟨empty, folded⟩ := fit.inside more before
      obtain ⟨unit, text, out, classes⟩ := rewritten.inside inert empty
      refine ⟨?_, fun open' is => ?_⟩
      · rw [rewritten.literalRun, runBehind_role (by rw [inert]; nofun)]
      · obtain ⟨open_, there, start, ranges⟩ := classes open' is
        obtain ⟨chunks, within_⟩ := folded open_ there
        exact within_.append out unit start ranges
  | trailing last behind =>
    refine other (by rw [last]; nofun) fun r' rewritten => rewritten.stepped fit.numbered ?_ ?_
    · exact fun unread => absurd behind unread
    · exact fun unread => absurd behind unread
  | refused reason refusal =>
    subst refusal
    unfold Rewriter.rewrite
    refine ((runOn_stops build fit.placed (.refused reason) folding).bind ?_).imp
      (false_or _).to_iff (fun _ => Iff.rfl) fun _ holds => holds
    exact fun r₁ _ => .refused nofun trivial

/-- A reading reaches a reference whose first byte holds no character, `run` the literal characters
before it: nothing before that reference is refused. -/
def ReachesBare (build : Build) (names : List (Text × List Nat)) (hasCalls : Bool) :
    Text → List (Piece × Bool) → Prop
  | _, [] => False
  | run, (piece, ignoresCase) :: rest =>
    let folding := build.unicode && ignoresCase
    ¬RunStops build run folding piece ∧ (BareLevel piece ∨
      ¬Refuses build names hasCalls folding piece ∧
        ReachesBare build names hasCalls (runBehind run folding piece) rest)

/-- A source is read to its end: each step takes at least one character and leaves the others. -/
inductive ReadsToEnd : Pieces → Prop where
  | done {p : Pieces} (rest : p.rest = []) (stops : p.next = some none) : ReadsToEnd p
  | step {p after : Pieces} {piece : Piece} {taken : Text}
      (reads : p.next = some (some (piece, after))) (filled : taken ≠ [])
      (rest : p.rest = taken ++ after.rest) (onward : ReadsToEnd after) : ReadsToEnd p

/-- Every reading goes to the end of its source. -/
theorem readsToEnd (p : Pieces) (framed : p.frames ≠ []) : ReadsToEnd p := by
  induction long : p.rest.length using Nat.strongRecOn generalizing p with
  | ind length ih =>
    rcases next_steps p framed with ⟨rest, stops⟩ | ⟨piece, after, reads, step⟩
    · exact .done rest stops
    · obtain ⟨⟨taken, filled, split⟩, still⟩ := step.advances framed
      have shorter : after.rest.length < length := by
        have some := List.length_pos_iff.mpr filled
        rw [← long, split, List.length_append]
        omega
      exact .step reads filled split (ih _ shorter after still rfl)

/-- As many rounds as characters, and one more, read a source. -/
theorem readAll_total {rounds : Nat} (p : Pieces) (framed : p.frames ≠ [])
    (enough : p.rest.length < rounds) : ∃ pieces, p.readAll rounds = some pieces := by
  induction rounds generalizing p with
  | zero => omega
  | succ rounds ih =>
    unfold Pieces.readAll
    rcases next_steps p framed with ⟨-, stops⟩ | ⟨piece, after, reads, step⟩
    · exact ⟨[], by rw [stops]; rfl⟩
    · obtain ⟨⟨taken, filled, split⟩, still⟩ := step.advances framed
      have shorter : after.rest.length < rounds := by
        have some := List.length_pos_iff.mpr filled
        rw [split, List.length_append] at enough
        omega
      obtain ⟨pieces, rest⟩ := ih after still shorter
      exact ⟨(piece, after.ignoresCase) :: pieces, by rw [reads]; simp [rest]⟩

/-- How the rewriting of a source ends: in a panic just as `panics` says. -/
def Panics {α : Type} (answer : Except Stop α) (panics : Prop) (good : α → Prop) : Prop :=
  match answer with
  | .error .panicked => panics
  | .error (.refused _) => ¬panics
  | .ok a => ¬panics ∧ good a

/-- The rewriting of a source panics just where such a reference is reached. -/
theorem rewriteAll_panics (build : Build) {rounds : Nat} {pieces : List (Piece × Bool)}
    (fit : Fit p r) (framed : p.frames ≠ []) (read : p.readAll rounds = some pieces) :
    Panics (rewriteAll build rounds p r) (ReachesBare build r.names r.hasCalls r.literalRun pieces)
      Placed := by
  induction rounds generalizing p r pieces with
  | zero => cases read
  | succ rounds ih =>
    unfold Pieces.readAll at read
    unfold rewriteAll
    rcases next_steps p framed with ⟨-, stops⟩ | ⟨piece, after, reads, step⟩
    · rw [stops] at read ⊢
      cases read
      exact ⟨not_false, fit.placed⟩
    · rw [reads] at read ⊢
      obtain ⟨-, still⟩ := step.advances framed
      obtain ⟨rest, onward, rfl⟩ : ∃ rest, after.readAll rounds = some rest ∧
          (piece, after.ignoresCase) :: rest = pieces := by
        cases onward : after.readAll rounds with
        | none => simp [onward] at read
        | some rest => exact ⟨rest, rfl, by simpa [onward] using read⟩
      have stops := rewrite_fit build fit step framed (build.unicode && after.ignoresCase)
      rw [sliced_some, ok_bind]
      dsimp only
      unfold ReachesBare
      dsimp only
      match r.rewrite build piece (build.unicode && after.ignoresCase), stops with
      | .error .panicked, ⟨unstopped, bare⟩ => exact ⟨unstopped, .inl bare⟩
      | .error (.refused _), ⟨calm, forbidden⟩ =>
        rintro ⟨unstopped, bare | ⟨allowed, -⟩⟩
        · exact calm ⟨unstopped, bare⟩
        · rcases forbidden with stopped | refused
          · exact unstopped stopped
          · exact allowed refused
      | .ok r', ⟨calm, allowed, stepped⟩ =>
        rw [ok_bind]
        have rest := ih stepped.fit still onward
        rw [stepped.names, stepped.hasCalls, stepped.literalRun] at rest
        have unstopped := fun stopped => allowed (.inl stopped)
        have unrefused := fun refused => allowed (.inr refused)
        match rewriteAll build rounds after r', rest with
        | .error .panicked, reaches => exact ⟨unstopped, .inr ⟨unrefused, reaches⟩⟩
        | .error (.refused _), never =>
          rintro ⟨-, bare | ⟨-, reaches⟩⟩
          · exact calm ⟨unstopped, bare⟩
          · exact never reaches
        | .ok last, ⟨never, placed⟩ =>
          refine ⟨?_, placed⟩
          rintro ⟨-, bare | ⟨-, reaches⟩⟩
          · exact calm ⟨unstopped, bare⟩
          · exact never reaches

end Reading

/-! ## Sources -/

theorem collectName_numbered (numbered : Numbered names) (number : Nat) (name : Text) :
    Numbered (collectName names number name) := by
  unfold collectName
  split
  · intro entry mem
    obtain ⟨old, there, rfl⟩ := List.mem_map.mp mem
    split
    · simp
    · exact numbered old there
  · intro entry mem
    rcases List.mem_append.mp mem with there | new
    · exact numbered entry there
    · cases List.mem_singleton.mp new
      simp

/-- Every name that was collected has a number. -/
theorem collectNames_numbered (pieces : List Piece) (numbered : Numbered names) (number : Nat) :
    Numbered (collectNames names number pieces) := by
  induction pieces generalizing names number with
  | nil => exact numbered
  | cons piece rest ih =>
    cases piece with
    | namedGroup text name => exact ih (collectName_numbered numbered _ name) _
    | _ => exact ih numbered _

/-- A source is scanned, and each of its names has a number. -/
theorem scan_total (source : Text) (extended : Bool) : ∃ names captures hasCalls,
    scan source extended = .ok (names, captures, hasCalls) ∧ Numbered names := by
  have reads : ∀ captures, ∃ pieces,
      (Pieces.new source extended captures).readAll (source.length + 1) = some pieces :=
    fun captures => readAll_total _ (List.cons_ne_nil _ _) (Nat.lt_succ_self _)
  obtain ⟨first, read⟩ := reads 0
  unfold scan
  dsimp only
  rw [read, sliced_some, ok_bind]
  generalize (if collectNames [] 0 (first.map (·.1)) = [] then _ else _) = captures
  obtain ⟨second, again⟩ := reads captures
  rw [again, sliced_some, ok_bind]
  exact ⟨_, _, _, rfl, collectNames_numbered _ (List.forall_mem_nil _) 0⟩

/-- A source and a mask for which a reference `\k` whose name begins with no ASCII character is
reached before anything is refused. -/
def ReachesBareLevel (source : Text) (options : BitVec 64) : Prop :=
  let extended := hasOption options extendedBit
  ∃ names captures hasCalls reading pieces,
    scan source extended = .ok (names, captures, hasCalls) ∧
    (Pieces.new source extended captures).ignoringCase (hasOption options ignoreCaseBit) =
      some reading ∧
    reading.readAll (source.length + 1) = some pieces ∧
    ReachesBare build names hasCalls [] pieces

/-- The reading a source is rewritten from. -/
def startOf (source : Text) (extended ignoreCase : Bool) (captures : Nat) : Pieces :=
  ⟨source, 0, [⟨extended, ignoreCase, .default, .outside⟩], captures⟩

theorem ignoringCase_new (source : Text) (extended ignoreCase : Bool) (captures : Nat) :
    (Pieces.new source extended captures).ignoringCase ignoreCase =
      some (startOf source extended ignoreCase captures) := rfl

theorem new_fit (numbered : Numbered names) (hasCalls : Bool) (out source : Text)
    (extended ignoreCase : Bool) (captures : Nat) :
    Fit (startOf source extended ignoreCase captures) (.new names hasCalls out) := by
  refine ⟨⟨List.cons_ne_nil _ _, ?_, List.pairwise_singleton _ _, nofun, nofun⟩, numbered,
    fun _ _ => rfl, fun _ open_ => absurd open_ (Nat.lt_irrefl 0)⟩
  intro group mem
  cases List.mem_singleton.mp mem
  exact ⟨[], out, rfl, rfl⟩

theorem finish_calm (placed : Placed r) :
    r.finish build ≠ .error .panicked := by
  have closes := closeLiteralRun_stops build r false placed
  unfold Rewriter.finish
  match r.closeLiteralRun build false, closes with
  | .error (.refused _), _ => nofun
  | .ok _, _ => nofun

theorem buildPattern_panicked_iff (source : Text) (options : BitVec 64) :
    buildPattern build source options = .error .panicked ↔
      ReachesBareLevel build source options := by
  obtain ⟨names, captures, hasCalls, scanned, numbered⟩ :=
    scan_total source (hasOption options extendedBit)
  have framed : (startOf source (hasOption options extendedBit)
      (hasOption options ignoreCaseBit) captures).frames ≠ [] := List.cons_ne_nil _ _
  obtain ⟨pieces, read⟩ := readAll_total _ framed (Nat.lt_succ_self source.length)
  have rewrites := rewriteAll_panics build
    (new_fit numbered hasCalls (patternHead options) source _ _ captures) framed read
  have same : ReachesBareLevel build source options ↔
      ReachesBare build names hasCalls [] pieces := by
    unfold ReachesBareLevel
    dsimp only
    constructor
    · rintro ⟨names', captures', hasCalls', reading, pieces', scanned', starts, read', reaches⟩
      rw [scanned] at scanned'
      cases scanned'
      rw [ignoringCase_new] at starts
      cases starts
      rw [read] at read'
      cases read'
      exact reaches
    · exact fun reaches => ⟨names, captures, hasCalls, _, pieces, scanned, rfl, read, reaches⟩
  rw [same]
  unfold buildPattern
  dsimp only
  rw [scanned, ok_bind]
  dsimp only
  rw [ignoringCase_new, sliced_some, ok_bind]
  match rewriteAll build (source.length + 1) _ _, rewrites with
  | .error .panicked, reaches => exact ⟨fun _ => reaches, fun _ => rfl⟩
  | .error (.refused _), never => exact ⟨nofun, fun reaches => absurd reaches never⟩
  | .ok r, ⟨never, placed⟩ =>
    refine ⟨fun panics => absurd panics (finish_calm build placed), fun reaches => absurd reaches never⟩

/-- The translation answers a pattern or a refusal and every reading of the source goes to its end,
each step over at least one character, unless a `\k` whose name begins with no ASCII character is
reached. -/
theorem buildPattern_total (build : Build) (source : Text) (options : BitVec 64) :
    (buildPattern build source options ≠ .error .panicked ∧
      ∀ extended captures ignoreCase reading,
        (Pieces.new source extended captures).ignoringCase ignoreCase = some reading →
          ReadsToEnd reading) ↔
      ¬ReachesBareLevel build source options := by
  rw [← buildPattern_panicked_iff]
  refine ⟨fun both => both.1, fun calm => ⟨calm, ?_⟩⟩
  intro extended captures ignoreCase reading starts
  rw [ignoringCase_new] at starts
  cases starts
  exact readsToEnd _ (List.cons_ne_nil _ _)

/-- A build whose tables know the ASCII characters alone. -/
def asciiBuild : Build where
  unicode := false
  isAlphanumeric := Char.isAlphanum
  isLowercase := Char.isLower
  isUppercase := Char.isUpper
  isAlphanumeric_ascii := fun _ _ => rfl

/-- An empty name panics: `\k<>` is sliced behind its first byte. -/
theorem buildPattern_emptyName :
    buildPattern asciiBuild ['\\', 'k', '<', '>'] 0 = .error .panicked := by
  rfl

end Kobako.Regexp
