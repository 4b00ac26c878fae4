import Kobako.Regexp.Spellings
import Kobako.Regexp.Total
import Mathlib.Data.Nat.Digits.Defs

/-!
# The length of an expansion

`write_spellings` again, with its calls counted and what it wrote kept where it gives up. Every call
adds to the text before it calls itself, and a call that finds the text too long adds nothing. The
text is at most a quarter over the limit where a run was spelled, since what opened each group is
longer than what closes it, and one piece more where it was refused. The calls are fewer than the
bytes.
-/

namespace Kobako.Regexp

open Text

/-- What `write_spellings` has written, the calls made and whether one refused. -/
structure Written where
  /-- The text. -/
  out : Text
  /-- The calls made so far. -/
  calls : Nat
  /-- Whether the text got too long. -/
  refused : Bool

/-- A text pushed. -/
def Written.push (w : Written) (text : Text) : Written := { w with out := w.out ++ text }

@[simp] theorem Written.push_out (w : Written) (text : Text) :
    (w.push text).out = w.out ++ text := rfl

@[simp] theorem Written.push_calls (w : Written) (text : Text) : (w.push text).calls = w.calls := rfl

section

variable (build : Build)

/-- `write_spellings`, with its calls counted. -/
def countSpellings : Nat → Text → Written → Written
  | rounds, run, w =>
    if maxSpellingsLen < len w.out then { w with calls := w.calls + 1, refused := true }
    else
      let w := { w with calls := w.calls + 1 }
      match rounds, run with
      | _, [] | 0, _ => w
      | rounds + 1, c :: rest =>
        let joined := joinedFolds (c :: rest)
        if joined = [] then countSpellings rounds rest (w.push (aloneText build c))
        else
          let w := countSpellings rounds rest (w.push ("(?:".toList ++ aloneText build c))
          let w := joined.foldl (fun w (length, folded) =>
            if w.refused then w
            else countSpellings rounds ((c :: rest).drop length)
              (w.push (['|'] ++ sourcesOf build folded))) w
          if w.refused then w else w.push [')']

/-- What `write_spellings` answers, from what it wrote. -/
def Written.answer (w : Written) : Except String Text :=
  if w.refused then .error "too many case-insensitive spellings" else .ok w.out

variable {w : Written} {piece : Text}

theorem Written.answer_refused (refused : w.refused = true) :
    w.answer = .error "too many case-insensitive spellings" := if_pos refused

theorem Written.answer_given (given : w.refused = false) : w.answer = .ok w.out :=
  if_neg (by rw [given]; decide)

/-- The group closed, where nothing refused. -/
theorem Written.answer_close (w : Written) :
    (if w.refused then w else w.push [')']).answer = w.answer.bind fun out => .ok (out ++ [')']) := by
  cases given : w.refused with
  | true =>
    rw [if_pos rfl, Written.answer_refused given]
    rfl
  | false =>
    rw [if_neg (by decide), Written.answer_given given]
    exact Written.answer_given given

/-- The alternatives behind the first of a group, counted. -/
theorem countAlternatives_answer {rounds : Nat} {run : Text}
    (each : ∀ length w, w.refused = false → (countSpellings build rounds (run.drop length) w).answer
      = writeSpellings build rounds (run.drop length) w.out)
    (joined : List (Nat × Text)) (w : Written) :
    (joined.foldl (fun w entry => if w.refused then w
        else countSpellings build rounds (run.drop entry.1)
          (w.push (['|'] ++ sourcesOf build entry.2))) w).answer =
      w.answer.bind fun out => joined.foldlM (fun out entry =>
        writeSpellings build rounds (run.drop entry.1) (out ++ ['|'] ++ sourcesOf build entry.2))
        out := by
  induction joined generalizing w with
  | nil =>
    rw [List.foldl_nil]
    cases w.answer <;> rfl
  | cons entry joined ih =>
    rw [List.foldl_cons, ih]
    cases given : w.refused with
    | true =>
      rw [if_pos rfl, Written.answer_refused given]
      rfl
    | false =>
      rw [if_neg (by decide), Written.answer_given given, each _ (w.push _) given, Written.push_out,
        ← List.append_assoc]
      rfl

/-- Counting the calls changes nothing. -/
theorem countSpellings_answer (rounds : Nat) (run : Text) (w : Written)
    (given : w.refused = false) :
    (countSpellings build rounds run w).answer = writeSpellings build rounds run w.out := by
  have entered : (Written.mk w.out (w.calls + 1) w.refused).answer = .ok w.out :=
    Written.answer_given given
  induction rounds generalizing run w with
  | zero =>
    unfold countSpellings writeSpellings
    by_cases long : maxSpellingsLen < len w.out
    · rw [if_pos long, if_pos long]
      rfl
    · rw [if_neg long, if_neg long]
      cases run <;> exact entered
  | succ rounds ih =>
    unfold countSpellings writeSpellings
    by_cases long : maxSpellingsLen < len w.out
    · rw [if_pos long, if_pos long]
      rfl
    · rw [if_neg long, if_neg long]
      cases run with
      | nil => exact entered
      | cons c rest =>
        dsimp only
        by_cases single : joinedFolds (c :: rest) = []
        · rw [if_pos single, if_pos single]
          exact ih _ _ given (Written.answer_given given)
        · rw [if_neg single, if_neg single]
          have first := ih rest (Written.push ⟨w.out, w.calls + 1, w.refused⟩
            ("(?:".toList ++ aloneText build c)) given (Written.answer_given given)
          rw [Written.push_out, ← List.append_assoc] at first
          have others := countAlternatives_answer build
            (fun length w given => ih ((c :: rest).drop length) w given (Written.answer_given given))
            (joinedFolds (c :: rest))
            (countSpellings build rounds rest (Written.push ⟨w.out, w.calls + 1, w.refused⟩
              ("(?:".toList ++ aloneText build c)))
          rw [Written.answer_close, others, first]
          cases writeSpellings build rounds rest (w.out ++ "(?:".toList ++ aloneText build c) <;> rfl

/-! ## What one push adds -/

/-- A character takes up to four bytes. -/
theorem len_le_length (text : Text) : len text ≤ 4 * text.length := by
  induction text with
  | nil => exact Nat.le_refl 0
  | cons c rest ih =>
    have short := c.utf8Size_le_four
    rw [len_cons, List.length_cons]
    omega

/-- A code point takes at most six digits. -/
theorem len_codePointText (c : Char) : 1 ≤ len (codePointText c.toNat) ∧
    len (codePointText c.toNat) ≤ 28 := by
  have small : c.toNat < 16 ^ 6 := by
    have valid := isValidChar_toNat c
    unfold Nat.isValidChar at valid
    omega
  have digits := Nat.toDigits_length 16 c.toNat 6 (by decide) small
  have bytes := len_le_length ((Nat.toDigits 16 c.toNat).map Char.toUpper)
  rw [List.length_map] at bytes
  have front : len "\\x\x7b".toList = 3 := by decide
  have back : len ['}'] = 1 := by decide
  unfold codePointText
  rw [len_append, len_append]
  omega

/-- A literal character adds something, and not much. -/
theorem len_literalText (c : Char) : 1 ≤ len (literalText build c) ∧
    len (literalText build c) ≤ 28 := by
  unfold literalText
  split
  · have short := c.utf8Size_le_four
    have positive := c.utf8Size_pos
    rw [len_cons, len_nil]
    omega
  · exact len_codePointText c

/-- Characters one after the other. -/
theorem len_flatMap_literalText {α : Type} (list : List α) (named : α → Char) :
    len (list.flatMap fun a => literalText build (named a)) ≤ 28 * list.length := by
  induction list with
  | nil => exact Nat.le_refl 0
  | cons a rest ih =>
    have here := (len_literalText build (named a)).2
    rw [List.flatMap_cons, len_append, List.length_cons]
    omega

/-- A character alone. -/
theorem len_aloneText (c : Char) : 1 ≤ len (aloneText build c) ∧ len (aloneText build c) ≤ 117 := by
  have alone := len_literalText build c
  unfold aloneText
  cases folds : multiFold c with
  | none =>
    dsimp only
    omega
  | some folded =>
    have few := (fold_length _ (mem_of_multiFold folds)).2
    have fold := len_flatMap_literalText build folded id
    have opens : len "(?:".toList = 3 := by decide
    have bar : len ['|'] = 1 := by decide
    have closes : len [')'] = 1 := by decide
    dsimp only at few ⊢
    unfold foldText
    rw [len_append, len_append, len_append, len_append]
    have same : len (folded.flatMap (literalText build)) ≤ 28 * folded.length := fold
    omega

/-- The characters of a fold. -/
theorem len_sourcesOf (folded : Text) : len (sourcesOf build folded) ≤ 2914 := by
  have all := len_flatMap_literalText build (multi.filter (·.2 = folded)) (·.1)
  have few : (multi.filter (·.2 = folded)).length ≤ multi.length := List.length_filter_le _ _
  have size : multi.length = 104 := by decide
  have opens : len ['['] = 1 := by decide
  have closes : len [']'] = 1 := by decide
  unfold sourcesOf
  rw [len_append, len_append]
  omega

/-! ## What a run adds -/

/-- The longest piece one push adds, and more. -/
def longestPiece : Nat := 3072

/-- What a call of `write_spellings` makes of what was written before. -/
structure Grown (before after : Written) : Prop where
  /-- Nothing is taken back. -/
  longer : len before.out ≤ len after.out
  /-- Each call but the first has its own byte. -/
  counted : after.calls + len before.out ≤ before.calls + 1 + len after.out
  /-- A run spelled is a quarter over the limit at most. -/
  spelled : after.refused = false → 4 * len after.out + len before.out ≤ 5 * maxSpellingsLen
  /-- A run refused is one piece longer at most. -/
  bounded : len before.out ≤ maxSpellingsLen →
    4 * len after.out + len before.out ≤ 5 * maxSpellingsLen + 4 * longestPiece
  /-- A text too long stays as it is. -/
  cut : maxSpellingsLen < len before.out → len after.out = len before.out

/-- What holds between two alternatives of a group that a call entered. -/
structure Between (before during : Written) : Prop where
  /-- The group's opening was written. -/
  longer : len before.out + 4 ≤ len during.out
  /-- Each call but the first has its own byte. -/
  counted : during.calls + len before.out ≤ before.calls + 1 + len during.out
  /-- There is place for the group's end. -/
  spelled : during.refused = false → 4 * len during.out + (len before.out + 4) ≤ 5 * maxSpellingsLen
  /-- Nor is a text refused longer than that. -/
  bounded : 4 * len during.out + len before.out ≤ 5 * maxSpellingsLen + 4 * longestPiece

/-- Another alternative. -/
theorem Between.alternative {before during after : Written} (between : Between before during)
    (given : during.refused = false) (short : 1 ≤ len piece ∧ len piece ≤ longestPiece)
    (grown : Grown (during.push piece) after) :
    Between before after := by
  obtain ⟨longer, counted, spelled, bounded, cut⟩ := grown
  have front := between.longer
  have calls := between.counted
  have place := between.spelled given
  rw [Written.push_out, len_append] at longer counted spelled bounded cut
  rw [Written.push_calls] at counted
  constructor
  · omega
  · omega
  · intro more
    have total := spelled more
    omega
  · by_cases long : maxSpellingsLen < len during.out + len piece
    · have same := cut long
      omega
    · have total := bounded (Nat.le_of_not_lt long)
      omega

/-- All the alternatives. -/
theorem Between.alternatives {rounds : Nat} {run : Text} {before : Written}
    (each : ∀ length w, Grown w (countSpellings build rounds (run.drop length) w))
    (joined : List (Nat × Text)) {during : Written} (between : Between before during) :
    Between before (joined.foldl (fun w entry => if w.refused then w
      else countSpellings build rounds (run.drop entry.1)
        (w.push (['|'] ++ sourcesOf build entry.2))) during) := by
  induction joined generalizing during with
  | nil => exact between
  | cons entry joined ih =>
    rw [List.foldl_cons]
    apply ih
    cases given : during.refused with
    | true => exact between
    | false =>
      have bar : len ['|'] = 1 := by decide
      have most : longestPiece = 3072 := rfl
      have few := len_sourcesOf build entry.2
      have short : 1 ≤ len (['|'] ++ sourcesOf build entry.2) ∧
          len (['|'] ++ sourcesOf build entry.2) ≤ longestPiece := by
        rw [len_append]
        omega
      exact between.alternative given short (each _ _)

/-- A call at the end of a run. -/
theorem Grown.entered (short : ¬ maxSpellingsLen < len w.out) :
    Grown w { w with calls := w.calls + 1 } := by
  constructor
  · exact Nat.le_refl _
  · show w.calls + 1 + len w.out ≤ _
    exact Nat.le_refl _
  · intro given
    show 4 * len w.out + len w.out ≤ _
    omega
  · intro enough
    show 4 * len w.out + len w.out ≤ _
    omega
  · intro long
    exact absurd long short

/-- A call that finds the text too long. -/
theorem Grown.refused (long : maxSpellingsLen < len w.out) :
    Grown w { w with calls := w.calls + 1, refused := true } := by
  constructor
  · exact Nat.le_refl _
  · show w.calls + 1 + len w.out ≤ _
    exact Nat.le_refl _
  · intro given
    cases given
  · intro enough
    omega
  · intro _
    rfl

/-- A call that adds a piece and calls for the rest. -/
theorem Grown.onward {w after : Written} (short : ¬ maxSpellingsLen < len w.out)
    (few : 1 ≤ len piece ∧ len piece ≤ longestPiece)
    (grown : Grown (Written.push ⟨w.out, w.calls + 1, w.refused⟩ piece) after) : Grown w after := by
  obtain ⟨longer, counted, spelled, bounded, cut⟩ := grown
  rw [Written.push_out, len_append] at longer counted spelled bounded cut
  rw [Written.push_calls] at counted
  dsimp only at longer counted spelled bounded cut
  constructor
  · omega
  · omega
  · intro given
    have total := spelled given
    omega
  · intro enough
    by_cases long : maxSpellingsLen < len w.out + len piece
    · have same := cut long
      omega
    · have total := bounded (Nat.le_of_not_lt long)
      omega
  · intro long
    exact absurd long short

/-- The first alternative of a group. -/
theorem Between.first {w after : Written} (short : ¬ maxSpellingsLen < len w.out)
    (few : 4 ≤ len piece ∧ len piece ≤ longestPiece)
    (grown : Grown (Written.push ⟨w.out, w.calls + 1, w.refused⟩ piece) after) :
    Between w after := by
  obtain ⟨longer, counted, spelled, bounded, cut⟩ := grown
  rw [Written.push_out, len_append] at longer counted spelled bounded cut
  rw [Written.push_calls] at counted
  dsimp only at longer counted spelled bounded cut
  constructor
  · omega
  · omega
  · intro given
    have total := spelled given
    omega
  · by_cases long : maxSpellingsLen < len w.out + len piece
    · have same := cut long
      omega
    · have total := bounded (Nat.le_of_not_lt long)
      omega

/-- The group closed. -/
theorem Between.close {w during : Written} (short : ¬ maxSpellingsLen < len w.out)
    (between : Between w during) : Grown w (if during.refused then during else during.push [')']) := by
  obtain ⟨longer, counted, spelled, bounded⟩ := between
  have closes : len [')'] = 1 := by decide
  cases given : during.refused with
  | true =>
    rw [if_pos rfl]
    constructor
    · omega
    · exact counted
    · intro other
      rw [given] at other
      cases other
    · intro _
      exact bounded
    · intro long
      exact absurd long short
  | false =>
    have place := spelled given
    rw [if_neg (by decide)]
    constructor
    · rw [Written.push_out, len_append]
      omega
    · rw [Written.push_out, len_append, Written.push_calls]
      omega
    · intro _
      rw [Written.push_out, len_append]
      omega
    · intro _
      rw [Written.push_out, len_append]
      omega
    · intro long
      exact absurd long short

/-- Every call keeps the text and the calls within their bounds. -/
theorem countSpellings_grown (rounds : Nat) (run : Text) (w : Written) :
    Grown w (countSpellings build rounds run w) := by
  have most : longestPiece = 3072 := rfl
  induction rounds generalizing run w with
  | zero =>
    unfold countSpellings
    by_cases long : maxSpellingsLen < len w.out
    · rw [if_pos long]
      exact Grown.refused long
    · rw [if_neg long]
      cases run <;> exact Grown.entered long
  | succ rounds ih =>
    unfold countSpellings
    by_cases long : maxSpellingsLen < len w.out
    · rw [if_pos long]
      exact Grown.refused long
    · rw [if_neg long]
      cases run with
      | nil => exact Grown.entered long
      | cons c rest =>
        have few := len_aloneText build c
        dsimp only
        by_cases single : joinedFolds (c :: rest) = []
        · rw [if_pos single]
          exact Grown.onward long ⟨few.1, by omega⟩ (ih _ _)
        · rw [if_neg single]
          have opens : len "(?:".toList = 3 := by decide
          have piece : 4 ≤ len ("(?:".toList ++ aloneText build c) ∧
              len ("(?:".toList ++ aloneText build c) ≤ longestPiece := by
            rw [len_append]
            omega
          have first := Between.first long piece (ih rest _)
          have others := first.alternatives build (fun length w => ih ((c :: rest).drop length) w)
            (joinedFolds (c :: rest))
          exact others.close long

end

/-- What `write_spellings` makes of a run from nothing, with its calls counted. -/
def expansion (build : Build) (run : Text) : Written :=
  countSpellings build run.length run ⟨[], 0, false⟩

/-- An expansion matches every spelling of the run it is for and nothing that folds otherwise, and
however many spellings there are, its text and the calls that write it are bounded. -/
theorem expandRun_sound (build : Build) (run : Text) :
    (∀ text, expandRun build run = .ok (some text) → ∃ language : Language Char,
      spelledLanguage text = some language ∧
      (∀ word ∈ language, fullFolds word = fullFolds run) ∧ run ∈ language ∧
      ∀ word, Respelled run word → word ∈ language) ∧
    (expansion build run).answer = writeSpellings build run.length run [] ∧
    len (expansion build run).out ≤ 2 * maxSpellingsLen ∧
    (expansion build run).calls ≤ 2 * maxSpellingsLen + 1 := by
  have within : ∀ {word : Text}, word ∈ spelledWords run.length run ↔ Respelled run word :=
    mem_spelledWords (Nat.le_refl _)
  have grown : Grown ⟨[], 0, false⟩ (expansion build run) := countSpellings_grown build _ _ _
  have limit : maxSpellingsLen = 4096 := rfl
  have most : longestPiece = 3072 := rfl
  have total : 4 * len (expansion build run).out + 0 ≤ 5 * maxSpellingsLen + 4 * longestPiece :=
    grown.bounded (Nat.zero_le _)
  have counted : (expansion build run).calls + 0 ≤ 0 + 1 + len (expansion build run).out :=
    grown.counted
  refine ⟨?_, countSpellings_answer build _ _ _ rfl, by omega, by omega⟩
  intro text answers
  refine ⟨_, expandRun_language build answers, ?_, ?_, ?_⟩
  · intro word member
    exact (within.mp member).fullFolds
  · exact within.mpr (Respelled.refl run)
  · intro word respelled
    exact within.mpr respelled

/-- A doubled `s` is matched by the sharp one. -/
theorem expandRun_sound_sharp :
    expandRun asciiBuild "ss".toList =
      .ok (some "(?:ss|[\\x\x7bDF\x7d\\x\x7b1E9E\x7d])".toList) ∧
    ∃ language : Language Char,
      spelledLanguage "(?:ss|[\\x\x7bDF\x7d\\x\x7b1E9E\x7d])".toList = some language ∧
        ['\u00df'] ∈ language ∧ ∀ word ∈ language, fullFolds word = fullFolds "ss".toList := by
  have expands : expandRun asciiBuild "ss".toList =
      .ok (some "(?:ss|[\\x\x7bDF\x7d\\x\x7b1E9E\x7d])".toList) := by
    decide +kernel
  have member : ('\u00df', "ss".toList) ∈ multi := by decide
  have spells : "ss".toList.map simpleFold = "ss".toList := by decide +kernel
  have respelled : Respelled "ss".toList ['\u00df'] := Respelled.join member spells .nil
  obtain ⟨language, reads, folds, -, all⟩ := (expandRun_sound asciiBuild "ss".toList).1 _ expands
  exact ⟨expands, language, reads, all _ respelled, folds⟩

end Kobako.Regexp
