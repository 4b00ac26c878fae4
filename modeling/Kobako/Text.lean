import Kobako.Outcome

/-!
# Text by byte places

Text as the list of its characters, with every place in it counted in the bytes of its UTF-8, as
a `str` counts them. Cutting text at a place that is past its end, or within a character, is what
a slice panics on; here it answers none. Each search says where in the text it found what it was
asked for, so that a cut made at an answer is known to stand.
-/

namespace Kobako

/-- A `str`, by its characters. -/
abbrev Text := List Char

namespace Text

/-- `str::len`. -/
def len : Text → Nat
  | [] => 0
  | c :: rest => c.utf8Size + len rest

@[simp] theorem len_nil : len [] = 0 := rfl

@[simp] theorem len_cons (c : Char) (rest : Text) : len (c :: rest) = c.utf8Size + len rest := rfl

@[simp] theorem len_append (front back : Text) : len (front ++ back) = len front + len back := by
  induction front with
  | nil => simp
  | cons c rest ih => simp [ih, Nat.add_assoc]

variable {text : Text} {place : Nat} {front back : Text} {wanted : Char → Bool}

/-- Only empty text has no bytes. -/
theorem len_pos (filled : text ≠ []) : 0 < len text := by
  cases text with
  | nil => exact absurd rfl filled
  | cons c rest =>
    have one := c.utf8Size_pos
    simp only [len_cons]
    omega

/-- What each character of a text is seen to have, every one of them has. -/
theorem forall_mem {p : Char → Prop} [DecidablePred p]
    (all : (text.all fun c => decide (p c)) = true) : ∀ c ∈ text, p c := by
  intro c member
  exact of_decide_eq_true (List.all_eq_true.mp all c member)

/-! ## Cuts -/

/-- `str::split_at`, none where it panics. -/
def splitAt : Text → Nat → Option (Text × Text)
  | text, 0 => some ([], text)
  | [], _ + 1 => none
  | c :: rest, place + 1 =>
    if c.utf8Size ≤ place + 1 then
      (splitAt rest (place + 1 - c.utf8Size)).map fun cut => (c :: cut.1, cut.2)
    else none

/-- Text is cut at a place exactly where a stretch of it that long ends. -/
theorem splitAt_iff {text front back : Text} :
    splitAt text place = some (front, back) ↔ text = front ++ back ∧ len front = place := by
  induction text generalizing place front back with
  | nil =>
    cases place with
    | zero => cases front <;> simp [splitAt, eq_comm]
    | succ place => cases front <;> simp [splitAt]
  | cons c rest ih =>
    have one := c.utf8Size_pos
    cases place with
    | zero =>
      cases front with
      | nil => simp [splitAt, eq_comm]
      | cons d front =>
        have two := d.utf8Size_pos
        simp only [splitAt, Option.some.injEq, Prod.mk.injEq, reduceCtorEq, false_and, len_cons,
          false_iff, not_and]
        intro _
        omega
    | succ place =>
      cases front with
      | nil =>
        simp only [splitAt, len_nil, reduceCtorEq, and_false, iff_false]
        split <;> simp
      | cons d front =>
        simp only [splitAt, List.cons_append, List.cons.injEq, len_cons]
        constructor
        · intro cut
          split at cut
          · rename_i fits
            simp only [Option.map_eq_some_iff, Prod.mk.injEq, List.cons.injEq, Prod.exists] at cut
            obtain ⟨front', back', found, ⟨rfl, rfl⟩, rfl⟩ := cut
            obtain ⟨same, long⟩ := ih.mp found
            exact ⟨⟨rfl, same⟩, by omega⟩
          · cases cut
        · rintro ⟨⟨rfl, same⟩, long⟩
          have found := ih.mpr ⟨same, rfl⟩
          rw [if_pos (by omega), show place + 1 - c.utf8Size = len front by omega, found]
          rfl

/-- Text cut where a stretch of it ends. -/
theorem splitAt_append (front back : Text) :
    splitAt (front ++ back) (len front) = some (front, back) := splitAt_iff.mpr ⟨rfl, rfl⟩

/-- `&text[place..]`, none where it panics. -/
def sliceFrom (text : Text) (place : Nat) : Option Text := (splitAt text place).map Prod.snd

/-- `&text[..place]`, none where it panics. -/
def sliceTo (text : Text) (place : Nat) : Option Text := (splitAt text place).map Prod.fst

/-- `&text[start..stop]`, none where it panics. -/
def slice (text : Text) (start stop : Nat) : Option Text :=
  if start ≤ stop then (sliceTo text stop).bind (sliceFrom · start) else none

theorem sliceFrom_append (long : len front = place) :
    sliceFrom (front ++ back) place = some back := by
  rw [sliceFrom, ← long, splitAt_append]
  rfl

theorem sliceTo_append (long : len front = place) :
    sliceTo (front ++ back) place = some front := by
  rw [sliceTo, ← long, splitAt_append]
  rfl

theorem slice_append {front middle back : Text} {start stop : Nat} (first : len front = start)
    (second : len front + len middle = stop) :
    slice (front ++ middle ++ back) start stop = some middle := by
  rw [slice, if_pos (by omega), sliceTo_append (by rw [len_append, second]), Option.bind_some,
    sliceFrom_append first]

/-- The rest of text whose first character is one byte long. -/
theorem sliceFrom_one {c : Char} (short : c.utf8Size = 1) (rest : Text) :
    sliceFrom (c :: rest) 1 = some rest := by
  have long : len [c] = 1 := by rw [len_cons, len_nil, short]
  exact sliceFrom_append long

/-! ## Searches -/

/-- `str::find` of a character, as the place it stands at. -/
def find (wanted : Char → Bool) : Text → Option Nat
  | [] => none
  | c :: rest => if wanted c then some 0 else (find wanted rest).map (c.utf8Size + ·)

/-- What is found is the first of its kind, and the place is where it stands. -/
theorem find_some (found : find wanted text = some place) :
    ∃ front c back, text = front ++ c :: back ∧ len front = place ∧ wanted c = true ∧
      ∀ d ∈ front, wanted d = false := by
  induction text generalizing place with
  | nil => cases found
  | cons c rest ih =>
    unfold find at found
    split at found
    · rename_i here
      cases found
      exact ⟨[], c, rest, rfl, rfl, here, by simp⟩
    · rename_i passed
      obtain ⟨later, there, rfl⟩ := Option.map_eq_some_iff.mp found
      obtain ⟨front, d, back, rfl, rfl, wants, before⟩ := ih there
      refine ⟨c :: front, d, back, rfl, rfl, wants, ?_⟩
      intro e mem
      rcases List.mem_cons.mp mem with rfl | older
      · simpa using passed
      · exact before e older

/-- What is not found does not stand in the text. -/
theorem find_none :
    find wanted text = none ↔ ∀ c ∈ text, wanted c = false := by
  induction text with
  | nil => simp [find]
  | cons c rest ih =>
    unfold find
    split
    · rename_i here
      simp [here]
    · rename_i passed
      simp [ih, passed]

/-- The first of its kind is found where it stands. -/
theorem find_append {c : Char} (wants : wanted c = true) (before : ∀ d ∈ front, wanted d = false) :
    find wanted (front ++ c :: back) = some (len front) := by
  induction front with
  | nil => simp [find, wants]
  | cons d front ih =>
    have passed : wanted d = false := before d List.mem_cons_self
    have later := ih fun e mem => before e (List.mem_cons_of_mem _ mem)
    simp [find, passed, later]

/-- The stretch before the first of a kind, or the whole text where there is none. -/
theorem find_getD (wanted : Char → Bool) (text : Text) :
    ∃ front back, text = front ++ back ∧ (∀ d ∈ front, wanted d = false) ∧
      (find wanted text).getD (len text) = len front ∧ (back.head?.all wanted = true) := by
  cases found : find wanted text with
  | none => exact ⟨text, [], by simp, find_none.mp found, rfl, rfl⟩
  | some place =>
    obtain ⟨front, c, back, split, long, wants, before⟩ := find_some found
    exact ⟨front, c :: back, split, before, by rw [Option.getD_some, long], by simpa using wants⟩

/-- `str::rfind` of a character, as the place the last of its kind stands at. -/
def rfind (wanted : Char → Bool) : Text → Option Nat
  | [] => none
  | c :: rest =>
    match rfind wanted rest with
    | some later => some (c.utf8Size + later)
    | none => if wanted c then some 0 else none

/-- What is found is the last of its kind, and the place is where it stands. -/
theorem rfind_some (found : rfind wanted text = some place) :
    ∃ front c back, text = front ++ c :: back ∧ len front = place ∧ wanted c = true := by
  induction text generalizing place with
  | nil => cases found
  | cons c rest ih =>
    unfold rfind at found
    split at found
    · rename_i later there
      cases found
      obtain ⟨front, d, back, rfl, rfl, wants⟩ := ih there
      exact ⟨c :: front, d, back, rfl, rfl, wants⟩
    · split at found
      · rename_i here
        cases found
        exact ⟨[], c, rest, rfl, rfl, here⟩
      · cases found

/-- `str::find` of text. -/
def findText (needle : Text) : Text → Option Nat
  | [] => if needle = [] then some 0 else none
  | c :: rest =>
    if needle <+: c :: rest then some 0 else (findText needle rest).map (c.utf8Size + ·)

/-- Text found stands at the place answered. -/
theorem findText_some {needle text : Text} (found : findText needle text = some place) :
    ∃ front back, text = front ++ needle ++ back ∧ len front = place := by
  induction text generalizing place with
  | nil =>
    unfold findText at found
    split at found
    · rename_i empty
      cases found
      exact ⟨[], [], by simp [empty], rfl⟩
    · cases found
  | cons c rest ih =>
    unfold findText at found
    split at found
    · rename_i here
      cases found
      obtain ⟨back, same⟩ := here
      exact ⟨[], back, by simp [same], rfl⟩
    · obtain ⟨later, there, rfl⟩ := Option.map_eq_some_iff.mp found
      obtain ⟨front, back, same, rfl⟩ := ih there
      exact ⟨c :: front, back, by rw [same]; rfl, rfl⟩

/-! ## Parts -/

/-- `str::strip_prefix`. -/
def stripPrefix (front text : Text) : Option Text :=
  if front <+: text then some (text.drop front.length) else none

theorem stripPrefix_iff {front text rest : Text} :
    stripPrefix front text = some rest ↔ text = front ++ rest := by
  unfold stripPrefix
  constructor
  · intro stripped
    split at stripped
    · rename_i starts
      obtain ⟨back, rfl⟩ := starts
      rw [List.drop_left, Option.some.injEq] at stripped
      rw [stripped]
    · cases stripped
  · rintro rfl
    rw [if_pos (List.prefix_append front rest), List.drop_left]

/-- `str::split_once` of a character. -/
def splitOnce (wanted : Char) : Text → Option (Text × Text)
  | [] => none
  | c :: rest =>
    if c = wanted then some ([], rest)
    else (splitOnce wanted rest).map fun cut => (c :: cut.1, cut.2)

theorem splitOnce_some {wanted : Char} {text front back : Text}
    (cut : splitOnce wanted text = some (front, back)) :
    text = front ++ wanted :: back ∧ wanted ∉ front := by
  induction text generalizing front with
  | nil => cases cut
  | cons c rest ih =>
    unfold splitOnce at cut
    split at cut
    · rename_i here
      cases cut
      exact ⟨by rw [here]; rfl, by simp⟩
    · rename_i passed
      obtain ⟨⟨front', back'⟩, there, same⟩ := Option.map_eq_some_iff.mp cut
      cases same
      obtain ⟨rfl, before⟩ := ih there
      refine ⟨rfl, ?_⟩
      simp only [List.mem_cons, not_or]
      exact ⟨fun same => passed same.symm, before⟩

end Text

end Kobako
