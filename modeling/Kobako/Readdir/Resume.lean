import Kobako.Readdir.Positions
import Mathlib.Data.List.Nodup

/-!
# A listing resumes exactly

One call of `fd_readdir` leaves the file where the next goes on, at the `d_next` of the last entry
it wrote whole. By induction over the capacities, a guest calling again and again reads every entry
once, in order, and then nothing.
-/

namespace Kobako.Readdir

open Vfs

/-! ## One call -/

section Calls

variable {ν : Type} {guestIno : GuestIno} {memory : Memory} {start capacity : Nat}

/-- Where a listing goes on past as many entries. -/
def Directory.resumeAt (dir : Directory ν) (count : Nat) : Nat :=
  following (dir.emits.drop count) dir.ending

/-- The entries a guest is to read of a directory. -/
def Directory.expected (dir : Directory ν) (guestIno : GuestIno) : List Dirent :=
  expect guestIno dir.emits dir.ending

theorem length_expect (emits : List DirEmit) (ending : Nat) :
    (expect guestIno emits ending).length = emits.length := by
  induction emits with
  | nil => rfl
  | cons emit rest ih => rw [expect, List.length_cons, List.length_cons, ih]

theorem drop_expect (emits : List DirEmit) (ending count : Nat) :
    (expect guestIno emits ending).drop count = expect guestIno (emits.drop count) ending := by
  induction emits generalizing count with
  | nil => rw [expect, List.drop_nil, List.drop_nil, expect]
  | cons emit rest ih =>
    cases count with
    | zero => rfl
    | succ count => exact ih count

theorem expect_append (taken rest : List DirEmit) (ending : Nat) :
    expect guestIno (taken ++ rest) ending =
      expect guestIno taken (following rest ending) ++ expect guestIno rest ending := by
  induction taken with
  | nil => rfl
  | cons emit more ih =>
    rw [List.cons_append, expect, expect, ih, List.cons_append]
    congr 2
    cases more with
    | nil => rfl
    | cons second others => rfl

/-- The last entry read goes on where the listing does. -/
theorem getLast?_expect (emits : List DirEmit) (ending cookie : Nat)
    (stands : emits = [] → cookie = ending) :
    (((expect guestIno emits ending).getLast?).map (·.dNext)).getD cookie = ending := by
  induction emits with
  | nil => exact stands rfl
  | cons emit rest ih =>
    cases rest with
    | nil => rfl
    | cons second others =>
      rw [expect, expect, List.getLast?_cons_cons, ← expect]
      exact ih (by simp)

theorem endOf_append (first second : List DirEmit) (pos : Nat) :
    endOf (first ++ second) pos = endOf second (endOf first pos) := by
  induction first generalizing pos with
  | nil => rfl
  | cons emit rest ih => exact ih (emit.offset + 1)

/-- A listing that goes on ends where the directory's does. -/
theorem endOf_drop (dir : Directory ν) (count : Nat) :
    endOf (dir.emits.drop count) (dir.resumeAt count) = dir.ending := by
  rw [Directory.resumeAt]
  cases left : dir.emits.drop count with
  | nil => rfl
  | cons emit rest =>
    have whole : endOf (dir.emits.take count ++ dir.emits.drop count) 0 = dir.ending := by
      rw [List.take_append_drop, Directory.ending]
    rw [left, endOf_append] at whole
    exact whole

/-- A listing goes on at a position no further than its end. -/
theorem Directory.resumeAt_le {dir : Directory ν} (steady : dir.Steady) (count : Nat) :
    dir.resumeAt count ≤ dir.ending := by
  rw [Directory.resumeAt]
  cases left : dir.emits.drop count with
  | nil => exact Nat.le_refl _
  | cons emit rest =>
    have member : emit ∈ dir.emits := List.mem_of_mem_drop (left ▸ List.mem_cons_self)
    exact Nat.le_of_lt (lt_endOf (Directory.ascending steady) emit member)

/-- What is left of a listing past more entries. -/
theorem drop_of_split {dir : Directory ν} {count : Nat} {taken rest : List DirEmit}
    (split : dir.emits.drop count = taken ++ rest) :
    dir.emits.drop (count + taken.length) = rest := by
  rw [← List.drop_drop, split, List.drop_left' rfl]

/-- One call's answer: the bytes written, how many entries they hold whole, and the file after. -/
structure Called (dir : Directory ν) (guestIno : GuestIno) (start capacity count : Nat)
    (memory : Memory) (answer : Except Failure Nat × OpenDir × Memory) (taken : Nat)
    (written : List UInt8) : Prop where
  used : answer.1 = .ok written.length
  wrote : answer.2.2 = splice memory start written
  within : written.length ≤ capacity
  keeps : answer.2.1.Keeps dir
  standing : count + taken ≤ dir.emits.length
  seen : dirents written = ((dir.expected guestIno).drop count).take taken
  next : (((dirents written).getLast?).map (·.dNext)).getD (dir.resumeAt count) =
    dir.resumeAt (count + taken)
  progress : ∀ next, (dir.expected guestIno)[count]? = some next →
    headerSize + next.name.length ≤ capacity → 0 < taken
  done : count = dir.emits.length → written = []

/-- A listing that stands where it goes on past as many entries. -/
theorem fillFrom_called (inMemory : InMemory memory start capacity) {dir : Directory ν}
    (steady : dir.Steady) (valid : ∀ emit ∈ dir.emits, verifyDirentName emit.name = .ok ())
    (reachable : dir.ending ≤ offsetMax) {file : OpenDir} (keeps : file.Keeps dir) {count : Nat}
    (within : count ≤ dir.emits.length) (stands : file.pos = dir.resumeAt count) :
    ∃ taken written, Called dir guestIno start capacity count memory
      (fillFrom dir guestIno start capacity file memory) taken written := by
  have begun : Written guestIno memory start capacity [] none ⟨memory, 0, none, none⟩ :=
    ⟨(splice_nil memory start).symm, rfl, rfl, rfl, Nat.zero_le _⟩
  have validLeft : ∀ emit ∈ dir.emits.drop count, verifyDirentName emit.name = .ok () :=
    fun emit member => valid emit (List.mem_of_mem_drop member)
  obtain ⟨taken, rest, cut, split, stop, filled, progress⟩ :=
    feed_fill inMemory (dir.emits.drop count) [] none file.pos _ begun validLeft
  obtain ⟨after, iterated, keepsAfter⟩ :=
    iterateDir_eq (fill start capacity guestIno) steady keeps within stands
      ⟨memory, 0, none, none⟩
  rw [stands, endOf_drop] at stop
  obtain ⟨failed, told, used, room, cutFrom⟩ := filled
  -- what is written, its bytes being those of the entries taken and of the one cut off
  generalize fed : feed (fill start capacity guestIno) (dir.emits.drop count) file.pos
    ⟨memory, 0, none, none⟩ = ended at *
  rw [← stands, fed] at stop
  replace told : writeLast start ended.2.lastWhole ended.1 ended.2.memory =
      .ok (splice memory start ((expect guestIno taken ended.1).flatMap spelled ++ cut)) := told
  replace used : ended.2.used = ((expect guestIno taken ended.1).flatMap spelled ++ cut).length :=
    used
  have bound : ∀ position, position ≤ dir.ending → position < 256 ^ 8 := by
    intro position below
    have most : offsetMax < 256 ^ 8 := by decide
    omega
  have inTaken : ∀ emit ∈ taken, emit ∈ dir.emits.drop count := fun emit member =>
    split ▸ List.mem_append_left rest member
  have stopped : ended.1 = dir.resumeAt (count + taken.length) := by
    rw [stop, Directory.resumeAt, drop_of_split split]
  have read : dirents ((expect guestIno taken ended.1).flatMap spelled ++ cut) =
      expect guestIno taken ended.1 := by
    refine dirents_filled (fits_expect ?_ ?_ ?_) cutFrom ?_
    · exact fun emit member => validLeft emit (inTaken emit member)
    · intro emit member
      have listed : emit ∈ dir.emits := List.mem_of_mem_drop (inTaken emit member)
      exact bound _ (Nat.le_of_lt (lt_endOf (Directory.ascending steady) emit listed))
    · rw [stopped]
      exact bound _ (Directory.resumeAt_le steady _)
    · exact fun emit member => validLeft emit (split ▸ List.mem_append_right taken member)
  have answered : fillFrom dir guestIno start capacity file memory =
      (.ok ((expect guestIno taken ended.1).flatMap spelled ++ cut).length, ⟨ended.1, after⟩,
        splice memory start ((expect guestIno taken ended.1).flatMap spelled ++ cut)) := by
    rw [fillFrom, iterated]
    dsimp only
    rw [told]
    dsimp only
    rw [failed, used]
  rw [answered]
  refine ⟨taken.length, _, rfl, rfl, used ▸ room, keepsAfter, ?_, ?_, ?_, ?_, ?_⟩
  · have length := congrArg List.length split
    rw [List.length_drop, List.length_append] at length
    omega
  · rw [read, Directory.expected, drop_expect, split, stop, expect_append,
      List.take_left' (length_expect taken _)]
  · rw [read, ← stopped]
    apply getLast?_expect
    intro none
    rw [stopped, none]
    rfl
  · intro next standing fits
    have first : (expect guestIno (dir.emits.drop count) dir.ending).head? = some next := by
      rw [← drop_expect, List.head?_drop]
      exact standing
    cases left : dir.emits.drop count with
    | nil =>
      rw [left] at first
      cases first
    | cons emit more =>
      rw [left] at first
      cases first
      have size : (spelled (direntOf guestIno emit 0)).length ≤ capacity := by
        rw [length_spelled]
        exact fits
      apply List.length_pos_iff.mpr
      apply progress emit (by rw [left]; rfl)
      rw [Nat.zero_add]
      exact size
  · intro all
    have none : taken ++ rest = [] := by
      rw [← split, all, List.drop_length]
    obtain ⟨rfl, rfl⟩ := List.append_eq_nil_iff.mp none
    cases cutFrom
    rfl

/-- A call from where a listing goes on past as many entries. -/
theorem readdir_called (inMemory : InMemory memory start capacity) {dir : Directory ν}
    (steady : dir.Steady) (valid : ∀ emit ∈ dir.emits, verifyDirentName emit.name = .ok ())
    (reachable : dir.ending ≤ offsetMax) {file : OpenDir} (keeps : file.Keeps dir) {count : Nat}
    (within : count ≤ dir.emits.length) :
    ∃ taken written, Called dir guestIno start capacity count memory
      (readdir dir guestIno start capacity (dir.resumeAt count) file memory) taken written := by
  rw [readdir]
  by_cases sought : dir.resumeAt count = file.pos
  · rw [if_neg (not_not_intro sought)]
    exact fillFrom_called inMemory steady valid reachable keeps within sought.symm
  · have inRange : dir.resumeAt count ≤ offsetMax :=
      Nat.le_trans (Directory.resumeAt_le steady count) reachable
    have keepsSought : (⟨dir.resumeAt count, file.rdir⟩ : OpenDir).Keeps dir := by
      cases dir with
      | tmpfs s reports own above => trivial
      | rdir answers => exact keeps
    rw [if_pos sought, OpenDir.llseek, if_pos inRange]
    exact fillFrom_called inMemory steady valid reachable keepsSought within rfl

end Calls

/-! ## Calls one after another -/

section Runs

variable {ν : Type} {guestIno : GuestIno} {start : Nat}

/-- All the entries a guest read of its calls. -/
def seenIn (calls : List Heard) : List Dirent := calls.flatMap (·.seen)

/-- Each capacity is enough for the entry next in turn, if one is left. -/
def Enough (dir : Directory ν) (guestIno : GuestIno) (start : Nat) (capacities : List Nat)
    (count : Nat) (file : OpenDir) (memory : Memory) : Prop :=
  ∀ front capacity back, capacities = front ++ capacity :: back →
    ∀ calls last, readOn dir guestIno start front (dir.resumeAt count) file memory = .ok (calls, last) →
      ∀ entry, (dir.expected guestIno)[count + (seenIn calls).length]? = some entry →
        headerSize + entry.name.length ≤ capacity

/-- Only the bytes of a buffer differ. -/
def Inside (memory after : Memory) (start capacity : Nat) : Prop :=
  after.length = memory.length ∧ after.take start = memory.take start ∧
    after.drop (start + capacity) = memory.drop (start + capacity)

theorem inside_splice {memory : Memory} {capacity : Nat} {written : List UInt8}
    (inMemory : InMemory memory start capacity) (within : written.length ≤ capacity) :
    Inside memory (splice memory start written) start capacity := by
  obtain ⟨buffer, -⟩ := inMemory
  have below : (memory.take start).length = start := by
    rw [List.length_take]
    omega
  refine ⟨length_splice (by omega), ?_, ?_⟩
  · rw [splice, List.append_assoc, List.take_left' below]
  · have split : start + capacity = (start + written.length) + (capacity - written.length) := by omega
    rw [split, splice, ← List.drop_drop, List.drop_left', List.drop_drop]
    rw [List.length_append, below]

/-- A guest that made some calls: how many entries it read, and where it goes on. -/
structure ReadSoFar (dir : Directory ν) (guestIno : GuestIno) (count rounds : Nat)
    (calls : List Heard) (seen cookie : Nat) (file : OpenDir) (before memory : Memory) : Prop where
  heard : seenIn calls = ((dir.expected guestIno).drop count).take seen
  within : count + seen ≤ dir.emits.length
  goesOn : cookie = dir.resumeAt (count + seen)
  progress : count + seen = dir.emits.length ∨ rounds ≤ seen
  keeps : file.Keeps dir
  length : memory.length = before.length

/-- Calls with room for the next entry read on entry by entry. -/
theorem readOn_eq {dir : Directory ν} (steady : dir.Steady)
    (valid : ∀ emit ∈ dir.emits, verifyDirentName emit.name = .ok ())
    (reachable : dir.ending ≤ offsetMax) {file : OpenDir} (keeps : file.Keeps dir) {count : Nat}
    (within : count ≤ dir.emits.length) {memory : Memory} (capacities : List Nat)
    (inMemory : ∀ capacity ∈ capacities, InMemory memory start capacity)
    (enough : Enough dir guestIno start capacities count file memory) :
    ∃ calls seen cookie after last,
      readOn dir guestIno start capacities (dir.resumeAt count) file memory =
        .ok (calls, cookie, after, last) ∧
      ReadSoFar dir guestIno count capacities.length calls seen cookie after memory last := by
  induction capacities generalizing count file memory with
  | nil =>
    exact ⟨[], 0, dir.resumeAt count, file, memory, rfl, rfl, within, rfl, .inr (Nat.le_refl 0),
      keeps, rfl⟩
  | cons capacity capacities ih =>
    obtain ⟨buffer, others⟩ := List.forall_mem_cons.mp inMemory
    obtain ⟨taken, written, called⟩ :=
      @readdir_called _ guestIno _ _ _ buffer _ steady valid reachable _ keeps _ within
    cases answered : readdir dir guestIno start capacity (dir.resumeAt count) file memory with
    | mk answer after =>
      obtain ⟨after, left⟩ := after
      rw [answered] at called
      obtain ⟨used, wrote, room, keepsAfter, standing, seen, next, progress, -⟩ := called
      dsimp only at used wrote keepsAfter
      subst used wrote
      have sameLength : (splice memory start written).length = memory.length :=
        length_splice (by have := buffer.buffer; omega)
      have read : dirents (slice (splice memory start written) start written.length) =
          dirents written := by
        rw [slice_splice (by have := buffer.buffer; omega)]
      have size : (dirents written).length = taken := by
        rw [seen, List.length_take, List.length_drop, Directory.expected, length_expect]
        omega
      -- what the first call answers, whatever is called after it
      have step : ∀ rest, readOn dir guestIno start (capacity :: rest) (dir.resumeAt count) file memory =
          (readOn dir guestIno start rest (dir.resumeAt (count + taken)) after
            (splice memory start written)).map
            fun more => (⟨written.length, dirents written⟩ :: more.1, more.2) := by
        intro rest
        rw [readOn, answered]
        dsimp only
        rw [read, next]
        cases readOn dir guestIno start rest (dir.resumeAt (count + taken)) after
          (splice memory start written) with
        | error failure => rfl
        | ok more => rfl
      have enoughLater : Enough dir guestIno start capacities (count + taken) after
          (splice memory start written) := by
        intro front other back split calls last ran entry standing
        apply enough (capacity :: front) other back (by rw [split, List.cons_append])
          (⟨written.length, dirents written⟩ :: calls) last
        · rw [step, ran]
          rfl
        · rw [seenIn, List.flatMap_cons, List.length_append, size, ← Nat.add_assoc]
          exact standing
      have inMemoryLater : ∀ other ∈ capacities, InMemory (splice memory start written) start other := by
        intro other member
        obtain ⟨fits, addressed⟩ := others other member
        exact ⟨sameLength ▸ fits, sameLength ▸ addressed⟩
      obtain ⟨calls, more, cookie, final, last, ran, readOn⟩ :=
        ih keepsAfter standing inMemoryLater enoughLater
      refine ⟨⟨written.length, dirents written⟩ :: calls, taken + more, cookie, final, last, ?_, ?_⟩
      · rw [step, ran]
        rfl
      · refine ⟨?_, ?_, ?_, ?_, readOn.keeps, readOn.length.trans sameLength⟩
        · rw [seenIn, List.flatMap_cons, seen]
          have rest := readOn.heard
          rw [seenIn] at rest
          rw [rest, ← List.drop_drop, List.take_add]
        · rw [← Nat.add_assoc]
          exact readOn.within
        · rw [← Nat.add_assoc]
          exact readOn.goesOn
        · rw [← Nat.add_assoc, List.length_cons]
          rcases readOn.progress with all | rounds
          · exact .inl all
          · by_cases left : count = dir.emits.length
            · have last := readOn.within
              exact .inl (by omega)
            · have moved : 0 < taken := by
                have below : count < (dir.expected guestIno).length := by
                  rw [Directory.expected, length_expect]
                  omega
                have entry := List.getElem?_eq_getElem below
                apply progress _ entry
                exact enough [] capacity capacities rfl [] _ rfl _ entry
              exact .inr (by omega)

/-- An open directory after any calls: opened where the caller's limit leaves room for a listing of
it, and listed from any position into any buffer since. -/
inductive Used (dir : Directory ν) (guestIno : GuestIno) : OpenDir → Prop where
  | opened {cred : Cred} (room : (⟨0, ⟨none, cred⟩⟩ : OpenDir).Keeps dir) :
      Used dir guestIno ⟨0, ⟨none, cred⟩⟩
  | listed {file : OpenDir} (used : Used dir guestIno file) (start capacity cookie : Nat)
      (memory : Memory) :
      Used dir guestIno (readdir dir guestIno start capacity cookie file memory).2.1

/-- A listing from any position keeps what an open directory keeps. -/
theorem iterateDir_keeps {σ : Type} (actor : Actor σ) {dir : Directory ν} {file : OpenDir}
    (keeps : file.Keeps dir) (kept : σ) : (file.iterateDir dir actor kept).2.1.Keeps dir := by
  cases dir with
  | tmpfs s reports own above => trivial
  | rdir answers =>
    intro entries answered
    obtain ⟨after, iterated, keepsAfter⟩ :=
      Rdir.iterate_eq actor answered (keeps entries answered) file.pos kept
    rw [OpenDir.iterateDir]
    dsimp only
    rw [iterated]
    exact keepsAfter

/-- A call keeps what an open directory keeps, once it has sought. -/
theorem fillFrom_keeps {dir : Directory ν} {file : OpenDir} (keeps : file.Keeps dir)
    (capacity : Nat) (memory : Memory) :
    (fillFrom dir guestIno start capacity file memory).2.1.Keeps dir := by
  have listed := iterateDir_keeps (fill start capacity guestIno) keeps ⟨memory, 0, none, none⟩
  rw [fillFrom]
  generalize file.iterateDir dir (fill start capacity guestIno) ⟨memory, 0, none, none⟩ = ended
    at listed ⊢
  dsimp only
  split
  · exact listed
  · split
    · exact listed
    · exact listed

/-- An open directory keeps the same whatever was called. -/
theorem Used.keeps {dir : Directory ν} {file : OpenDir} (used : Used dir guestIno file) :
    file.Keeps dir := by
  induction used with
  | opened room => exact room
  | listed used start capacity cookie memory ih =>
    rw [readdir]
    split
    · rw [OpenDir.llseek]
      split
      · rename_i inRange
        split at inRange
        · cases inRange
        · exact ih
      · rename_i sought
        split at sought
        · cases sought
          refine fillFrom_keeps ?_ capacity memory
          cases dir with
          | tmpfs s reports own above => trivial
          | rdir answers => exact ih
        · cases sought
    · exact fillFrom_keeps ih capacity memory

/-- The names a directory holds: each of a Tmpfs once, or those read, in their order. -/
def Directory.Lists (dir : Directory ν) (names : List String) : Prop :=
  match dir with
  | .tmpfs s _ _ _ => names.Nodup ∧ ∀ name, name ∈ names ↔ s.entries.get name ≠ none
  | .rdir answers => ∃ entries, answers.read = .ok entries ∧ names = entries.map (·.name)

theorem names_expect (emits : List DirEmit) (ending : Nat) :
    (expect guestIno emits ending).map (·.name) = emits.map fun emit => nameBytes emit.name := by
  induction emits with
  | nil => rfl
  | cons emit rest ih =>
    rw [expect, List.map_cons, List.map_cons, ih]
    rfl

theorem names_numbered (index : Nat) (entries : List DirEntry) :
    (numbered index entries).map (·.name) = entries.map (·.name) := by
  induction entries generalizing index with
  | nil => rfl
  | cons entry rest ih =>
    rw [numbered, List.map_cons, List.map_cons, ih]
    rfl

theorem names_standing {s : Tmpfs.State ν} {reports : Reports ν} {places : List (Nat × String)}
    (stand : ∀ place ∈ places, ∃ node, s.entries.get place.2 = some node) :
    (places.filterMap (standing s reports)).map (·.name) = places.map (·.2) := by
  induction places with
  | nil => rfl
  | cons place places ih =>
    obtain ⟨⟨node, held⟩, others⟩ := List.forall_mem_cons.mp stand
    rw [List.filterMap_cons, standing, held]
    show place.2 :: (places.filterMap (standing s reports)).map (·.name) = _
    rw [ih others, List.map_cons]

/-- A Tmpfs directory's positions name each entry once. -/
theorem positions_list {s : Tmpfs.State ν} (indexed : s.Indexed) :
    (s.offsets.bindings.map (·.2)).Nodup ∧
      ∀ name, name ∈ s.offsets.bindings.map (·.2) ↔ s.entries.get name ≠ none := by
  constructor
  · apply List.Nodup.map_on
    · intro first firstHeld second secondHeld same
      have one := (indexed.inverse first.1 first.2).mp firstHeld
      have other := (indexed.inverse second.1 second.2).mp secondHeld
      rw [← same] at other
      exact Prod.ext (OrderedMap.same_value one other) same
    · have apart : ∀ {first second : Nat × String}, first.1 < second.1 → first ≠ second := by
        rintro first second less rfl
        exact Nat.lt_irrefl _ less
      exact s.offsets.ascending.imp apart
  · intro name
    rw [List.mem_map, Option.ne_none_iff_exists']
    constructor
    · rintro ⟨place, member, rfl⟩
      exact standing_some indexed member
    · rintro ⟨node, held⟩
      obtain ⟨offset, stands⟩ := (indexed.named name).mpr ⟨node, OrderedMap.get_eq_some.mp held⟩
      exact ⟨(offset, name), (indexed.inverse offset name).mpr stands, rfl⟩

/-- A guest is to read `.`, `..` and the names a directory holds. -/
theorem Directory.expected_names {dir : Directory ν} (steady : dir.Steady) :
    ∃ names, dir.Lists names ∧
      (dir.expected guestIno).map (·.name) = ("." :: ".." :: names).map nameBytes := by
  have named : (dir.expected guestIno).map (·.name) = (dir.emits.map (·.name)).map nameBytes := by
    rw [Directory.expected, names_expect, List.map_map]
    rfl
  rw [named]
  cases dir with
  | tmpfs s reports own above =>
    have lists : (Directory.tmpfs s reports own above).Lists (s.offsets.bindings.map (·.2)) :=
      positions_list steady
    have stand := @names_standing _ s reports _ fun place member => standing_some steady member
    refine ⟨_, lists, ?_⟩
    rw [← stand]
    rfl
  | rdir answers =>
    obtain ⟨entries, answered⟩ := steady
    rw [Directory.emits, answered]
    dsimp only
    rw [names_numbered]
    rw [Answers.whole] at answered
    cases read : answers.read with
    | error error =>
      rw [read] at answered
      cases answered
    | ok found =>
      refine ⟨found.map (·.name), ⟨found, read, rfl⟩, ?_⟩
      rw [read] at answered
      cases own : answers.own with
      | error error =>
        rw [dots, own] at answered
        cases answered
      | ok dot =>
        cases above : answers.above with
        | error error =>
          rw [dots, own, above] at answered
          cases answered
        | ok dotdot =>
          rw [dots, own, above] at answered
          rw [← Except.ok.inj answered]
          rfl

/-- Each entry a guest is to read says where the listing goes on past it. -/
theorem dNext_expect {emits : List DirEmit} {ending index : Nat} {dirent : Dirent}
    (standing : (expect guestIno emits ending)[index]? = some dirent) :
    dirent.dNext = following (emits.drop (index + 1)) ending := by
  induction emits generalizing index with
  | nil => cases standing
  | cons emit rest ih =>
    cases index with
    | zero =>
      cases standing
      rfl
    | succ index => exact ih standing

/-- However a directory that does not change was listed before, calls from the start or from the
`d_next` of any entry read the entries from there on, each once and in order, as long as each buffer
takes the next; once all are read, any call writes nothing, and no call writes outside its buffer.
-/
theorem readdir_resumes (dir : Directory ν) (guestIno : GuestIno) (steady : dir.Steady)
    (valid : ∀ emit ∈ dir.emits, verifyDirentName emit.name = .ok ())
    (reachable : dir.ending ≤ offsetMax) (file : OpenDir) (used : Used dir guestIno file)
    (start : Nat) (memory : Memory) (capacities : List Nat)
    (inMemory : ∀ capacity ∈ capacities, InMemory memory start capacity)
    (count : Nat) (within : count ≤ dir.emits.length)
    (enough : Enough dir guestIno start capacities count file memory) :
    (∃ names, dir.Lists names ∧
      (dir.expected guestIno).map (·.name) = ("." :: ".." :: names).map nameBytes) ∧
    dir.resumeAt 0 = 0 ∧
    (∀ index entry, (dir.expected guestIno)[index]? = some entry →
      entry.dNext = dir.resumeAt (index + 1)) ∧
    ∃ calls cookie after last,
      readOn dir guestIno start capacities (dir.resumeAt count) file memory =
        .ok (calls, cookie, after, last) ∧
      seenIn calls <+: (dir.expected guestIno).drop count ∧
      (dir.emits.length - count ≤ capacities.length →
        seenIn calls = (dir.expected guestIno).drop count) ∧
      ∀ capacity, InMemory memory start capacity → ∃ written,
        (readdir dir guestIno start capacity cookie after last).1 = .ok written ∧
        written ≤ capacity ∧
        Inside last (readdir dir guestIno start capacity cookie after last).2.2 start capacity ∧
        (seenIn calls = (dir.expected guestIno).drop count → written = 0) := by
  have length : (dir.expected guestIno).length = dir.emits.length := length_expect _ _
  refine ⟨Directory.expected_names steady, ?_, fun index entry => dNext_expect, ?_⟩
  · cases dir with
    | tmpfs s reports own above => rfl
    | rdir answers =>
      obtain ⟨entries, answered⟩ := steady
      rw [Directory.resumeAt, Directory.ending, Directory.emits, answered]
      cases entries with
      | nil => rfl
      | cons entry rest => rfl
  · obtain ⟨calls, seen, cookie, after, last, ran, so⟩ :=
      readOn_eq steady valid reachable used.keeps within capacities inMemory enough
    refine ⟨calls, cookie, after, last, ran, ?_, ?_, ?_⟩
    · rw [so.heard]
      exact List.take_prefix _ _
    · intro rounds
      rw [so.heard]
      apply List.take_of_length_le
      rw [List.length_drop, length]
      have progress := so.progress
      omega
    · intro capacity buffer
      have bufferLast : InMemory last start capacity :=
        ⟨so.length.symm ▸ buffer.buffer, so.length.symm ▸ buffer.addressed⟩
      obtain ⟨taken, written, called⟩ :=
        @readdir_called _ guestIno _ _ _ bufferLast _ steady valid reachable _ so.keeps _ so.within
      rw [so.goesOn]
      refine ⟨written.length, called.used, called.within, ?_, ?_⟩
      · rw [called.wrote]
        exact inside_splice bufferLast called.within
      · intro all
        have everything := congrArg List.length all
        rw [so.heard, List.length_take, List.length_drop, length] at everything
        rw [called.done (by have := so.within; omega)]
        rfl

/-- A Tmpfs directory holding the file `a`, its node the inode number. -/
def holdsA : Directory Nat :=
  .tmpfs (Tmpfs.State.new.hold (fun _ => false) "a" 7).1 (fun ino => (.regFile, 1, ino)) none none

/-- Three calls with room for one entry each read `.`, `..` and `a`, and a fourth nothing. -/
theorem readdir_resumes_a :
    ∃ calls cookie after last,
      readOn holdsA (fun _ => 0) 0 [30, 30, 30] 0 ⟨0, ⟨none, none⟩⟩ (List.replicate 64 0) =
        .ok (calls, cookie, after, last) ∧
      (seenIn calls).map (·.name) = [".", "..", "a"].map nameBytes ∧
      (readdir holdsA (fun _ => 0) 0 30 cookie after last).1 = .ok 0 := by
  have steady : holdsA.Steady := Tmpfs.State.hold_indexed _ Tmpfs.State.new_indexed "a" 7
  have valid : ∀ emit ∈ holdsA.emits, verifyDirentName emit.name = .ok () := by decide
  have inMemory : ∀ capacity ∈ [30, 30, 30], InMemory (List.replicate 64 0) 0 capacity := by
    intro capacity member
    have same : capacity = 30 := by simpa using member
    exact same ▸ ⟨by decide, by decide⟩
  have enough : Enough holdsA (fun _ => 0) 0 [30, 30, 30] 0 ⟨0, ⟨none, none⟩⟩
      (List.replicate 64 0) := by
    intro front capacity back split calls last ran entry standing
    have size : ∀ entry ∈ holdsA.expected fun _ => 0, headerSize + entry.name.length ≤ 30 := by
      decide
    have same : capacity = 30 := by
      have member : capacity ∈ [30, 30, 30] := split ▸ List.mem_append_right front List.mem_cons_self
      simpa using member
    exact same ▸ size entry (List.mem_of_getElem? standing)
  obtain ⟨-, -, -, calls, cookie, after, last, ran, -, all, more⟩ :=
    readdir_resumes holdsA (fun _ => 0) steady valid (by decide) ⟨0, ⟨none, none⟩⟩ (.opened trivial)
      0 (List.replicate 64 0) [30, 30, 30] inMemory 0 (Nat.zero_le _) enough
  have read := all (by decide)
  obtain ⟨written, answered, -, -, zero⟩ := more 30 ⟨by decide, by decide⟩
  rw [zero read] at answered
  refine ⟨calls, cookie, after, last, ran, ?_, answered⟩
  rw [read]
  decide

end Runs

end Kobako.Readdir
