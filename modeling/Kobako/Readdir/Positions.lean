import Kobako.Readdir.Filling

/-!
# Where entries stand

Both kinds of directory list known entries: a Tmpfs's from each name's stable position on, one read
whole from an index on. From the position of any entry, or from the end, a listing hands over that
entry and those after it, and an open directory keeps nothing that changes what the next one lists.
-/

namespace Kobako.Readdir

open Vfs

/-! ## Directories list known entries -/

section Directories

variable {ν σ : Type}

/-- What a Tmpfs lists at a position. -/
def standing (s : Tmpfs.State ν) (reports : Reports ν) (place : Nat × String) : Option DirEmit :=
  (s.entries.get place.2).map fun node => (dirEntry reports place.2 node).emitAt place.1

variable {s : Tmpfs.State ν} {actor : Actor σ} {pos : Nat} {places : List (Nat × String)}
  {reports : Reports ν} {answers : Answers} {entries : List DirEntry} {rdir : Rdir}

/-- Every position of a Tmpfs directory lists something there. -/
theorem standing_some (indexed : s.Indexed) {place : Nat × String}
    (member : place ∈ s.offsets.bindings) :
    ∃ node, s.entries.get place.2 = some node := by
  obtain ⟨node, held⟩ :=
    (indexed.named place.2).mp ⟨place.1, (indexed.inverse place.1 place.2).mp member⟩
  exact ⟨node, OrderedMap.get_eq_some.mpr held⟩

/-- An entry handed over at the position a listing stands at. -/
theorem dirEmit_eq (ctx : DirContext σ) {entry : DirEntry} {took : Bool} {kept : σ}
    (answered : actor (entry.emitAt ctx.pos) ctx.kept = (took, kept)) :
    ctx.dirEmit actor entry = (took, ⟨ctx.pos, kept⟩) := by
  unfold DirEntry.emitAt at answered
  unfold DirContext.dirEmit DirContext.emit
  rw [answered]

/-- The loop of a Tmpfs directory's listing hands over what stands from its position on. -/
theorem listFrom_eq (actor : Actor σ) (indexed : s.Indexed) (reports : Reports ν)
    (ctx : DirContext σ) :
    listFrom actor s reports ctx =
      ⟨(feed actor ((s.offsets.fromKey ctx.pos).filterMap (standing s reports)) ctx.pos ctx.kept).1,
        (feed actor ((s.offsets.fromKey ctx.pos).filterMap (standing s reports)) ctx.pos
          ctx.kept).2⟩ := by
  generalize remaining : s.offsets.fromKey ctx.pos = places
  induction places generalizing ctx with
  | nil =>
    have absent : s.entryFrom ctx.pos = none := by
      cases found : s.entryFrom ctx.pos with
      | none => rfl
      | some entry =>
        rw [fromKey_entryFrom found] at remaining
        cases remaining
    rw [listFrom]
    split
    · rfl
    · rename_i found
      rw [absent] at found
      cases found
  | cons place places ih =>
    have member : place ∈ s.offsets.bindings := by
      have held : place ∈ s.offsets.fromKey ctx.pos := remaining ▸ List.mem_cons_self
      exact (List.mem_filter.mp held).1
    obtain ⟨node, stands⟩ := standing_some indexed member
    have first : s.offsets.firstFrom ctx.pos = some place := by
      cases found : s.offsets.firstFrom ctx.pos with
      | none =>
        rw [OrderedMap.fromKey_eq_nil found] at remaining
        cases remaining
      | some other =>
        rw [OrderedMap.fromKey_eq_cons found] at remaining
        rw [(List.cons.inj remaining).1]
    have found : s.entryFrom ctx.pos = some (place.1, place.2, node) := by
      rw [Tmpfs.State.entryFrom, first]
      show (s.entries.get place.2).map _ = _
      rw [stands]
      rfl
    have onward : s.offsets.fromKey (place.1 + 1) = places := by
      rw [fromKey_entryFrom found] at remaining
      exact (List.cons.inj remaining).2
    have emitted : standing s reports place =
        some ((dirEntry reports place.2 node).emitAt place.1) := by
      rw [standing, stands]
      rfl
    rw [listFrom, List.filterMap_cons, emitted]
    split
    · rename_i absent
      rw [found] at absent
      cases absent
    · rename_i same
      rw [found] at same
      cases same
      rw [feed]
      cases answered : actor ((dirEntry reports place.2 node).emitAt place.1) ctx.kept with
      | mk took kept =>
        rw [dirEmit_eq (ctx.setPos place.1) answered]
        cases took with
        | false => rfl
        | true => exact ih ⟨place.1 + 1, kept⟩ onward

/-- Entries read whole stand each at its index. -/
def numbered : Nat → List DirEntry → List DirEmit
  | _, [] => []
  | index, entry :: rest => entry.emitAt index :: numbered (index + 1) rest

/-- All a directory read whole lists, `.` and `..` first. -/
def Answers.whole (answers : Answers) : Except FsError (List DirEntry) := do
  let read ← answers.read
  return (← dots answers.own answers.above) ++ read

/-- What a directory lists, each entry where it stands. -/
def Directory.emits : Directory ν → List DirEmit
  | .tmpfs s reports own above =>
    ⟨".", .dir, own, 0⟩ :: ⟨"..", .dir, above, 1⟩ ::
      s.offsets.bindings.filterMap (standing s reports)
  | .rdir answers =>
    match answers.whole with
    | .ok entries => numbered 0 entries
    | .error _ => []

/-- Where a listing of a directory ends. -/
def Directory.ending (dir : Directory ν) : Nat := endOf dir.emits 0

/-- A directory that is there to be listed: a Tmpfs's keeps its positions, one read whole answers.
-/
def Directory.Steady : Directory ν → Prop
  | .tmpfs s _ _ _ => s.Indexed
  | .rdir answers => ∃ entries, answers.whole = .ok entries

/-- Entries standing in order. -/
def Ascending (emits : List DirEmit) : Prop :=
  emits.Pairwise fun first second => first.offset < second.offset

/-- A listing ends no earlier than it starts. -/
theorem le_endOf {emits : List DirEmit} (ascending : Ascending emits)
    (reached : ∀ emit ∈ emits, pos ≤ emit.offset) : pos ≤ endOf emits pos := by
  induction emits generalizing pos with
  | nil => exact Nat.le_refl pos
  | cons emit rest ih =>
    obtain ⟨above, onward⟩ := List.pairwise_cons.mp ascending
    have later : emit.offset + 1 ≤ endOf rest (emit.offset + 1) :=
      ih onward fun other member => Nat.succ_le_of_lt (above other member)
    have here := reached emit List.mem_cons_self
    rw [endOf]
    omega

/-- A listing ends past every entry. -/
theorem lt_endOf {emits : List DirEmit} (ascending : Ascending emits) :
    ∀ emit ∈ emits, emit.offset < endOf emits pos := by
  induction emits generalizing pos with
  | nil => nofun
  | cons first rest ih =>
    obtain ⟨above, onward⟩ := List.pairwise_cons.mp ascending
    have later := le_endOf onward fun other member => Nat.succ_le_of_lt (above other member)
    intro emit member
    rcases List.mem_cons.mp member with rfl | inRest
    · exact later
    · exact ih onward emit inRest

theorem le_numbered (index : Nat) (entries : List DirEntry) :
    ∀ emit ∈ numbered index entries, index ≤ emit.offset := by
  induction entries generalizing index with
  | nil => nofun
  | cons entry rest ih =>
    intro emit member
    rcases List.mem_cons.mp member with rfl | later
    · exact Nat.le_refl index
    · exact Nat.le_of_succ_le (ih (index + 1) emit later)

theorem ascending_numbered (index : Nat) (entries : List DirEntry) :
    Ascending (numbered index entries) := by
  induction entries generalizing index with
  | nil => exact .nil
  | cons entry rest ih =>
    exact List.pairwise_cons.mpr ⟨le_numbered (index + 1) rest, ih (index + 1)⟩

theorem drop_numbered (count index : Nat) (entries : List DirEntry) :
    (numbered index entries).drop count = numbered (index + count) (entries.drop count) := by
  induction entries generalizing count index with
  | nil => rw [numbered, List.drop_nil, List.drop_nil, numbered]
  | cons entry rest ih =>
    cases count with
    | zero => rfl
    | succ count =>
      rw [numbered, List.drop_succ_cons, List.drop_succ_cons, ih, Nat.add_right_comm, Nat.add_assoc]

theorem length_numbered (index : Nat) (entries : List DirEntry) :
    (numbered index entries).length = entries.length := by
  induction entries generalizing index with
  | nil => rfl
  | cons entry rest ih => rw [numbered, List.length_cons, List.length_cons, ih]

/-- Entries read whole end at their number. -/
theorem endOf_numbered (index : Nat) (entries : List DirEntry) :
    endOf (numbered index entries) index = index + entries.length := by
  induction entries generalizing index with
  | nil => rfl
  | cons entry rest ih =>
    rw [numbered, endOf]
    show endOf (numbered (index + 1) rest) (index + 1) = _
    rw [ih, List.length_cons]
    omega

/-- What stands at the positions of a Tmpfs directory stands in their order, past the dots. -/
theorem mem_standing {emit : DirEmit} (member : emit ∈ places.filterMap (standing s reports)) :
    ∃ place ∈ places, emit.offset = place.1 := by
  obtain ⟨place, held, stands⟩ := List.mem_filterMap.mp member
  obtain ⟨node, -, rfl⟩ := Option.map_eq_some_iff.mp stands
  exact ⟨place, held, rfl⟩

theorem ascending_standing (ascending : places.Pairwise fun first second => first.1 < second.1) :
    Ascending (places.filterMap (standing s reports)) := by
  induction places with
  | nil => exact .nil
  | cons place places ih =>
    obtain ⟨above, onward⟩ := List.pairwise_cons.mp ascending
    rw [List.filterMap_cons]
    cases stands : standing s reports place with
    | none => exact ih onward
    | some emit =>
      obtain ⟨node, -, rfl⟩ := Option.map_eq_some_iff.mp stands
      refine List.pairwise_cons.mpr ⟨?_, ih onward⟩
      intro other member
      obtain ⟨later, held, same⟩ := mem_standing member
      rw [same]
      exact above later held

/-- A directory lists its entries in order. -/
theorem Directory.ascending {dir : Directory ν} (steady : dir.Steady) : Ascending dir.emits := by
  cases dir with
  | tmpfs s reports own above =>
    have past : ∀ emit ∈ s.offsets.bindings.filterMap (standing s reports), 2 ≤ emit.offset := by
      intro emit member
      obtain ⟨place, held, same⟩ := mem_standing member
      rw [same]
      exact (steady.given place.1 place.2 held).1
    refine List.pairwise_cons.mpr ⟨?_, List.pairwise_cons.mpr ⟨?_, ?_⟩⟩
    · intro emit member
      rcases List.mem_cons.mp member with rfl | later
      · exact Nat.zero_lt_one
      · exact Nat.lt_of_lt_of_le Nat.two_pos (past emit later)
    · intro emit member
      exact past emit member
    · exact ascending_standing s.offsets.ascending
  | rdir answers =>
    obtain ⟨entries, answered⟩ := steady
    rw [Directory.emits, answered]
    exact ascending_numbered 0 entries

/-- One of the dots handed over at its position. -/
theorem emitDot_eq {at_ : Nat} {name : String} {identity : Option Identity} {kept after : σ}
    {took : Bool} (answered : actor ⟨name, .dir, identity, at_⟩ kept = (took, after)) :
    (⟨at_, kept⟩ : DirContext σ).emitDot actor at_ name identity =
      (took, ⟨if took then at_ + 1 else at_, after⟩) := by
  rw [DirContext.emitDot, if_pos rfl, DirContext.emit]
  dsimp only
  rw [answered]
  cases took with
  | false => rfl
  | true => rfl

/-- One of the dots is passed over past its position. -/
theorem emitDot_past {ctx : DirContext σ} {at_ : Nat} {name : String} {identity : Option Identity}
    (past : ctx.pos ≠ at_) :
    ctx.emitDot actor at_ name identity = (true, ctx) := if_neg past

/-- From a position past the dots on, a Tmpfs directory lists what stands there. -/
theorem iterateTmpfs_past (actor : Actor σ) (indexed : s.Indexed) (reports : Reports ν)
    (own above : Option Identity) (past : 2 ≤ pos) (kept : σ) :
    iterateTmpfs actor s reports own above ⟨pos, kept⟩ =
      ⟨(feed actor ((s.offsets.fromKey pos).filterMap (standing s reports)) pos kept).1,
        (feed actor ((s.offsets.fromKey pos).filterMap (standing s reports)) pos kept).2⟩ := by
  have noDot : (⟨pos, kept⟩ : DirContext σ).pos ≠ 0 := by
    show pos ≠ 0
    omega
  have noDotDot : (⟨pos, kept⟩ : DirContext σ).pos ≠ 1 := by
    show pos ≠ 1
    omega
  rw [iterateTmpfs, DirContext.dirEmitDots, emitDot_past noDot]
  dsimp only
  rw [emitDot_past noDotDot]
  exact listFrom_eq actor indexed reports ⟨pos, kept⟩

/-- All positions of a Tmpfs directory are past the dots. -/
theorem fromKey_two (indexed : s.Indexed) :
    s.offsets.fromKey 2 = s.offsets.bindings :=
  List.filter_eq_self.mpr fun place member =>
    decide_eq_true (indexed.given place.1 place.2 member).1

/-- From `..` on, a Tmpfs directory lists it and what stands at its positions. -/
theorem iterateTmpfs_one (actor : Actor σ) (indexed : s.Indexed) (reports : Reports ν)
    (own above : Option Identity) (kept : σ) :
    iterateTmpfs actor s reports own above ⟨1, kept⟩ =
      ⟨(feed actor (⟨"..", .dir, above, 1⟩ :: s.offsets.bindings.filterMap (standing s reports)) 1
          kept).1,
        (feed actor (⟨"..", .dir, above, 1⟩ :: s.offsets.bindings.filterMap (standing s reports)) 1
          kept).2⟩ := by
  have noDot : (⟨1, kept⟩ : DirContext σ).pos ≠ 0 := Nat.one_ne_zero
  rw [iterateTmpfs, DirContext.dirEmitDots, emitDot_past noDot, feed]
  cases answered : actor ⟨"..", .dir, above, 1⟩ kept with
  | mk took after =>
    dsimp only
    rw [emitDot_eq answered]
    cases took with
    | false => rfl
    | true =>
      dsimp only
      rw [← fromKey_two indexed]
      exact listFrom_eq actor indexed reports ⟨2, after⟩

/-- From the start, a Tmpfs directory lists the dots and what stands at its positions. -/
theorem iterateTmpfs_start (actor : Actor σ) (indexed : s.Indexed) (reports : Reports ν)
    (own above : Option Identity) (kept : σ) :
    iterateTmpfs actor s reports own above ⟨0, kept⟩ =
      ⟨(feed actor (Directory.tmpfs s reports own above).emits 0 kept).1,
        (feed actor (Directory.tmpfs s reports own above).emits 0 kept).2⟩ := by
  rw [Directory.emits, feed]
  cases answered : actor ⟨".", .dir, own, 0⟩ kept with
  | mk took after =>
    cases took with
    | false =>
      rw [iterateTmpfs, DirContext.dirEmitDots, emitDot_eq answered]
      rfl
    | true =>
      have onward := iterateTmpfs_one actor indexed reports own above after
      have noDot : (⟨1, after⟩ : DirContext σ).pos ≠ 0 := Nat.one_ne_zero
      rw [iterateTmpfs, DirContext.dirEmitDots, emitDot_past noDot] at onward
      rw [iterateTmpfs, DirContext.dirEmitDots, emitDot_eq answered]
      exact onward

/-- The entries that stand at positions, past as many of them. -/
theorem drop_standing (stand : ∀ place ∈ places, (standing s reports place).isSome) (count : Nat) :
    (places.filterMap (standing s reports)).drop count =
      (places.drop count).filterMap (standing s reports) := by
  induction places generalizing count with
  | nil => rw [List.drop_nil, List.filterMap_nil, List.drop_nil]
  | cons place places ih =>
    obtain ⟨first, others⟩ := List.forall_mem_cons.mp stand
    obtain ⟨emit, stands⟩ := Option.isSome_iff_exists.mp first
    cases count with
    | zero => rfl
    | succ count =>
      rw [List.filterMap_cons, stands, List.drop_succ_cons, List.drop_succ_cons]
      exact ih others count

/-- Where a listing of a Tmpfs directory stands with some entries passed, exactly those left are
reached. -/
theorem fromKey_following (indexed : s.Indexed) (reports : Reports ν) {ending : Nat} (count : Nat)
    (last : ∀ place ∈ s.offsets.bindings, place.1 < ending) :
    (s.offsets.fromKey (following
        ((s.offsets.bindings.filterMap (standing s reports)).drop count) ending)).filterMap
      (standing s reports) =
      (s.offsets.bindings.filterMap (standing s reports)).drop count := by
  have stand : ∀ place ∈ s.offsets.bindings, (standing s reports place).isSome := by
    intro place member
    obtain ⟨node, held⟩ := standing_some indexed member
    rw [standing, held]
    rfl
  rw [drop_standing stand]
  cases split : s.offsets.bindings.drop count with
  | nil =>
    have beyond : s.offsets.fromKey ending = [] :=
      List.filter_eq_nil_iff.mpr fun place member => by
        simpa using last place member
    show (s.offsets.fromKey ending).filterMap _ = _
    rw [beyond]
  | cons place rest =>
    have member : place ∈ s.offsets.bindings :=
      List.mem_of_mem_drop (split ▸ List.mem_cons_self)
    obtain ⟨node, held⟩ := standing_some indexed member
    have first : (place :: rest).filterMap (standing s reports) =
        (dirEntry reports place.2 node).emitAt place.1 :: rest.filterMap (standing s reports) := by
      rw [List.filterMap_cons, standing, held]
      rfl
    have stands : following ((place :: rest).filterMap (standing s reports)) ending = place.1 := by
      rw [first]
      rfl
    rw [stands, OrderedMap.fromKey_drop split]

/-- Entries read whole are handed over each at its index. -/
theorem emitAll_eq (actor : Actor σ) (entries : List DirEntry) (ctx : DirContext σ) :
    (emitAll actor ctx entries).2 =
      ⟨(feed actor (numbered ctx.pos entries) ctx.pos ctx.kept).1,
        (feed actor (numbered ctx.pos entries) ctx.pos ctx.kept).2⟩ := by
  induction entries generalizing ctx with
  | nil => rfl
  | cons entry rest ih =>
    rw [emitAll, numbered, feed]
    cases answered : actor (entry.emitAt ctx.pos) ctx.kept with
    | mk took kept =>
      rw [dirEmit_eq ctx answered]
      cases took with
      | false => rfl
      | true => exact ih ⟨ctx.pos + 1, kept⟩

/-- What an open directory keeps of a listing read whole, whatever was listed: nothing, or what the
directory answers, with room left or taken for it. -/
structure Rdir.Keeps (rdir : Rdir) (answers : Answers) (entries : List DirEntry) : Prop where
  held : ∀ listing, rdir.held = some listing → listing = ⟨entries, answers.cost entries⟩
  room : ∀ committed, rdir.cred = some committed → rdir.held = none →
    committed.used + answers.cost entries ≤ committed.limit
  taken : ∀ committed, rdir.cred = some committed → rdir.held ≠ none →
    answers.cost entries ≤ committed.used ∧ committed.used ≤ committed.limit

/-- With room left, a listing from the start reads the directory and counts it. -/
theorem Rdir.begin_eq (answered : answers.whole = .ok entries)
    (room : ∀ committed, rdir.cred = some committed →
      committed.used + answers.cost entries ≤ committed.limit) :
    ∃ cred, rdir.begin answers = .ok (⟨entries, answers.cost entries⟩, ⟨none, cred⟩) ∧
      ∀ committed, cred = some committed →
        answers.cost entries ≤ committed.used ∧ committed.used ≤ committed.limit := by
  rw [Answers.whole] at answered
  rw [Rdir.begin]
  cases read : answers.read with
  | error error =>
    rw [read] at answered
    cases answered
  | ok found =>
    rw [read] at answered
    cases dotted : dots answers.own answers.above with
    | error error =>
      rw [dotted] at answered
      cases answered
    | ok two =>
      rw [dotted] at answered
      have same : two ++ found = entries := Except.ok.inj answered
      cases holder : rdir.cred with
      | none =>
        refine ⟨none, ?_, nofun⟩
        rw [← same]
        rfl
      | some committed =>
        have enough := room committed holder
        refine ⟨some { committed with used := committed.used + answers.cost entries }, ?_, ?_⟩
        · show (do
            let cred ← securityVmEnoughMemory (answers.cost (two ++ found)) (some committed)
            pure ((⟨two ++ found, answers.cost (two ++ found)⟩, ⟨none, cred⟩) : Listing × Rdir)) = _
          rw [same, securityVmEnoughMemory, if_pos enough]
          rfl
        · intro other counted
          cases counted
          exact ⟨Nat.le_add_left _ _, enough⟩

/-- A listing goes on with what the directory answers, the room for it taken. -/
theorem Rdir.resume_eq (answered : answers.whole = .ok entries) (keeps : rdir.Keeps answers entries)
    (pos : Nat) :
    ∃ left cred, rdir.resume answers pos =
        (left, .ok (⟨entries, answers.cost entries⟩, ⟨none, cred⟩)) ∧
      ∀ committed, cred = some committed →
        answers.cost entries ≤ committed.used ∧ committed.used ≤ committed.limit := by
  rw [Rdir.resume]
  cases holding : rdir.held with
  | none =>
    obtain ⟨cred, begun, taken⟩ :=
      Rdir.begin_eq answered fun committed counted => keeps.room committed counted holding
    exact ⟨rdir, cred, by rw [begun], taken⟩
  | some listing =>
    have same := keeps.held listing holding
    have holds : rdir.held ≠ none := holding ▸ Option.some_ne_none listing
    by_cases start : pos = 0
    · have room : ∀ committed, (rdir.letGo listing).cred = some committed →
          committed.used + answers.cost entries ≤ committed.limit := by
        intro committed counted
        rw [Rdir.letGo, same] at counted
        cases holder : rdir.cred with
        | none =>
          rw [holder] at counted
          cases counted
        | some before =>
          rw [holder] at counted
          cases counted
          have bounds := keeps.taken before holder holds
          show before.used - answers.cost entries + answers.cost entries ≤ before.limit
          omega
      obtain ⟨cred, begun, taken⟩ := Rdir.begin_eq answered room
      refine ⟨rdir.letGo listing, cred, ?_, taken⟩
      dsimp only
      rw [if_neg (not_not_intro start), begun]
    · refine ⟨⟨none, rdir.cred⟩, rdir.cred, ?_, ?_⟩
      · dsimp only
        rw [if_pos start, same]
      · exact fun committed counted => keeps.taken committed counted holds

/-- A directory read whole hands over what it answers from an index on. -/
theorem Rdir.iterate_eq (actor : Actor σ) (answered : answers.whole = .ok entries)
    (keeps : rdir.Keeps answers entries) (pos : Nat) (kept : σ) :
    ∃ after, rdir.iterate actor answers ⟨pos, kept⟩ =
        (.ok (), ⟨(feed actor ((numbered 0 entries).drop pos) pos kept).1,
          (feed actor ((numbered 0 entries).drop pos) pos kept).2⟩, after) ∧
      after.Keeps answers entries := by
  obtain ⟨left, cred, resumed, taken⟩ := Rdir.resume_eq answered keeps pos
  have emitted := emitAll_eq actor (entries.drop pos) ⟨pos, kept⟩
  rw [drop_numbered, Nat.zero_add]
  rw [Rdir.iterate, resumed]
  dsimp only
  rw [emitFrom]
  cases listed : emitAll actor ⟨pos, kept⟩ (entries.drop pos) with
  | mk all ctx =>
    rw [listed] at emitted
    dsimp only at emitted
    cases all with
    | false =>
      refine ⟨⟨some ⟨entries, answers.cost entries⟩, cred⟩, by rw [emitted], ?_, nofun, ?_⟩
      · intro listing same
        cases same
        rfl
      · exact fun committed counted _ => taken committed counted
    | true =>
      refine ⟨⟨none, vmUnacctMemory (answers.cost entries) cred⟩, by rw [emitted]; rfl, nofun, ?_,
        fun _ _ absent => absurd rfl absent⟩
      intro committed counted _
      cases cred with
      | none => cases counted
      | some before =>
        cases counted
        have bounds := taken before rfl
        show before.used - answers.cost entries + answers.cost entries ≤ before.limit
        omega

/-- What an open directory keeps between calls. -/
def OpenDir.Keeps (file : OpenDir) : Directory ν → Prop
  | .tmpfs _ _ _ _ => True
  | .rdir answers => ∀ entries, answers.whole = .ok entries → file.rdir.Keeps answers entries

/-- A listing from the position of an entry, or from its end, hands over that entry and those after
it, and keeps what an open directory keeps. -/
theorem iterateDir_eq (actor : Actor σ) {dir : Directory ν} (steady : dir.Steady) {file : OpenDir}
    (keeps : file.Keeps dir) {count : Nat} (within : count ≤ dir.emits.length)
    (stands : file.pos = following (dir.emits.drop count) dir.ending) (kept : σ) :
    ∃ after, file.iterateDir dir actor kept =
        (.ok (), ⟨(feed actor (dir.emits.drop count) file.pos kept).1, after⟩,
          (feed actor (dir.emits.drop count) file.pos kept).2) ∧
      (⟨(feed actor (dir.emits.drop count) file.pos kept).1, after⟩ : OpenDir).Keeps dir := by
  have past : ∀ emit ∈ dir.emits, emit.offset < dir.ending := lt_endOf (Directory.ascending steady)
  cases dir with
  | tmpfs s reports own above =>
    refine ⟨file.rdir, ?_, trivial⟩
    rw [OpenDir.iterateDir]
    match count with
    | 0 =>
      have zero : file.pos = 0 := stands
      rw [zero, iterateTmpfs_start actor steady]
      rfl
    | 1 =>
      have one : file.pos = 1 := stands
      rw [one, iterateTmpfs_one actor steady]
      rfl
    | count + 2 =>
      have entries : (Directory.tmpfs s reports own above).emits.drop (count + 2) =
          (s.offsets.bindings.filterMap (standing s reports)).drop count := rfl
      have last : ∀ place ∈ s.offsets.bindings,
          place.1 < (Directory.tmpfs s reports own above).ending := by
        intro place member
        obtain ⟨node, held⟩ := standing_some steady member
        have listed : (dirEntry reports place.2 node).emitAt place.1 ∈
            s.offsets.bindings.filterMap (standing s reports) :=
          List.mem_filterMap.mpr ⟨place, member, by rw [standing, held]; rfl⟩
        exact past _ (List.mem_cons_of_mem _ (List.mem_cons_of_mem _ listed))
      have beyond : 2 ≤ file.pos := by
        rw [stands, entries]
        cases left : (s.offsets.bindings.filterMap (standing s reports)).drop count with
        | nil => exact past _ (List.mem_cons_of_mem _ List.mem_cons_self)
        | cons emit rest =>
          obtain ⟨place, member, same⟩ :=
            mem_standing (List.mem_of_mem_drop (left ▸ List.mem_cons_self))
          show 2 ≤ emit.offset
          rw [same]
          exact (steady.given place.1 place.2 member).1
      have reached := fromKey_following steady reports count last
      rw [entries] at stands ⊢
      rw [← stands] at reached
      rw [iterateTmpfs_past actor steady reports own above beyond, reached]
  | rdir answers =>
    obtain ⟨entries, answered⟩ := steady
    have listed : (Directory.rdir answers : Directory ν).emits = numbered 0 entries := by
      rw [Directory.emits, answered]
    have ends : (Directory.rdir answers : Directory ν).ending = entries.length := by
      rw [Directory.ending, listed, endOf_numbered, Nat.zero_add]
    have index : file.pos = count := by
      rw [listed, length_numbered] at within
      rw [stands, listed, ends, drop_numbered, Nat.zero_add]
      cases left : entries.drop count with
      | nil =>
        have none : entries.length ≤ count := List.drop_eq_nil_iff.mp left
        exact Nat.le_antisymm none within
      | cons entry rest => rfl
    obtain ⟨after, iterated, onward⟩ :=
      Rdir.iterate_eq actor answered (keeps entries answered) count kept
    refine ⟨after, ?_, ?_⟩
    · rw [OpenDir.iterateDir, index, listed]
      dsimp only
      rw [iterated]
    · intro other same
      rw [answered] at same
      cases same
      exact onward

end Directories

end Kobako.Readdir
