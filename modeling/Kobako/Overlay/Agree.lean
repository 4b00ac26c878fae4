import Kobako.Overlay.Listing

/-!
# Listing and lookup agree

A directory of the view lists just the names a lookup finds in it, each once and as the kind the
lookup finds. Both go through the Layers topmost first: a listing leaves out the names a Layer above
listed and every whiteout, a lookup stops at the first Layer that shows or hides the name.
-/

namespace Kobako.Overlay

open Vfs

variable {W D F V : Type} {layers : Layers W D F}

/-- `OverlayFs::dir_read_merged`. -/
def dirReadMerged (layers : Layers W D F) (level : Level D) : Ovl W D F V (List DirEntry) := do
  pure (← readMerged layers level).entries

/-- Layers that tell one story of their directories, as long as they are only asked: each finds a
name under that name, and lists it once just where it finds it and as the kind it finds. In a Tmpfs
a device is a whiteout. -/
structure Agreeing (layers : Layers W D F) where
  /-- How the Layers stand while they are only asked. -/
  steady : W → Prop
  /-- The kind of what a directory holds at a name. -/
  found : Nat → D → String → Option FileType
  /-- Whether a directory is a Tmpfs's. -/
  tmpfs : Nat → D → Bool
  /-- A lookup finds what the directory holds, or answers that nothing stands there. -/
  lookups : ∀ layer d name world, steady world → Ends (layers.lookupReal layer d name) world
    (fun dentry after => steady after ∧ layers.kind after layer dentry = found layer d name ∧
      (found layer d name ≠ none → layers.name after layer dentry = name))
    fun error after => steady after ∧ (error = .notFound ∨ error = .invalidFilename) ∧
      found layer d name = none
  /-- A listing lists each name the directory holds once, as its kind. It may fail. -/
  listings : ∀ layer d world, steady world → Ends (layers.entries layer d) world
    (fun listed after => steady after ∧ (listed.map DirEntry.name).Nodup ∧
      ∀ name kind, ⟨name, kind⟩ ∈ listed ↔ found layer d name = some kind)
    fun _ after => steady after
  /-- Whether a directory is a Tmpfs's is told alike throughout. -/
  marks : ∀ layer d world, steady world → layers.tmpfs world layer d = tmpfs layer d
  /-- A Tmpfs tells a whiteout as the device it finds. -/
  whiteouts : ∀ layer d name world, steady world → tmpfs layer d = true →
    layers.whiteoutAt world layer d name = decide (found layer d name = some .chrdev)

namespace Agreeing

variable (agreeing : Agreeing layers)

/-- Whether an entry of a directory of one kind is a whiteout. -/
def hides (dir : OverlayPath D) (kind : FileType) : Bool :=
  decide (kind = .chrdev) && agreeing.tmpfs dir.layer dir.dentry

/-- The kind of what the view shows at a name, none where no Layer holds it or the first that does
hides it. -/
def shown (name : String) : Level D → Option FileType
  | [] => none
  | none :: rest => shown name rest
  | some dir :: rest =>
    match agreeing.found dir.layer dir.dentry name with
    | none => shown name rest
    | some kind => if agreeing.hides dir kind then none else some kind

/-! ## Lookup -/

/-- What one Layer is found to hold at a name. -/
def Finds (dir : OverlayPath D) (name : String) (present : Presence D) (world : W) : Prop :=
  match agreeing.found dir.layer dir.dentry name with
  | none => present = .nothing
  | some kind =>
    if agreeing.hides dir kind then present = .whiteout
    else ∃ entry, present = .entry entry ∧ layers.kind world dir.layer entry.dentry = some kind

/-- A Layer asked for a name answers what it holds there. -/
theorem entry_finds (dir : OverlayPath D) (name : String) (s : Session W D F V)
    (steady : agreeing.steady s.world) :
    Ends (entry layers dir name) s
      (fun present after => agreeing.steady after.world ∧
        agreeing.Finds dir name present after.world) fun _ _ => False := by
  have told := agreeing.lookups dir.layer dir.dentry name s.world steady
  unfold Ends at told
  cases asked : layers.lookupReal dir.layer dir.dentry name s.world with
  | error error world =>
    rw [asked] at told
    obtain ⟨still, which, nothing⟩ := told
    have looked : dir.lookupSingle layers name s = .error error { s with world } := by
      have first : dir.lookupReal layers name s = .error error { s with world } := by
        unfold OverlayPath.lookupReal ask
        rw [asked]
      show EStateM.bind (dir.lookupReal layers name) _ s = _
      unfold EStateM.bind
      rw [first]
    have tried : attempt (dir.lookupSingle layers name) s = .ok (.error error) { s with world } := by
      unfold attempt
      rw [looked]
    unfold entry
    rw [Ends, bind_eq tried, ← Ends]
    have found : agreeing.Finds dir name .nothing world := by
      unfold Finds
      rw [nothing]
    cases which with
    | inl same =>
      subst same
      exact Ends.pure ⟨still, found⟩
    | inr same =>
      subst same
      exact Ends.pure ⟨still, found⟩
  | ok dentry world =>
    rw [asked] at told
    obtain ⟨still, kind, _⟩ := told
    have first : dir.lookupReal layers name s = .ok dentry { s with world } := by
      unfold OverlayPath.lookupReal ask
      rw [asked]
    have looked : dir.lookupSingle layers name s =
        .ok (if (agreeing.found dir.layer dir.dentry name).isSome then
          some (layers.name world dir.layer dentry, dentry) else none) { s with world } := by
      rw [← kind]
      unfold OverlayPath.lookupSingle
      rw [bind_eq first]
      rfl
    unfold entry
    rw [Ends, bind_eq (attempt_eq looked), ← Ends]
    cases found : agreeing.found dir.layer dir.dentry name with
    | none =>
      refine Ends.pure ⟨still, ?_⟩
      unfold Finds
      rw [found]
    | some held =>
      rw [found] at kind
      have white : dir.isWhiteoutDentry layers dentry { s with world } =
          .ok (agreeing.hides dir held) { s with world } := by
        unfold OverlayPath.isWhiteoutDentry look
        dsimp only
        rw [kind, agreeing.marks _ _ _ still]
        simp [hides]
      rw [Option.isSome_some, if_pos rfl]
      dsimp only
      rw [Ends, bind_eq white, ← Ends]
      have finds : agreeing.Finds dir name (if agreeing.hides dir held then .whiteout
          else .entry ⟨layers.name world dir.layer dentry, dentry⟩) world := by
        unfold Finds
        rw [found]
        dsimp only
        by_cases hidden : agreeing.hides dir held = true
        · rw [if_pos hidden, if_pos hidden]
        · rw [if_neg hidden, if_neg hidden]
          exact ⟨_, rfl, kind⟩
      by_cases hidden : agreeing.hides dir held = true
      · rw [if_pos hidden] at finds ⊢
        exact Ends.pure ⟨still, finds⟩
      · rw [if_neg hidden] at finds ⊢
        exact Ends.pure ⟨still, finds⟩

/-- What a lookup answers of a level, its first Layer at `index`. -/
def Answers (name : String) (index : Nat) (level : Level D)
    (answer : Option (Nat × LayerEntry D)) (world : W) : Prop :=
  match agreeing.shown name level with
  | none => answer = none
  | some kind => ∃ place entry dir, answer = some (index + place, entry) ∧
      level[place]? = some (some dir) ∧ layers.kind world dir.layer entry.dentry = some kind

theorem lookupLayerFrom_answers (name : String) (index : Nat) (level : Level D)
    (s : Session W D F V) (steady : agreeing.steady s.world) :
    Ends (lookupLayerFrom layers name index level) s
      (fun answer after => agreeing.steady after.world ∧
        agreeing.Answers name index level answer after.world) fun _ _ => False := by
  induction level generalizing index s with
  | nil => exact Ends.pure ⟨steady, rfl⟩
  | cons own rest ih =>
    have later : ∀ (t : Session W D F V), agreeing.steady t.world →
        agreeing.shown name (own :: rest) = agreeing.shown name rest →
        Ends (lookupLayerFrom layers name (index + 1) rest) t
          (fun answer after => agreeing.steady after.world ∧
            agreeing.Answers name index (own :: rest) answer after.world) fun _ _ => False := by
      intro t still same
      apply (ih (index + 1) t still).mono
      · intro answer after ⟨still, answers⟩
        refine ⟨still, ?_⟩
        unfold Answers at answers ⊢
        rw [same]
        cases shows : agreeing.shown name rest with
        | none =>
          rw [shows] at answers
          exact answers
        | some kind =>
          rw [shows] at answers
          obtain ⟨place, entry, dir, answered, there, held⟩ := answers
          refine ⟨place + 1, entry, dir, ?_, there, held⟩
          rw [answered]
          congr 2
          omega
      · intro _ _ never
        exact never
    cases own with
    | none => exact later s steady rfl
    | some dir =>
      refine (agreeing.entry_finds dir name s steady).bind fun present after ⟨still, finds⟩ => ?_
      unfold Finds at finds
      cases found : agreeing.found dir.layer dir.dentry name with
      | none =>
        rw [found] at finds
        subst finds
        apply later after still
        rw [shown, found]
      | some kind =>
        rw [found] at finds
        dsimp only at finds
        by_cases hidden : agreeing.hides dir kind = true
        · rw [if_pos hidden] at finds
          subst finds
          refine Ends.pure ⟨still, ?_⟩
          unfold Answers
          rw [shown, found]
          dsimp only
          rw [if_pos hidden]
        · rw [if_neg hidden] at finds
          obtain ⟨entry, rfl, held⟩ := finds
          refine Ends.pure ⟨still, ?_⟩
          unfold Answers
          rw [shown, found]
          dsimp only
          rw [if_neg hidden]
          exact ⟨0, entry, dir, rfl, rfl, held⟩

/-! ## Listing -/

/-- Whether a listed entry is taken: no Layer above listed its name and it is no whiteout. -/
def takes (dir : OverlayPath D) (taken : List String) (one : DirEntry) : Bool :=
  decide (one.name ∉ taken) && !agreeing.hides dir one.fileType

/-- Names listed since a name was make no difference to it. -/
theorem filter_takes {dir : OverlayPath D} {taken : List String} {name : String}
    {rest : List DirEntry} (fresh : name ∉ rest.map DirEntry.name) :
    rest.filter (agreeing.takes dir (name :: taken)) = rest.filter (agreeing.takes dir taken) := by
  apply List.filter_congr
  intro one member
  have apart : one.name ≠ name := fun same => fresh (same ▸ List.mem_map_of_mem member)
  simp [takes, apart]

/-- One Layer's listing taken into the others'. -/
theorem mergeEntries_takes (index : Nat) (dir : OverlayPath D) (listed : List DirEntry)
    (told : ∀ one ∈ listed, agreeing.found dir.layer dir.dentry one.name = some one.fileType)
    (once : (listed.map DirEntry.name).Nodup) (taken : List String) (merged : MergedEntries)
    (s : Session W D F V) (steady : agreeing.steady s.world) :
    ∃ taken' whiteouts, mergeEntries layers index dir listed taken merged s =
        .ok (taken', ⟨merged.entries ++ listed.filter (agreeing.takes dir taken), whiteouts⟩) s ∧
      ∀ name, name ∈ taken' ↔ name ∈ taken ∨ name ∈ listed.map DirEntry.name := by
  induction listed generalizing taken merged with
  | nil => exact ⟨taken, merged.upperWhiteouts, by simp [mergeEntries, pure, EStateM.pure], by simp⟩
  | cons one rest ih =>
    have later := fun taken merged => ih (fun other mem => told other (List.mem_cons_of_mem _ mem))
      (List.nodup_cons.mp once).2 taken merged
    have fresh := (List.nodup_cons.mp once).1
    have found := told one List.mem_cons_self
    have white : dir.isWhiteout layers one.name s =
        .ok (agreeing.tmpfs dir.layer dir.dentry && decide (one.fileType = .chrdev)) s := by
      unfold OverlayPath.isWhiteout look
      dsimp only
      rw [agreeing.marks _ _ _ steady]
      cases marked : agreeing.tmpfs dir.layer dir.dentry with
      | false => simp
      | true => simp [agreeing.whiteouts _ _ one.name _ steady marked, found]
    have hidden : (decide (one.fileType = .chrdev) &&
        (agreeing.tmpfs dir.layer dir.dentry && decide (one.fileType = .chrdev))) =
        agreeing.hides dir one.fileType := by
      unfold hides
      cases decide (one.fileType = .chrdev) <;> simp
    unfold mergeEntries
    rw [bind_eq white]
    dsimp only
    rw [hidden]
    by_cases known : one.name ∈ taken
    · rw [if_pos (List.contains_iff_mem.mpr known)]
      obtain ⟨taken', whiteouts, answers, names⟩ := later taken
        { merged with upperWhiteouts := merged.upperWhiteouts ||
          (agreeing.hides dir one.fileType && decide (index = UPPER)) }
      refine ⟨taken', whiteouts, ?_, ?_⟩
      · rw [answers, List.filter_cons_of_neg (by simp [takes, known])]
      · intro name
        rw [names, List.map_cons, List.mem_cons]
        have same : name = one.name → name ∈ taken := fun same => same ▸ known
        tauto
    · rw [if_neg fun there => known (List.contains_iff_mem.mp there)]
      obtain ⟨taken', whiteouts, answers, names⟩ := later (one.name :: taken)
        (if agreeing.hides dir one.fileType = true then
          { merged with upperWhiteouts := merged.upperWhiteouts ||
            (agreeing.hides dir one.fileType && decide (index = UPPER)) }
        else { merged with
          upperWhiteouts := merged.upperWhiteouts ||
            (agreeing.hides dir one.fileType && decide (index = UPPER))
          entries := merged.entries ++ [one] })
      refine ⟨taken', whiteouts, ?_, ?_⟩
      · rw [answers, agreeing.filter_takes fresh]
        by_cases hides : agreeing.hides dir one.fileType = true
        · rw [if_pos hides, List.filter_cons_of_neg (by simp [takes, hides])]
        · rw [if_neg hides, List.filter_cons_of_pos (by simp [takes, hides, known])]
          simp
      · intro name
        rw [names, List.map_cons, List.mem_cons, List.mem_cons]
        tauto

/-- What the Layers of a level add to a listing: the names not taken that show, each once. -/
structure Adds (taken : List String) (level : Level D) (added : List DirEntry) : Prop where
  /-- Just the names that show are added, as what they show as. -/
  shows : ∀ name kind, ⟨name, kind⟩ ∈ added ↔ name ∉ taken ∧ agreeing.shown name level = some kind
  /-- Each name is added once. -/
  once : (added.map DirEntry.name).Nodup
  /-- What is added is no whiteout of the Layer that holds it. -/
  stands : ∀ one ∈ added, ∃ dir, some dir ∈ level ∧
    agreeing.found dir.layer dir.dentry one.name = some one.fileType ∧
    agreeing.hides dir one.fileType = false

/-- What one Layer's listing and the Layers below it add, together. -/
theorem adds_cons {taken taken' : List String} {dir : OverlayPath D} {rest : Level D}
    {listed added : List DirEntry} (once : (listed.map DirEntry.name).Nodup)
    (told : ∀ name kind, ⟨name, kind⟩ ∈ listed ↔
      agreeing.found dir.layer dir.dentry name = some kind)
    (names : ∀ name, name ∈ taken' ↔ name ∈ taken ∨ name ∈ listed.map DirEntry.name)
    (adds : agreeing.Adds taken' rest added) :
    agreeing.Adds taken (some dir :: rest) (listed.filter (agreeing.takes dir taken) ++ added) := by
  have listedIff : ∀ name, name ∈ listed.map DirEntry.name ↔
      agreeing.found dir.layer dir.dentry name ≠ none := by
    intro name
    rw [List.mem_map, Option.ne_none_iff_exists']
    constructor
    · intro ⟨one, member, same⟩
      exact ⟨one.fileType, (told name one.fileType).mp (same ▸ member)⟩
    · intro ⟨kind, found⟩
      exact ⟨⟨name, kind⟩, (told name kind).mpr found, rfl⟩
  have takesIff : ∀ name kind, ⟨name, kind⟩ ∈ listed.filter (agreeing.takes dir taken) ↔
      agreeing.found dir.layer dir.dentry name = some kind ∧ name ∉ taken ∧
        agreeing.hides dir kind = false := by
    intro name kind
    rw [List.mem_filter, told]
    simp [takes]
  refine ⟨?_, ?_, ?_⟩
  · intro name kind
    rw [List.mem_append, takesIff, adds.shows, names, listedIff]
    cases found : agreeing.found dir.layer dir.dentry name with
    | none =>
      rw [shown, found]
      simp
    | some held =>
      rw [shown, found]
      dsimp only
      by_cases hidden : agreeing.hides dir held = true
      · rw [if_pos hidden]
        simp only [Option.some.injEq, reduceCtorEq, and_false, iff_false]
        rintro (⟨same, _, visible⟩ | ⟨untaken, _⟩)
        · rw [same, visible] at hidden
          cases hidden
        · exact untaken (.inr (by simp))
      · rw [if_neg hidden, Bool.not_eq_true] at *
        simp only [Option.some.injEq]
        constructor
        · rintro (⟨same, untaken, _⟩ | ⟨untaken, _⟩)
          · exact ⟨untaken, same⟩
          · exact absurd (.inr (by simp)) untaken
        · rintro ⟨untaken, same⟩
          exact .inl ⟨same, untaken, same ▸ hidden⟩
  · rw [List.map_append, List.nodup_append]
    refine ⟨once.sublist (List.filter_sublist.map _), adds.once, ?_⟩
    intro name here other there same
    obtain ⟨one, member, rfl⟩ := List.mem_map.mp here
    obtain ⟨two, later, rfl⟩ := List.mem_map.mp there
    have taken : two.name ∈ taken' :=
      (names two.name).mpr (.inr (same ▸ List.mem_map_of_mem (List.mem_filter.mp member).1))
    exact ((adds.shows two.name two.fileType).mp later).1 taken
  · intro one member
    rw [List.mem_append] at member
    cases member with
    | inl here =>
      obtain ⟨found, _, visible⟩ := (takesIff one.name one.fileType).mp here
      exact ⟨dir, List.mem_cons_self, found, visible⟩
    | inr there =>
      obtain ⟨below, member, held⟩ := adds.stands one there
      exact ⟨below, List.mem_cons_of_mem _ member, held⟩

theorem readMergedFrom_adds (index : Nat) (level : Level D) (taken : List String)
    (merged : MergedEntries) (s : Session W D F V) (steady : agreeing.steady s.world) :
    Ends (readMergedFrom layers index level taken merged) s
      (fun answer after => agreeing.steady after.world ∧
        ∃ added, answer.entries = merged.entries ++ added ∧ agreeing.Adds taken level added)
      fun _ _ => True := by
  induction level generalizing index taken merged s with
  | nil =>
    refine Ends.pure ⟨steady, [], by simp, ?_, List.nodup_nil, by simp⟩
    intro name kind
    simp [shown]
  | cons own rest ih =>
    cases own with
    | none =>
      apply (ih (index + 1) taken merged s steady).mono
      · intro answer after ⟨still, added, all, adds⟩
        refine ⟨still, added, all, adds.shows, adds.once, ?_⟩
        intro one member
        obtain ⟨dir, there, held⟩ := adds.stands one member
        exact ⟨dir, List.mem_cons_of_mem _ there, held⟩
      · intro _ _ _
        trivial
    | some dir =>
      have lists := ask_ends (agreeing.listings dir.layer dir.dentry s.world steady)
      refine (lists.mono (fun _ _ ended => ended) fun _ _ _ => trivial).bind
        fun listed now ⟨_, still, once, told⟩ => ?_
      have holds : ∀ one ∈ listed,
          agreeing.found dir.layer dir.dentry one.name = some one.fileType :=
        fun one member => (told one.name one.fileType).mp member
      obtain ⟨taken', whiteouts, answers, names⟩ := agreeing.mergeEntries_takes index dir listed
        holds once taken merged now still
      rw [Ends, bind_eq answers, ← Ends]
      apply (ih (index + 1) taken' _ now still).mono
      · intro answer after ⟨still, added, all, adds⟩
        refine ⟨still, listed.filter (agreeing.takes dir taken) ++ added, ?_,
          agreeing.adds_cons once told names adds⟩
        rw [all, List.append_assoc]
      · intro _ _ _
        trivial

/-- A whole listing adds every name that shows. -/
theorem readMerged_adds {level : Level D} {s after : Session W D F V} {merged : MergedEntries}
    (steady : agreeing.steady s.world) (listed : readMerged layers level s = .ok merged after) :
    agreeing.Adds [] level merged.entries := by
  have ends := agreeing.readMergedFrom_adds 0 level [] ⟨[], false⟩ s steady
  unfold Ends at ends
  unfold readMerged at listed
  rw [listed] at ends
  obtain ⟨_, added, all, adds⟩ := ends
  have same : merged.entries = added := by simpa using all
  exact same ▸ adds

/-- A lookup always answers, what shows at the name. -/
theorem lookupLayer_answers (level : Level D) (name : String) {s : Session W D F V}
    (steady : agreeing.steady s.world) :
    ∃ answer after, lookupLayer layers level name s = .ok answer after ∧
      agreeing.Answers name 0 level answer after.world := by
  have ends := agreeing.lookupLayerFrom_answers name 0 level s steady
  unfold Ends at ends
  unfold lookupLayer
  cases looked : lookupLayerFrom layers name 0 level s with
  | ok answer after =>
    rw [looked] at ends
    exact ⟨answer, after, rfl, ends.2⟩
  | error error after =>
    rw [looked] at ends
    exact ends.elim

/-- A lookup finds a name just where a listing lists it, and as the kind it lists it as. -/
theorem lookupLayer_listed {level : Level D} {listed : List DirEntry}
    (adds : agreeing.Adds [] level listed) (name : String) (now : Session W D F V)
    (steady : agreeing.steady now.world) :
    ∃ found next, lookupLayer layers level name now = .ok found next ∧
      (found ≠ none ↔ name ∈ listed.map DirEntry.name) ∧
      ∀ place entry, found = some (place, entry) → ∃ dir kind,
        level[place]? = some (some dir) ∧
        layers.kind next.world dir.layer entry.dentry = some kind ∧ ⟨name, kind⟩ ∈ listed := by
  obtain ⟨found, next, looked, answers⟩ := agreeing.lookupLayer_answers level name steady
  refine ⟨found, next, looked, ?_⟩
  unfold Answers at answers
  cases shows : agreeing.shown name level with
  | none =>
    rw [shows] at answers
    subst answers
    refine ⟨⟨fun never => absurd rfl never, ?_⟩, fun _ _ never => by cases never⟩
    intro member
    obtain ⟨one, there, rfl⟩ := List.mem_map.mp member
    have held := ((adds.shows one.name one.fileType).mp there).2
    rw [shows] at held
    cases held
  | some kind =>
    rw [shows] at answers
    obtain ⟨place, entry, dir, rfl, there, held⟩ := answers
    have member : ⟨name, kind⟩ ∈ listed := (adds.shows name kind).mpr ⟨by simp, shows⟩
    refine ⟨⟨fun _ => List.mem_map_of_mem member, fun _ => by simp⟩, ?_⟩
    intro other again same
    obtain ⟨rfl, rfl⟩ : 0 + place = other ∧ entry = again := by simpa using same
    exact ⟨dir, kind, by simpa using there, held, member⟩

end Agreeing

/-- What a directory of the view lists is what lookups find in it: each name once and as the kind
the lookup finds, no whiteout, and nothing just where no name is found. -/
theorem listing_agrees_with_lookup (agreeing : Agreeing layers) (level : Level D)
    (s after : Session W D F V) (entries : List DirEntry) (steady : agreeing.steady s.world)
    (listed : dirReadMerged layers level s = .ok entries after) :
    (∀ name (now : Session W D F V), agreeing.steady now.world →
      ∃ found next, lookupLayer layers level name now = .ok found next ∧
        (found ≠ none ↔ name ∈ entries.map DirEntry.name) ∧
        ∀ place entry, found = some (place, entry) → ∃ dir kind,
          level[place]? = some (some dir) ∧
          layers.kind next.world dir.layer entry.dentry = some kind ∧ ⟨name, kind⟩ ∈ entries) ∧
    (entries.map DirEntry.name).Nodup ∧
    (∀ one ∈ entries, ∃ dir, some dir ∈ level ∧
      agreeing.found dir.layer dir.dentry one.name = some one.fileType ∧
      ¬(agreeing.tmpfs dir.layer dir.dentry = true ∧ one.fileType = .chrdev)) ∧
    ∀ (dentry : ViewDentry V) (now last : Session W D F V) (answer : Option Bool),
      agreeing.steady now.world → levelOf dentry now = .ok level now →
      checkEmptyDir layers dentry now = .ok answer last →
      (answer ≠ none ↔ ∀ name (t : Session W D F V), agreeing.steady t.world →
        ∃ next, lookupLayer layers level name t = .ok none next) := by
  have adds : agreeing.Adds [] level entries := by
    cases read : readMerged layers level s with
    | error error last =>
      have failed : dirReadMerged layers level s = .error error last := by
        show EStateM.bind (readMerged layers level) _ s = _
        unfold EStateM.bind
        rw [read]
      rw [failed] at listed
      cases listed
    | ok merged last =>
      unfold dirReadMerged at listed
      rw [bind_eq read] at listed
      cases listed
      exact agreeing.readMerged_adds steady read
  refine ⟨agreeing.lookupLayer_listed adds, adds.once, ?_, ?_⟩
  · intro one member
    obtain ⟨dir, there, found, visible⟩ := adds.stands one member
    refine ⟨dir, there, found, ?_⟩
    intro ⟨tmpfs, device⟩
    simp [Agreeing.hides, tmpfs, device] at visible
  · intro dentry now last answer still standsFor checked
    cases read : readMerged layers level now with
    | error error next =>
      have failed : checkEmptyDir layers dentry now = .error error next := by
        unfold checkEmptyDir
        rw [bind_eq standsFor]
        show EStateM.bind (readMerged layers level) _ now = _
        unfold EStateM.bind
        rw [read]
      rw [failed] at checked
      cases checked
    | ok merged next =>
      unfold checkEmptyDir at checked
      rw [bind_eq standsFor, bind_eq read] at checked
      cases checked
      have again := agreeing.readMerged_adds still read
      constructor
      · intro empty name t steady
        have none : merged.entries = [] := by
          by_contra some
          exact empty (by simp [some])
        obtain ⟨found, next, looked, iff, _⟩ := agreeing.lookupLayer_listed again name t steady
        rw [none] at iff
        have absent : found = Option.none := by
          by_contra stands
          exact absurd (iff.mp stands) (by simp)
        exact ⟨next, absent ▸ looked⟩
      · intro never
        have none : merged.entries = [] := by
          rw [List.eq_nil_iff_forall_not_mem]
          intro one member
          obtain ⟨found, next, looked, iff, _⟩ := agreeing.lookupLayer_listed again one.name now still
          obtain ⟨later, absent⟩ := never one.name now still
          rw [looked] at absent
          cases absent
          exact iff.mpr (List.mem_map_of_mem member) rfl
        simp [none]

/-! ## A Tmpfs over trees -/

section Stacked

open PathTree

variable (lowers : List LowerTree) (room : Nat → Bool)

/-- The names an entry is made of, one each, are the names it is made for. -/
theorem names_filterMap {α : Type} (names : List String) (held : String → Option α)
    (kind : α → FileType) :
    (names.filterMap fun name => (held name).map fun a =>
      (⟨name, kind a⟩ : DirEntry)).map DirEntry.name =
      names.filter fun name => (held name).isSome := by
  induction names with
  | nil => rfl
  | cons name rest ih =>
    cases there : held name with
    | none => simp [there, ih]
    | some a => simp [there, ih]

/-- A Tmpfs and lower Layers that each know a name once list a name once. -/
theorem nodup_entriesAt {t : Tmpfs} (known : t.known.Nodup)
    (names : ∀ tree ∈ lowers, ∀ path, (tree.names path).Nodup) (layer : Nat) (path : Path) :
    ((entriesAt lowers t layer path).map DirEntry.name).Nodup := by
  cases layer with
  | zero =>
    show ((t.entries path).map DirEntry.name).Nodup
    unfold Tmpfs.entries
    rw [names_filterMap t.known (fun name => t.node (name :: path)) fun node => node.seen.fileType]
    exact known.filter _
  | succ index =>
    dsimp only [entriesAt]
    cases there : lowers[index]? with
    | none => exact List.nodup_nil
    | some tree =>
      rw [Option.map_some, Option.getD_some]
      rw [names_filterMap (tree.names path) (fun name => tree.node (name :: path))
        fun node => node.seen.fileType]
      exact (names tree (List.mem_of_getElem? there) path).filter _

/-- A Tmpfs over trees tells one story of its directories. -/
def stackedAgreeing (t : Tmpfs) (named : Named t.known t.node) (known : t.known.Nodup)
    (names : ∀ tree ∈ lowers, ∀ path, (tree.names path).Nodup) :
    Agreeing (stacked lowers room) where
  steady world := world = t
  found layer d name := (holds lowers t layer (name :: d)).map Seen.fileType
  tmpfs layer _ := isTmpfs lowers layer
  lookups layer d name world steady := by
    subst steady
    exact ⟨rfl, rfl, fun _ => rfl⟩
  listings layer d world steady := by
    subst steady
    refine ⟨rfl, nodup_entriesAt lowers known names layer d, ?_⟩
    obtain ⟨told, complete⟩ := @lists lowers world named ⟨layer, d⟩
    intro name kind
    constructor
    · intro member
      obtain ⟨seen, held, same⟩ := told ⟨name, kind⟩ member
      have same : kind = seen.fileType := same
      have held : holds lowers world layer (name :: d) = some seen := held
      rw [held, same]
      rfl
    · intro found
      obtain ⟨seen, held, same⟩ := Option.map_eq_some_iff.mp found
      obtain ⟨⟨own, as_⟩, member, rfl⟩ := complete name (by rw [held]; simp)
      obtain ⟨again, heldToo, sameToo⟩ := told _ member
      have agree : seen = again := Option.some.inj (held.symm.trans heldToo)
      have kinds : as_ = kind := by
        rw [← same, agree]
        exact sameToo
      exact kinds ▸ member
  marks layer d world steady := by
    subst steady
    rfl
  whiteouts layer d name world steady _ := by
    subst steady
    show decide (holds lowers world layer (name :: d) = some .whiteout) = _
    congr 1
    cases held : holds lowers world layer (name :: d) with
    | none => simp
    | some seen => cases seen <;> simp [Seen.fileType]

end Stacked

/-- A lower Layer of two files. -/
def twoFiles : LowerTree where
  node path := if path = [] then some (.directory false)
    else if path = ["a"] ∨ path = ["b"] then some (.file []) else none
  names path := if path = [] then ["a", "b"] else []
  ino _ := 1
  tmpfs := false
  listed dir name := by
    by_cases root : dir = []
    · subst root
      simp only [if_pos, List.mem_cons, List.not_mem_nil, or_false]
      rw [if_neg (List.cons_ne_nil _ _)]
      simp
      tauto
    · simp [root]
  marked path marked := by
    split at marked
    · simp at marked
    · split at marked <;> simp at marked

/-- An upper that hides one of them. -/
def hidesOne : Tmpfs := Tmpfs.empty.put ["a"] (some .whiteout)

/-- Of two files of a lower Layer one is hidden: only the other is listed, and found. -/
theorem listing_agrees_with_lookup_hidden :
    ∃ found next, lookupLayer (stacked [twoFiles] fun _ => true)
        [some ⟨0, []⟩, some ⟨1, []⟩] "b"
        (⟨hidesOne, fun _ => none, 0, []⟩ : Session Tmpfs Path Handle Nat) = .ok found next ∧
      (found ≠ none ↔ "b" ∈ ["b"]) := by
  have named : PathTree.Named hidesOne.known hidesOne.node := by
    have wider : PathTree.Named ["a"] Tmpfs.empty.node := PathTree.Named.leaf _ _
    refine wider.graft (PathTree.Named.leaf _ _) ?_
    intro _ key path same
    cases same
    decide
  have names : ∀ tree ∈ [twoFiles], ∀ path, (tree.names path).Nodup := by
    intro tree member path
    rw [List.mem_singleton] at member
    subst member
    show (if path = [] then ["a", "b"] else []).Nodup
    split <;> decide
  have told := listing_agrees_with_lookup
    (stackedAgreeing [twoFiles] (fun _ => true) hidesOne named (by decide) names)
    [some ⟨0, []⟩, some ⟨1, []⟩] (⟨hidesOne, fun _ => none, 0, []⟩ : Session Tmpfs Path Handle Nat)
    _ [⟨"b", .regFile⟩] rfl rfl
  obtain ⟨found, next, looked, iff, _⟩ := told.1 "b" ⟨hidesOne, fun _ => none, 0, []⟩ rfl
  exact ⟨found, next, looked, iff⟩

end Kobako.Overlay
