import Kobako.Tmpfs.Sound
import Mathlib.Data.List.Infix

/-!
# A listing while its directory changes

A listing of an open Tmpfs directory takes the directory's lock for one entry at a time, so between
two entries, and between two calls that resume it, any change of any call may be made. A change
gives a name the next position or takes its position away and touches no other name's, so a listing
that goes through positions upward meets every name that stands all along, once.
-/

namespace Kobako.Tmpfs

/-! ## Positions kept -/

variable {state : State Node}

/-- Holding something at a name leaves the positions of all others. -/
theorem State.hold_position (indexed : state.Indexed) {name other : String} {node : Node}
    {offset : Nat} (apart : other ≠ name) :
    (other, offset) ∈ (state.hold Node.isDirectory name node).1.offsetOf.bindings ↔
      (other, offset) ∈ state.offsetOf.bindings := by
  have forgot := State.forgetOffset_forgot { state with
    subdirectories := state.subdirectories + State.directories Node.isDirectory (some node) -
      State.directories Node.isDirectory (state.entries.get name)
    entries := state.entries.insert name node } name indexed.inverse
  unfold State.hold
  dsimp only
  rw [OrderedMap.mem_insert, forgot.offsetOf]
  constructor
  · intro held
    cases held with
    | inl same => exact absurd same.1 apart
    | inr kept => exact kept.1.1
  · intro held
    exact .inr ⟨⟨held, apart⟩, apart⟩

/-- Taking a name away leaves the positions of all others. -/
theorem State.take_position (indexed : state.Indexed) {name other : String} {offset : Nat}
    (apart : other ≠ name) :
    (other, offset) ∈ (state.take Node.isDirectory name).offsetOf.bindings ↔
      (other, offset) ∈ state.offsetOf.bindings := by
  have forgot := State.forgetOffset_forgot { state with
    subdirectories := state.subdirectories -
      State.directories Node.isDirectory (state.entries.get name)
    entries := state.entries.remove name } name indexed.inverse
  unfold State.take
  rw [forgot.offsetOf]
  exact and_iff_left apart

/-- Whatever changes, every entry has a position of its own. -/
theorem Change.on_indexed (indexed : state.Indexed) (change : Change) :
    (change.on state).Indexed := by
  cases change with
  | make body => exact indexed
  | hold name node => exact State.hold_indexed Node.isDirectory indexed name node
  | take name => exact State.take_indexed Node.isDirectory indexed name
  | unname => exact ⟨indexed.inverse, indexed.named, indexed.started, indexed.given⟩
  | fill bytes => exact indexed

/-- A name that still stands after a change, and was not placed by it, keeps its position. -/
theorem Change.on_position (indexed : state.Indexed) {change : Change} {name : String}
    {offset : Nat} (placed : ∀ node, change ≠ .hold name node)
    (stands : ((change.on state).entries.get name).isSome)
    (held : (name, offset) ∈ state.offsetOf.bindings) :
    (name, offset) ∈ (change.on state).offsetOf.bindings := by
  cases change with
  | make body => exact held
  | hold other node =>
    have apart : name ≠ other := by
      intro same
      rw [same] at placed
      exact placed node rfl
    exact (State.hold_position indexed apart).mpr held
  | take other =>
    have apart : name ≠ other := by
      intro same
      have gone : ((Change.take other).on state).entries.get other = none := by
        show (state.take Node.isDirectory other).entries.get other = none
        rw [State.take_entries]
        exact OrderedMap.get_remove_self _ _
      rw [same, gone] at stands
      cases stands
    exact (State.take_position indexed apart).mpr held
  | unname => exact held
  | fill bytes => exact held

/-! ## A listing -/

/-- A listing of a directory: the directory as it stands, where the listing stands and what it has
emitted, each name with the position it was emitted at. -/
structure Listing where
  /-- The directory. -/
  state : State Node
  /-- Where the listing stands. -/
  pos : Nat
  /-- What was emitted so far. -/
  emitted : List (Nat × String)

/-- A change to the directory, or one turn of the loop of `TmpfsDir::iterate_shared`, `took` being
whether whoever lists takes the entry. One that is not taken ends the call; the next resumes. -/
inductive Event where
  | change (change : Change)
  | entry (took : Bool)

namespace Listing

/-- A listing that starts. -/
def start (state : State Node) : Listing := ⟨state, 0, []⟩

/-- An entry handed out where it stands. -/
def emit (l : Listing) (offset : Nat) (name : String) (took : Bool) : Listing :=
  if took then { l with pos := offset + 1, emitted := l.emitted ++ [(offset, name)] }
  else { l with pos := offset }

/-- One turn: the dots by their places, then the first entry from the place on. -/
def turn (l : Listing) (took : Bool) : Listing :=
  if l.pos = 0 then l.emit 0 "." took
  else if l.pos = 1 then l.emit 1 ".." took
  else
    match l.state.entryFrom l.pos with
    | some (offset, name, _) => l.emit offset name took
    | none => l

/-- What comes of an event. -/
def next (l : Listing) : Event → Listing
  | .change change => { l with state := change.on l.state }
  | .entry took => l.turn took

/-- What comes of events. -/
def run (l : Listing) : List Event → Listing
  | [] => l
  | event :: events => (l.next event).run events

/-- Whether the listing has come to its end. -/
def Ended (l : Listing) : Prop := 2 ≤ l.pos ∧ l.state.entryFrom l.pos = none

/-- Whether a name stands. -/
def Stands (l : Listing) (name : String) : Prop := (l.state.entries.get name).isSome

/-- How often a name was emitted. -/
def times (l : Listing) (name : String) : Nat :=
  (l.emitted.filter fun entry => 2 ≤ entry.1 ∧ entry.2 = name).length

/-- What every listing keeps: positions of their own, and those handed out below where it stands. -/
structure Kept (l : Listing) : Prop where
  /-- Every entry has a position. -/
  indexed : l.state.Indexed
  /-- The positions handed out strictly increase. -/
  increasing : (l.emitted.map (·.1)).Pairwise (· < ·)
  /-- None is where the listing stands, or beyond. -/
  below : ∀ entry ∈ l.emitted, entry.1 < l.pos

theorem start_kept {state : State Node} (indexed : state.Indexed) : (start state).Kept :=
  ⟨indexed, .nil, nofun⟩

variable {name : String} {offset : Nat} {l : Listing}

/-- An entry found is the first from the place on, and stands. -/
theorem entryFrom_found {state : State Node} (indexed : state.Indexed) {pos offset : Nat}
    {node : Node} (found : state.entryFrom pos = some (offset, name, node)) :
    pos ≤ offset ∧ (name, offset) ∈ state.offsetOf.bindings ∧ (state.entries.get name).isSome ∧
      ∀ other place, (other, place) ∈ state.offsetOf.bindings → pos ≤ place → offset ≤ place := by
  unfold State.entryFrom at found
  cases first : state.offsets.firstFrom pos with
  | none =>
    rw [first] at found
    cases found
  | some binding =>
    rw [first] at found
    obtain ⟨place, called⟩ := binding
    obtain ⟨standing, has, same⟩ := Option.map_eq_some_iff.mp found
    have here : offset = place := (congrArg (·.1) same).symm
    have this : name = called := (congrArg (·.2.1) same).symm
    subst here this
    have onward := OrderedMap.fromKey_eq_cons first
    have member : (offset, name) ∈ state.offsets.fromKey pos := by
      rw [onward]
      exact List.mem_cons_self
    obtain ⟨bound, reached⟩ := List.mem_filter.mp member
    refine ⟨of_decide_eq_true reached, (indexed.inverse offset name).mp bound, ?_, ?_⟩
    · rw [has]
      rfl
    · intro other place held past
      have later : (place, other) ∈ state.offsets.fromKey pos :=
        List.mem_filter.mpr ⟨(indexed.inverse place other).mpr held, decide_eq_true past⟩
      rw [onward] at later
      cases List.mem_cons.mp later with
      | inl same =>
        cases same
        exact Nat.le_refl _
      | inr above =>
        have less := of_decide_eq_true (List.mem_filter.mp above).2
        exact Nat.le_of_lt less

/-- Where nothing is found nothing stands from the place on. -/
theorem entryFrom_none {state : State Node} (indexed : state.Indexed) {pos : Nat}
    (absent : state.entryFrom pos = none) (held : (name, offset) ∈ state.offsetOf.bindings) :
    offset < pos := by
  by_contra past
  have member : (offset, name) ∈ state.offsets.fromKey pos :=
    List.mem_filter.mpr ⟨(indexed.inverse offset name).mpr held,
      decide_eq_true (Nat.not_lt.mp past)⟩
  unfold State.entryFrom at absent
  cases first : state.offsets.firstFrom pos with
  | none =>
    rw [OrderedMap.fromKey_eq_nil first] at member
    cases member
  | some binding =>
    rw [first] at absent
    obtain ⟨place, other⟩ := binding
    have reached : (place, other) ∈ state.offsets.fromKey pos := by
      rw [OrderedMap.fromKey_eq_cons first]
      exact List.mem_cons_self
    have bound := (indexed.inverse place other).mp (List.mem_filter.mp reached).1
    obtain ⟨node, entry⟩ := (indexed.named other).mp ⟨place, bound⟩
    have found : state.entries.get other = some node := OrderedMap.get_eq_some.mpr entry
    dsimp only at absent
    rw [found] at absent
    cases absent

/-- An entry handed out from the place on keeps what a listing keeps. -/
theorem emit_kept (kept : l.Kept) (past : l.pos ≤ offset) (name : String) (took : Bool) :
    (l.emit offset name took).Kept := by
  unfold emit
  cases took with
  | false =>
    refine ⟨kept.indexed, kept.increasing, ?_⟩
    intro entry member
    exact Nat.lt_of_lt_of_le (kept.below entry member) past
  | true =>
    refine ⟨kept.indexed, ?_, ?_⟩
    · show ((l.emitted ++ [(offset, name)]).map (·.1)).Pairwise (· < ·)
      rw [List.map_append, List.pairwise_append]
      refine ⟨kept.increasing, List.pairwise_singleton _ _, ?_⟩
      intro earlier member last here
      obtain ⟨entry, emitted, rfl⟩ := List.mem_map.mp member
      rw [List.mem_singleton.mp here]
      exact Nat.lt_of_lt_of_le (kept.below entry emitted) past
    · intro entry member
      show entry.1 < offset + 1
      cases List.mem_append.mp member with
      | inl earlier =>
        have below := kept.below entry earlier
        omega
      | inr last =>
        rw [List.mem_singleton.mp last]
        exact Nat.lt_succ_self _

/-- One event keeps what a listing keeps. -/
theorem next_kept (kept : l.Kept) (event : Event) : (l.next event).Kept := by
  cases event with
  | change change => exact ⟨change.on_indexed kept.indexed, kept.increasing, kept.below⟩
  | entry took =>
    show (l.turn took).Kept
    unfold turn
    split
    · rename_i first
      exact emit_kept kept (Nat.le_of_eq first) "." took
    · split
      · rename_i second
        exact emit_kept kept (Nat.le_of_eq second) ".." took
      · cases found : l.state.entryFrom l.pos with
        | none => exact kept
        | some entry => exact emit_kept kept (entryFrom_found kept.indexed found).1 _ took

/-- Events keep what a listing keeps. -/
theorem run_kept (kept : l.Kept) (events : List Event) : (l.run events).Kept := by
  induction events generalizing l with
  | nil => exact kept
  | cons event events ih => exact ih (next_kept kept event)

/-! ## A name that stands -/

/-- An entry handed out counts for its own name only. -/
theorem emit_times (l : Listing) (offset : Nat) (other : String) (took : Bool) (name : String) :
    (l.emit offset other took).times name =
      l.times name + if took = true ∧ 2 ≤ offset ∧ other = name then 1 else 0 := by
  unfold emit times
  cases took with
  | false => rfl
  | true =>
    show ((l.emitted ++ [(offset, other)]).filter _).length = _
    rw [List.filter_append, List.length_append]
    by_cases counts : 2 ≤ offset ∧ other = name
    · rw [if_pos ⟨rfl, counts⟩, List.filter_cons_of_pos (by simpa using counts)]
      rfl
    · have uncounted : ¬ (true = true ∧ 2 ≤ offset ∧ other = name) := fun both => counts both.2
      rw [if_neg uncounted, List.filter_cons_of_neg (by simpa using counts)]
      rfl

/-- Where a listing stands after an entry is handed out. -/
theorem emit_pos (l : Listing) (offset : Nat) (name : String) (took : Bool) :
    (l.emit offset name took).pos = if took then offset + 1 else offset := by
  unfold emit
  cases took <;> rfl

theorem emit_state (l : Listing) (offset : Nat) (name : String) (took : Bool) :
    (l.emit offset name took).state = l.state := by
  unfold emit
  cases took <;> rfl

/-- A name that stands at a position is met once the listing is past it, and not before. -/
structure Meets (l : Listing) (name : String) (offset : Nat) : Prop where
  /-- The name stands there. -/
  held : (name, offset) ∈ l.state.offsetOf.bindings
  /-- It was emitted once where the listing is past it. -/
  count : l.times name = if offset < l.pos then 1 else 0

/-- A name that stands when a listing starts is still to be met. -/
theorem start_meets {state : State Node} (indexed : state.Indexed)
    (stands : (state.entries.get name).isSome) : ∃ offset, (start state).Meets name offset := by
  obtain ⟨node, found⟩ := Option.isSome_iff_exists.mp stands
  obtain ⟨offset, held⟩ := (indexed.named name).mpr ⟨node, OrderedMap.get_eq_some.mp found⟩
  refine ⟨offset, held, ?_⟩
  show 0 = if offset < 0 then 1 else 0
  rw [if_neg (Nat.not_lt_zero offset)]

/-- An entry handed out before a name's position, past no other entry, leaves the name to be met. -/
theorem emit_meets {name other : String} {offset place : Nat} {took : Bool}
    (meets : l.Meets name offset) (onward : l.pos ≤ place)
    (itself : 2 ≤ place → other = name → place = offset)
    (another : place = offset → 2 ≤ place ∧ other = name)
    (first : l.pos ≤ offset → place ≤ offset) : (l.emit place other took).Meets name offset := by
  refine ⟨?_, ?_⟩
  · rw [emit_state]
    exact meets.held
  · rw [emit_times, emit_pos, meets.count]
    cases took with
    | false =>
      have passed : offset < l.pos ↔ offset < place := by
        constructor
        · intro past
          omega
        · intro past
          by_contra still
          have reached := first (Nat.not_lt.mp still)
          omega
      simp only [passed, Bool.false_eq_true, false_and, if_false, Nat.add_zero]
    | true =>
      by_cases here : place = offset
      · have counts := another here
        have before : ¬ offset < l.pos := by omega
        rw [if_neg before, if_pos ⟨rfl, counts⟩, if_pos rfl, if_pos (by omega)]
      · have uncounted : ¬ (true = true ∧ 2 ≤ place ∧ other = name) := by
          intro counts
          exact here (itself counts.2.1 counts.2.2)
        rw [if_neg uncounted, Nat.add_zero, if_pos rfl]
        by_cases past : offset < l.pos
        · rw [if_pos past, if_pos (by omega)]
        · have reached := first (Nat.not_lt.mp past)
          rw [if_neg past, if_neg (by omega)]

/-- One turn meets a name where it stands, and skips none. -/
theorem turn_meets (kept : l.Kept) (took : Bool) (meets : l.Meets name offset) :
    (l.turn took).Meets name offset := by
  have bound := kept.indexed.given offset name ((kept.indexed.inverse offset name).mpr meets.held)
  unfold turn
  by_cases atStart : l.pos = 0
  · rw [if_pos atStart]
    apply emit_meets meets <;> omega
  · rw [if_neg atStart]
    by_cases second : l.pos = 1
    · rw [if_pos second]
      apply emit_meets meets <;> omega
    · rw [if_neg second]
      cases found : l.state.entryFrom l.pos with
      | none => exact meets
      | some entry =>
        obtain ⟨place, other, node⟩ := entry
        obtain ⟨onward, stands, -, first⟩ := entryFrom_found kept.indexed found
        apply emit_meets meets onward
        · intro _ same
          subst same
          exact OrderedMap.same_value stands meets.held
        · intro same
          subst same
          have one := (kept.indexed.inverse place other).mpr stands
          have two := (kept.indexed.inverse place name).mpr meets.held
          exact ⟨bound.1, OrderedMap.same_value one two⟩
        · exact first name offset meets.held

/-- An event that leaves a name standing and does not place it leaves it met as it should be. -/
theorem next_meets (kept : l.Kept) {event : Event}
    (placed : ∀ node, event ≠ .change (.hold name node)) (stands : (l.next event).Stands name)
    (meets : l.Meets name offset) : (l.next event).Meets name offset := by
  cases event with
  | change change =>
    have elsewhere : ∀ node, change ≠ .hold name node := by
      intro node same
      exact placed node (congrArg Event.change same)
    exact ⟨Change.on_position kept.indexed elsewhere stands meets.held, meets.count⟩
  | entry took => exact turn_meets kept took meets

/-- A name that stands all along, and is never placed again, is met as it should be. -/
theorem run_meets (kept : l.Kept) {events : List Event}
    (placed : ∀ node, Event.change (.hold name node) ∉ events)
    (stands : ∀ before, before <+: events → (l.run before).Stands name)
    (meets : l.Meets name offset) : (l.run events).Meets name offset := by
  induction events generalizing l with
  | nil => exact meets
  | cons event events ih =>
    have now : (l.next event).Stands name := by
      have prefixed : [event] <+: event :: events := ⟨events, rfl⟩
      exact stands [event] prefixed
    have met := next_meets kept (fun node same => placed node (same ▸ List.mem_cons_self)) now meets
    apply ih (next_kept kept event) _ _ met
    · intro node member
      exact placed node (List.mem_cons_of_mem _ member)
    · intro before prefixed
      exact stands (event :: before) (List.cons_prefix_cons.mpr ⟨rfl, prefixed⟩)

/-- What an event may emit: nothing, one of the dots, or a name that stands. -/
def Emits (l after : Listing) : Prop :=
  after.emitted = l.emitted ∨ ∃ offset name, after.emitted = l.emitted ++ [(offset, name)] ∧
    ((offset = 0 ∧ name = ".") ∨ (offset = 1 ∧ name = "..") ∨ l.Stands name)

/-- An entry handed out is the only one. -/
theorem emit_emits (stands : (offset = 0 ∧ name = ".") ∨ (offset = 1 ∧ name = "..") ∨ l.Stands name)
    (took : Bool) : l.Emits (l.emit offset name took) := by
  unfold emit
  cases took with
  | false => exact .inl rfl
  | true => exact .inr ⟨offset, name, rfl, stands⟩

/-- An event emits no name that does not stand. -/
theorem next_emits (indexed : l.state.Indexed) (event : Event) :
    l.Emits (l.next event) := by
  cases event with
  | change change => exact .inl rfl
  | entry took =>
    show l.Emits (l.turn took)
    unfold turn
    by_cases atStart : l.pos = 0
    · rw [if_pos atStart]
      exact emit_emits (.inl ⟨rfl, rfl⟩) took
    · rw [if_neg atStart]
      by_cases second : l.pos = 1
      · rw [if_pos second]
        exact emit_emits (.inr (.inl ⟨rfl, rfl⟩)) took
      · rw [if_neg second]
        cases found : l.state.entryFrom l.pos with
        | none => exact .inl rfl
        | some entry =>
          obtain ⟨offset, name, node⟩ := entry
          exact emit_emits (.inr (.inr (entryFrom_found indexed found).2.2.1)) took

/-- Events one after the other. -/
theorem run_append (l : Listing) (first second : List Event) :
    l.run (first ++ second) = (l.run first).run second := by
  induction first generalizing l with
  | nil => rfl
  | cons event first ih => exact ih (l.next event)

end Listing

/-! ## Listings during calls -/

/-- Turns of a listing while changes are made: each change once and in order, any turns between. -/
inductive Woven : List Change → List Event → Prop where
  | done : Woven [] []
  | change {change : Change} {changes : List Change} {events : List Event}
      (rest : Woven changes events) : Woven (change :: changes) (.change change :: events)
  | entry (took : Bool) {changes : List Change} {events : List Event}
      (rest : Woven changes events) : Woven changes (.entry took :: events)

/-- What a listing of an open directory comes through: turns of its own, and calls, with turns
between the changes of a call. -/
inductive Happens (dir : Nat) : Heap → List Event → Heap → Prop where
  | done (h : Heap) : Happens dir h [] h
  | entry (took : Bool) {h after : Heap} {events : List Event} (rest : Happens dir h events after) :
      Happens dir h (.entry took :: events) after
  | call {h middle after : Heap} {op : Op} {woven events : List Event}
      (taken : h.step op = some middle) (held : .directory dir ∈ middle.holders)
      (turns : Woven (changesTo dir (op.changes h)) woven) (rest : Happens dir middle events after) :
      Happens dir h (woven ++ events) after

namespace Listing

/-- A turn leaves the directory as it is. -/
theorem turn_state (l : Listing) (took : Bool) : (l.turn took).state = l.state := by
  unfold turn
  split
  · exact emit_state l _ _ took
  · split
    · exact emit_state l _ _ took
    · split
      · exact emit_state l _ _ took
      · rfl

/-- Turns between changes leave the directory as the changes do. -/
theorem run_woven {changes : List Change} {events : List Event} (woven : Woven changes events)
    (l : Listing) :
    (l.run events).state = changes.foldl (fun state change => change.on state) l.state := by
  induction woven generalizing l with
  | done => rfl
  | change rest ih => exact ih _
  | entry took rest ih =>
    have onward := ih (l.turn took)
    rw [turn_state] at onward
    exact onward

/-- A listing goes through the directory as calls leave it. -/
theorem run_happens {dir : Nat} {h after : Heap} {events : List Event}
    (happens : Happens dir h events after) (balanced : Balanced h [] 0) {l : Listing}
    (has : h.stateOf dir = some l.state) : after.stateOf dir = some (l.run events).state := by
  induction happens generalizing l with
  | done h => exact has
  | entry took rest ih =>
    apply ih balanced
    show _ = some (l.turn took).state
    rw [turn_state]
    exact has
  | @call h middle after op woven events taken held turns rest ih =>
    rw [Heap.step] at taken
    split at taken
    · rename_i needs
      cases taken
      have settled := (balanced.perform op needs).balanced
      obtain ⟨-, state, -, left⟩ := settled.stateOf held
      rw [run_append]
      apply ih settled
      rw [run_woven turns, left, perform_stateOf balanced op has left]
    · cases taken

end Listing

/-- A listing is stable under change, however often it is resumed: of any Tmpfs as calls leave it
and any directory held open, whatever changes are made while it is listed. The directory a listing
goes through is the one calls leave, positions handed out strictly increase, nothing is emitted but
the dots and names that stand then, and a name that stands all along without being placed again is
never emitted twice and, once the listing has ended, was emitted. -/
theorem listing_stable (files : List (String × List UInt8)) (seeded : Heap)
    (accepted : Heap.tryFromIter files = .ok seeded) (settings : List Heap.Setting) (ops : List Op)
    (h : Heap) (ran : run Heap.step (seeded.configure true settings) ops = some h) (dir : Nat)
    (held : .directory dir ∈ h.holders) :
    ∃ state, h.stateOf dir = some state ∧ ∀ events,
      (∀ after, Happens dir h events after →
        after.stateOf dir = some ((Listing.start state).run events).state) ∧
      (((Listing.start state).run events).emitted.map (·.1)).Pairwise (· < ·) ∧
      (∀ before event, before ++ [event] <+: events →
        ((Listing.start state).run before).Emits ((Listing.start state).run (before ++ [event]))) ∧
      ∀ name, (∀ node, Event.change (.hold name node) ∉ events) →
        (∀ before, before <+: events → ((Listing.start state).run before).Stands name) →
        ((Listing.start state).run events).times name ≤ 1 ∧
          (((Listing.start state).run events).Ended →
            ((Listing.start state).run events).times name = 1) := by
  obtain ⟨balanced, sound⟩ := reached_sound accepted ran
  obtain ⟨-, state, -, has⟩ := balanced.stateOf held
  have indexed : state.Indexed := (sound dir _ (Heap.bodyOf_of_stateOf has)).1
  have begun := Listing.start_kept indexed
  refine ⟨state, has, ?_⟩
  intro events
  have kept := Listing.run_kept begun events
  refine ⟨?_, kept.increasing, ?_, ?_⟩
  · intro after happens
    exact Listing.run_happens happens balanced has
  · intro before event _
    rw [Listing.run_append]
    exact Listing.next_emits (Listing.run_kept begun before).indexed event
  · intro name placed stands
    obtain ⟨offset, met⟩ := Listing.start_meets indexed (stands [] List.nil_prefix)
    have meets := Listing.run_meets begun placed stands met
    have count := meets.count
    constructor
    · rw [count]
      split <;> omega
    · intro ended
      have past := Listing.entryFrom_none kept.indexed ended.2 meets.held
      rw [count, if_pos past]

/-- A directory of three files as they were seeded. -/
def listed : State Node :=
  (((State.new.hold Node.isDirectory "a" (.file 1)).1.hold Node.isDirectory "b"
    (.file 2)).1.hold Node.isDirectory "c" (.file 3)).1

/-- A listing resumed once, a name taken away and put back between two entries. -/
def resumed : List Event :=
  [.entry true, .entry true, .entry true, .entry false, .change (.take "a"),
    .change (.hold "a" (.file 1)), .entry true, .entry true, .entry true]

/-- Of three files, the one moved away and back is listed again, and the others once each. -/
theorem listing_stable_resumed :
    ∃ seeded, Heap.tryFromIter [("a", [1]), ("b", [2]), ("c", [3])] = .ok seeded ∧
      seeded.stateOf 0 = some listed ∧ ((Listing.start listed).run resumed).Ended ∧
      ((Listing.start listed).run resumed).times "a" = 2 ∧
      ((Listing.start listed).run resumed).times "b" = 1 := by
  obtain ⟨state, has, all⟩ := listing_stable [("a", [1]), ("b", [2]), ("c", [3])] _ rfl [] [] _ rfl 0
    List.mem_cons_self
  have same : listed = state := Option.some.inj has
  subst same
  obtain ⟨-, -, -, names⟩ := all resumed
  have ended : ((Listing.start listed).run resumed).Ended := ⟨by decide +kernel, rfl⟩
  have stands : ∀ before, before ∈ resumed.inits →
      ((Listing.start listed).run before).Stands "b" := by
    unfold Listing.Stands
    decide +kernel
  have unplaced : ∀ node, Event.change (.hold "b" node) ∉ resumed := by
    intro node member
    simp [resumed] at member
  have once := (names "b" unplaced fun before early =>
    stands before ((List.mem_inits _ _).mpr early)).2 ended
  exact ⟨_, rfl, rfl, ended, by decide +kernel, once⟩
end Kobako.Tmpfs
