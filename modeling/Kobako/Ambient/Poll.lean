import Mathlib.Algebra.GroupWithZero.Nat
import Mathlib.Data.List.Basic

/-!
# The guest's wait

`poll_oneoff` reads every subscription before it writes an event. Every descriptor is ready at once,
so only a call that subscribes to nothing but clocks waits, for the soonest of them: not at all on
frozen clocks, and on live ones no further than the invocation's deadline. How the guest's memory is
read and written is left to the glue that is generated for it.
-/

namespace Kobako.Ambient

/-- `Errno`, the codes these calls answer. -/
inductive Errno
  | success
  | badf
  | inval
  | nomem
deriving DecidableEq

/-- What a call ends with that does not succeed: a code, a trap, or the deadline's. -/
inductive Fault
  | errno (code : Errno)
  | trap
  | timeout
deriving DecidableEq

/-! ## Clocks -/

/-- `u64::MAX`. -/
def u64Max : Nat := 2 ^ 64 - 1

/-- `Clocks`: frozen, or the host's. -/
inductive Clocks
  | frozen
  | live
deriving DecidableEq

/-- What the host's clocks read during one call, by how often the call looked before, and how far
the deadline is when it waits, if there is one. -/
structure Readings where
  monotonic : Nat → Nat
  wall : Nat → Nat
  left : Option Nat

/-- `Clocks::monotonic_now`. -/
def Clocks.monotonicNow (clocks : Clocks) (reading : Nat) : Nat :=
  match clocks with
  | .frozen => 0
  | .live => min reading u64Max

/-- `Clocks::wall_now`. -/
def Clocks.wallNow (clocks : Clocks) (reading : Nat) : Nat :=
  match clocks with
  | .frozen => 0
  | .live => min reading u64Max

/-- `Clocks::advances`. -/
def Clocks.advances (clocks : Clocks) : Bool := clocks = .live

/-! ## Subscriptions -/

/-- `Clockid`. -/
inductive Clockid
  | realtime
  | monotonic
  | processCputimeId
  | threadCputimeId
deriving DecidableEq

/-- `SubscriptionU`. -/
inductive SubscriptionU
  | clock (id : Clockid) (timeout : Nat) (abstime : Bool)
  | fdRead (fd : Nat)
  | fdWrite (fd : Nat)
deriving DecidableEq

/-- A subscription as the guest wrote it. -/
structure Written where
  userdata : Nat
  u : SubscriptionU
deriving DecidableEq

/-- `Kind`. -/
inductive Kind
  | clock (left : Nat)
  | fdRead
  | fdWrite
deriving DecidableEq

/-- `Subscription`. -/
structure Subscription where
  userdata : Nat
  kind : Kind
  error : Errno
deriving DecidableEq

/-- `Event`, its type told by the kind of its subscription. -/
structure Event where
  userdata : Nat
  error : Errno
  kind : Kind
  nbytes : Nat
deriving DecidableEq

/-- `PollMask`. -/
structure PollMask where
  input : Bool
  output : Bool

/-- What each descriptor would find ready, none where no file is to be reached through it. -/
abbrev Table := Nat → Option PollMask

/-- `poll_descriptor`. -/
def pollDescriptor (table : Table) (fd : Nat) (event : PollMask → Bool) : Except Fault Errno :=
  match table fd with
  | none => .ok .badf
  | some mask => if event mask then .ok .success else .error (.errno .badf)

/-- `read_clock`, at a look. -/
def readClock (clocks : Clocks) (readings : Readings) (look : Nat) (id : Clockid) (timeout : Nat)
    (abstime : Bool) : Except Fault Kind :=
  match id, abstime with
  | .realtime, false | .monotonic, false => .ok (.clock timeout)
  | .monotonic, true => .ok (.clock (timeout - clocks.monotonicNow (readings.monotonic look)))
  | .realtime, true => .ok (.clock (timeout - clocks.wallNow (readings.wall look)))
  | _, _ => .error (.errno .inval)

/-- `read_subscription`, once it is read from memory. -/
def readSubscription (clocks : Clocks) (readings : Readings) (table : Table) (look : Nat)
    (sub : Written) : Except Fault Subscription :=
  match sub.u with
  | .clock id timeout abstime => do
    let kind ← readClock clocks readings look id timeout abstime
    return ⟨sub.userdata, kind, .success⟩
  | .fdRead fd => do
    let error ← pollDescriptor table fd (·.input)
    return ⟨sub.userdata, .fdRead, error⟩
  | .fdWrite fd => do
    let error ← pollDescriptor table fd (·.output)
    return ⟨sub.userdata, .fdWrite, error⟩

/-! ## Memory -/

/-- `GuestError`: a value no type holds, or a pointer outside the memory or misaligned. -/
inductive GuestError
  | invalid
  | pointer
deriving DecidableEq

/-- What a call ends with that the glue refuses. -/
def GuestError.fault : GuestError → Fault
  | .invalid => .errno .inval
  | .pointer => .trap

/-- The generated glue: how a subscription is read at an address, and an event written at one. -/
structure Glue (μ : Type) where
  read : μ → Nat → Except GuestError Written
  write : μ → Nat → Event → Except GuestError μ

variable {μ : Type}

/-- `Subscription::guest_size`. -/
def subscriptionSize : Nat := 48

/-- `Event::guest_size`. -/
def eventSize : Nat := 32

/-- `GuestPtr::add`, past the address space a trap. -/
def element (base size index : Nat) : Except GuestError Nat :=
  if base + size * index < 2 ^ 32 then .ok (base + size * index) else .error .pointer

/-- `GuestMemory::consume`: the fuel left. -/
def consume (fuel count size : Nat) : Except Fault Nat :=
  if count * size ≤ fuel then .ok (fuel - count * size) else .error (.errno .nomem)

variable (glue : Glue μ) (clocks : Clocks) (readings : Readings) (table : Table)

/-- The subscriptions from an index on. -/
def readFrom (memory : μ) (subs index : Nat) : Nat → Except Fault (List Subscription)
  | 0 => .ok []
  | count + 1 => do
    let ptr ← (element subs subscriptionSize index).mapError GuestError.fault
    let written ← (glue.read memory ptr).mapError GuestError.fault
    let sub ← readSubscription clocks readings table index written
    let rest ← readFrom memory subs (index + 1) count
    return sub :: rest

/-- The nanoseconds a clock subscribed to has left. -/
def Kind.left : Kind → Option Nat
  | .clock left => some left
  | .fdRead | .fdWrite => none

/-- What `poll_oneoff` waits for: the soonest clock where all are clocks, else nothing. -/
def soonest (subs : List Subscription) : Nat :=
  let lefts := subs.filterMap (·.kind.left)
  if lefts.length = subs.length then lefts.min?.getD 0 else 0

/-- `wait`: the host time taken, and whether the deadline ended it. -/
def wait (nanos : Nat) : Nat × Except Fault Unit :=
  if nanos = 0 ∨ clocks.advances = false then (0, .ok ())
  else
    match readings.left with
    | none => (nanos, .ok ())
    | some left => if left ≤ nanos then (left, .error .timeout) else (nanos, .ok ())

/-- Whether a subscription is ready once a wait is over. -/
def Subscription.ready (waited : Nat) (sub : Subscription) : Bool :=
  match sub.kind with
  | .clock left => left ≤ waited
  | .fdRead | .fdWrite => true

/-- `to_event`. -/
def Subscription.event (sub : Subscription) : Event :=
  ⟨sub.userdata, sub.error, sub.kind,
    match sub.kind with
    | .clock _ => 0
    | .fdRead | .fdWrite => if sub.error = .success then 1 else 0⟩

/-- The events of the subscriptions that are ready, written one after another. -/
def writeEvents (events waited : Nat) (memory : μ) (written : Nat) :
    List Subscription → μ × Except Fault Nat
  | [] => (memory, .ok written)
  | sub :: subs =>
    if sub.ready waited then
      match element events eventSize written with
      | .error refused => (memory, .error refused.fault)
      | .ok ptr =>
        match glue.write memory ptr sub.event with
        | .error refused => (memory, .error refused.fault)
        | .ok later => writeEvents events waited later (written + 1) subs
    else writeEvents events waited memory written subs

/-- What a call leaves: the guest's memory, the host time it took to wait, and its answer. -/
structure Polled (μ : Type) where
  memory : μ
  slept : Nat
  answer : Except Fault Nat

/-- The subscriptions of a call, its fuel spent and all of them read. -/
def subscriptions (memory : μ) (fuel subs count : Nat) : Except Fault (List Subscription) :=
  if count = 0 then .error (.errno .inval)
  else do
    let fuel ← consume fuel count subscriptionSize
    let _ ← consume fuel count eventSize
    readFrom glue clocks readings table memory subs 0 count

/-- `poll_oneoff`. -/
def pollOneoff (memory : μ) (fuel subs events count : Nat) : Polled μ :=
  match subscriptions glue clocks readings table memory fuel subs count with
  | .error fault => ⟨memory, 0, .error fault⟩
  | .ok read =>
    match wait clocks readings (soonest read) with
    | (slept, .error fault) => ⟨memory, slept, .error fault⟩
    | (slept, .ok ()) =>
      let done := writeEvents glue events (soonest read) memory 0 read
      ⟨done.1, slept, done.2⟩

/-! ## What is read -/

omit glue in
/-- A subscription is read, or a code is answered: no deadline ends a read. -/
theorem readSubscription_ne_timeout (look : Nat) (sub : Written) :
    readSubscription clocks readings table look sub ≠ .error .timeout := by
  unfold readSubscription
  cases sub.u with
  | clock id timeout abstime =>
    cases id <;> cases abstime <;> simp [readClock, bind, Except.bind, pure, Except.pure]
  | fdRead fd | fdWrite fd =>
    simp only [pollDescriptor]
    split
    · simp [bind, Except.bind, pure, Except.pure]
    · split <;> simp [bind, Except.bind, pure, Except.pure]

theorem mapError_ne_timeout {α : Type} (value : Except GuestError α) :
    value.mapError GuestError.fault ≠ .error .timeout := by
  cases value with
  | ok value => simp [Except.mapError]
  | error refused => cases refused <;> simp [Except.mapError, GuestError.fault]

theorem readFrom_ne_timeout (memory : μ) (subs index count : Nat) :
    readFrom glue clocks readings table memory subs index count ≠ .error .timeout := by
  induction count generalizing index with
  | zero => simp [readFrom]
  | succ count ih =>
    have element := mapError_ne_timeout (element subs subscriptionSize index)
    simp only [readFrom, bind, Except.bind, pure, Except.pure]
    split
    · rename_i fault failed
      rw [failed] at element
      simpa using element
    · rename_i ptr _
      have written := mapError_ne_timeout (glue.read memory ptr)
      split
      · rename_i fault failed
        rw [failed] at written
        simpa using written
      · rename_i raw _
        have sub := readSubscription_ne_timeout clocks readings table index raw
        split
        · rename_i fault failed
          rw [failed] at sub
          simpa using sub
        · have rest := ih (index + 1)
          split
          · rename_i fault failed
            rw [failed] at rest
            simpa using rest
          · simp

variable {memory : μ} {read : List Subscription} {subs : List Subscription}

/-- As many subscriptions are read as the guest counts. -/
theorem length_readFrom {subs index count : Nat}
    (done : readFrom glue clocks readings table memory subs index count = .ok read) :
    read.length = count := by
  induction count generalizing index read with
  | zero =>
    simp only [readFrom, Except.ok.injEq] at done
    simp [← done]
  | succ count ih =>
    simp only [readFrom, bind, Except.bind, pure, Except.pure] at done
    split at done
    · cases done
    · split at done
      · cases done
      · split at done
        · cases done
        · split at done
          · cases done
          · rename_i rest later
            cases done
            simp [ih later]

/-- A call that reads its subscriptions has some, as many as the guest counts. -/
theorem length_subscriptions {fuel subs count : Nat}
    (done : subscriptions glue clocks readings table memory fuel subs count = .ok read) :
    read.length = count ∧ 0 < count := by
  unfold subscriptions at done
  split at done
  · cases done
  · rename_i some
    simp only [bind, Except.bind] at done
    split at done
    · cases done
    · split at done
      · cases done
      · exact ⟨length_readFrom glue clocks readings table done, Nat.pos_of_ne_zero some⟩

theorem subscriptions_ne_timeout (memory : μ) (fuel subs count : Nat) :
    subscriptions glue clocks readings table memory fuel subs count ≠ .error .timeout := by
  have read := readFrom_ne_timeout glue clocks readings table memory subs 0 count
  unfold subscriptions
  split
  · simp
  · simp only [bind, Except.bind, consume]
    split
    · rename_i fault failed
      split at failed
      · cases failed
      · cases failed
        simp
    · split
      · rename_i fault failed
        split at failed
        · cases failed
        · cases failed
          simp
      · exact read

/-! ## What is ready -/

omit glue in
/-- The clocks of a call that subscribes to nothing else. -/
theorem soonest_of_clocks (some : subs ≠ []) (all : ∀ sub ∈ subs, sub.kind.left.isSome) :
    (∃ sub ∈ subs, sub.kind = .clock (soonest subs)) ∧
      ∀ sub ∈ subs, ∃ left, sub.kind = .clock left ∧ soonest subs ≤ left := by
  have whole : (subs.filterMap (·.kind.left)).length = subs.length :=
    List.filterMap_length_eq_length.mpr all
  have clock : ∀ (sub : Subscription) left, sub.kind.left = Option.some left →
      sub.kind = .clock left := by
    intro sub left has
    cases kind : sub.kind with
    | clock here =>
      rw [kind] at has
      exact congrArg Kind.clock (Option.some.inj has)
    | fdRead => simp [kind, Kind.left] at has
    | fdWrite => simp [kind, Kind.left] at has
  obtain ⟨first, least⟩ : ∃ first, (subs.filterMap (·.kind.left)).min? = Option.some first := by
    refine Option.isSome_iff_exists.mp ?_
    rw [List.isSome_min?_iff]
    intro none
    rw [none] at whole
    exact some (List.eq_nil_of_length_eq_zero whole.symm)
  have here : soonest subs = first := by simp [soonest, whole, least]
  obtain ⟨among, below⟩ := List.min?_eq_some_iff.mp least
  refine ⟨?_, fun sub within => ?_⟩
  · obtain ⟨sub, within, has⟩ := List.mem_filterMap.mp among
    exact ⟨sub, within, here ▸ clock sub first has⟩
  · obtain ⟨left, has⟩ := Option.isSome_iff_exists.mp (all sub within)
    refine ⟨left, clock sub left has, ?_⟩
    rw [here]
    exact below left (List.mem_filterMap.mpr ⟨sub, within, has⟩)

omit glue in
/-- A call that waits subscribes to clocks alone. -/
theorem clocks_of_soonest (waits : soonest subs ≠ 0) :
    ∀ sub ∈ subs, sub.kind.left.isSome := by
  refine List.filterMap_length_eq_length.mp ?_
  by_contra fewer
  simp [soonest, fewer] at waits

omit glue in
/-- Some subscription is ready once the wait is over. -/
theorem exists_ready (some : subs ≠ []) :
    ∃ sub ∈ subs, sub.ready (soonest subs) := by
  by_cases all : ∀ sub ∈ subs, sub.kind.left.isSome
  · obtain ⟨⟨sub, among, kind⟩, _⟩ := soonest_of_clocks some all
    exact ⟨sub, among, by simp [Subscription.ready, kind]⟩
  · simp only [not_forall] at all
    obtain ⟨sub, among, other⟩ := all
    refine ⟨sub, among, ?_⟩
    cases kind : sub.kind with
    | clock left => simp [kind, Kind.left] at other
    | fdRead => simp [Subscription.ready, kind]
    | fdWrite => simp [Subscription.ready, kind]

/-! ## What is written -/

/-- Events written at one slot after another. -/
def writeAll (events : Nat) (memory : μ) (written : Nat) : List Event → Except GuestError μ
  | [] => .ok memory
  | event :: rest => do
    let ptr ← element events eventSize written
    let later ← glue.write memory ptr event
    writeAll events later (written + 1) rest

/-- The events written are those of the subscriptions that are ready, in their order. -/
theorem writeEvents_ok {events waited written count : Nat}
    (done : (writeEvents glue events waited memory written subs).2 = .ok count) :
    count = written + (subs.filter (·.ready waited)).length ∧
      writeAll glue events memory written ((subs.filter (·.ready waited)).map (·.event)) =
        .ok (writeEvents glue events waited memory written subs).1 := by
  induction subs generalizing memory written with
  | nil =>
    simp only [writeEvents, Except.ok.injEq] at done
    simp [writeEvents, writeAll, done]
  | cons sub subs ih =>
    simp only [writeEvents] at done ⊢
    by_cases ready : sub.ready waited
    · rw [if_pos ready] at done ⊢
      simp only [List.filter_cons, ready, if_true, List.map_cons, writeAll, bind, Except.bind]
      cases slot : element events eventSize written with
      | error refused => simp [slot] at done
      | ok ptr =>
        simp only [slot] at done ⊢
        cases wrote : glue.write memory ptr sub.event with
        | error refused => simp [wrote] at done
        | ok later =>
          simp only [wrote] at done ⊢
          obtain ⟨total, all⟩ := ih done
          refine ⟨?_, all⟩
          rw [total, List.length_cons]
          omega
    · rw [if_neg ready] at done ⊢
      simpa [List.filter_cons, ready] using ih done

theorem writeEvents_ne_timeout (events waited : Nat) (memory : μ) (written : Nat)
    (subs : List Subscription) :
    (writeEvents glue events waited memory written subs).2 ≠ .error .timeout := by
  induction subs generalizing memory written with
  | nil => simp [writeEvents]
  | cons sub subs ih =>
    simp only [writeEvents]
    split
    · split
      · rename_i refused _
        cases refused <;> simp [GuestError.fault]
      · split
        · rename_i refused _
          cases refused <;> simp [GuestError.fault]
        · exact ih _ _
    · exact ih _ _

/-! ## The call -/

omit glue in
/-- How long a wait takes, and that the deadline ends it only where it is reached. -/
theorem wait_spec (nanos : Nat) :
    (wait clocks readings nanos).1 ≤ nanos ∧
    ((wait clocks readings nanos).1 ≠ 0 → clocks = .live) ∧
    (∀ left, readings.left = some left → (wait clocks readings nanos).1 ≤ left) ∧
    (∀ fault, (wait clocks readings nanos).2 = .error fault →
      fault = .timeout ∧ nanos ≠ 0 ∧ readings.left = some (wait clocks readings nanos).1) := by
  unfold wait
  split
  · simp
  · rename_i goes
    simp only [not_or, Clocks.advances, decide_eq_false_iff_not, not_not] at goes
    obtain ⟨some, live⟩ := goes
    cases deadline : readings.left with
    | none => simp [live]
    | some left =>
      by_cases reached : left ≤ nanos
      · simp only [reached, if_true]
        refine ⟨trivial, fun _ => live, fun other same => ?_, fun fault ended => ?_⟩
        · exact Nat.le_of_eq (Option.some.inj same)
        · cases ended
          exact ⟨rfl, some, trivial⟩
      · simp only [reached, if_false]
        refine ⟨Nat.le_refl _, fun _ => live, fun other same => ?_, fun fault ended => ?_⟩
        · have here : left = other := Option.some.inj same
          omega
        · cases ended

/-- A call on frozen clocks never waits, and tells nothing of the host's. -/
theorem pollOneoff_frozen (one other : Readings) (memory : μ) (fuel subs events count : Nat) :
    pollOneoff glue .frozen one table memory fuel subs events count =
      pollOneoff glue .frozen other table memory fuel subs events count := by
  have sub : ∀ look written, readSubscription .frozen one table look written =
      readSubscription .frozen other table look written := by
    intro look written
    unfold readSubscription
    cases written.u with
    | clock id timeout abstime => cases id <;> cases abstime <;> rfl
    | fdRead fd => rfl
    | fdWrite fd => rfl
  have rest : ∀ index count, readFrom glue .frozen one table memory subs index count =
      readFrom glue .frozen other table memory subs index count := by
    intro index count
    induction count generalizing index with
    | zero => rfl
    | succ count ih => simp only [readFrom, sub, ih]
  have read : subscriptions glue .frozen one table memory fuel subs count =
      subscriptions glue .frozen other table memory fuel subs count := by
    simp only [subscriptions, rest]
  simp only [pollOneoff, read, wait, Clocks.advances, reduceCtorEq, decide_false, or_true, if_true]

/-- Every way a call ends: its subscriptions are refused, the deadline ends its wait, or its events
are written. -/
theorem pollOneoff_cases (memory : μ) (fuel subs events count : Nat) :
    (∃ fault, subscriptions glue clocks readings table memory fuel subs count = .error fault ∧
      pollOneoff glue clocks readings table memory fuel subs events count =
        ⟨memory, 0, .error fault⟩) ∨
    ∃ read, subscriptions glue clocks readings table memory fuel subs count = .ok read ∧
      ((∃ fault, (wait clocks readings (soonest read)).2 = .error fault ∧
        pollOneoff glue clocks readings table memory fuel subs events count =
          ⟨memory, (wait clocks readings (soonest read)).1, .error fault⟩) ∨
      pollOneoff glue clocks readings table memory fuel subs events count =
        ⟨(writeEvents glue events (soonest read) memory 0 read).1,
          (wait clocks readings (soonest read)).1,
          (writeEvents glue events (soonest read) memory 0 read).2⟩) := by
  cases found : subscriptions glue clocks readings table memory fuel subs count with
  | error fault =>
    refine .inl ⟨fault, rfl, ?_⟩
    simp only [pollOneoff, found]
  | ok read =>
    refine .inr ⟨read, rfl, ?_⟩
    cases waited : wait clocks readings (soonest read) with
    | mk slept answer =>
      cases answer with
      | error fault =>
        refine .inl ⟨fault, rfl, ?_⟩
        simp only [pollOneoff, found, waited]
      | ok _ =>
        refine .inr ?_
        simp only [pollOneoff, found, waited]

/-- A call has something to wait for or to report. -/
theorem subscriptions_ne_nil {fuel subs count : Nat}
    (found : subscriptions glue clocks readings table memory fuel subs count = .ok read) :
    read ≠ [] := by
  obtain ⟨length, some⟩ := length_subscriptions glue clocks readings table found
  rw [← length] at some
  exact List.ne_nil_of_length_pos some

/-- A call that succeeds wrote the events of those that are ready, at least one of them. -/
theorem pollOneoff_ok {fuel subs events count written : Nat}
    (answered : (pollOneoff glue clocks readings table memory fuel subs events count).answer =
      .ok written) :
    ∃ read, subscriptions glue clocks readings table memory fuel subs count = .ok read ∧
      read.length = count ∧ 0 < written ∧
      written = (read.filter (·.ready (soonest read))).length ∧
      writeAll glue events memory 0 ((read.filter (·.ready (soonest read))).map (·.event)) =
        .ok (pollOneoff glue clocks readings table memory fuel subs events count).memory := by
  obtain ⟨fault, _, ended⟩ | ⟨read, found, ⟨fault, _, ended⟩ | done⟩ :=
    pollOneoff_cases glue clocks readings table memory fuel subs events count
  · rw [ended] at answered
    cases answered
  · rw [ended] at answered
    cases answered
  · rw [done] at answered ⊢
    obtain ⟨total, wrote⟩ := writeEvents_ok glue answered
    obtain ⟨sub, among, ready⟩ :=
      exists_ready (subscriptions_ne_nil glue clocks readings table found)
    have length := (length_subscriptions glue clocks readings table found).1
    have counted : written = (read.filter (·.ready (soonest read))).length := by omega
    refine ⟨read, found, length, ?_, counted, wrote⟩
    rw [counted]
    exact List.length_pos_of_mem (List.mem_filter.mpr ⟨among, ready⟩)

/-- The host waits not at all, or as long as the wait for the soonest subscription takes. -/
theorem pollOneoff_slept (memory : μ) (fuel subs events count : Nat) :
    (pollOneoff glue clocks readings table memory fuel subs events count).slept = 0 ∨
    ∃ read, subscriptions glue clocks readings table memory fuel subs count = .ok read ∧
      (pollOneoff glue clocks readings table memory fuel subs events count).slept =
        (wait clocks readings (soonest read)).1 := by
  obtain ⟨fault, _, ended⟩ | ⟨read, found, ⟨fault, _, ended⟩ | done⟩ :=
    pollOneoff_cases glue clocks readings table memory fuel subs events count
  · exact .inl (by rw [ended])
  · exact .inr ⟨read, found, by rw [ended]⟩
  · exact .inr ⟨read, found, by rw [done]⟩

/-- Where the deadline ends the wait, the guest's memory is as it was. -/
theorem pollOneoff_timeout {fuel subs events count : Nat}
    (timeout : (pollOneoff glue clocks readings table memory fuel subs events count).answer =
      .error .timeout) :
    (pollOneoff glue clocks readings table memory fuel subs events count).memory = memory ∧
      readings.left =
        some (pollOneoff glue clocks readings table memory fuel subs events count).slept := by
  obtain ⟨fault, refused, ended⟩ | ⟨read, _, ⟨fault, stopped, ended⟩ | done⟩ :=
    pollOneoff_cases glue clocks readings table memory fuel subs events count
  · rw [ended] at timeout
    cases timeout
    exact absurd refused
      (subscriptions_ne_timeout glue clocks readings table memory fuel subs count)
  · rw [ended]
    obtain ⟨_, _, _, deadline⟩ := wait_spec clocks readings (soonest read)
    exact ⟨rfl, (deadline fault stopped).2.2⟩
  · rw [done] at timeout
    exact absurd timeout (writeEvents_ne_timeout glue events (soonest read) memory 0 read)

/-- For every memory, table, clock and deadline: a call that succeeds read as many subscriptions as
the guest counts, and wrote the events of exactly those that are ready, in their order, at least one
of them; the host waits only for a call that subscribes to nothing but clocks, on live clocks, for
no longer than the soonest and never past the deadline; where the deadline ends the wait, the
guest's memory is as it was; and on frozen clocks nothing of the host's is told. -/
theorem poll_oneoff_reports_what_is_ready (memory : μ) (fuel subs events count : Nat) :
    let polled := pollOneoff glue clocks readings table memory fuel subs events count
    (∀ written, polled.answer = .ok written → ∃ read,
      subscriptions glue clocks readings table memory fuel subs count = .ok read ∧
      read.length = count ∧ 0 < written ∧
      written = (read.filter (·.ready (soonest read))).length ∧
      writeAll glue events memory 0 ((read.filter (·.ready (soonest read))).map (·.event)) =
        .ok polled.memory) ∧
    (polled.slept ≠ 0 → clocks = .live ∧ ∃ read,
      subscriptions glue clocks readings table memory fuel subs count = .ok read ∧
      ∀ sub ∈ read, ∃ left, sub.kind = .clock left ∧ polled.slept ≤ left) ∧
    (∀ left, readings.left = some left → polled.slept ≤ left) ∧
    (polled.answer = .error .timeout → polled.memory = memory ∧
      readings.left = some polled.slept) ∧
    (clocks = .frozen → ∀ other,
      pollOneoff glue clocks other table memory fuel subs events count = polled) := by
  intro polled
  refine ⟨fun written answered => pollOneoff_ok glue clocks readings table answered, ?_, ?_,
    pollOneoff_timeout glue clocks readings table, ?_⟩
  · intro slept
    obtain none | ⟨read, found, same⟩ :=
      pollOneoff_slept glue clocks readings table memory fuel subs events count
    · exact absurd none slept
    · obtain ⟨within, live, _, _⟩ := wait_spec clocks readings (soonest read)
      rw [← same] at within live
      -- A wait that takes time is for the soonest of clocks alone.
      have waits : 0 < soonest read := Nat.lt_of_lt_of_le (Nat.pos_of_ne_zero slept) within
      have least := soonest_of_clocks (subscriptions_ne_nil glue clocks readings table found)
        (clocks_of_soonest (Nat.ne_of_gt waits))
      refine ⟨live slept, read, found, fun sub among => ?_⟩
      obtain ⟨left, kind, later⟩ := least.2 sub among
      exact ⟨left, kind, Nat.le_trans within later⟩
  · intro left deadline
    obtain none | ⟨read, _, same⟩ :=
      pollOneoff_slept glue clocks readings table memory fuel subs events count
    · exact none ▸ Nat.zero_le left
    · exact same ▸ (wait_spec clocks readings (soonest read)).2.2.1 left deadline
  · intro still other
    subst still
    exact pollOneoff_frozen glue table other readings memory fuel subs events count

/-- A memory that holds two relative clocks, the second the sooner, and keeps what is written. -/
def twoClocks : Glue (List (Nat × Event)) where
  read _ ptr := .ok ⟨ptr, .clock .monotonic (if ptr = 0 then 5 else 3) false⟩
  write memory ptr event := .ok (memory ++ [(ptr, event)])

theorem poll_oneoff_reports_the_soonest :
    let polled := pollOneoff twoClocks .live ⟨fun _ => 0, fun _ => 0, some 10⟩ (fun _ => none) []
      1000 0 200 2
    polled = ⟨[(200, ⟨48, .success, .clock 3, 0⟩)], 3, .ok 1⟩ ∧ polled.slept ≤ 10 := by
  refine ⟨rfl, ?_⟩
  exact (poll_oneoff_reports_what_is_ready twoClocks .live ⟨fun _ => 0, fun _ => 0, some 10⟩
    (fun _ => none) [] 1000 0 200 2).2.2.1 10 rfl

end Kobako.Ambient
