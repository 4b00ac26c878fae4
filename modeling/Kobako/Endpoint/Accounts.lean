import Kobako.Run
import Mathlib.Algebra.GroupWithZero.Nat

/-!
# What a Snapshot accounts for

One invocation: the instance is made and its request written, the memory cap is armed, the guest
runs, and the cap is disarmed whether the call returns or traps; then the Snapshot is built. All
the while the guest reads the Preamble and writes its two Channels through pipes, and asks for
memory, whatever came of its earlier calls. The Snapshot tells what the guest sent, clipped to the
limits, and the most the guest was granted past the memory it entered with.
-/

namespace Kobako.Accounts

/-- `usize::MAX`. -/
def usizeMax : Nat := 2 ^ 64 - 1

/-! ## Pipes -/

/-- `PipeInodeInfo`: what was written and how much of it was read. -/
structure Pipe where
  bytes : List UInt8
  read : Nat
  capacity : Nat
  fits : bytes.length ≤ capacity
  within : read ≤ bytes.length

/-- `PipeInodeInfo::with_bytes`. -/
def Pipe.withBytes (bytes : List UInt8) (capacity : Nat) (fits : bytes.length ≤ capacity) : Pipe :=
  ⟨bytes, 0, capacity, fits, Nat.zero_le _⟩

/-- `PipeInodeInfo::new`. -/
def Pipe.new (capacity : Nat) : Pipe := .withBytes [] capacity (Nat.zero_le _)

/-- `PipeInodeInfo::from_bytes`. -/
def Pipe.fromBytes (bytes : List UInt8) : Pipe := .withBytes bytes bytes.length (Nat.le_refl _)

/-- `AnonPipe::read_iter` into this much room: what it takes and the pipe left. -/
def Pipe.readIter (pipe : Pipe) (room : Nat) : List UInt8 × Pipe :=
  let take := min (pipe.bytes.length - pipe.read) room
  ((pipe.bytes.drop pipe.read).take take,
    { pipe with
      read := pipe.read + take
      within := by
        have within := pipe.within
        omega })

/-- `AnonPipe::write_iter`: the pipe left, and how much was taken or that it is full. -/
def Pipe.writeIter (pipe : Pipe) (buf : List UInt8) : Pipe × Except String Nat :=
  let take := min buf.length (pipe.capacity - pipe.bytes.length)
  ({ pipe with
      bytes := pipe.bytes ++ buf.take take
      fits := by
        have fits := pipe.fits
        simp only [List.length_append, List.length_take]
        omega
      within := by
        have within := pipe.within
        simp only [List.length_append]
        omega },
    if take < buf.length then .error "the pipe is full" else .ok take)

/-- `pipe_capacity`. -/
def pipeCapacity : Option Nat → Nat
  | some limit => min (limit + 1) usizeMax
  | none => usizeMax

/-- `clip_capture`. -/
def clipCapture (raw : List UInt8) : Option Nat → List UInt8 × Bool
  | some limit => if raw.length > limit then (raw.take limit, true) else (raw, false)
  | none => (raw, false)

/-! ## The memory cap -/

/-- `MemoryCap`. -/
structure MemoryCap where
  memoryLimit : Option Nat
  baseline : Nat
  capActive : Bool
  peak : Nat

/-- `MemoryLimitExceeded`. -/
structure MemoryLimitExceeded where
  desired : Nat
  limit : Nat

namespace MemoryCap

/-- `MemoryCap::new`. -/
def new (memoryLimit : Option Nat) : MemoryCap := ⟨memoryLimit, 0, false, 0⟩

/-- `MemoryCap::activate`. -/
def activate (cap : MemoryCap) (baseline : Nat) : MemoryCap :=
  { cap with baseline, capActive := true, peak := 0 }

/-- `MemoryCap::deactivate`. -/
def deactivate (cap : MemoryCap) : MemoryCap := { cap with capActive := false }

/-- `MemoryCap::charge`. -/
def charge (cap : MemoryCap) (desired : Nat) : Except MemoryLimitExceeded MemoryCap :=
  if !cap.capActive then .ok cap
  else
    let delta := desired - cap.baseline
    match cap.memoryLimit with
    | some limit =>
      if delta > limit then .error ⟨desired, limit⟩
      else if delta > cap.peak then .ok { cap with peak := delta }
      else .ok cap
    | none => if delta > cap.peak then .ok { cap with peak := delta } else .ok cap

end MemoryCap

/-! ## One invocation -/

/-- The two output Channels. -/
inductive Channel
  | stdout
  | stderr
deriving DecidableEq

/-- The parts of `Config` an invocation's accounts read. -/
structure Limits where
  stdoutLimit : Option Nat
  stderrLimit : Option Nat
  memoryLimit : Option Nat

/-- The limit of a Channel. -/
def Limits.of (limits : Limits) : Channel → Option Nat
  | .stdout => limits.stdoutLimit
  | .stderr => limits.stderrLimit

/-- Whether the export call is still to come, under way or ended. -/
inductive Stage
  | entering
  | running
  | ended
deriving DecidableEq

/-- `Invocation`, its instance's memory, and what happened: the bytes handed to each Channel, those
read, the sizes granted while the cap was armed, the one refused, and the memory when the call
ended. -/
structure Invocation where
  stage : Stage
  size : Nat
  cap : MemoryCap
  stdin : Pipe
  channel : Channel → Pipe
  sent : Channel → List UInt8
  got : List UInt8
  granted : List Nat
  refused : Option Nat
  left : Nat

/-- What a guest, or the host around it, does next. -/
inductive Event
  /-- `memory.grow` asks for a size, and the engine has the memory or not. -/
  | grow (desired : Nat) (had : Bool)
  /-- `fd_write` on a Channel, of the first buffer that is not empty. -/
  | write (channel : Channel) (buf : List UInt8)
  /-- `fd_read` on the Preamble's stream. -/
  | read (room : Nat)
  /-- `call_with_caps` arms the cap. -/
  | arm
  /-- The export returns or traps, and `disarm_caps` runs. -/
  | disarm

/-- `Invocation::new` with the pipes of `Wasi::new`, around an instance's first memory. -/
def Invocation.new (limits : Limits) (stdin : List UInt8) (size : Nat) : Invocation where
  stage := .entering
  size := size
  cap := .new limits.memoryLimit
  stdin := .fromBytes stdin
  channel channel := .new (pipeCapacity (limits.of channel))
  sent _ := []
  got := []
  granted := []
  refused := none
  left := 0

/-- The call has ended: `disarm_caps`. -/
def Invocation.disarm (invocation : Invocation) : Invocation :=
  { invocation with
    stage := .ended, cap := invocation.cap.deactivate, left := invocation.size }

/-- One step of an invocation. -/
def Invocation.step (invocation : Invocation) : Event → Option Invocation
  | .grow desired had =>
    if desired ≤ invocation.size then none
    else
      match invocation.cap.charge desired with
      | .ok cap =>
        some { invocation with
          cap
          size := if had then desired else invocation.size
          granted :=
            if invocation.cap.capActive then desired :: invocation.granted
            else invocation.granted }
      -- The error ends the call as a trap.
      | .error _ => some { invocation.disarm with refused := some desired }
  | .write channel buf =>
    some { invocation with
      channel :=
        Function.update invocation.channel channel ((invocation.channel channel).writeIter buf).1
      sent := Function.update invocation.sent channel (invocation.sent channel ++ buf) }
  | .read room =>
    some { invocation with
      stdin := (invocation.stdin.readIter room).2
      got := invocation.got ++ (invocation.stdin.readIter room).1 }
  | .arm =>
    if invocation.stage = .entering then
      some { invocation with stage := .running, cap := invocation.cap.activate invocation.size }
    else none
  | .disarm => if invocation.stage = .running then some invocation.disarm else none

/-- The Captures and the memory of `build_snapshot`. -/
structure Snapshot where
  capture : Channel → List UInt8 × Bool
  memoryPeak : Nat

/-- `Driver::build_snapshot`. -/
def Invocation.snapshot (limits : Limits) (invocation : Invocation) : Snapshot where
  capture channel := clipCapture (invocation.channel channel).bytes (limits.of channel)
  memoryPeak := invocation.cap.peak

/-! ## What every invocation keeps -/

/-- The most a list of sizes stands past a baseline. -/
def most (baseline : Nat) (sizes : List Nat) : Nat :=
  (sizes.map (· - baseline)).foldr max 0

/-- What is handed to a pipe stands in it as far as its capacity goes, what was read is where the
reads came to, and the cap tells the most that was granted, within the limit. -/
structure Invocation.Sound (limits : Limits) (stdin : List UInt8) (invocation : Invocation) :
    Prop where
  capacity : ∀ channel,
    (invocation.channel channel).capacity = pipeCapacity (limits.of channel)
  holds : ∀ channel, (invocation.channel channel).bytes =
    (invocation.sent channel).take (pipeCapacity (limits.of channel))
  preamble : invocation.stdin.bytes = stdin
  got : invocation.got = stdin.take invocation.stdin.read
  limit : invocation.cap.memoryLimit = limits.memoryLimit
  active : invocation.cap.capActive = true ↔ invocation.stage = .running
  entering : invocation.stage = .entering → invocation.granted = [] ∧ invocation.refused = none
  running : invocation.stage = .running →
    invocation.size ≤ invocation.cap.baseline + invocation.cap.peak
  ended : invocation.stage = .ended →
    invocation.left ≤ invocation.cap.baseline + invocation.cap.peak
  peak : invocation.cap.peak = most invocation.cap.baseline invocation.granted
  bounded : ∀ limit, limits.memoryLimit = some limit → invocation.cap.peak ≤ limit
  refused : ∀ desired, invocation.refused = some desired →
    ∃ limit, limits.memoryLimit = some limit ∧ invocation.cap.baseline + limit < desired

variable {limits : Limits} {stdin : List UInt8} {invocation next : Invocation}

/-- A write to a pipe keeps its capacity. -/
theorem Pipe.writeIter_capacity (pipe : Pipe) (buf : List UInt8) :
    (pipe.writeIter buf).1.capacity = pipe.capacity := rfl

/-- What a pipe holds of what it was handed grows with what it is handed. -/
theorem Pipe.writeIter_bytes {pipe : Pipe} {sent : List UInt8} (buf : List UInt8)
    (holds : pipe.bytes = sent.take pipe.capacity) :
    (pipe.writeIter buf).1.bytes = (sent ++ buf).take pipe.capacity := by
  have room : pipe.bytes.length = min pipe.capacity sent.length := by
    rw [holds, List.length_take]
  simp only [Pipe.writeIter]
  rw [List.take_append, ← holds, room]
  congr 1
  -- Nothing more is taken once the pipe is full.
  rw [List.take_eq_take_iff]
  omega

/-- A read takes what comes next of what a pipe holds. -/
theorem Pipe.readIter_next (pipe : Pipe) (room : Nat) :
    pipe.bytes.take pipe.read ++ (pipe.readIter room).1 =
      pipe.bytes.take (pipe.readIter room).2.read := by
  simp only [Pipe.readIter]
  rw [List.take_add]

/-- A charge that is refused is past the limit of a cap that is armed. -/
theorem MemoryCap.charge_error {cap : MemoryCap} {desired : Nat} {exceeded : MemoryLimitExceeded}
    (charged : cap.charge desired = .error exceeded) :
    cap.capActive = true ∧ ∃ limit, cap.memoryLimit = some limit ∧
      cap.baseline + limit < desired := by
  unfold MemoryCap.charge at charged
  split at charged
  · cases charged
  · rename_i armed
    refine ⟨by simpa using armed, ?_⟩
    simp only at charged
    split at charged
    · rename_i limit limited
      split at charged
      · rename_i past
        exact ⟨limit, limited, by omega⟩
      · split at charged <;> cases charged
    · split at charged <;> cases charged

/-- A charge that is granted raises the peak to what was asked for, within the limit, where the cap
is armed, and nothing else. -/
theorem MemoryCap.charge_ok {cap after : MemoryCap} {desired : Nat}
    (charged : cap.charge desired = .ok after) :
    (cap.capActive = false ∧ after = cap) ∨
      (cap.capActive = true ∧
        after = { cap with peak := max (desired - cap.baseline) cap.peak } ∧
        ∀ limit, cap.memoryLimit = some limit → desired - cap.baseline ≤ limit) := by
  have raised : ∀ delta, (if delta > cap.peak then
      (Except.ok { cap with peak := delta } : Except MemoryLimitExceeded MemoryCap) else .ok cap) =
        .ok { cap with peak := max delta cap.peak } := by
    intro delta
    split
    · rename_i more
      rw [Nat.max_eq_left (Nat.le_of_lt more)]
    · rename_i less
      rw [Nat.max_eq_right (Nat.le_of_not_lt less)]
  unfold MemoryCap.charge at charged
  split at charged
  · rename_i dormant
    cases charged
    exact .inl ⟨by simpa using dormant, rfl⟩
  · rename_i armed
    right
    refine ⟨by simpa using armed, ?_⟩
    simp only [raised] at charged
    split at charged
    · rename_i limit limited
      split at charged
      · cases charged
      · rename_i within
        cases charged
        refine ⟨rfl, fun other given => ?_⟩
        rw [limited] at given
        cases given
        omega
    · rename_i unlimited
      cases charged
      refine ⟨rfl, fun limit given => ?_⟩
      simp [unlimited] at given

namespace Invocation

/-- An invocation begins with nothing sent, read or granted. -/
theorem new_sound (limits : Limits) (stdin : List UInt8) (size : Nat) :
    (Invocation.new limits stdin size).Sound limits stdin where
  capacity channel := rfl
  holds channel := by simp [Invocation.new, Pipe.new, Pipe.withBytes]
  preamble := rfl
  got := by simp [Invocation.new, Pipe.fromBytes, Pipe.withBytes]
  limit := rfl
  active := by simp [Invocation.new, MemoryCap.new]
  entering _ := ⟨rfl, rfl⟩
  running stage := by cases stage
  ended stage := by cases stage
  peak := rfl
  bounded limit _ := Nat.zero_le limit
  refused desired told := by cases told

/-- A growth the cap grants. -/
theorem Sound.granted (sound : invocation.Sound limits stdin) {desired : Nat} {had : Bool}
    {cap : MemoryCap} (charged : invocation.cap.charge desired = .ok cap) :
    ({ invocation with
        cap
        size := if had then desired else invocation.size
        granted :=
          if invocation.cap.capActive then desired :: invocation.granted
          else invocation.granted } : Invocation).Sound limits stdin := by
  obtain ⟨dormant, same⟩ | ⟨armed, raised, within⟩ := MemoryCap.charge_ok charged
  · subst same
    have stopped : invocation.stage ≠ .running := by
      rw [ne_eq, ← sound.active, dormant]
      exact Bool.false_ne_true
    simp only [dormant, Bool.false_eq_true, if_false]
    exact { sound with running := fun running => absurd running stopped }
  · subst raised
    have running := sound.active.mp armed
    have held := sound.running running
    simp only [armed, if_true]
    exact {
      sound with
      active := ⟨fun _ => running, fun _ => rfl⟩
      entering := fun entering => by simp [running] at entering
      running := fun _ => by
        show (if had then desired else invocation.size) ≤
          invocation.cap.baseline + max (desired - invocation.cap.baseline) invocation.cap.peak
        split <;> omega
      ended := fun ended => by simp [running] at ended
      peak := by
        have peak := sound.peak
        show max (desired - invocation.cap.baseline) invocation.cap.peak =
          max (desired - invocation.cap.baseline)
            (most invocation.cap.baseline invocation.granted)
        rw [← peak]
      bounded := fun limit given => by
        have earlier := sound.bounded limit given
        have now := within limit (sound.limit.trans given)
        show max (desired - invocation.cap.baseline) invocation.cap.peak ≤ limit
        omega }

/-- The call has ended. -/
theorem Sound.disarm (sound : invocation.Sound limits stdin)
    (running : invocation.stage = .running) :
    invocation.disarm.Sound limits stdin :=
  { sound with
    active := by simp [Invocation.disarm, MemoryCap.deactivate]
    entering := fun entering => by cases entering
    running := fun running => by cases running
    ended := fun _ => sound.running running }

/-- Every step keeps the accounts. -/
theorem step_sound (invocation : Invocation) (event : Event) (next : Invocation)
    (sound : invocation.Sound limits stdin) (stepped : invocation.step event = some next) :
    next.Sound limits stdin := by
  cases event with
  | grow desired had =>
    simp only [step] at stepped
    split at stepped
    · cases stepped
    · split at stepped
      · rename_i cap charged
        cases stepped
        exact sound.granted charged
      · rename_i exceeded charged
        cases stepped
        obtain ⟨armed, limit, limited, past⟩ := MemoryCap.charge_error charged
        have ended := sound.disarm (sound.active.mp armed)
        exact {
          ended with
          entering := fun entering => by cases entering
          refused := fun other told => by
            cases told
            exact ⟨limit, sound.limit.symm.trans limited, past⟩ }
  | write channel buf =>
    simp only [step] at stepped
    cases stepped
    refine { sound with capacity := fun other => ?_, holds := fun other => ?_ }
    · by_cases same : other = channel
      · subst same
        simpa only [Function.update_self, Pipe.writeIter_capacity] using sound.capacity other
      · simpa only [Function.update_of_ne same] using sound.capacity other
    · by_cases same : other = channel
      · subst same
        have capacity := sound.capacity other
        have holds := sound.holds other
        rw [← capacity] at holds
        simp only [Function.update_self]
        rw [Pipe.writeIter_bytes buf holds, capacity]
      · simpa only [Function.update_of_ne same] using sound.holds other
  | read room =>
    simp only [step] at stepped
    cases stepped
    have taken := Pipe.readIter_next invocation.stdin room
    rw [sound.preamble, ← sound.got] at taken
    exact { sound with preamble := sound.preamble, got := taken }
  | arm =>
    simp only [step] at stepped
    split at stepped
    · rename_i entering
      cases stepped
      obtain ⟨ungranted, unrefused⟩ := sound.entering entering
      exact {
        sound with
        active := by simp [MemoryCap.activate]
        entering := fun entering => by cases entering
        running := fun _ => Nat.le_refl _
        ended := fun ended => by cases ended
        peak := by simp [MemoryCap.activate, ungranted, most]
        bounded := fun limit _ => Nat.zero_le limit
        refused := fun desired told => by simp [unrefused] at told }
    · cases stepped
  | disarm =>
    simp only [step] at stepped
    split at stepped
    · rename_i running
      cases stepped
      exact sound.disarm running
    · cases stepped

end Invocation

/-- What a capture of a pipe with a byte to spare tells. -/
theorem clipCapture_pipe {sent : List UInt8} {limit : Nat} (below : limit < usizeMax) :
    clipCapture (sent.take (pipeCapacity (some limit))) (some limit) =
      (sent.take limit, decide (limit < sent.length)) := by
  have capacity : pipeCapacity (some limit) = limit + 1 := Nat.min_eq_left below
  simp only [clipCapture, capacity, List.length_take]
  by_cases past : limit < sent.length
  · rw [if_pos (by omega), List.take_take, Nat.min_eq_left (by omega)]
    simp [past]
  · rw [if_neg (by omega), List.take_of_length_le (by omega), List.take_of_length_le (by omega)]
    simp [past]

/-- However a guest writes, reads and grows, and however its call ends: a Channel's Capture is what
the guest sent it up to the limit, and told truncated exactly where the guest sent more; the reads
of the Preamble took its bytes in order; while the call ran, the memory never stood past its size
at entry by more than the peak the Snapshot tells, which is the most that was ever granted and
within the limit; and a growth that ended the call was past it. -/
theorem snapshot_accounts_for_the_call {size : Nat}
    (reached : Reachable Invocation.step (.new limits stdin size) invocation) :
    (∀ channel limit, limits.of channel = some limit → limit < usizeMax →
      (invocation.snapshot limits).capture channel =
        ((invocation.sent channel).take limit,
          decide (limit < (invocation.sent channel).length))) ∧
    (∀ channel, limits.of channel = none → (invocation.sent channel).length ≤ usizeMax →
      (invocation.snapshot limits).capture channel = (invocation.sent channel, false)) ∧
    invocation.got <+: stdin ∧
    (invocation.stage = .running →
      invocation.size ≤ invocation.cap.baseline + (invocation.snapshot limits).memoryPeak) ∧
    (invocation.stage = .ended →
      invocation.left ≤ invocation.cap.baseline + (invocation.snapshot limits).memoryPeak) ∧
    (invocation.snapshot limits).memoryPeak =
      most invocation.cap.baseline invocation.granted ∧
    (∀ limit, limits.memoryLimit = some limit →
      (invocation.snapshot limits).memoryPeak ≤ limit) ∧
    (∀ desired, invocation.refused = some desired →
      ∃ limit, limits.memoryLimit = some limit ∧ invocation.cap.baseline + limit < desired) := by
  have sound : invocation.Sound limits stdin :=
    reached.invariant Invocation.step (Invocation.new_sound limits stdin size)
      Invocation.step_sound
  refine ⟨?_, ?_, ?_, sound.running, sound.ended, sound.peak, sound.bounded, sound.refused⟩
  · intro channel limit limited below
    simp only [Invocation.snapshot, sound.holds channel, limited]
    exact clipCapture_pipe below
  · intro channel unlimited fits
    simp only [Invocation.snapshot, sound.holds channel, unlimited, clipCapture, pipeCapacity]
    rw [List.take_of_length_le fits]
  · rw [sound.got]
    exact List.take_prefix _ _

/-- A guest prints past its limit, grows its memory twice and asks for too much. -/
def spending : List Event :=
  [.grow 8 true, .arm, .write .stdout [1, 2], .grow 12 true, .read 1, .write .stdout [3, 4],
    .grow 16 true, .grow 32 true]

/-- Three bytes of stdout, and eight of memory. -/
def tight : Limits := ⟨some 3, none, some 8⟩

theorem snapshot_accounts_for_the_call_spending :
    ∃ invocation, run Invocation.step (.new tight [5, 6] 4) spending = some invocation ∧
      invocation.sent .stdout = [1, 2, 3, 4] ∧
      (invocation.snapshot tight).capture .stdout =
        ((invocation.sent .stdout).take 3, decide (3 < (invocation.sent .stdout).length)) ∧
      (invocation.snapshot tight).memoryPeak = most 8 [16, 12] := by
  refine ⟨_, rfl, rfl, ?_⟩
  have accounts := @snapshot_accounts_for_the_call tight [5, 6] _ 4 ⟨spending, rfl⟩
  exact ⟨accounts.1 .stdout 3 rfl (by decide), accounts.2.2.2.2.2.1⟩

end Kobako.Accounts
