import BetterParsec.Driver.Interleaving

set_option autoImplicit false
set_option linter.all false

/-!
# Integrity of the keyboard ring

Whatever the callback, the class service and the control requests do in between,
what READ_EVENTS returns of an epoch is the beginning of what was put into its
ring, and a record of an armed epoch that did not get into the ring is reported.
-/

namespace BetterParsec

namespace KbdFilter

section Epochs

def putEvents (entries : List Entry) : List BpKbdEventV1 :=
  entries.filterMap (fun
    | .put event => some event
    | _ => none)

def readOutputs (entries : List Entry) : List BpKbdEventV1 :=
  entries.flatMap (fun
    | .read output => output.events
    | _ => [])

-- The nonce of the last reset with what has been observed since.
def follow (epoch : Option (UInt64 × List Entry)) (entry : Entry) :
    Option (UInt64 × List Entry) :=
  match entry with
  | .reset nonce => some (nonce, [])
  | entry => epoch.map (fun current => (current.1, current.2 ++ [entry]))

def currentEpoch (log : List Entry) : Option (UInt64 × List Entry) := log.foldl follow none

-- The dropped count of the first READ_EVENTS or STATUS.
def firstReport : List Entry → Option Nat
  | [] => none
  | .read output :: _ => some output.dropped
  | .status output :: _ => some output.dropped
  | _ :: rest => firstReport rest

@[simp] theorem currentEpoch_append_singleton (log : List Entry) (entry : Entry) :
    currentEpoch (log ++ [entry]) = follow (currentEpoch log) entry := by
  rw [currentEpoch, List.foldl_append]
  rfl

theorem firstReport_append (log later : List Entry) (held : Nat) :
    (firstReport (log ++ later)).getD held =
      (firstReport log).getD ((firstReport later).getD held) := by
  induction log with
  | nil => rfl
  | cons entry rest ih =>
    cases entry with
    | read output => rfl
    | status output => rfl
    | reset nonce => exact ih
    | put event => exact ih
    | counted found epoch stored => exact ih

end Epochs

-- The part of the capture state that the Alt bookkeeping leaves alone.
structure SameRing (c c' : CaptureState) : Prop where
  armed : c'.armed = c.armed
  epochFaulted : c'.epochFaulted = c.epochFaulted
  nonce : c'.nonce = c.nonce
  nextSequence : c'.nextSequence = c.nextSequence
  head : c'.head = c.head
  count : c'.count = c.count
  dropped : c'.dropped = c.dropped
  events : c'.events = c.events

theorem SameRing.trans {c c' c'' : CaptureState} (one : SameRing c c') (two : SameRing c' c'') :
    SameRing c c'' :=
  ⟨two.armed.trans one.armed, two.epochFaulted.trans one.epochFaulted, two.nonce.trans one.nonce,
    two.nextSequence.trans one.nextSequence, two.head.trans one.head, two.count.trans one.count,
    two.dropped.trans one.dropped, two.events.trans one.events⟩

theorem updateAltStateLocked_sameRing (c : CaptureState) (input : KeyboardInputData) :
    SameRing c (updateAltStateLocked c input) := by
  unfold updateAltStateLocked
  split_ifs <;> exact ⟨rfl, rfl, rfl, rfl, rfl, rfl, rfl, rfl⟩

theorem decideLocked_sameRing (c : CaptureState) (input : KeyboardInputData) (wasAltDown : Bool) :
    SameRing c (decideLocked c input wasAltDown).1 := by
  constructor <;>
    simp only [decideLocked, apply_ite Prod.fst, apply_ite CaptureState.armed,
      apply_ite CaptureState.epochFaulted, apply_ite CaptureState.nonce,
      apply_ite CaptureState.nextSequence, apply_ite CaptureState.head,
      apply_ite CaptureState.count, apply_ite CaptureState.dropped,
      apply_ite CaptureState.events, ite_self]

theorem restorePrior_sameRing (c : CaptureState) (l : Locals) : SameRing c (restorePrior c l) := by
  unfold restorePrior
  split_ifs <;> exact ⟨rfl, rfl, rfl, rfl, rfl, rfl, rfl, rfl⟩

theorem clearPending_sameRing (c : CaptureState) : SameRing c (clearPending c) :=
  ⟨rfl, rfl, rfl, rfl, rfl, rfl, rfl, rfl⟩

-- What a ring holds, against what was observed since it was reset.
structure RingOf (c : CaptureState) (nonce : UInt64) (entries : List Entry) : Prop where
  nonce_eq : c.nonce = nonce
  kept : putEvents entries =
    readOutputs entries ++ RingSlots.contents c.events c.head c.count
  nextSequence : c.nextSequence = UInt32.ofNat (putEvents entries).length
  nonces : ∀ event ∈ putEvents entries, event.nonce = nonce
  sequences : (putEvents entries).map BpKbdEventV1.sequence =
    (List.range (putEvents entries).length).map (fun index => UInt32.ofNat (index + 1))

-- Before the first reset nothing is put into the ring.
def RingSince (c : CaptureState) : Option (UInt64 × List Entry) → Prop
  | none => c.armed = false ∧ c.count = 0
  | some (nonce, entries) => RingOf c nonce entries

section Rings

variable {c c' : CaptureState} {since : Option (UInt64 × List Entry)}

theorem RingSince.same (ring : RingSince c since) (same : SameRing c c') : RingSince c' since := by
  cases since with
  | none => exact ⟨same.armed.trans ring.1, same.count.trans ring.2⟩
  | some epoch =>
    obtain ⟨nonce_eq, kept, nextSequence, nonces, sequences⟩ := ring
    refine ⟨same.nonce.trans nonce_eq, ?_, same.nextSequence.trans nextSequence, nonces, sequences⟩
    rw [same.events, same.head, same.count]
    exact kept

theorem RingSince.fault (ring : RingSince c since) : RingSince (faultEpochLocked c) since := by
  cases since with
  | none => exact ⟨rfl, ring.2⟩
  | some epoch => exact ⟨ring.nonce_eq, ring.kept, ring.nextSequence, ring.nonces, ring.sequences⟩

theorem RingSince.expire (ring : RingSince c since) (now : UInt64) :
    RingSince (expireLeaseLocked c now) since := by
  unfold expireLeaseLocked
  split_ifs
  · exact ring.fault
  · exact ring

theorem RingSince.disarm (ring : RingSince c since) : RingSince (disarmLocked c) since := by
  cases since with
  | none => exact ⟨rfl, ring.2⟩
  | some epoch => exact ⟨ring.nonce_eq, ring.kept, ring.nextSequence, ring.nonces, ring.sequences⟩

theorem RingSince.enqueue (ring : RingSince c since) (armed : c.armed = true)
    (room : c.count < bpRingCapacity) (input : KeyboardInputData) (now : UInt64) :
    RingSince (enqueueEventLocked c input now) (follow since (.put (nextEvent c input now))) := by
  cases since with
  | none => exact absurd (armed.symm.trans ring.1) (by decide)
  | some epoch =>
    have puts : putEvents (epoch.2 ++ [Entry.put (nextEvent c input now)]) =
        putEvents epoch.2 ++ [nextEvent c input now] := by
      rw [putEvents, List.filterMap_append]
      rfl
    have reads : readOutputs (epoch.2 ++ [Entry.put (nextEvent c input now)]) =
        readOutputs epoch.2 := by
      rw [readOutputs, List.flatMap_append]
      exact List.append_nil _
    refine ⟨ring.nonce_eq, ?_, ?_, ?_, ?_⟩
    · rw [puts, reads, ring.kept, List.append_assoc]
      congr 1
      exact (RingSlots.contents_put c.events c.head c.count _ room).symm
    · rw [puts, List.length_append, List.length_singleton]
      change c.nextSequence + 1 = _
      rw [ring.nextSequence, UInt32.ofNat_add]
      rfl
    · rw [puts]
      intro event member
      rcases List.mem_append.mp member with old | new
      · exact ring.nonces event old
      · rw [List.mem_singleton.mp new]
        exact ring.nonce_eq
    · rw [puts, List.map_append, ring.sequences, List.length_append, List.length_singleton,
        List.range_succ, List.map_append, List.map_singleton, List.map_singleton]
      change _ ++ [c.nextSequence + 1] = _
      rw [ring.nextSequence, UInt32.ofNat_add]
      rfl

-- An entry that is neither a reset nor about events.
theorem RingSince.entry (ring : RingSince c since) {entry : Entry}
    (kept : ∀ entries, putEvents (entries ++ [entry]) = putEvents entries ∧
      readOutputs (entries ++ [entry]) = readOutputs entries)
    (noReset : follow since entry = since.map (fun epoch => (epoch.1, epoch.2 ++ [entry]))) :
    RingSince c (follow since entry) := by
  rw [noReset]
  cases since with
  | none => exact ring
  | some epoch =>
    obtain ⟨puts, reads⟩ := kept epoch.2
    refine ⟨ring.nonce_eq, ?_, ?_, ?_, ?_⟩
    · rw [puts, reads]
      exact ring.kept
    · rw [puts]
      exact ring.nextSequence
    · rw [puts]
      exact ring.nonces
    · rw [puts]
      exact ring.sequences

theorem RingSince.counted (ring : RingSince c since) (found : Bool) (epoch : Nat)
    (stored : Option Nat) : RingSince c (follow since (.counted found epoch stored)) := by
  apply ring.entry _ rfl
  intro entries
  simp [putEvents, readOutputs]

theorem RingSince.status (ring : RingSince c since) (output : BpKbdStatus) :
    RingSince c (follow since (.status output)) := by
  apply ring.entry _ rfl
  intro entries
  simp [putEvents, readOutputs]

theorem RingSince.read (ring : RingSince c since) (gateTaken : Bool) (capacity : Nat) :
    RingSince (readEventsLocked c gateTaken capacity).1
      (follow since (.read (readEventsLocked c gateTaken capacity).2)) := by
  unfold readEventsLocked
  set taken := if gateTaken then 0 else if c.count < capacity then c.count else capacity
    with taken_eq
  have enough : taken ≤ c.count := by
    rw [taken_eq]
    split_ifs <;> omega
  cases since with
  | none =>
    refine ⟨ring.1, ?_⟩
    have := ring.2
    change c.count - taken = 0
    omega
  | some epoch =>
    have puts (output : ReadEvents) :
        putEvents (epoch.2 ++ [Entry.read output]) = putEvents epoch.2 := by
      simp [putEvents]
    have reads (output : ReadEvents) :
        readOutputs (epoch.2 ++ [Entry.read output]) = readOutputs epoch.2 ++ output.events := by
      simp [readOutputs]
    refine ⟨ring.nonce_eq, ?_, ?_, ?_, ?_⟩
    · rw [puts, reads, List.append_assoc, ring.kept]
      congr 1
      exact (RingSlots.contents_drop c.events c.head c.count taken enough).symm
    · rw [puts]
      exact ring.nextSequence
    · rw [puts]
      exact ring.nonces
    · rw [puts]
      exact ring.sequences

theorem RingSince.reset (c : CaptureState) (arm : ArmRequest) (now : UInt64)
    (since : Option (UInt64 × List Entry)) :
    RingSince (grantArm (resetEpoch c) arm now) (follow since (.reset arm.nonce)) :=
  ⟨rfl, rfl, rfl, fun _ member => absurd member List.not_mem_nil, rfl⟩

end Rings

structure Intact (c : CaptureState) : Prop where
  count_le : c.count ≤ bpRingCapacity
  head_lt : c.head < bpRingCapacity
  healthy : c.armed = true → c.epochFaulted = false ∧ c.dropped = 0

-- A record counted for an armed epoch that is not in the ring of that epoch: the epoch is
-- over, or it is faulted and the next report has said or will say so.
def Told (c : CaptureState) (epoch : Nat) (log : List Entry) : Prop :=
  ∀ before after number stored, log = before ++ Entry.counted true number stored :: after →
    stored ≠ some number → number ≤ epoch ∧
      (number < epoch ∨ c.armed = false ∧ (firstReport after).getD c.dropped ≠ 0)

structure Core (c : CaptureState) (epoch : Nat) (log : List Entry) : Prop where
  intact : Intact c
  ring : RingSince c (currentEpoch log)
  told : Told c epoch log

-- What a section that neither resets nor reads can do to an epoch: leave it alone or fault it.
structure Drift (c c' : CaptureState) : Prop where
  count : c'.count = c.count
  head : c'.head = c.head
  fate : (c'.armed = c.armed ∧ c'.nonce = c.nonce ∧ c'.dropped = c.dropped ∧
      c'.epochFaulted = c.epochFaulted) ∨
    (c.armed = true ∧ c'.armed = false ∧ c'.dropped ≠ 0)

section Drifts

variable {c c' : CaptureState} {epoch : Nat} {log : List Entry}

theorem SameRing.drift (same : SameRing c c') : Drift c c' :=
  ⟨same.count, same.head, .inl ⟨same.armed, same.nonce, same.dropped, same.epochFaulted⟩⟩

theorem faultEpochLocked_drift (armed : c.armed = true) : Drift c (faultEpochLocked c) :=
  ⟨rfl, rfl, .inr ⟨armed, rfl, Nat.succ_ne_zero _⟩⟩

theorem expireLeaseLocked_drift (c : CaptureState) (now : UInt64) :
    Drift c (expireLeaseLocked c now) := by
  unfold expireLeaseLocked
  split_ifs with expired
  · rw [Bool.and_eq_true] at expired
    exact faultEpochLocked_drift expired.1
  · exact ⟨rfl, rfl, .inl ⟨rfl, rfl, rfl, rfl⟩⟩

theorem Intact.drift (intact : Intact c) (drift : Drift c c') : Intact c' := by
  refine ⟨drift.count.trans_le intact.count_le, drift.head.trans_lt intact.head_lt, ?_⟩
  intro armed
  rcases drift.fate with ⟨same, -, dropped, faulted⟩ | ⟨-, disarmed, -⟩
  · obtain ⟨healthy, none⟩ := intact.healthy (same.symm.trans armed)
    exact ⟨faulted.trans healthy, dropped.trans none⟩
  · exact absurd (armed.symm.trans disarmed) (by decide)

theorem split_append {log new before after : List Entry} {entry : Entry}
    (split : log ++ new = before ++ entry :: after) :
    (∃ between, log = before ++ entry :: between ∧ after = between ++ new) ∨
      ∃ between, new = between ++ entry :: after := by
  rcases List.append_eq_append_iff.mp split with ⟨between, -, inside⟩ | ⟨between, earlier, rest⟩
  · exact .inr ⟨between, inside⟩
  · cases between with
    | nil => exact .inr ⟨[], rest.symm⟩
    | cons first between =>
      obtain ⟨rfl, behind⟩ := List.cons.inj rest
      exact .inl ⟨between, earlier, behind⟩

-- Entries that lose nothing, as the epoch goes on or after it.
theorem Told.append {epoch' : Nat} {new : List Entry} (told : Told c epoch log)
    (quiet : ∀ number stored, .counted true number stored ∈ new → stored = some number)
    (keeps : epoch < epoch' ∨ epoch' = epoch ∧ (c.armed = false → c'.armed = false ∧
      (c.dropped ≠ 0 → (firstReport new).getD c'.dropped ≠ 0))) :
    Told c' epoch' (log ++ new) := by
  intro before after number stored split lost
  rcases split_append split with ⟨between, earlier, rfl⟩ | ⟨between, inside⟩
  · obtain ⟨le, reported⟩ := told before between number stored earlier lost
    rcases keeps with later | ⟨rfl, kept⟩
    · exact ⟨by omega, .inl (by omega)⟩
    refine ⟨le, reported.imp_right ?_⟩
    rintro ⟨disarmed, report⟩
    obtain ⟨still, held⟩ := kept disarmed
    refine ⟨still, ?_⟩
    rw [firstReport_append]
    cases said : firstReport between with
    | none =>
      rw [said] at report
      exact held report
    | some dropped =>
      rw [said] at report
      exact report
  · have member : Entry.counted true number stored ∈ new := by
      rw [inside]
      exact List.mem_append_right _ List.mem_cons_self
    exact absurd (quiet number stored member) lost

theorem Told.drift {new : List Entry} (told : Told c epoch log) (drift : Drift c c')
    (quiet : ∀ number stored, .counted true number stored ∈ new → stored = some number)
    (report : (firstReport new).getD c'.dropped = c'.dropped) : Told c' epoch (log ++ new) := by
  apply told.append quiet
  refine .inr ⟨rfl, ?_⟩
  intro disarmed
  rcases drift.fate with ⟨armed, -, dropped, -⟩ | ⟨armed, -⟩
  · refine ⟨armed.trans disarmed, ?_⟩
    rw [report, dropped]
    exact id
  · exact absurd (armed.symm.trans disarmed) (by decide)

theorem Told.counted (told : Told c epoch log) {found : Bool} {number : Nat}
    {stored : Option Nat} (le : number ≤ epoch)
    (reason : found = true → stored ≠ some number →
      number < epoch ∨ c.armed = false ∧ c.dropped ≠ 0) :
    Told c epoch (log ++ [Entry.counted found number stored]) := by
  intro before after number' stored' split lost
  rcases split_append split with ⟨between, earlier, rfl⟩ | ⟨between, inside⟩
  · obtain ⟨le', reported⟩ := told before between number' stored' earlier lost
    refine ⟨le', ?_⟩
    rw [firstReport_append]
    exact reported
  · cases between with
    | nil =>
      obtain ⟨same, rfl⟩ := List.cons.inj inside
      cases same
      exact ⟨le, reason rfl lost⟩
    | cons first between => simp at inside

end Drifts

section Cores

variable {c c' : CaptureState} {epoch : Nat} {log : List Entry}

theorem Core.same (core : Core c epoch log) (same : SameRing c c') : Core c' epoch log := by
  refine ⟨core.intact.drift same.drift, core.ring.same same, ?_⟩
  have told : Told c' epoch (log ++ []) := core.told.drift same.drift (by simp) rfl
  rwa [List.append_nil] at told

theorem Core.drift (core : Core c epoch log) (drift : Drift c c')
    (ring : RingSince c' (currentEpoch log)) : Core c' epoch log := by
  refine ⟨core.intact.drift drift, ring, ?_⟩
  have told : Told c' epoch (log ++ []) := core.told.drift drift (by simp) rfl
  rwa [List.append_nil] at told

theorem Core.expire (core : Core c epoch log) (now : UInt64) :
    Core (expireLeaseLocked c now) epoch log :=
  core.drift (expireLeaseLocked_drift c now) (core.ring.expire now)

theorem Core.fault (core : Core c epoch log) (armed : c.armed = true) :
    Core (faultEpochLocked c) epoch log :=
  core.drift (faultEpochLocked_drift armed) core.ring.fault

theorem Core.enqueue (core : Core c epoch log) (armed : c.armed = true)
    (room : c.count < bpRingCapacity) (input : KeyboardInputData) (now : UInt64) :
    Core (enqueueEventLocked c input now) epoch (log ++ [Entry.put (nextEvent c input now)]) := by
  refine ⟨⟨room, core.intact.head_lt, core.intact.healthy⟩, ?_, ?_⟩
  · rw [currentEpoch_append_singleton]
    exact core.ring.enqueue armed room input now
  · apply core.told.append
    · intro number stored member
      cases List.mem_singleton.mp member
    · exact .inr ⟨rfl, fun disarmed => ⟨disarmed, id⟩⟩

theorem Core.counted (core : Core c epoch log) {found : Bool} {number : Nat}
    {stored : Option Nat} (le : number ≤ epoch)
    (reason : found = true → stored ≠ some number →
      number < epoch ∨ c.armed = false ∧ c.dropped ≠ 0) :
    Core c epoch (log ++ [Entry.counted found number stored]) := by
  refine ⟨core.intact, ?_, core.told.counted le reason⟩
  rw [currentEpoch_append_singleton]
  exact core.ring.counted found number stored

theorem Core.status (core : Core c epoch log) (now : UInt64) :
    Core (completeStatus c now).1 epoch (log ++ [Entry.status (completeStatus c now).2]) := by
  have drift := expireLeaseLocked_drift c now
  refine ⟨core.intact.drift drift, ?_, core.told.drift drift ?_ rfl⟩
  · rw [currentEpoch_append_singleton]
    exact (core.ring.expire now).status _
  · intro number stored member
    cases List.mem_singleton.mp member

-- The dropped count is cleared only when it has been returned with some event.
theorem Core.read (core : Core c epoch log) (gateTaken : Bool) (capacity : Nat) :
    Core (readEventsLocked c gateTaken capacity).1 epoch
      (log ++ [Entry.read (readEventsLocked c gateTaken capacity).2]) := by
  obtain ⟨count_le, head_lt, healthy⟩ := core.intact
  refine ⟨⟨(Nat.sub_le _ _).trans count_le, Nat.mod_lt _ (by decide), ?_⟩, ?_, ?_⟩
  · intro armed
    obtain ⟨fine, none⟩ := healthy armed
    refine ⟨fine, ?_⟩
    change (if _ ≠ 0 then 0 else c.dropped) = 0
    rw [none, ite_self]
  · rw [currentEpoch_append_singleton]
    exact core.ring.read gateTaken capacity
  · apply core.told.append
    · intro number stored member
      cases List.mem_singleton.mp member
    · exact .inr ⟨rfl, fun disarmed => ⟨disarmed, id⟩⟩

theorem Core.disarm (core : Core c epoch log) : Core (disarmLocked c) epoch log := by
  refine ⟨⟨core.intact.count_le, core.intact.head_lt, ?_⟩, core.ring.disarm, ?_⟩
  · intro armed
    cases armed
  · have told : Told (disarmLocked c) epoch (log ++ []) := core.told.append (by simp)
      (.inr ⟨rfl, fun _ => ⟨rfl, id⟩⟩)
    rwa [List.append_nil] at told

theorem Core.reset (core : Core c epoch log) (arm : ArmRequest) (now : UInt64) :
    Core (grantArm (resetEpoch c) arm now) (epoch + 1) (log ++ [Entry.reset arm.nonce]) := by
  refine ⟨⟨Nat.zero_le _, Nat.pos_of_neZero _, fun _ => ⟨rfl, rfl⟩⟩, ?_, ?_⟩
  · rw [currentEpoch_append_singleton]
    exact RingSince.reset c arm now _
  · apply core.told.append
    · intro number stored member
      cases List.mem_singleton.mp member
    · exact .inl (Nat.lt_succ_self epoch)

end Cores

-- What holds of a record between two sections of its iteration.
structure InFlight (c : CaptureState) (epoch : Nat) (job : Job) : Prop where
  room : job.locals.armed = true → job.locals.suppressLocal = false → c.count < bpRingCapacity
  epoch_le : job.epoch ≤ epoch
  live : job.found = true → job.stored = some job.epoch ∨ job.epoch < epoch ∨
    (job.locals.armed = true ∧ job.locals.suppressLocal = false ∧ c.armed = true ∧
      c.nonce = job.locals.nonce) ∨
    (c.armed = false ∧ c.dropped ≠ 0)

def inFlight : Callback → Option Job
  | .replaying job => some job
  | .serving job => some job
  | _ => none

structure Sound (s : System) (log : List Entry) : Prop where
  core : Core s.capture s.epoch log
  gate : s.callback ≠ .idle → s.gCallbackBusy = 1
  fence : s.control ≠ .idle → s.gCallbackBusy = 2
  flight : ∀ job, inFlight s.callback = some job → InFlight s.capture s.epoch job

section Steps

variable {s : System} {log : List Entry} {job : Job}

theorem InFlight.drift {c c' : CaptureState} {epoch : Nat} (flight : InFlight c epoch job)
    (drift : Drift c c') : InFlight c' epoch job := by
  refine ⟨fun armed shown => drift.count.trans_lt (flight.room armed shown), flight.epoch_le, ?_⟩
  intro found
  rcases flight.live found with stored | replaced | ⟨armed, shown, alive, nonce⟩ | ⟨disarmed, dropped⟩
  · exact .inl stored
  · exact .inr (.inl replaced)
  · rcases drift.fate with ⟨same, nonce', -⟩ | ⟨-, disarmed, dropped⟩
    · exact .inr (.inr (.inl ⟨armed, shown, same.trans alive, nonce'.trans nonce⟩))
    · exact .inr (.inr (.inr ⟨disarmed, dropped⟩))
  · rcases drift.fate with ⟨same, -, dropped', -⟩ | ⟨armed, -⟩
    · exact .inr (.inr (.inr ⟨same.trans disarmed, dropped'.symm ▸ dropped⟩))
    · exact absurd (armed.symm.trans disarmed) (by decide)

theorem InFlight.reset {c : CaptureState} {epoch : Nat} (flight : InFlight c epoch job)
    (arm : ArmRequest) (now : UInt64) :
    InFlight (grantArm (resetEpoch c) arm now) (epoch + 1) job :=
  ⟨fun _ _ => (by decide : 0 < bpRingCapacity), flight.epoch_le.trans (Nat.le_succ epoch),
    fun _ => .inr (.inl (Nat.lt_succ_of_le flight.epoch_le))⟩

theorem countRecord_sound (core : Core s.capture s.epoch log) (gate : s.gCallbackBusy = 1)
    (fence : s.control ≠ .idle → s.gCallbackBusy = 2) (le : job.epoch ≤ s.epoch)
    (countable : job.found = true → job.stored = some job.epoch ∨ job.epoch < s.epoch ∨
      s.capture.armed = false ∧ s.capture.dropped ≠ 0) :
    Sound (countRecord s job).1 (log ++ (countRecord s job).2) := by
  refine ⟨core.counted le ?_, fun _ => gate, fence, fun _ none => nomatch none⟩
  intro found lost
  exact (countable found).resolve_left lost

theorem serveRecord_sound (core : Core s.capture s.epoch log) (gate : s.gCallbackBusy = 1)
    (fence : s.control ≠ .idle → s.gCallbackBusy = 2)
    (flight : InFlight s.capture s.epoch job) :
    Sound (serveRecord s job).1 (log ++ (serveRecord s job).2) := by
  unfold serveRecord
  split_ifs with delivered
  · rw [List.append_nil]
    refine ⟨core, fun _ => gate, fence, ?_⟩
    rintro _ ⟨⟩
    exact flight
  · -- The record was kept from the class service, so it has been put into the ring.
    have kept : job.locals.suppressLocal = true := by
      simp only [Bool.or_eq_true, Bool.not_eq_true', not_or, Bool.not_eq_false] at delivered
      exact delivered.1.2
    apply countRecord_sound core gate fence flight.epoch_le
    intro found
    rcases flight.live found with stored | replaced | ⟨-, shown, -⟩ | reported
    · exact .inl stored
    · exact .inr (.inl replaced)
    · exact absurd (kept.symm.trans shown) (by decide)
    · exact .inr (.inr reported)

theorem replayed_sound (sound : Sound s log) (at_job : s.callback = .replaying job)
    (accepts : Bool) : Sound (replayed s job accepts).1 (log ++ (replayed s job accepts).2) := by
  have gate : s.gCallbackBusy = 1 := sound.gate (by rw [at_job]; exact Callback.noConfusion)
  have flight : InFlight s.capture s.epoch job := sound.flight job (by rw [at_job]; rfl)
  unfold replayed
  cases accepts with
  | false =>
    rw [if_neg Bool.false_ne_true, List.append_nil]
    refine ⟨?_, fun _ => gate, sound.fence, fun _ none => nomatch none⟩
    dsimp only
    split_ifs
    · exact sound.core.same (restorePrior_sameRing _ _)
    · exact sound.core
  | true =>
    rw [if_pos rfl]
    have cleared := clearPending_sameRing s.capture
    apply serveRecord_sound (s := { s with capture := clearPending s.capture })
      (sound.core.same cleared) gate sound.fence
    obtain ⟨room, epoch_le, live⟩ := flight.drift cleared.drift
    dsimp only
    split_ifs
    · exact ⟨room, epoch_le, live⟩
    · exact ⟨room, epoch_le, live⟩

theorem sameEpoch_of_live (intact : Intact s.capture) (armed : s.capture.armed = true)
    (nonce : s.capture.nonce = job.locals.nonce) : sameEpoch s.capture job.locals = true := by
  rw [sameEpoch, armed, (intact.healthy armed).1, nonce, beq_self_eq_true]
  rfl

theorem served_sound (sound : Sound s log) (at_job : s.callback = .serving job) (accepts : Bool) :
    Sound (served s job accepts).1 (log ++ (served s job accepts).2) := by
  have gate : s.gCallbackBusy = 1 := sound.gate (by rw [at_job]; exact Callback.noConfusion)
  have flight : InFlight s.capture s.epoch job := sound.flight job (by rw [at_job]; rfl)
  unfold served
  cases accepts with
  | false =>
    rw [if_neg Bool.false_ne_true, List.append_nil]
    refine ⟨?_, fun _ => gate, sound.fence, fun _ none => nomatch none⟩
    dsimp only
    split_ifs
    · exact sound.core.same (restorePrior_sameRing _ _)
    · exact sound.core
  | true =>
    rw [if_pos rfl]
    split_ifs with enqueued
    · -- The ring still has room: nothing was put into it since the first section.
      simp only [Bool.and_eq_true] at enqueued
      have alive : s.capture.armed = true := by
        have same := enqueued.2
        simp only [sameEpoch, Bool.and_eq_true] at same
        exact same.1.1
      have shown : job.locals.suppressLocal = false := by simpa using enqueued.1.2
      have core := sound.core.enqueue alive (flight.room enqueued.1.1 shown) job.input job.now
      have stored : enqueueDelivered s.capture job.locals job.input job.now =
          enqueueEventLocked s.capture job.input job.now := if_pos enqueued.2
      rw [stored]
      dsimp only
      rw [List.append_cons]
      apply countRecord_sound
        (s := { s with capture := enqueueEventLocked s.capture job.input job.now })
        core gate sound.fence
      · exact flight.epoch_le
      · intro _
        rcases flight.epoch_le.eq_or_lt with same | replaced
        · exact .inl (congrArg some same.symm)
        · exact .inr (.inl replaced)
    · apply countRecord_sound sound.core gate sound.fence flight.epoch_le
      intro found
      rcases flight.live found with stored | replaced | ⟨armed, shown, alive, nonce⟩ | reported
      · exact .inl stored
      · exact .inr (.inl replaced)
      · have same := sameEpoch_of_live sound.core.intact alive nonce
        rw [armed, shown, same] at enqueued
        exact absurd rfl enqueued
      · exact .inr (.inr reported)

theorem decided_sameRing (c : CaptureState) (input : KeyboardInputData) :
    SameRing c (decided c input).1 :=
  (updateAltStateLocked_sameRing c input).trans (decideLocked_sameRing _ input _)

theorem nextEvent_same {c c' : CaptureState} (same : SameRing c c') (input : KeyboardInputData)
    (now : UInt64) : nextEvent c' input now = nextEvent c input now := by
  rw [nextEvent, nextEvent, same.nextSequence, same.nonce]

theorem advance_sound (core : Core s.capture s.epoch log) (gate : s.gCallbackBusy = 1)
    (fence : s.control ≠ .idle → s.gCallbackBusy = 2)
    (flight : InFlight s.capture s.epoch job) :
    Sound (advance s job).1 (log ++ (advance s job).2) := by
  unfold advance
  split_ifs
  · rw [List.append_nil]
    refine ⟨core, fun _ => gate, fence, ?_⟩
    rintro _ ⟨⟩
    exact flight
  · exact serveRecord_sound core gate fence flight

theorem iterate_sound (sound : Sound s log) (gate : s.gCallbackBusy = 1)
    (input : KeyboardInputData) (rest : List KeyboardInputData) (now : UInt64) :
    Sound (iterate s input rest now).1 (log ++ (iterate s input rest now).2) := by
  have core := sound.core.expire now
  unfold iterate examine
  generalize expireLeaseLocked s.capture now = current at core ⊢
  cases armed : current.armed with
  | false =>
    rw [examineLocked_unarmed input now armed]
    apply advance_sound (s := { s with capture := current }) core gate sound.fence
    refine ⟨?_, Nat.le_refl _, fun found => ?_⟩
    · intro alive
      exact absurd (armed.symm.trans alive) Bool.false_ne_true
    · exact absurd (armed.symm.trans found) Bool.false_ne_true
  | true =>
    by_cases full : current.count = bpRingCapacity
    · rw [examineLocked_full input now armed full]
      apply advance_sound (s := { s with capture := faultEpochLocked current })
        (core.fault armed) gate sound.fence
      refine ⟨?_, Nat.le_refl _, fun _ => ?_⟩
      · intro alive
        exact absurd alive Bool.false_ne_true
      · exact .inr (.inr (.inr ⟨rfl, Nat.succ_ne_zero _⟩))
    · rw [examineLocked_armed input now armed full]
      have same := decided_sameRing current input
      have alive := same.armed.trans armed
      have room : (decided current input).1.count < bpRingCapacity := by
        rw [same.count]
        exact lt_of_le_of_ne core.intact.count_le full
      generalize (decided current input).1 = decision at same alive room ⊢
      generalize (decided current input).2.1 = replay
      cases (decided current input).2.2 with
      | false =>
        apply advance_sound (s := { s with capture := decision }) (core.same same) gate sound.fence
        refine ⟨fun _ _ => room, Nat.le_refl _, fun _ => ?_⟩
        exact .inr (.inr (.inl ⟨armed, rfl, alive, same.nonce⟩))
      | true =>
        have put := (core.same same).enqueue alive room input now
        rw [nextEvent_same same] at put
        change Sound (advance _ _).1 (log ++ ([_] ++ (advance _ _).2))
        rw [← List.append_assoc]
        apply advance_sound (s := { s with capture := enqueueEventLocked decision input now })
          put gate sound.fence
        refine ⟨fun _ shown => ?_, Nat.le_refl _, fun _ => .inl rfl⟩
        exact absurd shown.symm Bool.false_ne_true

theorem armRequest_cases (c : CaptureState) (arm : ArmRequest) (now : UInt64) :
    ((armRequest c arm now).2 = .success true ∧
      (armRequest c arm now).1 = grantArm (resetEpoch (expireLeaseLocked c now)) arm now) ∨
    ((armRequest c arm now).2 ≠ .success true ∧ Drift c (armRequest c arm now).1 ∧
      ∀ since, RingSince c since → RingSince (armRequest c arm now).1 since) := by
  unfold armRequest armLocked
  split_ifs with invalid
  · exact .inr ⟨by simp, ⟨rfl, rfl, .inl ⟨rfl, rfl, rfl, rfl⟩⟩, fun _ ring => ring⟩
  dsimp only
  have drift := expireLeaseLocked_drift c now
  have ring since (before : RingSince c since) := before.expire now
  generalize expireLeaseLocked c now = current at drift ring ⊢
  split_ifs with busy faulted replaced
  · exact .inr ⟨by simp, drift, ring⟩
  · exact .inr ⟨by simp, drift, ring⟩
  · exact .inl ⟨rfl, rfl⟩
  · -- A refresh: the epoch goes on with a later deadline.
    simp only [Bool.or_eq_true, Bool.not_eq_true', bne_iff_ne, not_or, Bool.not_eq_false,
      not_not] at replaced
    have same : Drift current (grantArm current arm now) :=
      ⟨rfl, rfl, .inl ⟨replaced.1.symm, replaced.2.symm, rfl, rfl⟩⟩
    refine .inr ⟨by simp, ⟨same.count.trans drift.count, same.head.trans drift.head, ?_⟩, ?_⟩
    · rcases drift.fate with ⟨armed, nonce, dropped, epochFaulted⟩ | ⟨-, disarmed, -⟩
      · exact .inl ⟨replaced.1.symm.trans armed, replaced.2.symm.trans nonce, dropped,
          epochFaulted⟩
      · exact absurd (replaced.1.symm.trans disarmed) (by decide)
    · intro since before
      have kept := ring since before
      cases since with
      | none => exact absurd (replaced.1.symm.trans kept.1) (by decide)
      | some epoch =>
        exact ⟨replaced.2.symm.trans kept.nonce_eq, kept.kept, kept.nextSequence, kept.nonces,
          kept.sequences⟩

theorem step_sound (sound : Sound s log) (action : Action) :
    Sound (step s action).1 (log ++ (step s action).2) := by
  have unchanged : Sound s (log ++ []) := by rwa [List.append_nil]
  cases action with
  | serviceCallback batch =>
    simp only [step]
    split_ifs with taken
    · exact unchanged
    · have idle : s.control = .idle := by
        by_contra busy
        exact taken (by rw [sound.fence busy]; decide)
      rw [List.append_nil]
      exact ⟨sound.core, fun _ => rfl, fun busy => absurd idle busy, fun _ none => nomatch none⟩
  | iterate now =>
    simp only [step]
    cases at_batch : s.callback with
    | scanning batch =>
      have gate : s.gCallbackBusy = 1 := sound.gate (by rw [at_batch]; exact Callback.noConfusion)
      cases batch with
      | nil =>
        rw [List.append_nil]
        exact ⟨sound.core, fun _ => gate, sound.fence, fun _ none => nomatch none⟩
      | cons input rest => exact iterate_sound sound gate input rest now
    | idle => exact unchanged
    | replaying job => exact unchanged
    | serving job => exact unchanged
    | leaving => exact unchanged
  | answer accepts =>
    simp only [step]
    cases at_job : s.callback with
    | replaying job => exact replayed_sound sound at_job accepts
    | serving job => exact served_sound sound at_job accepts
    | idle => exact unchanged
    | scanning batch => exact unchanged
    | leaving => exact unchanged
  | leave =>
    simp only [step]
    cases at_exit : s.callback with
    | leaving =>
      have gate : s.gCallbackBusy = 1 := sound.gate (by rw [at_exit]; exact Callback.noConfusion)
      have idle : s.control = .idle := by
        by_contra busy
        exact absurd (gate.symm.trans (sound.fence busy)) (by decide)
      rw [List.append_nil]
      exact ⟨sound.core, fun busy => absurd rfl busy, fun busy => absurd idle busy,
        fun _ none => nomatch none⟩
    | idle => exact unchanged
    | scanning batch => exact unchanged
    | replaying job => exact unchanged
    | serving job => exact unchanged
  | arm request now =>
    simp only [step]
    split_ifs with busy reset
    · exact unchanged
    · rcases armRequest_cases s.capture request now with ⟨-, granted⟩ | ⟨refused, -⟩
      · rw [granted]
        have drift := expireLeaseLocked_drift s.capture now
        refine ⟨(sound.core.expire now).reset request now, sound.gate, sound.fence, ?_⟩
        intro job at_job
        exact ((sound.flight job at_job).drift drift).reset request now
      · exact absurd reset refused
    · rcases armRequest_cases s.capture request now with ⟨granted, -⟩ | ⟨-, drift, ring⟩
      · exact absurd granted reset
      · rw [List.append_nil]
        refine ⟨sound.core.drift drift (ring _ sound.core.ring), sound.gate, sound.fence, ?_⟩
        intro job at_job
        exact (sound.flight job at_job).drift drift
  | disarm =>
    simp only [step]
    split_ifs with busy
    · exact unchanged
    · rw [not_or, not_not, not_not] at busy
      have idle : s.callback = .idle := by
        by_contra running
        exact absurd (busy.2.symm.trans (sound.gate running)) (by decide)
      rw [List.append_nil]
      refine ⟨sound.core, fun running => absurd idle running, fun _ => rfl, ?_⟩
      rw [idle]
      exact fun _ none => nomatch none
  | disarmSection =>
    simp only [step]
    split_ifs with busy
    · exact unchanged
    · rw [not_not] at busy
      have gate : s.gCallbackBusy = 2 := sound.fence (by rw [busy]; decide)
      have idle : s.callback = .idle := by
        by_contra running
        exact absurd (gate.symm.trans (sound.gate running)) (by decide)
      rw [List.append_nil]
      refine ⟨sound.core.disarm, sound.gate, fun _ => gate, ?_⟩
      rw [idle]
      exact fun _ none => nomatch none
  | unfence =>
    simp only [step]
    split_ifs with busy
    · exact unchanged
    · rw [not_not] at busy
      have gate : s.gCallbackBusy = 2 := sound.fence (by rw [busy]; decide)
      have idle : s.callback = .idle := by
        by_contra running
        exact absurd (gate.symm.trans (sound.gate running)) (by decide)
      rw [List.append_nil]
      refine ⟨sound.core, fun running => absurd idle running, fun fenced => absurd rfl fenced, ?_⟩
      rw [idle]
      exact fun _ none => nomatch none
  | status now =>
    simp only [step]
    split_ifs with busy
    · exact unchanged
    · refine ⟨sound.core.status now, sound.gate, sound.fence, ?_⟩
      intro job at_job
      exact (sound.flight job at_job).drift (expireLeaseLocked_drift s.capture now)
  | readEvents capacity =>
    simp only [step]
    split_ifs with busy
    · exact unchanged
    · refine ⟨sound.core.read _ capacity, sound.gate, sound.fence, ?_⟩
      intro job at_job
      -- The gate is taken, so nothing is read.
      have running : s.callback ≠ .idle := by
        intro idle
        rw [idle] at at_job
        cases at_job
      have head : s.capture.head % bpRingCapacity = s.capture.head :=
        Nat.mod_eq_of_lt sound.core.intact.head_lt
      rw [sound.gate running]
      exact (sound.flight job at_job).drift
        ⟨rfl, head, .inl ⟨rfl, rfl, rfl, rfl⟩⟩

end Steps

theorem sound_zero : Sound .zero [] := by
  refine ⟨⟨⟨by decide, by decide, fun armed => nomatch armed⟩, ⟨rfl, rfl⟩, ?_⟩,
    fun running => absurd rfl running, fun fenced => absurd rfl fenced, fun _ none => nomatch none⟩
  intro before after number stored split
  cases before <;> cases split

theorem run_sound (actions : List Action) :
    Sound (Runs.run step .zero actions).1 (Runs.run step .zero actions).2 :=
  Runs.run_invariant_of_forall step (fun log s => Sound s log)
    (fun _ _ action sound => step_sound sound action) [] .zero actions sound_zero

-- What the control device can rely on.
structure RingIntegrity (s : System) (log : List Entry) : Prop where
  count_le : s.capture.count ≤ 128
  head_lt : s.capture.head < 128
  read_of_put : ∀ nonce entries, currentEpoch log = some (nonce, entries) →
    readOutputs entries <+: putEvents entries ∧
      (∀ event ∈ readOutputs entries, event.nonce = nonce) ∧
      ((putEvents entries).length < 2 ^ 32 →
        (readOutputs entries).map (fun event => event.sequence.toNat) =
          (List.range (readOutputs entries).length).map (· + 1))
  lost_reported : ∀ before after epoch stored,
    log = before ++ Entry.counted true epoch stored :: after → stored ≠ some epoch →
      epoch < s.epoch ∨ s.capture.armed = false ∧ (firstReport after).getD s.capture.dropped ≠ 0

theorem RingOf.sequences_of_lt {c : CaptureState} {nonce : UInt64} {entries : List Entry}
    (ring : RingOf c nonce entries) (short : (putEvents entries).length < 2 ^ 32) :
    (readOutputs entries).map (fun event => event.sequence.toNat) =
      (List.range (readOutputs entries).length).map (· + 1) := by
  have part : readOutputs entries <+: putEvents entries := ⟨_, ring.kept.symm⟩
  have few := part.length_le
  have numbered : (readOutputs entries).map BpKbdEventV1.sequence =
      (List.range (readOutputs entries).length).map (fun index => UInt32.ofNat (index + 1)) := by
    have taken := congrArg (List.take (readOutputs entries).length) ring.sequences
    rw [← List.map_take, ← List.map_take, ← List.prefix_iff_eq_take.mp part, List.take_range,
      Nat.min_eq_left few] at taken
    exact taken
  calc (readOutputs entries).map (fun event => event.sequence.toNat)
      = ((readOutputs entries).map BpKbdEventV1.sequence).map UInt32.toNat := by
        rw [List.map_map]
        rfl
    _ = (List.range (readOutputs entries).length).map (· + 1) := by
        rw [numbered, List.map_map]
        apply List.map_congr_left
        intro index member
        have inside := List.mem_range.mp member
        exact UInt32.toNat_ofNat_of_lt' (by rw [UInt32.size]; omega)

end KbdFilter

end BetterParsec
