import BetterParsec.Broker.ServeClient

set_option autoImplicit false
set_option linter.all false

/-!
# From the keyboard to the pipe

What the broker writes to its client is the beginning of what the filter put into its ring since
it was armed, whatever the keyboard does between the requests of the broker.
-/

namespace BetterParsec

namespace KbdFilter

section Keyboard

-- An epoch that has not been given up: ARM under its nonce does not reset it.
def Lasting (c : CaptureState) : Prop := c.armed = true ∨ c.epochFaulted = true

variable {c c' : CaptureState} {s : System}

theorem Lasting.same (lasting : Lasting c) (same : SameRing c c') : Lasting c' := by
  rw [Lasting, same.armed, same.epochFaulted]
  exact lasting

theorem Lasting.expire (lasting : Lasting c) (now : UInt64) :
    Lasting (expireLeaseLocked c now) := by
  unfold expireLeaseLocked
  split_ifs
  · exact .inr rfl
  · exact lasting

theorem Lasting.examine (lasting : Lasting c) (input : KeyboardInputData) (now : UInt64) :
    Lasting (KbdFilter.examine c input now).1 := by
  have kept := lasting.expire now
  unfold KbdFilter.examine
  generalize expireLeaseLocked c now = current at kept ⊢
  cases armed : current.armed with
  | false =>
    rw [examineLocked_unarmed input now armed]
    exact kept
  | true =>
    by_cases full : current.count = bpRingCapacity
    · rw [examineLocked_full input now armed full]
      exact .inr rfl
    · rw [examineLocked_armed input now armed full]
      have alive := (decided_sameRing current input).armed.trans armed
      dsimp only
      split_ifs
      · exact .inl alive
      · exact .inl alive

theorem Lasting.enqueueDelivered (lasting : Lasting c) (l : Locals) (input : KeyboardInputData)
    (now : UInt64) : Lasting (KbdFilter.enqueueDelivered c l input now) := by
  unfold KbdFilter.enqueueDelivered
  split_ifs
  · exact lasting
  · exact lasting

-- What a section of the callback does: it leaves the control requests alone, and of the events
-- it tells only what it puts into the ring.
structure ByKeyboard (s next : System) (entries : List Entry) : Prop where
  control : next.control = s.control
  lasting : Lasting s.capture → Lasting next.capture
  quiet : ∀ entry ∈ entries, (∃ now input c, entry = .put (nextEvent c input now)) ∨
    ∃ found epoch stored, entry = .counted found epoch stored

theorem ByKeyboard.refl (s : System) : ByKeyboard s s [] := ⟨rfl, id, by simp⟩

theorem countRecord_byKeyboard (s : System) (job : Job) :
    ByKeyboard s (countRecord s job).1 (countRecord s job).2 :=
  ⟨rfl, id, fun _ member => .inr ⟨_, _, _, List.mem_singleton.mp member⟩⟩

theorem serveRecord_byKeyboard (s : System) (job : Job) :
    ByKeyboard s (serveRecord s job).1 (serveRecord s job).2 := by
  unfold serveRecord
  split_ifs
  · exact ⟨rfl, id, by simp⟩
  · exact countRecord_byKeyboard s job

theorem advance_byKeyboard (s : System) (job : Job) :
    ByKeyboard s (advance s job).1 (advance s job).2 := by
  unfold advance
  split_ifs
  · exact ⟨rfl, id, by simp⟩
  · exact serveRecord_byKeyboard s job

-- A section that first changes the capture state and then goes on.
theorem ByKeyboard.after {capture : CaptureState} {next : System} {entries : List Entry}
    (rest : ByKeyboard { s with capture := capture } next entries)
    (lasting : Lasting s.capture → Lasting capture) : ByKeyboard s next entries :=
  ⟨rest.control, fun before => rest.lasting (lasting before), rest.quiet⟩

theorem ByKeyboard.putting {next : System} {entries : List Entry} (rest : ByKeyboard s next entries)
    (c : CaptureState) (input : KeyboardInputData) (now : UInt64) :
    ByKeyboard s next (.put (nextEvent c input now) :: entries) := by
  refine ⟨rest.control, rest.lasting, fun entry member => ?_⟩
  rcases List.mem_cons.mp member with rfl | later
  · exact .inl ⟨now, input, c, rfl⟩
  · exact rest.quiet entry later

theorem iterate_byKeyboard (s : System) (input : KeyboardInputData)
    (rest : List KeyboardInputData) (now : UInt64) :
    ByKeyboard s (iterate s input rest now).1 (iterate s input rest now).2 := by
  have lasting (before : Lasting s.capture) := before.examine input now
  unfold iterate
  dsimp only
  split_ifs
  · exact ((advance_byKeyboard _ _).after lasting).putting _ _ _
  · exact (advance_byKeyboard _ _).after lasting

theorem restorePrior_byKeyboard (s : System) (job : Job) :
    ByKeyboard s
      { s with
        capture := if job.locals.armed then restorePrior s.capture job.locals else s.capture
        callback := .leaving } [] := by
  refine ⟨rfl, fun before => ?_, by simp⟩
  dsimp only
  split_ifs
  · exact before.same (restorePrior_sameRing _ _)
  · exact before

theorem replayed_byKeyboard (s : System) (job : Job) (accepts : Bool) :
    ByKeyboard s (replayed s job accepts).1 (replayed s job accepts).2 := by
  cases accepts with
  | false => exact restorePrior_byKeyboard s job
  | true =>
    exact (serveRecord_byKeyboard { s with capture := clearPending s.capture } _).after
      fun before => before.same (clearPending_sameRing _)

theorem served_byKeyboard (s : System) (job : Job) (accepts : Bool) :
    ByKeyboard s (served s job accepts).1 (served s job accepts).2 := by
  cases accepts with
  | false => exact restorePrior_byKeyboard s job
  | true =>
    unfold served
    rw [if_pos rfl]
    split_ifs
    · refine ByKeyboard.putting (ByKeyboard.after (countRecord_byKeyboard { s with
        capture := enqueueDelivered s.capture job.locals job.input job.now } _) ?_) _ _ _
      exact fun before => before.enqueueDelivered _ _ _
    · exact countRecord_byKeyboard s job

end Keyboard

end KbdFilter

namespace ServeClient

open KbdFilter (Lasting ByKeyboard Sound RingOf RingSince currentEpoch follow putEvents readOutputs)

theorem keyboard_step {action : KbdFilter.Action} (keyboard : keyboardAction action = true)
    (s : KbdFilter.System) :
    ByKeyboard s (KbdFilter.step s action).1 (KbdFilter.step s action).2 := by
  cases action with
  | serviceCallback batch =>
    rw [KbdFilter.step]
    split_ifs
    · exact .refl s
    · exact ⟨rfl, id, by simp⟩
  | iterate now =>
    rw [KbdFilter.step]
    split
    · exact ⟨rfl, id, by simp⟩
    · exact KbdFilter.iterate_byKeyboard s _ _ now
    · exact .refl s
  | answer accepts =>
    rw [KbdFilter.step]
    split
    · exact KbdFilter.replayed_byKeyboard s _ accepts
    · exact KbdFilter.served_byKeyboard s _ accepts
    · exact .refl s
  | leave =>
    rw [KbdFilter.step]
    split
    · exact ⟨rfl, id, by simp⟩
    · exact .refl s
  | arm request now => cases keyboard
  | disarm => cases keyboard
  | disarmSection => cases keyboard
  | unfence => cases keyboard
  | status now => cases keyboard
  | readEvents capacity => cases keyboard

section Logs

def driverLog (log : List Entry) : List KbdFilter.Entry :=
  log.filterMap fun
    | .driver entry => some entry
    | _ => none

@[simp] theorem driverLog_append (first second : List Entry) :
    driverLog (first ++ second) = driverLog first ++ driverLog second :=
  List.filterMap_append

@[simp] theorem driverLog_driver (entries : List KbdFilter.Entry) :
    driverLog (entries.map .driver) = entries := by
  rw [driverLog, List.filterMap_map]
  exact List.filterMap_some

-- The event without its version.
def eventOf (event : KbdFilter.BpKbdEventV1) : BrokerEvent :=
  { kind := event.kind
    sequence := event.sequence
    nonce := event.nonce
    makeCode := event.makeCode
    flags := event.flags
    extraInformation := event.extraInformation
    interruptTime100ns := event.interruptTime100ns }

def eventsIn (payload : List UInt8) : List BrokerEvent :=
  match BatchCodec.decodeBatch payload with
  | .ok batch => batch.events
  | .error _ => []

-- The events that the client reads from the pipe.
def writtenEvents (log : List Entry) : List BrokerEvent :=
  log.flatMap fun
    | .wrote .events payload => eventsIn payload
    | _ => []

@[simp] theorem writtenEvents_append (first second : List Entry) :
    writtenEvents (first ++ second) = writtenEvents first ++ writtenEvents second :=
  List.flatMap_append

def pipe (events : List BrokerEvent) : Entry → List BrokerEvent
  | .driver (.reset _) => []
  | entry => events ++ writtenEvents [entry]

-- Those written since the last reset.
def piped (log : List Entry) : List BrokerEvent := log.foldl pipe []

-- What the client was last told of its requests.
def lastStatus (log : List Entry) : Option (List UInt8) :=
  log.foldl (fun last entry =>
    match entry with
    | .wrote .status payload => some payload
    | .served _ => none
    | _ => last) none

@[simp] theorem lastStatus_append_singleton (log : List Entry) (entry : Entry) :
    lastStatus (log ++ [entry]) =
      match entry with
      | .wrote .status payload => some payload
      | .served _ => none
      | _ => lastStatus log := by
  rw [lastStatus, List.foldl_append]
  rfl

theorem lastStatus_driver (log : List Entry) (entries : List KbdFilter.Entry) :
    lastStatus (log ++ entries.map .driver) = lastStatus log := by
  induction entries using List.reverseRecOn with
  | nil => rw [List.map_nil, List.append_nil]
  | append_singleton rest entry ih =>
    rw [List.map_append, ← List.append_assoc, List.map_singleton, lastStatus_append_singleton]
    exact ih

def Unreset (entries : List KbdFilter.Entry) : Prop := ∀ nonce, .reset nonce ∉ entries

theorem Unreset.of_cons {entry : KbdFilter.Entry} {rest : List KbdFilter.Entry}
    (unreset : Unreset (entry :: rest)) : Unreset rest :=
  fun nonce member => unreset nonce (List.mem_cons_of_mem _ member)

theorem foldl_pipe (log : List Entry) (unreset : Unreset (driverLog log))
    (events : List BrokerEvent) : log.foldl pipe events = events ++ writtenEvents log := by
  induction log generalizing events with
  | nil => exact (List.append_nil events).symm
  | cons entry rest ih =>
    have step : pipe events entry = events ++ writtenEvents [entry] := by
      cases entry with
      | driver entry =>
        cases entry with
        | reset nonce => exact absurd List.mem_cons_self (unreset nonce)
        | _ => rfl
      | _ => rfl
    have later : Unreset (driverLog rest) := by
      cases entry with
      | driver entry => exact unreset.of_cons
      | _ => exact unreset
    rw [List.foldl_cons, ih later, step, List.append_assoc, ← writtenEvents_append]
    rfl

theorem piped_append (log : List Entry) {more : List Entry} (unreset : Unreset (driverLog more)) :
    piped (log ++ more) = piped log ++ writtenEvents more := by
  rw [piped, List.foldl_append]
  exact foldl_pipe more unreset _

theorem foldl_follow (entries : List KbdFilter.Entry) (unreset : Unreset entries)
    (since : Option (UInt64 × List KbdFilter.Entry)) :
    entries.foldl follow since = since.map fun current => (current.1, current.2 ++ entries) := by
  induction entries generalizing since with
  | nil => cases since <;> simp
  | cons entry rest ih =>
    rw [List.foldl_cons, ih unreset.of_cons]
    cases entry with
    | reset nonce => exact absurd List.mem_cons_self (unreset nonce)
    | _ => cases since <;> simp [follow]

theorem currentEpoch_append (log : List KbdFilter.Entry) {more : List KbdFilter.Entry}
    (unreset : Unreset more) :
    currentEpoch (log ++ more) =
      (currentEpoch log).map fun current => (current.1, current.2 ++ more) := by
  rw [currentEpoch, List.foldl_append]
  exact foldl_follow more unreset _

end Logs

section Links

-- What the requests read since the last reset.
def outputs (since : Option (UInt64 × List KbdFilter.Entry)) : List BrokerEvent :=
  match since with
  | none => []
  | some (_, entries) => (readOutputs entries).map eventOf

structure Linked (log : List Entry) (driver : KbdFilter.System) : Prop where
  sound : Sound driver (driverLog log)
  versions : ∀ nonce entries, currentEpoch (driverLog log) = some (nonce, entries) →
    ∀ event ∈ putEvents entries, event.version = BatchCodec.version
  piped : piped log <+: outputs (currentEpoch (driverLog log))

-- The epoch of the client goes on, and the client has been sent all that was read of it.
structure Bound (log : List Entry) (driver : KbdFilter.System) (state : CaptureState)
    (nonce : UInt64) : Prop where
  lasting : Lasting driver.capture
  epoch : ∃ entries, currentEpoch (driverLog log) = some (nonce, entries)
  counting : CaptureState.Counting nonce (outputs (currentEpoch (driverLog log))) state
  piped : ServeClient.piped log = outputs (currentEpoch (driverLog log))
  granted : lastStatus log = some [1]

variable {log more : List Entry} {driver next : KbdFilter.System} {state : CaptureState}
  {nonce : UInt64} {entries : List KbdFilter.Entry}

theorem outputs_append (log : List KbdFilter.Entry) (unreset : Unreset entries)
    (unread : readOutputs entries = []) :
    outputs (currentEpoch (log ++ entries)) = outputs (currentEpoch log) := by
  rw [currentEpoch_append log unreset]
  cases currentEpoch log with
  | none => rfl
  | some current =>
    change (readOutputs (current.2 ++ entries)).map eventOf = (readOutputs current.2).map eventOf
    rw [readOutputs, List.flatMap_append]
    change (readOutputs current.2 ++ readOutputs entries).map eventOf = _
    rw [unread, List.append_nil]

theorem writtenEvents_driver (entries : List KbdFilter.Entry) :
    writtenEvents (entries.map .driver) = [] := by
  induction entries with
  | nil => rfl
  | cons entry rest ih => exact ih

theorem piped_driver (log : List Entry) (unreset : Unreset entries) :
    piped (log ++ entries.map .driver) = piped log := by
  rw [piped_append log (by rwa [driverLog_driver]), writtenEvents_driver, List.append_nil]

theorem putEvents_append (first second : List KbdFilter.Entry) :
    putEvents (first ++ second) = putEvents first ++ putEvents second :=
  List.filterMap_append

-- The driver takes a step that neither resets nor reads.
theorem Linked.drive (linked : Linked log driver) (unreset : Unreset entries)
    (unread : readOutputs entries = [])
    (versions : ∀ event ∈ putEvents entries, event.version = BatchCodec.version)
    (sound : Sound next (driverLog log ++ entries)) :
    Linked (log ++ entries.map .driver) next := by
  refine ⟨by rwa [driverLog_append, driverLog_driver], ?_, ?_⟩
  · intro nonce since found event member
    rw [driverLog_append, driverLog_driver, currentEpoch_append _ unreset] at found
    obtain ⟨current, before, same⟩ := Option.map_eq_some_iff.mp found
    obtain ⟨-, rfl⟩ := Prod.mk.inj same
    rw [putEvents_append] at member
    rcases List.mem_append.mp member with earlier | later
    · exact linked.versions current.1 current.2 before event earlier
    · exact versions event later
  · rw [piped_driver log unreset, driverLog_append, driverLog_driver,
      outputs_append _ unreset unread]
    exact linked.piped

theorem Bound.drive (bound : Bound log driver state nonce) (unreset : Unreset entries)
    (unread : readOutputs entries = []) (lasting : Lasting next.capture) :
    Bound (log ++ entries.map .driver) next state nonce := by
  obtain ⟨before, found⟩ := bound.epoch
  refine ⟨lasting, ?_, ?_, ?_, (lastStatus_driver log entries).trans bound.granted⟩
  · rw [driverLog_append, driverLog_driver, currentEpoch_append _ unreset, found]
    exact ⟨_, rfl⟩
  · rw [driverLog_append, driverLog_driver, outputs_append _ unreset unread]
    exact bound.counting
  · rw [piped_driver log unreset, driverLog_append, driverLog_driver,
      outputs_append _ unreset unread]
    exact bound.piped

-- Entries of the broker that carry no events.
structure Plain (more : List Entry) : Prop where
  driver : driverLog more = []
  written : writtenEvents more = []

theorem Plain.piped (plain : Plain more) (log : List Entry) :
    ServeClient.piped (log ++ more) = ServeClient.piped log := by
  have unreset : Unreset (driverLog more) := by
    rw [plain.driver]
    exact fun _ => List.not_mem_nil
  rw [piped_append log unreset, plain.written, List.append_nil]

theorem Plain.driverLog (plain : Plain more) (log : List Entry) :
    ServeClient.driverLog (log ++ more) = ServeClient.driverLog log := by
  rw [driverLog_append, plain.driver, List.append_nil]

theorem Linked.note (linked : Linked log driver) (plain : Plain more) :
    Linked (log ++ more) driver := by
  obtain ⟨sound, versions, piped⟩ := linked
  constructor
  · rwa [plain.driverLog]
  · rwa [plain.driverLog]
  · rwa [plain.driverLog, plain.piped]

end Links

section Batches

variable {events more : List BrokerEvent} {nonce : UInt64}

theorem eventBytes_eq {event : KbdFilter.BpKbdEventV1}
    (version : event.version = BatchCodec.version) :
    eventBytes event = BatchCodec.encodeEvent (eventOf event) := by
  rw [eventBytes, version]
  rfl

/-- The broker reads the buffer of the driver back. -/
theorem decodeBatch_outputBytes {output : KbdFilter.ReadEvents}
    (versions : ∀ event ∈ output.events, event.version = BatchCodec.version)
    (few : output.events.length ≤ 128) :
    BatchCodec.decodeBatch (outputBytes output) =
      .ok ⟨UInt32.ofNat output.dropped, output.events.map eventOf⟩ := by
  rw [BatchCodec.decodeBatch_iff_encodeBatch, BatchCodec.encodeBatch_eq_ok_iff]
  refine ⟨by rw [List.length_map]; omega, ?_⟩
  have body : output.events.flatMap eventBytes =
      (output.events.map eventOf).flatMap BatchCodec.encodeEvent := by
    rw [List.flatMap_map]
    exact List.flatMap_congr fun event member => eventBytes_eq (versions event member)
  have dropped : LittleEndian.bytes 4 (UInt32.ofNat output.dropped).toNat =
      LittleEndian.bytes 4 output.dropped := by
    rw [UInt32.toNat_ofNat']
    exact LittleEndian.bytes_mod 4 output.dropped
  rw [outputBytes, body, List.length_map, dropped]

theorem numbered_of_prefix (numbered : Numbered nonce (events ++ more)) :
    Numbered nonce events := by
  refine ⟨fun event member => numbered.1 event (List.mem_append_left _ member), ?_⟩
  have taken := congrArg (List.take events.length) numbered.2
  rw [List.map_append, List.take_left' (List.length_map _), ← List.map_take, List.take_range,
    List.length_append, Nat.min_eq_left (Nat.le_add_right _ _)] at taken
  exact taken

/-- Events that go on with the count are observed without a fault. -/
theorem observeEvents_of_numbered {state : CaptureState}
    (counting : CaptureState.Counting nonce events state)
    (numbered : Numbered nonce (events ++ more)) :
    (state.observeEvents more).2 = .ok () := by
  induction more generalizing state events with
  | nil => rfl
  | cons event rest ih =>
    have named : event.nonce = nonce := numbered.1 event (by simp)
    have place : event.sequence = UInt32.ofNat (events.length + 1) := by
      have found := congrArg (fun sequences => sequences[events.length]?) numbered.2
      simpa using found
    have sound : state.fault event = none := by
      rw [CaptureState.fault_eq, counting.named, named, if_neg (not_not.mpr rfl),
        counting.expected, place, if_neg (not_not.mpr rfl)]
    rw [CaptureState.observeEvents, sound]
    rw [List.append_cons] at numbered
    exact ih (counting.observe sound) numbered

theorem ring_numbered {c : KbdFilter.CaptureState} {entries : List KbdFilter.Entry}
    (ring : RingOf c nonce entries) : Numbered nonce ((putEvents entries).map eventOf) := by
  constructor
  · intro event member
    obtain ⟨source, put, rfl⟩ := List.mem_map.mp member
    exact ring.nonces source put
  · rw [List.map_map, List.length_map]
    exact ring.sequences

end Batches

section Requests

variable {log : List Entry} {m : Machine} {nonce now : UInt64} {c : KbdFilter.CaptureState}

theorem armRequest_valid (c : KbdFilter.CaptureState) (nonce now : UInt64) :
    KbdFilter.armRequest c (armRequest nonce) now =
      KbdFilter.armLocked c (armRequest nonce) now := by
  have valid : ¬((armRequest nonce).version != KbdFilter.bpKbdProtocolVersion ||
      leaseMs == 0 || leaseMs > 1000) = true := by
    simp [armRequest, leaseMs]
  exact if_neg valid

theorem expireLeaseLocked_nonce (c : KbdFilter.CaptureState) (now : UInt64) :
    (KbdFilter.expireLeaseLocked c now).nonce = c.nonce := by
  unfold KbdFilter.expireLeaseLocked
  split_ifs <;> rfl

theorem expireLeaseLocked_armed
    (armed : (KbdFilter.expireLeaseLocked c now).armed = true) : c.armed = true := by
  unfold KbdFilter.expireLeaseLocked at armed
  split_ifs at armed with expired
  · cases armed
  · exact armed

-- A request that is completed resets the ring, unless it is for the epoch that goes on.
theorem armRequest_resets (fresh : c.armed = true → nonce ≠ c.nonce)
    (granted : ∃ reset, (KbdFilter.armRequest c (armRequest nonce) now).2 = .success reset) :
    (KbdFilter.armRequest c (armRequest nonce) now).2 = .success true ∧
      (KbdFilter.armRequest c (armRequest nonce) now).1.armed = true := by
  rw [armRequest_valid] at granted ⊢
  obtain ⟨reset, granted⟩ := granted
  unfold KbdFilter.armLocked at granted ⊢
  dsimp only at granted ⊢
  split_ifs at granted ⊢ with busy faulted replaced
  · exact ⟨rfl, rfl⟩
  · simp only [Bool.or_eq_true, Bool.not_eq_true', bne_iff_ne, not_or, Bool.not_eq_false,
      not_not, expireLeaseLocked_nonce] at replaced
    exact absurd replaced.2.symm (fresh (expireLeaseLocked_armed replaced.1))

-- The epoch that goes on is not reset under its own nonce.
theorem armRequest_keeps (now : UInt64) (lasting : Lasting c) (same : c.nonce = nonce) :
    (KbdFilter.armRequest c (armRequest nonce) now).2 ≠ .success true ∧
      Lasting (KbdFilter.armRequest c (armRequest nonce) now).1 := by
  have still := lasting.expire now
  have named := (expireLeaseLocked_nonce c now).trans same
  rw [armRequest_valid]
  unfold KbdFilter.armLocked
  dsimp only
  generalize KbdFilter.expireLeaseLocked c now = current at still named ⊢
  split_ifs with busy faulted replaced
  · exact ⟨by simp, still⟩
  · exact ⟨by simp, still⟩
  · simp only [armRequest, named, beq_self_eq_true, bne_self_eq_false, Bool.and_true,
      Bool.or_false, Bool.not_eq_true', Bool.not_eq_true] at faulted replaced
    rcases still with armed | gaveUp
    · exact absurd (armed.symm.trans replaced) (by decide)
    · exact absurd gaveUp (by rw [faulted]; decide)
  · exact ⟨by simp, .inl rfl⟩

theorem succeeds_iff (driver : KbdFilter.System) (nonce now : UInt64) :
    succeeds driver nonce now = true ↔
      ∃ reset, (KbdFilter.armRequest driver.capture (armRequest nonce) now).2 =
        .success reset := by
  unfold succeeds
  split
  · rename_i reset granted
    exact iff_of_true rfl ⟨reset, granted⟩
  · rename_i refused
    exact iff_of_false Bool.false_ne_true fun ⟨reset, granted⟩ => refused reset granted

theorem step_arm_reset {driver : KbdFilter.System} (idle : driver.control = .idle)
    (granted : (KbdFilter.armRequest driver.capture (armRequest nonce) now).2 = .success true) :
    KbdFilter.step driver (.arm (armRequest nonce) now) =
      ({ driver with
        capture := (KbdFilter.armRequest driver.capture (armRequest nonce) now).1
        epoch := driver.epoch + 1 }, [.reset nonce]) := by
  simp only [KbdFilter.step, idle, ne_eq, not_true_eq_false, if_false, granted, if_true]
  rfl

theorem step_arm_other {driver : KbdFilter.System} (idle : driver.control = .idle)
    (other : (KbdFilter.armRequest driver.capture (armRequest nonce) now).2 ≠ .success true) :
    KbdFilter.step driver (.arm (armRequest nonce) now) =
      ({ driver with
        capture := (KbdFilter.armRequest driver.capture (armRequest nonce) now).1 }, []) := by
  simp only [KbdFilter.step, idle, ne_eq, not_true_eq_false, if_false, other]

theorem step_read {driver : KbdFilter.System} (idle : driver.control = .idle) (room : Nat) :
    KbdFilter.step driver (.readEvents room) =
      ({ driver with
        capture := (KbdFilter.readEventsLocked driver.capture (driver.gCallbackBusy != 0) room).1 },
        [.read (KbdFilter.readEventsLocked driver.capture
          (driver.gCallbackBusy != 0) room).2]) := by
  simp only [KbdFilter.step, idle, ne_eq, not_true_eq_false, if_false]

end Requests

section Steps

-- The broker in the loop of `serve_client`.
structure InLoop (log : List Entry) (driver : KbdFilter.System) (state : CaptureState)
    (nonce : UInt64) : Prop where
  idle : driver.control = .idle
  owner : state.owner = some client
  bound : state.armed = true → Bound log driver state nonce

def Kept (log : List Entry) (m : Machine) : Prop :=
  match m.stage with
  | .waiting => m.driver.control = .idle
  | .polling | .refreshing => InLoop log m.driver m.state m.nonce
  | .reading => InLoop log m.driver m.state m.nonce ∧ m.state.armed = true
  | .disarming .reply => m.state.owner = some client ∧ m.state.armed = false
  | .disarming _ => True

-- Nothing is lost on the way, and events are for the client that asked for them.
def Good (before : List Entry) : Entry → Prop
  | .undecodable _ | .unencodable _ => False
  | .observed batch result => result = .ok () ↔ batch.dropped = 0
  | .wrote .events _ => lastStatus before = some [1]
  | _ => True

structure Coupled (log : List Entry) (m : Machine) : Prop where
  linked : Linked log m.driver
  kept : Kept log m
  good : Runs.Emissions Good log

variable {log : List Entry} {m : Machine} {next : KbdFilter.System}
  {entries : List KbdFilter.Entry}

theorem InLoop.drive {driver : KbdFilter.System} {state : CaptureState} {nonce : UInt64}
    (inLoop : InLoop log driver state nonce) (unreset : Unreset entries)
    (unread : readOutputs entries = []) (control : next.control = .idle)
    (lasting : Lasting driver.capture → Lasting next.capture) :
    InLoop (log ++ entries.map .driver) next state nonce :=
  ⟨control, inLoop.owner, fun armed =>
    let bound := inLoop.bound armed
    bound.drive unreset unread (lasting bound.lasting)⟩

theorem Kept.drive (kept : Kept log m) (unreset : Unreset entries)
    (unread : readOutputs entries = []) (control : next.control = m.driver.control)
    (lasting : Lasting m.driver.capture → Lasting next.capture) :
    Kept (log ++ entries.map .driver) { m with driver := next } := by
  have going (inLoop : InLoop log m.driver m.state m.nonce) :
      InLoop (log ++ entries.map .driver) next m.state m.nonce :=
    inLoop.drive unreset unread (control.trans inLoop.idle) lasting
  unfold Kept at kept ⊢
  cases stage : m.stage with
  | waiting =>
    rw [stage] at kept
    exact control.trans kept
  | polling =>
    rw [stage] at kept
    exact going kept
  | refreshing =>
    rw [stage] at kept
    exact going kept
  | reading =>
    rw [stage] at kept
    exact ⟨going kept.1, kept.2⟩
  | disarming afterwards =>
    rw [stage] at kept
    cases afterwards with
    | reply => exact kept
    | fail => trivial
    | accept => trivial

theorem good_driver (good : Runs.Emissions Good log) (entries : List KbdFilter.Entry) :
    Runs.Emissions Good (log ++ entries.map .driver) :=
  good.append fun before entry member => by
    obtain ⟨source, -, rfl⟩ := List.mem_map.mp member
    trivial

theorem keyboard_entries {s : KbdFilter.System} (by_keyboard : ByKeyboard s next entries) :
    Unreset entries ∧ readOutputs entries = [] ∧
      ∀ event ∈ putEvents entries, event.version = BatchCodec.version := by
  refine ⟨fun nonce member => ?_, ?_, fun event member => ?_⟩
  · rcases by_keyboard.quiet _ member with ⟨_, _, _, same⟩ | ⟨_, _, _, same⟩ <;> cases same
  · refine List.flatMap_eq_nil_iff.mpr fun entry member => ?_
    rcases by_keyboard.quiet entry member with ⟨_, _, _, rfl⟩ | ⟨_, _, _, rfl⟩ <;> rfl
  · obtain ⟨entry, inside, put⟩ := List.mem_filterMap.mp member
    rcases by_keyboard.quiet entry inside with ⟨_, _, _, rfl⟩ | ⟨_, _, _, rfl⟩
    · obtain rfl := Option.some.inj put
      rfl
    · cases put

theorem Coupled.keyboard (coupled : Coupled log m) {action : KbdFilter.Action}
    (keyboard : keyboardAction action = true) :
    Coupled (log ++ (request m action).2) (request m action).1 := by
  have moved := keyboard_step keyboard m.driver
  have sound := KbdFilter.step_sound coupled.linked.sound action
  obtain ⟨unreset, unread, versions⟩ := keyboard_entries moved
  exact ⟨coupled.linked.drive unreset unread versions sound,
    coupled.kept.drive unreset unread moved.control moved.lasting, good_driver coupled.good _⟩

-- Entries of the broker that are good whatever came before.
theorem Coupled.note (coupled : Coupled log m) {more : List Entry} (plain : Plain more)
    (good : ∀ before, ∀ entry ∈ more, Good before entry) {n : Machine}
    (driver : n.driver = m.driver) (kept : Kept (log ++ more) n) : Coupled (log ++ more) n :=
  ⟨by rw [driver]; exact coupled.linked.note plain, kept, coupled.good.append good⟩

theorem plain_nil : Plain [] := ⟨rfl, rfl⟩

theorem plain_served (ok : Bool) : Plain [.served ok] := ⟨rfl, rfl⟩

theorem good_served (ok : Bool) : ∀ before, ∀ entry ∈ [Entry.served ok], Good before entry := by
  simp [Good]

theorem plain_status (payload : List UInt8) : Plain [.wrote .status payload] := ⟨rfl, rfl⟩

theorem Coupled.restage (coupled : Coupled log m) {n : Machine} (driver : n.driver = m.driver)
    (kept : Kept log n) : Coupled (log ++ []) n :=
  coupled.note plain_nil (by simp) driver (by rwa [List.append_nil])

theorem Coupled.returned (coupled : Coupled log m) (ok : Bool) {n : Machine}
    (driver : n.driver = m.driver) :
    Coupled (log ++ (ServeClient.returned n ok).2) (ServeClient.returned n ok).1 :=
  coupled.note (plain_served ok) (by simp [Good]) driver trivial

theorem InLoop.unarmed {driver : KbdFilter.System} {state : CaptureState} {nonce : UInt64}
    (idle : driver.control = .idle) (owner : state.owner = some client)
    (off : state.armed = false) (log : List Entry) : InLoop log driver state nonce :=
  ⟨idle, owner, fun armed => absurd (off.symm.trans armed) (by decide)⟩

theorem InLoop.armed_of {driver : KbdFilter.System} {state : CaptureState} {nonce : UInt64}
    (inLoop : InLoop log driver state nonce) (off : ¬(!state.isArmed) = true) :
    state.armed = true := by
  simpa only [CaptureState.isArmed, inLoop.owner, Option.isSome_some, Bool.true_and,
    Bool.not_eq_true', Bool.not_eq_false] using off

-- A request of the broker that neither resets nor reads, while it disarms.
theorem Coupled.teardown (coupled : Coupled log m) {afterwards : Afterwards}
    (stage : m.stage = .disarming afterwards) (action : KbdFilter.Action)
    (silent : (KbdFilter.step m.driver action).2 = []) :
    Coupled (log ++ (request m action).2) (request m action).1 := by
  have sound := KbdFilter.step_sound coupled.linked.sound action
  have kept := coupled.kept
  rw [silent] at sound
  rw [request, silent]
  refine ⟨coupled.linked.drive (by simp [Unreset]) rfl (by simp [putEvents]) sound, ?_,
    good_driver coupled.good []⟩
  unfold Kept at kept ⊢
  simp only [stage] at kept ⊢
  cases afterwards with
  | reply => exact kept
  | fail => trivial
  | accept => trivial

theorem Coupled.disarmed (coupled : Coupled log m) {afterwards : Afterwards}
    (stage : m.stage = .disarming afterwards) (idle : m.driver.control = .idle)
    (ok written : Bool) :
    Coupled (log ++ (ServeClient.disarmed m ok written afterwards).2)
      (ServeClient.disarmed m ok written afterwards).1 := by
  have kept := coupled.kept
  unfold Kept at kept
  simp only [stage] at kept
  cases afterwards with
  | reply =>
    cases ok with
    | false => exact coupled.returned false rfl
    | true =>
      cases written with
      | false => exact coupled.returned false rfl
      | true =>
        exact coupled.note (plain_status [0]) (by simp [Good]) rfl
          (.unarmed idle kept.1 kept.2 _)
  | fail => exact coupled.returned false rfl
  | accept => exact coupled.restage rfl idle

theorem Coupled.polling (coupled : Coupled log m) (stage : m.stage = .polling) :
    InLoop log m.driver m.state m.nonce := by
  have kept := coupled.kept
  unfold Kept at kept
  rwa [stage] at kept

theorem Coupled.refreshing (coupled : Coupled log m) (stage : m.stage = .refreshing) :
    InLoop log m.driver m.state m.nonce := by
  have kept := coupled.kept
  unfold Kept at kept
  rwa [stage] at kept

theorem Coupled.reading (coupled : Coupled log m) (stage : m.stage = .reading) :
    InLoop log m.driver m.state m.nonce ∧ m.state.armed = true := by
  have kept := coupled.kept
  unfold Kept at kept
  rwa [stage] at kept

-- The request of ARM, when it resets nothing.
theorem Linked.requested {driver : KbdFilter.System} (linked : Linked log driver)
    (idle : driver.control = .idle) {nonce now : UInt64}
    (other : (KbdFilter.armRequest driver.capture (armRequest nonce) now).2 ≠ .success true) :
    Linked (log ++ []) (KbdFilter.step driver (.arm (armRequest nonce) now)).1 := by
  have sound := KbdFilter.step_sound linked.sound (.arm (armRequest nonce) now)
  have silent : (KbdFilter.step driver (.arm (armRequest nonce) now)).2 = [] := by
    rw [step_arm_other idle other]
  rw [silent] at sound
  exact linked.drive (fun _ => List.not_mem_nil) rfl
    (fun _ member => absurd member List.not_mem_nil) sound

theorem request_other (n : Machine) (idle : n.driver.control = .idle) {nonce now : UInt64}
    (other : (KbdFilter.armRequest n.driver.capture (armRequest nonce) now).2 ≠
      .success true) :
    request n (.arm (armRequest nonce) now) =
      ({ n with driver := (KbdFilter.step n.driver (.arm (armRequest nonce) now)).1 }, []) := by
  rw [request, step_arm_other idle other]
  rfl

theorem Bound.named {driver : KbdFilter.System} {state : CaptureState} {nonce : UInt64}
    (bound : Bound log driver state nonce) (linked : Linked log driver) :
    driver.capture.nonce = nonce := by
  obtain ⟨entries, found⟩ := bound.epoch
  have ring := linked.sound.core.ring
  rw [found] at ring
  exact ring.nonce_eq

theorem Coupled.refreshed (coupled : Coupled log m) (stage : m.stage = .refreshing)
    (due : Bool) (now : UInt64) :
    Coupled (log ++ (ServeClient.refreshed m due now).2) (ServeClient.refreshed m due now).1 := by
  have inLoop := coupled.refreshing stage
  unfold ServeClient.refreshed
  split_ifs with off calm ok
  · exact coupled.restage rfl inLoop
  · have armed := inLoop.armed_of off
    exact coupled.restage rfl ⟨inLoop, armed⟩
  · have armed := inLoop.armed_of off
    have bound := inLoop.bound armed
    have keeps := armRequest_keeps now bound.lasting (bound.named coupled.linked)
    rw [request_other { m with stage := .reading } inLoop.idle keeps.1]
    refine ⟨coupled.linked.requested inLoop.idle keeps.1, ⟨?_, armed⟩, good_driver coupled.good []⟩
    rw [step_arm_other inLoop.idle keeps.1]
    exact inLoop.drive (fun _ => List.not_mem_nil) rfl inLoop.idle fun _ => keeps.2
  · have armed := inLoop.armed_of off
    have bound := inLoop.bound armed
    have keeps := armRequest_keeps now bound.lasting (bound.named coupled.linked)
    rw [request_other { m with state := m.state.failClosed, stage := .disarming .fail }
      inLoop.idle keeps.1]
    exact ⟨coupled.linked.requested inLoop.idle keeps.1, trivial, good_driver coupled.good []⟩

theorem currentEpoch_reset (log : List Entry) (nonce : UInt64) :
    currentEpoch (driverLog (log ++ [Entry.driver (.reset nonce)])) = some (nonce, []) := by
  rw [driverLog_append]
  exact KbdFilter.currentEpoch_append_singleton (driverLog log) (.reset nonce)

theorem piped_reset (log : List Entry) (nonce : UInt64) :
    piped (log ++ [Entry.driver (.reset nonce)]) = [] := by
  rw [piped, List.foldl_append]
  rfl

theorem Linked.reset {driver : KbdFilter.System} {nonce : UInt64}
    (sound : Sound driver (driverLog log ++ [KbdFilter.Entry.reset nonce])) :
    Linked (log ++ [Entry.driver (.reset nonce)]) driver := by
  refine ⟨by rwa [driverLog_append], ?_, ?_⟩
  · intro named entries found event member
    rw [currentEpoch_reset] at found
    obtain ⟨-, rfl⟩ := Prod.mk.inj (Option.some.inj found)
    cases member
  · rw [piped_reset]
    exact List.nil_prefix

theorem Coupled.armed (coupled : Coupled log m) (stage : m.stage = .polling) {nonce : UInt64}
    (now : UInt64) (fresh : m.driver.capture.armed = true → nonce ≠ m.driver.capture.nonce)
    (written : Bool) :
    Coupled (log ++ (ServeClient.armed m nonce now written).2)
      (ServeClient.armed m nonce now written).1 := by
  have inLoop := coupled.polling stage
  unfold ServeClient.armed
  split_ifs with ok
  · obtain ⟨reset, alive⟩ := armRequest_resets fresh ((succeeds_iff m.driver nonce now).mp ok)
    have moved := step_arm_reset inLoop.idle reset
    have sound := KbdFilter.step_sound coupled.linked.sound (.arm (armRequest nonce) now)
    have granted : m.state.arm client nonce =
        ({ m.state with armed := true, lastSequence := none, nonce := some nonce }, .ok ()) :=
      if_pos inLoop.owner
    rw [moved] at sound
    have linked : Linked (log ++ [Entry.driver (.reset nonce)]) _ := .reset sound
    have good := good_driver coupled.good [.reset nonce]
    rw [Runs.andThen, request]
    simp only [moved, granted, List.map_singleton]
    cases written with
    | false =>
      rw [write, if_neg Bool.false_ne_true, ← List.append_assoc]
      exact ⟨linked.note (plain_served false), trivial, good.append (good_served false)⟩
    | true =>
      rw [write, if_pos rfl, ← List.append_assoc]
      have plain := plain_status [1]
      refine ⟨linked.note plain, ⟨inLoop.idle, inLoop.owner, fun _ => ?_⟩,
        good.append (by simp [Good])⟩
      have epoch := currentEpoch_reset log nonce
      rw [← plain.driverLog] at epoch
      refine ⟨.inl alive, ⟨[], epoch⟩, ?_, ?_, by rw [lastStatus_append_singleton]⟩
      · rw [epoch]
        exact ⟨by rw [inLoop.owner]; rfl, rfl, rfl, rfl, by simp [outputs, Numbered, readOutputs]⟩
      · rw [plain.piped, piped_reset, epoch]
        rfl
  · have other : (KbdFilter.armRequest m.driver.capture (armRequest nonce) now).2 ≠
        .success true := fun granted => ok ((succeeds_iff m.driver nonce now).mpr ⟨true, granted⟩)
    rw [Runs.andThen, request_other { m with nonce := nonce } inLoop.idle other,
      ← List.append_assoc]
    exact ⟨(coupled.linked.requested inLoop.idle other).note (plain_served false), trivial,
      (good_driver coupled.good []).append (good_served false)⟩

theorem Coupled.message (coupled : Coupled log m) (stage : m.stage = .polling)
    {draws : List UInt64} (now : UInt64) (written : Bool) (kind : MessageKind)
    (payload : List UInt8)
    (fresh : ∀ nonce, beginCapture draws = some nonce → m.driver.capture.armed = true →
      nonce ≠ m.driver.capture.nonce) :
    Coupled (log ++ (ServeClient.message m draws now written kind payload).2)
      (ServeClient.message m draws now written kind payload).1 := by
  unfold ServeClient.message
  split
  · split
    · exact coupled.returned false rfl
    · rename_i nonce drawn
      exact coupled.armed stage now (fresh nonce drawn) written
  · have inLoop := coupled.polling stage
    have granted : m.state.disarm client =
        ({ m.state with armed := false, lastSequence := none, nonce := none }, .ok ()) :=
      if_pos inLoop.owner
    rw [granted]
    exact coupled.restage rfl ⟨inLoop.owner, rfl⟩
  · exact coupled.returned false rfl

theorem observeBatch_clean {state : CaptureState} {batch : BrokerBatch}
    (owner : state.owner = some client) (armed : state.armed = true) (clean : batch.dropped = 0) :
    state.observeBatch client batch = state.observeEvents batch.events := by
  rw [CaptureState.observeBatch, if_neg (not_not.mpr owner), if_neg (by simp [armed]),
    if_neg (not_not.mpr clean)]

theorem observeBatch_dropped {state : CaptureState} {batch : BrokerBatch}
    (owner : state.owner = some client) (armed : state.armed = true) (lost : batch.dropped ≠ 0) :
    state.observeBatch client batch = (state.failClosed, .error .sequenceGap) := by
  rw [CaptureState.observeBatch, if_neg (not_not.mpr owner), if_neg (by simp [armed]), if_pos lost]

-- What the broker can rely on behind a request of READ_EVENTS.
structure Read (log : List Entry) (driver : KbdFilter.System) (state : CaptureState)
    (nonce : UInt64) (batch : BrokerBatch) : Prop where
  linked : Linked log driver
  idle : driver.control = .idle
  owner : state.owner = some client
  lasting : Lasting driver.capture
  epoch : ∃ entries, currentEpoch (driverLog log) = some (nonce, entries)
  counting : CaptureState.Counting nonce (piped log) state
  numbered : Numbered nonce (outputs (currentEpoch (driverLog log)))
  next : piped log ++ batch.events = outputs (currentEpoch (driverLog log))
  granted : lastStatus log = some [1]
  good : Runs.Emissions Good log

variable {driver : KbdFilter.System} {state : CaptureState} {nonce : UInt64} {batch : BrokerBatch}

theorem observeEvents_owner (state : CaptureState) (events : List BrokerEvent) :
    (state.observeEvents events).1.owner = state.owner := by
  induction events generalizing state with
  | nil => rfl
  | cons event rest ih =>
    rw [CaptureState.observeEvents]
    cases state.fault event with
    | some error => rfl
    | none => exact ih { state with lastSequence := some event.sequence }

theorem Read.observed (read : Read log driver state nonce batch) (clean : batch.dropped = 0) :
    ∃ after, state.observeBatch client batch = (after, .ok ()) ∧ after.owner = some client ∧
      CaptureState.Counting nonce (piped log ++ batch.events) after := by
  have numbered := read.numbered
  rw [← read.next] at numbered
  have ok := observeEvents_of_numbered read.counting numbered
  have reached : state.observeEvents batch.events = ((state.observeEvents batch.events).1, .ok ()) :=
    Prod.ext rfl ok
  rw [observeBatch_clean read.owner read.counting.armed clean]
  exact ⟨_, reached, (observeEvents_owner state batch.events).trans read.owner,
    CaptureState.observeEvents_ok read.counting reached⟩

theorem plain_observed (batch : BrokerBatch) (result : CaptureResult) :
    Plain [.observed batch result] := ⟨rfl, rfl⟩

theorem Read.handOn (read : Read log m.driver m.state m.nonce batch) {payload : List UInt8}
    (decoded : BatchCodec.decodeBatch payload = .ok batch) (written : Bool) :
    Coupled (log ++ (ServeClient.handOn m batch written).2)
      (ServeClient.handOn m batch written).1 := by
  unfold ServeClient.handOn
  split_ifs with empty
  · rw [List.append_nil]
    have same := read.next
    rw [empty.1, List.append_nil] at same
    exact ⟨read.linked, ⟨read.idle, read.owner, fun _ => ⟨read.lasting, read.epoch,
      same ▸ read.counting, same, read.granted⟩⟩, read.good⟩
  · by_cases clean : batch.dropped = 0
    · obtain ⟨after, ok, owner, counting⟩ := read.observed clean
      have encoded := BatchCodec.decodeBatch_iff_encodeBatch.mp decoded
      have noted : Runs.Emissions Good (log ++ [Entry.observed batch (.ok ())]) :=
        read.good.concat (iff_of_true rfl clean)
      rw [ok]
      simp only [encoded]
      cases written with
      | false =>
        rw [write, if_neg Bool.false_ne_true, List.append_cons]
        exact ⟨(read.linked.note (plain_observed _ _)).note (plain_served false), trivial,
          noted.append (good_served false)⟩
      | true =>
        rw [write, if_pos rfl, List.append_cons]
        have unreset : Unreset (driverLog [.observed batch (.ok ()), .wrote .events payload]) :=
          fun _ => List.not_mem_nil
        have reached : piped (log ++ [Entry.observed batch (.ok ())] ++
            [Entry.wrote .events payload]) =
            outputs (currentEpoch (driverLog log)) := by
          rw [List.append_assoc, List.singleton_append, piped_append log unreset, ← read.next]
          change piped log ++ (eventsIn payload ++ []) = _
          rw [eventsIn, decoded, List.append_nil]
        have unmoved : driverLog (log ++ [Entry.observed batch (.ok ())] ++
            [Entry.wrote .events payload]) =
            driverLog log := by
          rw [driverLog_append, driverLog_append]
          exact (List.append_nil _).trans (List.append_nil _)
        refine ⟨⟨?_, ?_, ?_⟩, ⟨read.idle, owner, fun _ => ⟨read.lasting, ?_, ?_, ?_, ?_⟩⟩, ?_⟩
        · rw [unmoved]
          exact read.linked.sound
        · rw [unmoved]
          exact read.linked.versions
        · rw [reached, unmoved]
        · rw [unmoved]
          exact read.epoch
        · rw [unmoved, ← read.next]
          exact counting
        · rw [reached, unmoved]
        · rw [lastStatus_append_singleton, lastStatus_append_singleton]
          exact read.granted
        · refine noted.concat ?_
          change lastStatus (log ++ [Entry.observed batch (.ok ())]) = some [1]
          rw [lastStatus_append_singleton]
          exact read.granted
    · rw [observeBatch_dropped read.owner read.counting.armed clean]
      simp only
      rw [List.append_cons]
      have noted : Runs.Emissions Good (log ++ [Entry.observed batch (.error .sequenceGap)]) :=
        read.good.concat (iff_of_false (fun impossible => by cases impossible) clean)
      exact ⟨(read.linked.note (plain_observed _ _)).note (plain_served false), trivial,
        noted.append (good_served false)⟩

theorem readOutputs_concat (entries : List KbdFilter.Entry) (output : KbdFilter.ReadEvents) :
    readOutputs (entries ++ [KbdFilter.Entry.read output]) =
      readOutputs entries ++ output.events := by
  rw [readOutputs, List.flatMap_append, List.flatMap_singleton]
  rfl

theorem Coupled.readBatch (coupled : Coupled log m) (stage : m.stage = .reading)
    (written : Bool) :
    Coupled (log ++ (ServeClient.readBatch m written).2) (ServeClient.readBatch m written).1 := by
  obtain ⟨inLoop, armed⟩ := coupled.reading stage
  have bound := inLoop.bound armed
  obtain ⟨entries, found⟩ := bound.epoch
  have sound := KbdFilter.step_sound coupled.linked.sound (.readEvents capacity)
  have few : (KbdFilter.readEventsLocked m.driver.capture (m.driver.gCallbackBusy != 0)
      capacity).2.events.length ≤ 128 := by
    have le := coupled.linked.sound.core.intact.count_le
    simp only [KbdFilter.readEventsLocked, RingSlots.length_contents]
    rw [KbdFilter.bpRingCapacity] at le
    split_ifs <;> omega
  have lasting : Lasting (KbdFilter.readEventsLocked m.driver.capture
      (m.driver.gCallbackBusy != 0) capacity).1 := bound.lasting
  unfold ServeClient.readBatch
  rw [step_read inLoop.idle capacity] at sound
  rw [Runs.andThen, request, step_read inLoop.idle capacity]
  generalize KbdFilter.readEventsLocked m.driver.capture (m.driver.gCallbackBusy != 0)
    capacity = after at *
  obtain ⟨capture, output⟩ := after
  have unreset : Unreset [KbdFilter.Entry.read output] := fun _ member => by
    cases List.mem_singleton.mp member
  -- What has been read is the beginning of what has been put into the ring.
  have since : currentEpoch (driverLog (log ++ [Entry.driver (.read output)])) =
      some (m.nonce, entries ++ [KbdFilter.Entry.read output]) := by
    rw [driverLog_append]
    exact (currentEpoch_append (driverLog log) unreset).trans (by rw [found]; rfl)
  have ring := sound.core.ring
  rw [currentEpoch_append _ unreset, found] at ring
  have kept := ring.kept
  have puts : putEvents (entries ++ [KbdFilter.Entry.read output]) = putEvents entries := by
    rw [putEvents_append]
    exact List.append_nil _
  have numbered := ring_numbered ring
  rw [kept, List.map_append] at numbered
  have versions : ∀ event ∈ output.events, event.version = BatchCodec.version := by
    intro event member
    refine coupled.linked.versions m.nonce entries found event ?_
    rw [← puts, kept, readOutputs_concat]
    exact List.mem_append_left _ (List.mem_append_right _ member)
  have decoded := decodeBatch_outputBytes versions few
  have grown : outputs (currentEpoch (driverLog (log ++ [Entry.driver (.read output)]))) =
      outputs (currentEpoch (driverLog log)) ++ output.events.map eventOf := by
    rw [since, found, outputs, outputs, readOutputs_concat, List.map_append]
  have unmoved : piped (log ++ [Entry.driver (.read output)]) = piped log :=
    piped_driver log unreset
  have linked : Linked (log ++ [Entry.driver (.read output)])
      { m.driver with capture := capture } := by
    refine ⟨by rwa [driverLog_append], ?_, ?_⟩
    · intro nonce later same event member
      rw [since] at same
      obtain ⟨rfl, rfl⟩ := Prod.mk.inj (Option.some.inj same)
      rw [puts] at member
      exact coupled.linked.versions m.nonce entries found event member
    · rw [unmoved, grown]
      exact coupled.linked.piped.trans (List.prefix_append _ _)
  have read : Read (log ++ [Entry.driver (.read output)])
      { m.driver with capture := capture } m.state
      m.nonce ⟨UInt32.ofNat output.dropped, output.events.map eventOf⟩ := by
    refine ⟨linked, inLoop.idle, inLoop.owner, lasting, ⟨_, since⟩, ?_, ?_, ?_,
      (lastStatus_driver log [.read output]).trans bound.granted,
      good_driver coupled.good [.read output]⟩
    · rw [unmoved, bound.piped]
      exact bound.counting
    · rw [since]
      exact numbered_of_prefix numbered
    · rw [unmoved, grown, bound.piped]
  have handed := Read.handOn (m := { m with driver := { m.driver with capture := capture } })
    read decoded written
  simp only [decoded, List.map_singleton]
  rw [← List.append_assoc]
  exact handed

-- A nonce that is drawn is not the one under which the driver is armed.
def Fresh (_ : List Entry) (m : Machine) : Action → Prop
  | .message _ _ draws _ _ => ∀ nonce, beginCapture draws = some nonce →
      m.driver.capture.armed = true → nonce ≠ m.driver.capture.nonce
  | _ => True

theorem Coupled.step (coupled : Coupled log m) (action : Action) (fresh : Fresh log m action) :
    Coupled (log ++ (ServeClient.step m action).2) (ServeClient.step m action).1 := by
  have still : Coupled (log ++ []) m := by rwa [List.append_nil]
  cases action with
  | keyboard action =>
    rw [ServeClient.step]
    split_ifs with keyboard
    · exact coupled.keyboard keyboard
    · exact still
  | connected verified =>
    rw [ServeClient.step]
    split_ifs with elsewhere accepted
    · exact still
    · have idle : m.driver.control = .idle := by
        have kept := coupled.kept
        unfold Kept at kept
        rwa [not_not.mp elsewhere] at kept
      exact coupled.restage rfl (.unarmed idle rfl rfl log)
    · exact coupled.restage rfl trivial
  | stop =>
    rw [ServeClient.step]
    split_ifs
    · exact still
    · cases m.state.disconnect client with
      | mk state result =>
        cases result with
        | ok => exact coupled.returned true rfl
        | error => exact coupled.returned false rfl
  | fail =>
    rw [ServeClient.step]
    split_ifs
    · exact coupled.returned false rfl
    · exact still
  | message kind payload draws now written =>
    rw [ServeClient.step]
    split_ifs with elsewhere
    · exact still
    · exact coupled.message (not_not.mp elsewhere) now written kind payload fresh
  | noMessage =>
    rw [ServeClient.step]
    split_ifs with elsewhere
    · exact still
    · exact coupled.restage rfl (coupled.polling (not_not.mp elsewhere))
  | refresh due now =>
    rw [ServeClient.step]
    split_ifs with elsewhere
    · exact still
    · exact coupled.refreshed (not_not.mp elsewhere) due now
  | read written =>
    rw [ServeClient.step]
    split_ifs with elsewhere
    · exact still
    · exact coupled.readBatch (not_not.mp elsewhere) written
  | disarm =>
    rw [ServeClient.step]
    split
    · rename_i stage
      exact coupled.teardown stage _ (by rw [KbdFilter.step]; split <;> rfl)
    · exact still
  | disarmSection =>
    rw [ServeClient.step]
    split
    · rename_i stage
      exact coupled.teardown stage _ (by rw [KbdFilter.step]; split <;> rfl)
    · exact still
  | unfence written =>
    rw [ServeClient.step]
    split
    · rename_i afterwards stage
      split_ifs with busy
      · exact still
      · have torn := coupled.teardown stage .unfence
          (by rw [KbdFilter.step, if_neg busy])
        have idle : (request m .unfence).1.driver.control = .idle := by
          rw [request, KbdFilter.step, if_neg busy]
        rw [Runs.andThen, ← List.append_assoc]
        exact torn.disarmed stage idle true written
    · exact still
  | giveUp =>
    rw [ServeClient.step]
    split
    · rename_i afterwards stage
      split_ifs with busy
      · exact still
      · exact coupled.disarmed stage (not_not.mp busy) false false
    · exact still

theorem coupled_start : Coupled [] .start := by
  refine ⟨⟨KbdFilter.sound_zero, ?_, List.nil_prefix⟩, rfl, Runs.emissions_nil Good⟩
  intro nonce entries found
  cases found

def run (actions : List Action) : Machine × List Entry := Runs.run step .start actions

theorem since_reset {log before after : List Entry} {nonce : UInt64}
    (split : log = before ++ Entry.driver (.reset nonce) :: after)
    (unreset : Unreset (driverLog after)) :
    currentEpoch (driverLog log) = some (nonce, driverLog after) ∧
      piped log = writtenEvents after := by
  rw [split, List.append_cons]
  constructor
  · rw [driverLog_append, currentEpoch_append _ unreset, currentEpoch_reset]
    rfl
  · rw [piped_append _ unreset, piped_reset, List.nil_append]

theorem run_coupled {actions : List Action} (fresh : Runs.Along step Fresh [] .start actions) :
    Coupled (run actions).2 (run actions).1 := by
  have coupled := Runs.run_invariant step Fresh Coupled
    (fun _ _ action coupled fresh => coupled.step action fresh) [] .start actions coupled_start
    fresh
  rwa [List.nil_append] at coupled

-- What the client can rely on, for the stretch since the last reset of the ring.
structure Delivered (m : Machine) (log : List Entry) : Prop where
  -- The events on the pipe are the beginning of those put into the ring.
  written : ∀ before nonce after, log = before ++ Entry.driver (.reset nonce) :: after →
    Unreset (driverLog after) →
      writtenEvents after <+: (putEvents (driverLog after)).map eventOf ∧
        ∀ event ∈ writtenEvents after, event.nonce = nonce
  -- While the client is served, the others are still in the ring.
  kept : ∀ before nonce after, log = before ++ Entry.driver (.reset nonce) :: after →
    Unreset (driverLog after) → m.stage ∈ [.polling, .refreshing, .reading] →
      m.state.armed = true →
      (putEvents (driverLog after)).map eventOf = writtenEvents after ++
        (RingSlots.contents m.driver.capture.events m.driver.capture.head
          m.driver.capture.count).map eventOf
  good : Runs.Emissions Good log

/-- Every stretch between two resets is the stretch since the last reset of a shorter run. -/
theorem run_delivered (actions : List Action)
    (fresh : Runs.Along step Fresh [] .start actions) :
    Delivered (run actions).1 (run actions).2 := by
  have coupled := run_coupled fresh
  generalize (run actions).1 = m at coupled ⊢
  generalize (run actions).2 = log at coupled ⊢
  refine ⟨fun before nonce after split unreset => ?_, ?_, coupled.good⟩
  · obtain ⟨epoch, events⟩ := since_reset split unreset
    have part := coupled.linked.piped
    have ring := coupled.linked.sound.core.ring
    rw [epoch] at part ring
    rw [events, outputs] at part
    have put : (readOutputs (driverLog after)).map eventOf <+:
        (putEvents (driverLog after)).map eventOf := by
      rw [ring.kept]
      exact (List.prefix_append _ _).map eventOf
    refine ⟨part.trans put, fun event member => ?_⟩
    obtain ⟨source, inside, rfl⟩ := List.mem_map.mp ((part.trans put).subset member)
    exact ring.nonces source inside
  · intro before nonce after split unreset serving armed
    obtain ⟨epoch, events⟩ := since_reset split unreset
    have inLoop : InLoop log m.driver m.state m.nonce := by
      rcases List.mem_cons.mp serving with stage | other
      · exact coupled.polling stage
      · rcases List.mem_cons.mp other with stage | other
        · exact coupled.refreshing stage
        · exact (coupled.reading (List.mem_singleton.mp other)).1
    have sent := (inLoop.bound armed).piped
    have ring := coupled.linked.sound.core.ring
    rw [epoch] at sent ring
    rw [ring.kept, List.map_append, ← events, sent]
    rfl

-- Alt goes down while the client is served.
def altDown : List Action :=
  [.connected true, .message .arm [] [0, 7] 0 true,
    .keyboard (.serviceCallback [⟨0x38, 0, 0⟩]), .keyboard (.iterate 1), .keyboard (.iterate 1),
    .keyboard .leave, .refresh false 2, .read true]

theorem run_delivered_altDown :
    (writtenEvents (run altDown).2).map BrokerEvent.makeCode = [0x38] ∧
      Delivered (run altDown).1 (run altDown).2 :=
  ⟨by decide +kernel, run_delivered altDown
    ⟨trivial, fun _ _ armed => absurd armed (by decide), trivial, trivial, trivial, trivial,
      trivial, trivial, trivial⟩⟩

end Steps

end ServeClient

end BetterParsec
