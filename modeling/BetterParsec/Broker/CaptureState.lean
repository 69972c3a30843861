import BetterParsec.Library.Runs

set_option autoImplicit false
set_option linter.all false

/-!
# Ownership of the keyboard capture

`CaptureState` of `input-broker/src/protocol.rs`. One client owns the capture at
a time; it arms it under a nonce, and every batch of events it hands in is
checked against the nonce and the last sequence number.
-/

namespace BetterParsec

structure BrokerEvent where
  kind : UInt16
  sequence : UInt32
  nonce : UInt64
  makeCode : UInt16
  flags : UInt16
  extraInformation : UInt32
  interruptTime100ns : UInt64
  deriving DecidableEq

structure BrokerBatch where
  dropped : UInt32
  events : List BrokerEvent
  deriving DecidableEq

inductive ProtocolError where
  | truncated
  | badMagic
  | versionMismatch
  | unknownKind
  | payloadTooLarge
  | malformedBatch
  | sequenceGap
  | alreadyConnected
  | notOwner
  | notArmed
  | nonceMismatch
  deriving DecidableEq

structure CaptureState where
  owner : Option UInt64
  armed : Bool
  lastSequence : Option UInt32
  nonce : Option UInt64
  deriving DecidableEq

inductive CaptureCall where
  | connect (client : UInt64)
  | arm (client nonce : UInt64)
  | disarm (client : UInt64)
  | disconnect (client : UInt64)
  | failClosed
  | observeBatch (client : UInt64) (batch : BrokerBatch)
  deriving DecidableEq

-- The client that makes a call; the broker itself calls `fail_closed`.
def CaptureCall.client : CaptureCall → Option UInt64
  | .connect client | .arm client _ | .disarm client | .disconnect client
  | .observeBatch client _ => some client
  | .failClosed => none

abbrev CaptureResult := Except ProtocolError Unit

namespace CaptureState

def default : CaptureState := ⟨none, false, none, none⟩

def connect (state : CaptureState) (client : UInt64) : CaptureState × CaptureResult :=
  if state.owner.isSome then (state, .error .alreadyConnected)
  else (⟨some client, false, none, none⟩, .ok ())

-- `require_owner` and then a step that cannot fail.
def asOwner (state : CaptureState) (client : UInt64) (next : CaptureState) :
    CaptureState × CaptureResult :=
  if state.owner = some client then (next, .ok ()) else (state, .error .notOwner)

def arm (state : CaptureState) (client nonce : UInt64) : CaptureState × CaptureResult :=
  state.asOwner client { state with armed := true, lastSequence := none, nonce := some nonce }

def disarm (state : CaptureState) (client : UInt64) : CaptureState × CaptureResult :=
  state.asOwner client { state with armed := false, lastSequence := none, nonce := none }

def disconnect (state : CaptureState) (client : UInt64) : CaptureState × CaptureResult :=
  state.asOwner client ⟨none, false, none, none⟩

def failClosed (state : CaptureState) : CaptureState :=
  { state with armed := false, lastSequence := none, nonce := none }

def isArmed (state : CaptureState) : Bool := state.owner.isSome && state.armed

-- What is wrong with an event after the last one.
def fault (state : CaptureState) (event : BrokerEvent) : Option ProtocolError :=
  if some event.nonce ≠ state.nonce then some .nonceMismatch
  else
    match state.lastSequence with
    | none => if event.sequence ≠ 1 then some .sequenceGap else none
    | some last => if event.sequence ≠ last + 1 then some .sequenceGap else none

-- The loop over the batch; it moves the last sequence before it finds a later fault.
def observeEvents (state : CaptureState) : List BrokerEvent → CaptureState × CaptureResult
  | [] => (state, .ok ())
  | event :: rest =>
      match state.fault event with
      | some error => (state.failClosed, .error error)
      | none => observeEvents { state with lastSequence := some event.sequence } rest

def observeBatch (state : CaptureState) (client : UInt64) (batch : BrokerBatch) :
    CaptureState × CaptureResult :=
  if state.owner ≠ some client then (state, .error .notOwner)
  else if !state.armed then (state, .error .notArmed)
  else if batch.dropped ≠ 0 then (state.failClosed, .error .sequenceGap)
  else state.observeEvents batch.events

def call (state : CaptureState) : CaptureCall → CaptureState × CaptureResult
  | .connect client => state.connect client
  | .arm client nonce => state.arm client nonce
  | .disarm client => state.disarm client
  | .disconnect client => state.disconnect client
  | .failClosed => (state.failClosed, .ok ())
  | .observeBatch client batch => state.observeBatch client batch

def step (state : CaptureState) (input : CaptureCall) :
    CaptureState × List (CaptureCall × CaptureResult) :=
  ((state.call input).1, [(input, (state.call input).2)])

end CaptureState

section Period

-- The nonce of the armed period the calls have led to, and the events of its accepted batches.
abbrev Period := Option (UInt64 × List BrokerEvent)

namespace Period

def next (period : Period) : CaptureCall × CaptureResult → Period
  | (.arm _ nonce, .ok ()) => some (nonce, [])
  | (.disarm _, .ok ()) | (.disconnect _, .ok ()) | (.failClosed, _) => none
  | (.observeBatch _ batch, .ok ()) => period.map fun current => (current.1, current.2 ++ batch.events)
  -- A batch of a client that does not own the capture ends nothing.
  | (.observeBatch _ _, .error error) => if error = .notOwner then period else none
  | (.connect _, _) | (.arm _ _, .error _) | (.disarm _, .error _) | (.disconnect _, .error _) =>
      period

def after (history : List (CaptureCall × CaptureResult)) : Period := history.foldl next none

@[simp] theorem after_append_singleton (history : List (CaptureCall × CaptureResult))
    (entry : CaptureCall × CaptureResult) :
    after (history ++ [entry]) = (after history).next entry := by
  simp [after]

end Period

-- All events carry the nonce, and their sequences count from 1 modulo 2^32.
def Numbered (nonce : UInt64) (events : List BrokerEvent) : Prop :=
  (∀ event ∈ events, event.nonce = nonce) ∧
    events.map (·.sequence) = (List.range events.length).map fun index => UInt32.ofNat (index + 1)

theorem Numbered.concat {nonce : UInt64} {events : List BrokerEvent} {event : BrokerEvent}
    (numbered : Numbered nonce events) (named : event.nonce = nonce)
    (place : event.sequence = UInt32.ofNat (events.length + 1)) :
    Numbered nonce (events ++ [event]) := by
  constructor
  · intro other member
    rcases List.mem_append.mp member with earlier | last
    · exact numbered.1 other earlier
    · rw [List.mem_singleton.mp last]
      exact named
  · rw [List.map_append, numbered.2, List.length_append, List.length_singleton, List.range_succ,
      List.map_append]
    simp [place]

end Period

namespace CaptureState

variable {state : CaptureState}

-- The state inside a period: what the next event of the owner has to be.
structure Counting (nonce : UInt64) (events : List BrokerEvent) (state : CaptureState) : Prop where
  owned : state.owner.isSome
  armed : state.armed = true
  named : state.nonce = some nonce
  last : state.lastSequence =
    if events = [] then none else some (UInt32.ofNat events.length)
  numbered : Numbered nonce events

-- The sequence that has to follow.
def expected : Option UInt32 → UInt32
  | none => 1
  | some last => last + 1

theorem fault_eq (state : CaptureState) (event : BrokerEvent) :
    state.fault event =
      if some event.nonce ≠ state.nonce then some .nonceMismatch
      else if event.sequence ≠ expected state.lastSequence then some .sequenceGap
      else none := by
  unfold fault
  cases state.lastSequence <;> rfl

theorem Counting.expected {nonce : UInt64} {events : List BrokerEvent}
    (counting : Counting nonce events state) :
    expected state.lastSequence = UInt32.ofNat (events.length + 1) := by
  rw [counting.last]
  split_ifs with first
  · rw [first]
    rfl
  · simp [CaptureState.expected, UInt32.ofNat_add]

theorem Counting.observe {nonce : UInt64} {events : List BrokerEvent} {event : BrokerEvent}
    (counting : Counting nonce events state) (sound : state.fault event = none) :
    Counting nonce (events ++ [event]) { state with lastSequence := some event.sequence } := by
  rw [fault_eq] at sound
  split_ifs at sound with other gap
  have named : event.nonce = nonce := by
    rw [counting.named] at other
    simpa using other
  have place : event.sequence = UInt32.ofNat (events.length + 1) :=
    (not_not.mp gap).trans counting.expected
  refine ⟨counting.owned, counting.armed, counting.named, ?_,
    counting.numbered.concat named place⟩
  simp [place]

theorem observeEvents_ok {nonce : UInt64} {events more : List BrokerEvent} {after : CaptureState}
    (counting : Counting nonce events state)
    (observed : state.observeEvents more = (after, .ok ())) :
    Counting nonce (events ++ more) after := by
  induction more generalizing state events with
  | nil =>
    obtain ⟨rfl, -⟩ := Prod.mk.inj observed
    simpa using counting
  | cons event rest ih =>
    unfold observeEvents at observed
    cases sound : state.fault event with
    | some error => simp [sound] at observed
    | none =>
      rw [sound] at observed
      have counted := ih (counting.observe sound) observed
      simpa using counted

theorem observeEvents_error {more : List BrokerEvent} {after : CaptureState}
    {error : ProtocolError} (observed : state.observeEvents more = (after, .error error)) :
    after = state.failClosed ∧ error ≠ .notOwner := by
  induction more generalizing state with
  | nil => simp [observeEvents] at observed
  | cons event rest ih =>
    unfold observeEvents at observed
    cases sound : state.fault event with
    | some found =>
      rw [sound] at observed
      obtain ⟨rfl, same⟩ := Prod.mk.inj observed
      refine ⟨rfl, ?_⟩
      rw [← Except.error.inj same]
      rw [fault_eq] at sound
      split_ifs at sound
      · rw [← Option.some.inj sound]
        decide
      · rw [← Option.some.inj sound]
        decide
    | none =>
      rw [sound] at observed
      have later := ih observed
      exact later

-- A period against the state the calls led to.
def Kept (state : CaptureState) : Period → Prop
  | some (nonce, events) => Counting nonce events state
  | none => state.armed = false

theorem Kept.asOwner {period : Period} (kept : Kept state period) {client : UInt64}
    {next : CaptureState} {entry : CaptureCall} (ends : Period)
    (ok : period.next (entry, .ok ()) = ends)
    (error : ∀ fault, period.next (entry, .error fault) = period)
    (reached : state.owner = some client → Kept next ends) :
    Kept (state.asOwner client next).1 (period.next (entry, (state.asOwner client next).2)) := by
  unfold CaptureState.asOwner
  split_ifs with owns
  · rw [ok]
    exact reached owns
  · rw [error]
    exact kept

theorem Kept.observeBatch {period : Period} (kept : Kept state period) (client : UInt64)
    (batch : BrokerBatch) :
    Kept (state.observeBatch client batch).1
      (period.next (.observeBatch client batch, (state.observeBatch client batch).2)) := by
  unfold CaptureState.observeBatch
  split_ifs with foreign unarmed dropped
  · exact kept
  · simpa [Period.next, Kept] using unarmed
  · simp [Period.next, Kept, failClosed]
  · cases observed : state.observeEvents batch.events with
    | mk after result =>
      cases result with
      | error fault =>
        obtain ⟨rfl, owned⟩ := observeEvents_error observed
        simp [Period.next, Kept, failClosed, owned]
      | ok =>
        cases period with
        | none =>
          have off : state.armed = false := kept
          simp [off] at unarmed
        | some current =>
          have counting : Counting current.1 current.2 state := kept
          exact observeEvents_ok counting observed

theorem Kept.call {period : Period} (kept : Kept state period) (input : CaptureCall) :
    Kept (state.call input).1 (period.next (input, (state.call input).2)) := by
  cases input with
  | connect client =>
    change Kept (state.connect client).1 period
    unfold CaptureState.connect
    split_ifs with owned
    · exact kept
    · cases period with
      | none => rfl
      | some current => exact absurd kept.owned owned
  | arm client nonce =>
    refine kept.asOwner (some (nonce, [])) rfl (fun _ => rfl) fun owns => ?_
    exact ⟨by simp [owns], rfl, rfl, rfl, by simp [Numbered]⟩
  | disarm client => exact kept.asOwner none rfl (fun _ => rfl) fun _ => rfl
  | disconnect client => exact kept.asOwner none rfl (fun _ => rfl) fun _ => rfl
  | failClosed => rfl
  | observeBatch client batch => exact kept.observeBatch client batch

theorem run_kept (calls : List CaptureCall) :
    Kept (Runs.run step default calls).1 (Period.after (Runs.run step default calls).2) := by
  refine Runs.run_invariant_of_forall step (fun history state => Kept state (Period.after history))
    (fun history state input kept => ?_) [] default calls rfl
  rw [CaptureState.step, Period.after_append_singleton]
  exact kept.call input

-- An arm request that was granted.
def grantsArm : CaptureCall × CaptureResult → Bool
  | (.arm _ _, .ok ()) => true
  | _ => false

theorem call_unarmed (unarmed : state.armed = false) (input : CaptureCall)
    (other : grantsArm (input, (state.call input).2) = false) :
    (state.call input).1.armed = false := by
  cases input with
  | connect client =>
    simp only [call, connect]
    split_ifs
    · exact unarmed
    · rfl
  | arm client nonce =>
    simp only [call, arm, asOwner] at other ⊢
    split_ifs at other ⊢
    · simp [grantsArm] at other
    · exact unarmed
  | disarm client =>
    simp only [call, disarm, asOwner]
    split_ifs
    · rfl
    · exact unarmed
  | disconnect client =>
    simp only [call, disconnect, asOwner]
    split_ifs
    · rfl
    · exact unarmed
  | failClosed => rfl
  | observeBatch client batch =>
    simp only [call, observeBatch, unarmed, Bool.not_false, if_true]
    split_ifs <;> exact unarmed

theorem run_unarmed (unarmed : state.armed = false) (calls : List CaptureCall)
    (other : ∀ entry ∈ (Runs.run step state calls).2, grantsArm entry = false) :
    (Runs.run step state calls).1.isArmed = false := by
  induction calls generalizing state with
  | nil => simp [Runs.run, isArmed, unarmed]
  | cons input rest ih =>
    simp only [Runs.run, step, List.mem_append, List.mem_singleton] at other ⊢
    apply ih (call_unarmed unarmed input (other _ (Or.inl rfl)))
    exact fun entry member => other entry (Or.inr member)

theorem observeBatch_error {client : UInt64} {batch : BrokerBatch} {error : ProtocolError}
    (owns : state.owner = some client)
    (refused : (state.observeBatch client batch).2 = .error error) :
    (state.observeBatch client batch).1.armed = false := by
  unfold observeBatch at refused ⊢
  rw [if_neg (not_not.mpr owns)] at refused ⊢
  split_ifs at refused ⊢ with unarmed dropped
  · simpa using unarmed
  · rfl
  · have observed : state.observeEvents batch.events =
        ((state.observeEvents batch.events).1, .error error) := Prod.ext rfl refused
    exact congrArg CaptureState.armed (observeEvents_error observed).1

/-- A call of any other client is refused and changes nothing. -/
theorem call_foreign {owner client : UInt64} (owned : state.owner = some owner)
    (input : CaptureCall) (caller : input.client = some client) (foreign : client ≠ owner) :
    (state.call input).1 = state ∧ ∃ error, (state.call input).2 = .error error := by
  have other : ¬state.owner = some client := by
    rw [owned]
    simpa using foreign.symm
  cases input with
  | connect _ => simp [call, connect, owned]
  | arm _ nonce =>
    obtain rfl := Option.some.inj caller
    simp [call, arm, asOwner, other]
  | disarm _ =>
    obtain rfl := Option.some.inj caller
    simp [call, disarm, asOwner, other]
  | disconnect _ =>
    obtain rfl := Option.some.inj caller
    simp [call, disconnect, asOwner, other]
  | failClosed => simp [CaptureCall.client] at caller
  | observeBatch _ batch =>
    obtain rfl := Option.some.inj caller
    simp [call, observeBatch, other]

/-- After every sequence of calls: the accepted events of the armed period carry its nonce and are
numbered 1, 2, 3, ...; a batch of the owner that is refused leaves the capture unarmed until an arm
request is granted; and the calls of other clients are refused without effect. -/
theorem run_capture_integrity (calls : List CaptureCall) :
    let state := (Runs.run step default calls).1
    (∀ nonce events, Period.after (Runs.run step default calls).2 = some (nonce, events) →
      Numbered nonce events) ∧
    (∀ client batch error, state.owner = some client →
      (state.observeBatch client batch).2 = .error error → ∀ later : List CaptureCall,
        (∀ entry ∈ (Runs.run step (state.observeBatch client batch).1 later).2,
          grantsArm entry = false) →
        (Runs.run step (state.observeBatch client batch).1 later).1.isArmed = false) ∧
    ∀ owner client (input : CaptureCall), state.owner = some owner →
      input.client = some client → client ≠ owner →
        (state.call input).1 = state ∧ ∃ error, (state.call input).2 = .error error := by
  refine ⟨fun nonce events period => ?_, fun client batch error owns refused later other => ?_,
    fun owner client input owned caller foreign => call_foreign owned input caller foreign⟩
  · have kept := run_kept calls
    rw [period] at kept
    exact kept.numbered
  · exact run_unarmed (observeBatch_error owns refused) later other

-- Client 1 is refused a batch and leaves; client 2 connects and arms.
theorem other_client_arms :
    ¬ ∀ (calls later : List CaptureCall) (client : UInt64) (batch : BrokerBatch)
        (error : ProtocolError),
      (Runs.run step default calls).1.owner = some client →
      ((Runs.run step default calls).1.observeBatch client batch).2 = .error error →
      (∀ nonce, .arm client nonce ∉ later) →
      (Runs.run step ((Runs.run step default calls).1.observeBatch client batch).1
        later).1.isArmed = false := by
  intro disarmed
  have unarmed := disarmed [.connect 1] [.disconnect 1, .connect 2, .arm 2 7] 1 ⟨0, []⟩ .notArmed
    (by decide) (by decide) (by simp)
  exact absurd unarmed (by decide)

end CaptureState

end BetterParsec
